import HaBirdie.BinaryRounding
import HaBirdie.BleDecoders
import HaBirdie.FilterLife

/-!
# What the text of a reading says

`parse_known_characteristic` prints temperatures and humidities through a `float`.  The division
by 1000 and the formatting both round, and still what is printed is the exact decimal of the
integer in the payload (`formatThousandths_thousandths`).  So the text of every characteristic
determines its payload, among those of its length (`text_determines_payload`).
-/

namespace Ble.Decoders

open Python BinaryFloats

/-! ## Numerals -/

/-- The digits of a natural number. -/
theorem numeral_natCast (n : Nat) :
    numeral n = (Nat.toDigits 10 n).map fun c => Fin.ofNat 0x110000 c.toNat := by
  show ((toString (n : Int)).toList.map _) = _
  rw [show toString (n : Int) = n.repr from rfl, Nat.toList_repr]

/-- A character is a code point. -/
theorem toNat_lt (c : Char) : c.toNat < 0x110000 := by
  have hvalid : c.toNat < 0xd800 ∨ 0xdfff < c.toNat ∧ c.toNat < 0x110000 := c.valid
  omega

/-- Characters have different code points. -/
theorem codePoint_injective :
    Function.Injective fun c : Char => (Fin.ofNat 0x110000 c.toNat : CodePoint) := by
  intro c d h
  have hval := congrArg Fin.val h
  simp only [Fin.val_ofNat, Nat.mod_eq_of_lt (toNat_lt c), Nat.mod_eq_of_lt (toNat_lt d)] at hval
  exact Char.toNat_inj.mp hval

/-- A numeral of a natural number determines it. -/
theorem numeral_inj {m n : Nat} (h : numeral m = numeral n) : m = n := by
  rw [numeral_natCast, numeral_natCast] at h
  have hdigits := List.map_injective_iff.mpr codePoint_injective h
  rw [← Nat.ofDigitChars_toDigits (n := m) (by decide : 1 < 10) (by decide),
    ← Nat.ofDigitChars_toDigits (n := n) (by decide : 1 < 10) (by decide), hdigits]

/-- A numeral is made of digits. -/
theorem digit_of_mem_numeral {n : Nat} {c : CodePoint} (hc : c ∈ numeral n) :
    0x30 ≤ c.val ∧ c.val ≤ 0x39 := by
  rw [numeral_natCast] at hc
  obtain ⟨d, hd, rfl⟩ := List.mem_map.mp hc
  have hdigit := Char.isDigit_iff_toNat.mp
    (Nat.isDigit_of_mem_toDigits (by decide) (by decide) hd)
  have hlow : 48 ≤ d.toNat := hdigit.1
  have hhigh : d.toNat ≤ 57 := hdigit.2
  rw [Fin.val_ofNat, Nat.mod_eq_of_lt (by omega)]
  omega

/-! ## Thousandths -/

/-- Three decimals. -/
def threeDecimals (n : Nat) : PyStr :=
  List.replicate (3 - (numeral n).length) ⟨0x30, by decide⟩ ++ numeral n

/-- The exact decimal of so many thousandths. -/
def decimalThousandths (n : Int) : PyStr :=
  (if n < 0 then py "-" else []) ++ numeral ((n.natAbs / 1000 : Nat) : Int) ++ py "." ++
    threeDecimals (n.natAbs % 1000)

/-- **The printed float is exact**: neither the division nor the formatting is seen.  The float is
within half a thousandth of the fraction, and the formatting rounds back to it. -/
theorem formatThousandths_thousandths {n : Int} (h : n.natAbs < 2 ^ 50) :
    formatThousandths (thousandths n) = decimalThousandths n := by
  by_cases hn : n = 0
  · subst hn
    decide
  obtain ⟨r, e, hr, _, hunpack, herror⟩ :=
    exists_div_ofInt hn (by decide : (1000 : Int) ≠ 0) (by omega) (by decide)
  have hround : roundHalfEven ((r : ℚ) * 2 ^ e * 1000) = (n.natAbs : Int) := by
    refine roundHalfEven_near ?_
    have hbound : (n.natAbs : ℚ) < 2 ^ 50 := by exact_mod_cast h
    have herror' : |(r : ℚ) * 2 ^ e * 1000 - n.natAbs| * 2 ^ 51 ≤ n.natAbs := by
      simpa using herror
    rw [Int.cast_natCast]
    nlinarith
  have hsign : signText (signOf n / signOf 1000) = if n < 0 then py "-" else [] := by
    unfold signOf
    split <;> rfl
  unfold formatThousandths thousandths
  rw [hunpack]
  dsimp only
  rw [hround, hsign]
  unfold decimalThousandths threeDecimals
  rw [show ((n.natAbs : Int) / 1000) = ((n.natAbs / 1000 : Nat) : Int) by omega,
    show ((n.natAbs : Int) % 1000) = ((n.natAbs % 1000 : Nat) : Int) by omega,
    List.append_assoc]
  rfl

/-! ## Payloads of one length -/

/-- Bytes are a number below the power of 256 that their count gives. -/
theorem fromBytesLe_lt (data : Bytes) : fromBytesLe data < 256 ^ data.length := by
  induction data with
  | nil => decide
  | cons b data ih =>
      have hb : b.toNat < 256 := b.toNat_lt
      rw [fromBytesLe, List.length_cons, Nat.pow_succ]
      omega

/-- Among payloads of one length the number determines the bytes. -/
theorem fromBytesLe_inj {data data' : Bytes} (hlen : data.length = data'.length)
    (h : fromBytesLe data = fromBytesLe data') : data = data' := by
  induction data generalizing data' with
  | nil => exact (List.length_eq_zero_iff.mp hlen.symm).symm
  | cons b data ih =>
      cases data' with
      | nil => exact absurd hlen (by simp)
      | cons b' data' =>
          have hb : b.toNat < 256 := b.toNat_lt
          have hb' : b'.toNat < 256 := b'.toNat_lt
          rw [fromBytesLe, fromBytesLe] at h
          have hfirst : b = b' := UInt8.toNat_inj.mp (by omega)
          have hrest : data = data' := ih (by simpa using hlen) (by omega)
          rw [hfirst, hrest]

/-- With a sign the number is no larger in size. -/
theorem natAbs_fromBytesLeSigned (data : Bytes) :
    (fromBytesLeSigned data).natAbs < 256 ^ data.length := by
  have hlt := fromBytesLe_lt data
  have hcast : ((256 ^ data.length : Nat) : Int) = 256 ^ data.length := by push_cast; rfl
  unfold fromBytesLeSigned
  dsimp only
  rw [← hcast]
  split <;> omega

/-- With a sign it determines the bytes just as well. -/
theorem fromBytesLeSigned_inj {data data' : Bytes} (hlen : data.length = data'.length)
    (h : fromBytesLeSigned data = fromBytesLeSigned data') : data = data' := by
  have hlt := fromBytesLe_lt data
  have hlt' := fromBytesLe_lt data'
  apply fromBytesLe_inj hlen
  unfold fromBytesLeSigned at h
  dsimp only at h
  rw [hlen] at h hlt
  have hcast : ((256 ^ data'.length : Nat) : Int) = 256 ^ data'.length := by push_cast; rfl
  rw [← hcast] at h
  split at h
  · split at h <;> omega
  · split at h <;> omega

/-! ## Texts determine their numbers -/

/-- What is no digit is not in a numeral. -/
theorem not_mem_numeral {n : Nat} {c : CodePoint} (hc : c.val < 0x30 ∨ 0x39 < c.val) :
    c ∉ numeral n := by
  intro hmem
  have := digit_of_mem_numeral hmem
  omega

/-- What comes before the first `c`, and after it. -/
theorem split_at {c : CodePoint} {s t u v : PyStr} (hs : c ∉ s) (ht : c ∉ t)
    (h : s ++ c :: u = t ++ c :: v) : s = t ∧ u = v := by
  have hbefore {x y : PyStr} (hx : c ∉ x) : (x ++ c :: y).takeWhile (· ≠ c) = x := by
    rw [List.takeWhile_append_of_pos]
    · simp
    · intro a ha
      have hne : a ≠ c := fun hac => hx (hac ▸ ha)
      simpa using hne
  have hst : s = t := by
    rw [← @hbefore s u hs, h, hbefore ht]
  subst hst
  exact ⟨rfl, (List.cons.inj (List.append_cancel_left h)).2⟩

/-- Three decimals, with the zeros in front, determine the number below a thousand that they
show. -/
theorem threeDecimals_inj {m n : Nat} (h : threeDecimals m = threeDecimals n) : m = n := by
  have hchars (k : Nat) : ∃ j, threeDecimals k =
      (List.replicate j '0' ++ Nat.toDigits 10 k).map fun c => Fin.ofNat 0x110000 c.toNat := by
    refine ⟨3 - (numeral k).length, ?_⟩
    rw [threeDecimals, List.map_append, List.map_replicate, ← numeral_natCast]
    rfl
  obtain ⟨i, hi⟩ := hchars m
  obtain ⟨j, hj⟩ := hchars n
  rw [hi, hj] at h
  have hdigits := List.map_injective_iff.mpr codePoint_injective h
  have hvalue := congrArg (fun cs => Nat.ofDigitChars 10 cs 0) hdigits
  simpa [Nat.ofDigitChars_append] using hvalue

/-- The part before the point has no point. -/
theorem dot_not_mem_whole (n : Int) (k : Nat) :
    (46 : CodePoint) ∉ (if n < 0 then py "-" else []) ++ numeral (k : Int) := by
  have hsign : (46 : CodePoint) ∉ (if n < 0 then py "-" else []) := by
    split <;> decide
  rw [List.mem_append, not_or]
  exact ⟨hsign, not_mem_numeral (Or.inl (by decide))⟩

/-- A numeral with a sign in front determines both: no numeral of a natural number begins with a
minus. -/
theorem sign_inj {m n : Int} {j k : Nat}
    (h : (if m < 0 then py "-" else []) ++ numeral (j : Int) =
      (if n < 0 then py "-" else []) ++ numeral (k : Int)) : (m < 0 ↔ n < 0) ∧ j = k := by
  have hminus (i : Nat) : (45 : CodePoint) ∉ numeral i := not_mem_numeral (Or.inl (by decide))
  have hpy : py "-" = [(45 : CodePoint)] := by decide
  rw [hpy] at h
  split at h <;> split at h
  · rename_i hm hn
    exact ⟨by omega, numeral_inj (List.append_cancel_left h)⟩
  · exact absurd (h ▸ List.mem_append_left _ (List.mem_singleton_self _)) (by simpa using hminus k)
  · exact absurd (h ▸ List.mem_append_left _ (List.mem_singleton_self _)) (by simpa using hminus j)
  · rename_i hm hn
    exact ⟨by omega, numeral_inj (List.append_cancel_left h)⟩

/-- The exact decimal of a number of thousandths determines that number.  The point separates the
digits before it from the three behind it. -/
theorem decimalThousandths_inj {m n : Int} (h : decimalThousandths m = decimalThousandths n) :
    m = n := by
  unfold decimalThousandths at h
  have hdot : py "." = [(46 : CodePoint)] := by decide
  rw [hdot, List.append_assoc _ [_], List.append_assoc _ [_], List.singleton_append,
    List.singleton_append] at h
  obtain ⟨hwhole, hdecimals⟩ := split_at (dot_not_mem_whole m _) (dot_not_mem_whole n _) h
  obtain ⟨hsign, hthousands⟩ := sign_inj hwhole
  have hrest := threeDecimals_inj hdecimals
  omega

/-- The state is named before its number.  The parenthesis marks where the name ends, so the number
can be read back. -/
theorem birdieState_text_inj {m n : Nat}
    (h : (Reading.birdieState m).text = (Reading.birdieState n).text) : m = n := by
  have hname (k : Nat) : (40 : CodePoint) ∉ birdieStateName k ++ py " " := by
    rw [List.mem_append, not_or]
    refine ⟨?_, by decide⟩
    unfold birdieStateName
    split
    · decide
    · decide
    · decide
    · rw [List.mem_append, not_or]
      exact ⟨by decide, not_mem_numeral (Or.inl (by decide))⟩
  have hparts (k : Nat) : ∃ rest, (Reading.birdieState k).text =
      (birdieStateName k ++ py " ") ++ 40 :: (numeral k ++ 41 :: rest) := by
    refine ⟨py ", CO2 alarm " ++ (if decide ((k : Int) = 1) then py "on" else py "off"), ?_⟩
    have hopen : py " (" = py " " ++ [40] := by decide
    have hclose : py "), CO2 alarm " = 41 :: py ", CO2 alarm " := by decide
    rw [Reading.text, hopen, hclose]
    simp
  obtain ⟨u, hu⟩ := hparts m
  obtain ⟨v, hv⟩ := hparts n
  rw [hu, hv] at h
  have hnumbers := (split_at (hname m) (hname n) h).2
  exact numeral_inj (split_at (not_mem_numeral (Or.inl (by decide)))
    (not_mem_numeral (Or.inl (by decide))) hnumbers).1

/-- A level that is no percentage has no parenthesis in its text.  So the two kinds of text are
never the same. -/
theorem battery_text_inj {m n : Nat}
    (h : (Reading.battery m).text = (Reading.battery n).text) : m = n := by
  have hcases (k : Nat) : (Reading.battery k).text = py "unknown enum " ++ numeral k ∨
      ∃ percent : Nat, (Reading.battery k).text =
        (numeral percent ++ py "% ") ++ 40 :: (py "enum " ++ numeral k ++ py ")") := by
    have hknown : batteryLevelPercent k = none ∨
        ∃ percent : Nat, batteryLevelPercent k = some (percent : Int) := by
      unfold batteryLevelPercent
      split
      · exact Or.inr ⟨100, rfl⟩
      · exact Or.inr ⟨75, rfl⟩
      · exact Or.inr ⟨50, rfl⟩
      · exact Or.inr ⟨25, rfl⟩
      · exact Or.inr ⟨0, rfl⟩
      · exact Or.inl rfl
    rcases hknown with hnone | ⟨percent, hsome⟩
    · exact Or.inl (by simp [Reading.text, hnone])
    · have hopen : py "% (enum " = py "% " ++ 40 :: py "enum " := by decide
      refine Or.inr ⟨percent, ?_⟩
      simp [Reading.text, hsome, hopen]
  have hpercent (k : Nat) : (40 : CodePoint) ∉ numeral k ++ py "% " := by
    rw [List.mem_append, not_or]
    exact ⟨not_mem_numeral (Or.inl (by decide)), by decide⟩
  have hunknown (k : Nat) : (40 : CodePoint) ∉ py "unknown enum " ++ numeral k := by
    rw [List.mem_append, not_or]
    exact ⟨by decide, not_mem_numeral (Or.inl (by decide))⟩
  rcases hcases m with hm | ⟨p, hm⟩
  · rcases hcases n with hn | ⟨q, hn⟩
    · rw [hm, hn] at h
      exact numeral_inj (List.append_cancel_left h)
    · rw [hm, hn] at h
      exact absurd (h ▸ List.mem_append_right _ List.mem_cons_self) (hunknown m)
  · rcases hcases n with hn | ⟨q, hn⟩
    · rw [hm, hn] at h
      exact absurd (h ▸ List.mem_append_right _ List.mem_cons_self) (hunknown n)
    · rw [hm, hn] at h
      have hrest := (split_at (hpercent p) (hpercent q) h).2
      rw [List.append_assoc, List.append_assoc] at hrest
      exact numeral_inj (List.append_cancel_right (List.append_cancel_left hrest))

/-! ## Texts determine their payloads -/

/-- What a parser took had one of its lengths. -/
theorem Takes.length {α : Type} {parse : Bytes → Except Raised α} {lengths : List Nat}
    (h : Takes parse lengths) {data : Bytes} {a : α} (hok : parse data = .ok a) :
    data.length ∈ lengths := by
  rcases h data with ⟨hlen, _⟩ | ⟨_, text, htext⟩
  · exact hlen
  · exact absurd (hok.symm.trans htext) (by simp)

/-- A byte that was read was the whole payload. -/
theorem uint8_ok {data : Bytes} {n : Int} (h : uint8 data = .ok n) :
    ∃ b : UInt8, data = [b] ∧ n = (b.toNat : Nat) := by
  have hlen : data.length = 1 := by simpa using takes_uint8.length h
  obtain ⟨b, rfl⟩ := List.length_eq_one_iff.mp hlen
  exact ⟨b, rfl, (Except.ok.inj h).symm⟩

/-- An integer of two bytes is that of the whole payload. -/
theorem uint16Le_ok {data : Bytes} {n : Int} (h : uint16Le data = .ok n) :
    n = (fromBytesLe data : Nat) := by
  have hlen : data.length = 2 := by simpa using takes_uint16Le.length h
  unfold uint16Le at h
  rw [ensureLength_of_length hlen] at h
  exact (Except.ok.inj h).symm

/-- A version that was read is that of the three bytes of the payload. -/
theorem parseVersion_ok {data : Bytes} {text : PyStr} (h : parseVersion data = .ok text) :
    ∃ major minor patch : UInt8, data = [major, minor, patch] ∧
      text = numeral (major.toNat : Nat) ++ py "." ++ numeral (minor.toNat : Nat) ++ py "." ++
        numeral (patch.toNat : Nat) := by
  have hlen : data.length = 3 := by simpa using takes_parseVersion.length h
  obtain ⟨major, minor, patch, rfl⟩ := List.length_eq_three.mp hlen
  exact ⟨major, minor, patch, rfl, (Except.ok.inj h).symm⟩

/-- A temperature or a humidity is printed exactly.  Two or four bytes hold less than the fifty
bits for which this is true. -/
theorem thousandths_text {two four : Bytes → Except Raised Int} {value : Bytes → Int}
    (htwo : ∀ data : Bytes, data.length = 2 → two data = .ok (value data))
    (hfour : ∀ data : Bytes, data.length = 4 → four data = .ok (value data))
    (hvalue : ∀ data, (value data).natAbs < 256 ^ data.length) {data : Bytes}
    (hlen : data.length = 2 ∨ data.length = 4) :
    ∃ x, parseThousandths two four data = .ok x ∧
      formatThousandths x = decimalThousandths (value data) := by
  have hbound : (value data).natAbs < 2 ^ 50 := by
    have hlt := hvalue data
    have hpow : 256 ^ data.length ≤ 256 ^ 4 := Nat.pow_le_pow_right (by decide) (by omega)
    omega
  refine ⟨thousandths (value data), ?_, formatThousandths_thousandths hbound⟩
  unfold parseThousandths
  rcases hlen with h2 | h4
  · rw [if_pos h2, htwo data h2]
    rfl
  · rw [if_neg (by omega), if_pos h4, hfour data h4]
    rfl

/-- The text of a temperature is the exact decimal of the integer in the payload.  The float in
between is rounded twice, at the division and when it is printed, and neither changes what is
shown. -/
theorem temperature_text {data : Bytes} (hlen : data.length = 2 ∨ data.length = 4) :
    ∃ x, parseTemperatureCelsius data = .ok x ∧
      formatThousandths x = decimalThousandths (fromBytesLeSigned data) :=
  thousandths_text (fun _ h => by rw [int16Le, ensureLength_of_length h]; rfl)
    (fun _ h => by rw [int32Le, ensureLength_of_length h]; rfl) natAbs_fromBytesLeSigned hlen

/-- So is the text of a humidity. -/
theorem humidity_text {data : Bytes} (hlen : data.length = 2 ∨ data.length = 4) :
    ∃ x, parseHumidityPercent data = .ok x ∧
      formatThousandths x = decimalThousandths (fromBytesLe data : Nat) :=
  @thousandths_text _ _ (fun data => (fromBytesLe data : Nat))
    (fun _ h => by rw [uint16Le, ensureLength_of_length h]; rfl)
    (fun _ h => by rw [uint32Le, ensureLength_of_length h]; rfl)
    (fun data => by simpa using fromBytesLe_lt data) _ hlen

/-- The text of a version determines its payload, since the dots separate the three numerals. -/
theorem version_text_inj {data data' : Bytes} {text : PyStr} (h : parseVersion data = .ok text)
    (h' : parseVersion data' = .ok text) : data = data' := by
  obtain ⟨a, b, c, rfl, htext⟩ := parseVersion_ok h
  obtain ⟨a', b', c', rfl, htext'⟩ := parseVersion_ok h'
  have hdot : py "." = [(46 : CodePoint)] := by decide
  have hnone (n : Nat) : (46 : CodePoint) ∉ numeral n := not_mem_numeral (Or.inl (by decide))
  rw [htext, hdot, List.append_assoc _ _ (numeral _), List.append_assoc, List.append_assoc,
    List.append_assoc _ _ (numeral _), List.append_assoc, List.append_assoc] at htext'
  obtain ⟨hmajor, hrest⟩ := split_at (hnone _) (hnone _) htext'
  obtain ⟨hminor, hpatch⟩ := split_at (hnone _) (hnone _) hrest
  rw [UInt8.toNat_inj.mp (numeral_inj hmajor), UInt8.toNat_inj.mp (numeral_inj hminor),
    UInt8.toNat_inj.mp (numeral_inj hpatch)]

/-- A text that determines the byte determines the payload. -/
theorem byte_inj {data data' : Bytes} {f : Nat → PyStr} (hf : Function.Injective f) {n n' : Int}
    (h : uint8 data = .ok n) (h' : uint8 data' = .ok n')
    (htext : ∀ m m' : Nat, n = m → n' = m' → f m = f m') : data = data' := by
  obtain ⟨b, rfl, hb⟩ := uint8_ok h
  obtain ⟨b', rfl, hb'⟩ := uint8_ok h'
  rw [UInt8.toNat_inj.mp (hf (htext _ _ hb hb'))]

/-- Payloads of one length whose readings have the same text are the same.  The argument goes back
from the text to the value and from there to the bytes. -/
theorem read_text_inj {c : Characteristic} {data data' : Bytes} {r r' : Reading}
    (hr : read c data = .ok r) (hr' : read c data' = .ok r') (hlen : data.length = data'.length)
    (htext : r.text = r'.text) : data = data' := by
  have hppm {n n' : Int} (hn : uint16Le data = .ok n) (hn' : uint16Le data' = .ok n')
      (h : numeral n ++ py " ppm" = numeral n' ++ py " ppm") : data = data' := by
    rw [uint16Le_ok hn, uint16Le_ok hn'] at h
    exact fromBytesLe_inj hlen (numeral_inj (List.append_cancel_right h))
  have hdegC {x x' : Float} (hx : parseTemperatureCelsius data = .ok x)
      (hx' : parseTemperatureCelsius data' = .ok x')
      (h : formatThousandths x ++ py " deg C" = formatThousandths x' ++ py " deg C") :
      data = data' := by
    have hlen2 : data.length = 2 ∨ data.length = 4 := by
      simpa using (takes_parseThousandths takes_int16Le takes_int32Le).length hx
    obtain ⟨y, hy, hty⟩ := temperature_text hlen2
    obtain ⟨y', hy', hty'⟩ := temperature_text (hlen ▸ hlen2)
    obtain rfl := Except.ok.inj (hx.symm.trans hy)
    obtain rfl := Except.ok.inj (hx'.symm.trans hy')
    rw [hty, hty'] at h
    exact fromBytesLeSigned_inj hlen (decimalThousandths_inj (List.append_cancel_right h))
  have hRH {x x' : Float} (hx : parseHumidityPercent data = .ok x)
      (hx' : parseHumidityPercent data' = .ok x')
      (h : formatThousandths x ++ py " %RH" = formatThousandths x' ++ py " %RH") :
      data = data' := by
    have hlen2 : data.length = 2 ∨ data.length = 4 := by
      simpa using (takes_parseThousandths takes_uint16Le takes_uint32Le).length hx
    obtain ⟨y, hy, hty⟩ := humidity_text hlen2
    obtain ⟨y', hy', hty'⟩ := humidity_text (hlen ▸ hlen2)
    obtain rfl := Except.ok.inj (hx.symm.trans hy)
    obtain rfl := Except.ok.inj (hx'.symm.trans hy')
    rw [hty, hty'] at h
    have hvalue := decimalThousandths_inj (List.append_cancel_right h)
    exact fromBytesLe_inj hlen (by omega)
  cases c <;> obtain ⟨a, ha, rfl⟩ := map_ok hr <;> obtain ⟨a', ha', rfl⟩ := map_ok hr'
  case co2 => exact hppm ha ha' htext
  case legacyTemperature => exact hdegC ha ha' htext
  case temperature => exact hdegC ha ha' htext
  case legacyHumidity => exact hRH ha ha' htext
  case humidity => exact hRH ha ha' htext
  case birdieState =>
    exact byte_inj (fun _ _ => birdieState_text_inj) ha ha' fun m m' hm hm' => hm ▸ hm' ▸ htext
  case batteryLevel =>
    exact byte_inj (fun _ _ => battery_text_inj) ha ha' fun m m' hm hm' => hm ▸ hm' ▸ htext
  case iaqCo2Threshold => exact hppm ha ha' htext
  case coolDownPeriod =>
    exact byte_inj (fun _ _ => numeral_inj) ha ha' fun m m' hm hm' =>
      hm ▸ hm' ▸ List.append_cancel_right htext
  case firmwareRevision =>
    obtain rfl : a = a' := htext
    exact version_text_inj ha ha'
  case hardwareVersion =>
    obtain rfl : a = a' := htext
    exact version_text_inj ha ha'

/-- **What is printed is what was sent.**  For every characteristic, however its UUID is written:
the text determines the payload among those of its length; and a temperature or a humidity is
printed as the exact decimal of the integer in the payload, although a `float` is divided and
rounded on the way. -/
theorem text_determines_payload {beyond : PyStr → Nat → PyStr} {s : PyStr} {c : Characteristic}
    (h : lower beyond s = uuidOf c) :
    (∀ (data data' : Bytes) (text : PyStr), data.length = data'.length →
      parseKnownCharacteristic beyond s data = .ok text →
      parseKnownCharacteristic beyond s data' = .ok text → data = data') ∧
    (temperatureUuids.contains (uuidOf c) = true →
      ∀ data : Bytes, data.length = 2 ∨ data.length = 4 →
        parseKnownCharacteristic beyond s data =
          .ok (decimalThousandths (fromBytesLeSigned data) ++ py " deg C")) ∧
    (humidityUuids.contains (uuidOf c) = true →
      ∀ data : Bytes, data.length = 2 ∨ data.length = 4 →
        parseKnownCharacteristic beyond s data =
          .ok (decimalThousandths (fromBytesLe data : Nat) ++ py " %RH")) := by
  refine ⟨?_, ?_, ?_⟩
  · intro data data' text hlen hdata hdata'
    rw [parseKnownCharacteristic_known h] at hdata hdata'
    obtain ⟨r, hr, rfl⟩ := map_ok hdata
    obtain ⟨r', hr', htext⟩ := map_ok hdata'
    exact read_text_inj hr hr' hlen htext.symm
  · intro hc data hlen
    obtain ⟨x, hx, htext⟩ := temperature_text hlen
    rw [parseKnownCharacteristic_known h, ← htext]
    have hkinds : c = .legacyTemperature ∨ c = .temperature := by
      simpa [temperatureUuids, uuidOf_inj] using hc
    rcases hkinds with rfl | rfl
    · simp [read, hx, Reading.text]
    · simp [read, hx, Reading.text]
  · intro hc data hlen
    obtain ⟨x, hx, htext⟩ := humidity_text hlen
    rw [parseKnownCharacteristic_known h, ← htext]
    have hkinds : c = .legacyHumidity ∨ c = .humidity := by
      simpa [humidityUuids, uuidOf_inj] using hc
    rcases hkinds with rfl | rfl
    · simp [read, hx, Reading.text]
    · simp [read, hx, Reading.text]

/-- 200 thousandths below zero: the text is that of this payload, and of no other one of two
bytes. -/
theorem text_determines_payload_frost :
    parseKnownCharacteristic (fun _ _ => []) (py "0B91651C-CADB-490C-92CA-45CC8F40F1C9")
        [0x38, 0xff] = .ok (py "-0.200" ++ py " deg C") ∧
      ∀ data : Bytes, data.length = 2 →
        parseKnownCharacteristic (fun _ _ => []) (py "0B91651C-CADB-490C-92CA-45CC8F40F1C9") data =
          .ok (py "-0.200 deg C") → data = [0x38, 0xff] := by
  have huuid : lower (fun _ _ => []) (py "0B91651C-CADB-490C-92CA-45CC8F40F1C9") =
      uuidOf .temperature := by
    decide
  obtain ⟨hinj, htemperature, -⟩ := text_determines_payload huuid
  have hfrost := htemperature (by decide) [0x38, 0xff] (Or.inl rfl)
  have htext : decimalThousandths (fromBytesLeSigned [0x38, 0xff]) = py "-0.200" := by
    decide
  rw [htext] at hfrost
  exact ⟨hfrost, fun data hlen hdata => hinj data _ _ hlen hdata hfrost⟩

end Ble.Decoders
