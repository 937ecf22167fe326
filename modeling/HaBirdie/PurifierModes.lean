import HaBirdie.PurifierDecoding

/-!
# Mode values and the values that commands write

`_decode_mode` reads the speed of a manual mode with `isdigit` and `int`, `fan_speed_dps` writes
it in one way only.  So a speed that is spelled otherwise, with leading zeros or in digits of
another script, decodes to a mode that no command writes, and digits that `int` refuses raise.

Everywhere else decoding is the inverse of encoding (`decodeMode_inverse_iff`).
-/

namespace Purifier

open Python

/-! ## What the commands write -/

/-- `fan_speed_dps` accepts the speed and writes the value to the mode DP. -/
def EncodesSpeed (value : Json) (speed : Int) : Prop :=
  ∃ dps, fanSpeedDps (.int speed) = .ok dps ∧ dps.lookup dpMode = some value

/-- `mode_dps` accepts the preset and writes the value to the mode DP. -/
def EncodesPreset (value : Json) (preset : PyStr) : Prop :=
  ∃ dps, modeDps preset = .ok dps ∧ dps.lookup dpMode = some value

/-- Decoding is the inverse of encoding at this value. -/
structure ModeInverse (value : Json) : Prop where
  manual : ∀ speed : Int,
    decodeMode value = .ok (some .manual, some speed) ↔ EncodesSpeed value speed
  preset : ∀ p ∈ presetModes,
    decodeMode value = .ok (some p.2, none) ↔ EncodesPreset value p.1
  other : (∀ speed, ¬ EncodesSpeed value speed) → (∀ preset, ¬ EncodesPreset value preset) →
    decodeMode value = .ok (none, none)

/-- The speeds as `fan_speed_dps` writes them. -/
def writtenSpeeds : List PyStr := [py "1", py "2", py "3", py "4"]

/-- Another spelling of a speed: zeros and a digit from 1 to 4, each in any script. -/
def respelled (suffix : PyStr) : Bool :=
  match suffix.reverse with
  | [] => false
  | c :: zeros =>
      zeros.all (fun z => decimal? z == some 0) &&
        (decimal? c).any (fun d => decide (1 ≤ d ∧ d ≤ 4)) && !writtenSpeeds.contains suffix

/-- `manual` and another spelling of a speed. -/
def respelledSpeed : Json → Bool
  | .str s => modeManual.isPrefixOf s && respelled (s.drop modeManual.length)
  | _ => false

/-- A speed, if the value has one, is spelled as it is written. -/
structure AsWritten (value : Json) : Prop where
  readable : unreadableSpeed value = false
  spelling : respelledSpeed value = false

/-! ## Digits -/

/-- The number that decimal digits spell. -/
def digitsValue (s : PyStr) : Nat := s.foldl (fun n c => 10 * n + (decimal? c).getD 0) 0

/-- One more digit is ten times the value, and the digit. -/
theorem digitsValue_concat (s : PyStr) (c : CodePoint) :
    digitsValue (s ++ [c]) = 10 * digitsValue s + (decimal? c).getD 0 := by
  simp [digitsValue, List.foldl_append]

/-- What `int` returns for a string. -/
theorem intOfStr_ok {s : PyStr} {n : Int} :
    intOfStr s = .ok n ↔ intRefuses s = false ∧ n = digitsValue s := by
  unfold intOfStr
  cases intRefuses s with
  | true => simp
  | false => simp [digitsValue, eq_comm]

/-- Only zeros spell zero.  By induction from the end, because the value of a numeral is read from
the left. -/
theorem zeros_of_digitsValue {s : PyStr} (hdecimal : ∀ c ∈ s, (decimal? c).isSome = true)
    (hzero : digitsValue s = 0) : ∀ c ∈ s, decimal? c = some 0 := by
  induction s using List.reverseRecOn with
  | nil => simp
  | append_singleton s c ih =>
      rw [digitsValue_concat] at hzero
      obtain ⟨d, hd⟩ := Option.isSome_iff_exists.mp (hdecimal c (by simp))
      rw [hd] at hzero
      simp only [Option.getD_some] at hzero
      intro x hx
      rcases List.mem_append.mp hx with hx | hx
      · exact ih (fun c hc => hdecimal c (List.mem_append_left _ hc)) (by omega) x hx
      · obtain rfl := List.mem_singleton.mp hx
        rw [hd]
        congr 1
        omega

/-- Zeros spell zero. -/
theorem digitsValue_zeros {s : PyStr} (h : ∀ c ∈ s, decimal? c = some 0) : digitsValue s = 0 := by
  induction s using List.reverseRecOn with
  | nil => rfl
  | append_singleton s c ih =>
      rw [digitsValue_concat, ih fun x hx => h x (List.mem_append_left _ hx), h c (by simp)]
      rfl

/-- A speed is spelled by zeros and a digit.  The digit is in 1 to 4, and any decimal digit of
Unicode will do. -/
theorem speed_spelling {s : PyStr} {n : Int} (h : intOfStr s = .ok n) (hmin : fanSpeedMin ≤ n)
    (hmax : n ≤ fanSpeedMax) :
    ∃ zeros c d, s = zeros ++ [c] ∧ (∀ z ∈ zeros, decimal? z = some 0) ∧
      decimal? c = some d ∧ n = d ∧ 1 ≤ d ∧ d ≤ 4 := by
  obtain ⟨hrefuses, rfl⟩ := intOfStr_ok.mp h
  unfold fanSpeedMin at hmin
  unfold fanSpeedMax at hmax
  simp only [intRefuses, Bool.or_eq_false_iff, List.any_eq_false,
    Option.isNone_iff_eq_none] at hrefuses
  have hdecimal : ∀ c ∈ s, (decimal? c).isSome = true := by
    intro c hc
    exact Option.isSome_iff_ne_none.mpr (hrefuses.1 c hc)
  rcases List.eq_nil_or_concat s with rfl | ⟨zeros, c, rfl⟩
  · simp [digitsValue] at hmin
  · rw [List.concat_eq_append, digitsValue_concat] at *
    obtain ⟨d, hd⟩ := Option.isSome_iff_exists.mp (hdecimal c (by simp))
    rw [hd] at hmin hmax ⊢
    simp only [Option.getD_some] at hmin hmax ⊢
    have hzero : digitsValue zeros = 0 := by omega
    refine ⟨zeros, c, d, rfl, ?_, hd, by omega, by omega, by omega⟩
    exact zeros_of_digitsValue (fun c hc => hdecimal c (List.mem_append_left _ hc)) hzero

/-- A respelled speed is spelled so too. -/
theorem respelled_spelling {s : PyStr} (h : respelled s = true) :
    ∃ zeros c d, s = zeros ++ [c] ∧ (∀ z ∈ zeros, decimal? z = some 0) ∧
      decimal? c = some d ∧ 1 ≤ d ∧ d ≤ 4 := by
  rcases List.eq_nil_or_concat s with rfl | ⟨zeros, c, rfl⟩
  · exact absurd h (by simp [respelled])
  · rw [List.concat_eq_append] at h ⊢
    simp only [respelled, List.reverse_concat, List.all_reverse, Bool.and_eq_true,
      List.all_eq_true, beq_iff_eq, Option.any_eq_true, decide_eq_true_eq] at h
    obtain ⟨⟨hzeros, d, hd, h1, h4⟩, _⟩ := h
    exact ⟨zeros, c, d, rfl, hzeros, hd, h1, h4⟩

/-- A speed that is not respelled is spelled as `fan_speed_dps` writes it. -/
theorem written_of_not_respelled {s : PyStr} {n : Int} (h : intOfStr s = .ok n)
    (hmin : fanSpeedMin ≤ n) (hmax : n ≤ fanSpeedMax) (hrespelled : respelled s = false) :
    s = numeral n := by
  have hwritten : s ∈ writtenSpeeds := by
    obtain ⟨zeros, c, d, rfl, hzeros, hd, _, h1, h4⟩ := speed_spelling h hmin hmax
    have hall : (zeros.all fun z => decimal? z == some 0) = true := by
      simpa using hzeros
    simpa [respelled, hd, h1, h4, hall] using hrespelled
  have hvalue : ∀ t ∈ writtenSpeeds, t = numeral (digitsValue t) := by decide
  obtain ⟨_, rfl⟩ := intOfStr_ok.mp h
  exact hvalue s hwritten

/-! ## Decoding, branch by branch -/

/-- What `_decode_mode` can return, and for which values. -/
inductive Decodes : Json → Option Mode × Option Int → Prop
  | preset {s : PyStr} {mode : Mode} (hp : (s, mode) ∈ presetModes) :
      Decodes (.str s) (some mode, none)
  | speed {suffix : PyStr} {n : Int} (hdigits : isdigit suffix = true)
      (hint : intOfStr suffix = .ok n) (hmin : fanSpeedMin ≤ n) (hmax : n ≤ fanSpeedMax) :
      Decodes (.str (modeManual ++ suffix)) (some .manual, some n)
  | unknown {value : Json} : Decodes value (none, none)

/-- A known text is one of the table. -/
theorem mem_presetModes {s : PyStr} {mode : Mode} (h : presetModes.lookup s = some mode) :
    (s, mode) ∈ presetModes := by
  obtain ⟨before, after, heq, _⟩ := List.lookup_eq_some_iff.mp h
  rw [heq]
  simp

/-- These are all.  The cases are the branches of `decode_mode` in their order. -/
theorem decodes_of_decodeMode {value : Json} {r : Option Mode × Option Int}
    (h : decodeMode value = .ok r) : Decodes value r := by
  unfold decodeMode at h
  split at h
  · rename_i preset hknown
    obtain rfl := Except.ok.inj h
    cases value with
    | str s =>
        exact .preset (mem_presetModes hknown)
    | _ => exact absurd hknown (by simp [known])
  · split at h
    · split at h
      · rename_i s hmanual
        dsimp only at h
        split at h
        · rename_i hdigits
          obtain ⟨n, hint, h⟩ := ok_bind.mp h
          split at h
          · rename_i hrange
            obtain rfl := Except.ok.inj h
            obtain ⟨suffix, rfl⟩ := List.isPrefixOf_iff_prefix.mp hmanual
            rw [List.drop_left] at hdigits hint
            exact .speed hdigits hint hrange.1 hrange.2
          · obtain rfl := Except.ok.inj h
            exact .unknown
        · obtain rfl := Except.ok.inj h
          exact .unknown
      · obtain rfl := Except.ok.inj h
        exact .unknown
    · obtain rfl := Except.ok.inj h
      exact .unknown

/-- The name of a preset decodes to it, without a speed. -/
theorem decodeMode_preset {p : PyStr × Mode} (hp : p ∈ presetModes) :
    decodeMode (.str p.1) = .ok (some p.2, none) := by
  have hall : ∀ p ∈ presetModes, known (.str p.1) presetModes = some p.2 := by decide
  unfold decodeMode
  rw [hall p hp]

/-- After `manual` any text of digits decodes to its value, if that is one of the speeds: so a zero
in front is no hindrance. -/
theorem decodeMode_speed {suffix : PyStr} {n : Int} (hdigits : isdigit suffix = true)
    (hint : intOfStr suffix = .ok n) (hmin : fanSpeedMin ≤ n) (hmax : n ≤ fanSpeedMax) :
    decodeMode (.str (modeManual ++ suffix)) = .ok (some .manual, some n) := by
  have hmanual : modeManual.isPrefixOf (modeManual ++ suffix) = true :=
    List.isPrefixOf_iff_prefix.mpr (List.prefix_append _ _)
  unfold decodeMode
  rw [known_presetModes_of_manual hmanual]
  dsimp only
  rw [if_pos hmanual, List.drop_left, if_pos hdigits, hint]
  exact if_pos ⟨hmin, hmax⟩

/-! ## Encoding -/

/-- A speed is encoded as `manual` with its numeral, and as nothing else.  A speed out of range is
refused. -/
theorem encodesSpeed_iff {value : Json} {n : Int} :
    EncodesSpeed value n ↔
      (fanSpeedMin ≤ n ∧ n ≤ fanSpeedMax) ∧ value = .str (modeManual ++ numeral n) := by
  unfold EncodesSpeed fanSpeedDps
  dsimp only
  split
  · rename_i hrange
    constructor
    · intro hparts
      obtain ⟨dps, hdps, hvalue⟩ := hparts
      obtain rfl := Except.ok.inj hdps
      rw [AList.lookup_insert] at hvalue
      exact ⟨hrange, (Option.some.inj hvalue).symm⟩
    · intro hparts
      obtain ⟨_, rfl⟩ := hparts
      exact ⟨_, rfl, AList.lookup_insert _⟩
  · rename_i hrange
    constructor
    · intro hparts
      obtain ⟨dps, hdps, _⟩ := hparts
      exact absurd hdps (by simp)
    · intro hparts
      obtain ⟨h, _⟩ := hparts
      exact absurd h hrange

/-- A preset is encoded as its name, which has to be one of the preset modes. -/
theorem encodesPreset_iff {value : Json} {preset : PyStr} :
    EncodesPreset value preset ↔
      (∃ mode, (preset, mode) ∈ presetModes) ∧ value = .str preset := by
  unfold EncodesPreset modeDps
  cases hlookup : presetModes.lookup preset with
  | some mode =>
      have hmem := mem_presetModes hlookup
      constructor
      · intro hparts
        obtain ⟨dps, hdps, hvalue⟩ := hparts
        obtain rfl := Except.ok.inj hdps
        rw [AList.lookup_insert] at hvalue
        exact ⟨⟨mode, hmem⟩, (Option.some.inj hvalue).symm⟩
      · intro hparts
        obtain ⟨_, rfl⟩ := hparts
        exact ⟨_, rfl, AList.lookup_insert _⟩
  | none =>
      constructor
      · intro hparts
        obtain ⟨dps, hdps, _⟩ := hparts
        exact absurd hdps (by simp)
      · intro hparts
        obtain ⟨⟨mode, hmem⟩, _⟩ := hparts
        have hsome : ∀ p ∈ presetModes, presetModes.lookup p.1 = some p.2 := by decide
        exact absurd (hlookup.symm.trans (hsome _ hmem)) (by simp)

/-- What `fan_speed_dps` writes is read back. -/
theorem decodeMode_numeral {n : Int} (hmin : fanSpeedMin ≤ n) (hmax : n ≤ fanSpeedMax) :
    decodeMode (.str (modeManual ++ numeral n)) = .ok (some .manual, some n) := by
  unfold fanSpeedMin at hmin
  unfold fanSpeedMax at hmax
  have hcases : n = 1 ∨ n = 2 ∨ n = 3 ∨ n = 4 := by omega
  have hread : isdigit (numeral n) = true ∧ intOfStr (numeral n) = .ok n := by
    rcases hcases with rfl | rfl | rfl | rfl <;> decide
  exact decodeMode_speed hread.1 hread.2 hmin hmax

/-! ## The inverse -/

/-- A preset is spelled as it is written. -/
theorem asWritten_preset {p : PyStr × Mode} (hp : p ∈ presetModes) : AsWritten (.str p.1) := by
  have hall : ∀ p ∈ presetModes, unreadableSpeed (.str p.1) = false ∧
      respelledSpeed (.str p.1) = false := by decide
  exact ⟨(hall p hp).1, (hall p hp).2⟩

/-- A decoded speed whose spelling is the written one. -/
theorem encodes_of_speed {suffix : PyStr} {n : Int} (hint : intOfStr suffix = .ok n)
    (hmin : fanSpeedMin ≤ n) (hmax : n ≤ fanSpeedMax)
    (hspelling : respelledSpeed (.str (modeManual ++ suffix)) = false) :
    suffix = numeral n := by
  have hmanual : modeManual.isPrefixOf (modeManual ++ suffix) = true :=
    List.isPrefixOf_iff_prefix.mpr (List.prefix_append _ _)
  simp only [respelledSpeed, hmanual, List.drop_left, Bool.true_and] at hspelling
  exact written_of_not_respelled hint hmin hmax hspelling

/-- Presets have one text each. -/
theorem presetModes_injective :
    ∀ p ∈ presetModes, ∀ q ∈ presetModes, q.2 = p.2 → q.1 = p.1 := by decide

/-- At a value that is spelled as written, decoding is the inverse of encoding.  Such a value is a
preset, a speed as `fan_speed_dps` writes it, or no mode at all. -/
theorem ModeInverse.of_asWritten {value : Json} (h : AsWritten value) : ModeInverse value := by
  refine { manual := ?manual, preset := ?preset, other := ?other }
  case manual =>
    intro n
    rw [encodesSpeed_iff]
    constructor
    · intro hdecode
      cases decodes_of_decodeMode hdecode with
      | speed hdigits hint hmin hmax =>
          rw [encodes_of_speed hint hmin hmax h.spelling]
          exact ⟨⟨hmin, hmax⟩, rfl⟩
    · intro hparts
      obtain ⟨⟨hmin, hmax⟩, rfl⟩ := hparts
      exact decodeMode_numeral hmin hmax
  case preset =>
    intro hparts hp
    obtain ⟨preset, mode⟩ := hparts
    rw [encodesPreset_iff]
    constructor
    · intro hdecode
      cases decodes_of_decodeMode hdecode with
      | preset hq =>
          have hsame := presetModes_injective _ hp _ hq rfl
          exact ⟨⟨mode, hp⟩, congrArg Json.str hsame⟩
    · intro hparts
      obtain ⟨_, rfl⟩ := hparts
      exact decodeMode_preset hp
  case other =>
    intro hspeed hpreset
    obtain ⟨r, hr⟩ := isOk_iff.mp ((decodeMode_isOk value).mpr h.readable)
    cases decodes_of_decodeMode hr with
    | @preset preset mode hp =>
        exact absurd (encodesPreset_iff.mpr ⟨⟨mode, hp⟩, rfl⟩) (hpreset preset)
    | @speed suffix n hdigits hint hmin hmax =>
        rw [encodes_of_speed hint hmin hmax h.spelling] at hspeed
        exact absurd (encodesSpeed_iff.mpr ⟨⟨hmin, hmax⟩, rfl⟩) (hspeed n)
    | unknown => exact hr

/-- What the commands write is spelled as written. -/
theorem asWritten_numeral {n : Int} (hmin : fanSpeedMin ≤ n) (hmax : n ≤ fanSpeedMax) :
    AsWritten (.str (modeManual ++ numeral n)) := by
  unfold fanSpeedMin at hmin
  unfold fanSpeedMax at hmax
  have hcases : n = 1 ∨ n = 2 ∨ n = 3 ∨ n = 4 := by omega
  have hall : unreadableSpeed (.str (modeManual ++ numeral n)) = false ∧
      respelledSpeed (.str (modeManual ++ numeral n)) = false := by
    rcases hcases with rfl | rfl | rfl | rfl <;> decide
  exact ⟨hall.1, hall.2⟩

/-- A respelled speed that `int` reads is a speed.  Here decoding accepts more than is ever
encoded. -/
theorem decodeMode_respelled {value : Json} (hread : unreadableSpeed value = false)
    (hspelled : respelledSpeed value = true) :
    ∃ n, decodeMode value = .ok (some .manual, some n) := by
  cases value with
  | str s =>
      obtain ⟨hmanual, hspelling⟩ := (Bool.and_eq_true _ _).mp hspelled
      obtain ⟨suffix, rfl⟩ := List.isPrefixOf_iff_prefix.mp hmanual
      rw [List.drop_left] at hspelling
      obtain ⟨zeros, c, d, rfl, hzeros, hd, h1, h4⟩ := respelled_spelling hspelling
      have hdigit : ∀ x ∈ zeros ++ [c], isDigit x = true := by
        intro x hx
        rcases List.mem_append.mp hx with hx | hx
        · simp [isDigit, hzeros x hx]
        · obtain rfl := List.mem_singleton.mp hx
          simp [isDigit, hd]
      have hdigits : isdigit (zeros ++ [c]) = true := by
        unfold isdigit
        rw [List.all_eq_true.mpr hdigit]
        simp
      have hrefuses : intRefuses (zeros ++ [c]) = false := by
        simpa [unreadableSpeed, hmanual, hdigits] using hread
      have hvalue : digitsValue (zeros ++ [c]) = d := by
        rw [digitsValue_concat, digitsValue_zeros hzeros, hd]
        simp
      have hint : intOfStr (zeros ++ [c]) = .ok (d : Int) :=
        intOfStr_ok.mpr ⟨hrefuses, by rw [hvalue]⟩
      refine ⟨d, decodeMode_speed hdigits hint ?_ ?_⟩
      · unfold fanSpeedMin
        omega
      · unfold fanSpeedMax
        omega
  | _ => exact absurd hspelled (by simp [respelledSpeed])

/-- A value at which decoding is the inverse of encoding is spelled as written.  Otherwise it is a
respelled speed, or a numeral that `int` does not read. -/
theorem ModeInverse.asWritten {value : Json} (h : ModeInverse value) : AsWritten value := by
  by_cases hspeed : ∃ n, EncodesSpeed value n
  · obtain ⟨n, hn⟩ := hspeed
    obtain ⟨hrange, rfl⟩ := encodesSpeed_iff.mp hn
    exact asWritten_numeral hrange.1 hrange.2
  by_cases hpreset : ∃ preset, EncodesPreset value preset
  · obtain ⟨preset, hp⟩ := hpreset
    obtain ⟨⟨mode, hmem⟩, rfl⟩ := encodesPreset_iff.mp hp
    exact asWritten_preset hmem
  -- neither is written, so nothing may be decoded
  have hnone := h.other (fun n hn => hspeed ⟨n, hn⟩) (fun p hp => hpreset ⟨p, hp⟩)
  have hread : unreadableSpeed value = false :=
    (decodeMode_isOk value).mp (isOk_iff.mpr ⟨_, hnone⟩)
  refine ⟨hread, ?_⟩
  cases hspelled : respelledSpeed value with
  | false => rfl
  | true =>
      obtain ⟨n, hn⟩ := decodeMode_respelled hread hspelled
      exact absurd (hnone.symm.trans hn) (by simp)

/-- **Decoding a mode.**  Decoding is the inverse of encoding at exactly the values that spell
no speed in another way and none that `int` refuses, and two such values never decode to the
same mode. -/
theorem decodeMode_inverse_iff (value : Json) :
    (ModeInverse value ↔ AsWritten value) ∧
      ∀ other mode speed, AsWritten value → AsWritten other →
        decodeMode value = .ok (some mode, speed) → decodeMode other = .ok (some mode, speed) →
          value = other := by
  refine ⟨⟨ModeInverse.asWritten, ModeInverse.of_asWritten⟩, ?_⟩
  intro other mode speed hwritten hother hdecode hdecode'
  cases decodes_of_decodeMode hdecode with
  | preset hp =>
      cases decodes_of_decodeMode hdecode' with
      | preset hq => exact congrArg Json.str (presetModes_injective _ hq _ hp rfl)
  | speed hdigits hint hmin hmax =>
      rw [encodes_of_speed hint hmin hmax hwritten.spelling]
      cases decodes_of_decodeMode hdecode' with
      | speed hdigits' hint' _ _ => rw [encodes_of_speed hint' hmin hmax hother.spelling]

/-- **Leading zeros.**  `manual03` decodes to speed 3, which is written `manual3`. -/
theorem manual03_not_written : ¬ ∀ value, ModeInverse value := by
  intro hclaim
  have hdecode : decodeMode (.str (py "manual03")) = .ok (some .manual, some 3) := by decide
  have hencodes := ((hclaim (.str (py "manual03"))).manual 3).mp hdecode
  have hsame := Json.str.inj (encodesSpeed_iff.mp hencodes).2
  exact absurd hsame (by decide)

end Purifier
