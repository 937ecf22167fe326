import Mathlib.Data.List.AList
import Mathlib.Data.List.DropRight
import Mathlib.Data.Rat.Cast.Defs
import Mathlib.Algebra.Order.Field.Rat
import Mathlib.Tactic.Common

/-!
# Python values as the JSON module yields them

The values a device can report: `None`, `bool`, unbounded `int`, `float` (binary64,
with `NaN` and the infinities), `str` over all code points (lone surrogates included),
`list` and `dict`.  On them, the operations of the language that the integration uses:
`==` and `!=`, `str.isdigit`, `str.lower`, `str.upper`, `int` of a string or a float, the
conversion of an `int` to a `float`, and the three decimals of a formatted `float`.  Each
operation that can raise returns `Except PyException`.

Python's floats are Lean's `Float`s: both are binary64.
-/

namespace Python

/-- The exceptions of the language that matter here. `other` stands for any
exception raised by code outside the repository. -/
inductive PyException
  | valueError
  | overflowError
  | zeroDivisionError
  | runtimeError
  | other (tag : Nat)
deriving DecidableEq, Repr

/-- A Unicode code point; unlike `Char` it may be a lone surrogate. -/
abbrev CodePoint := Fin 0x110000

/-- A Python string. -/
abbrev PyStr := List CodePoint

/-- A string literal of the source. -/
def py (s : String) : PyStr := s.toList.map fun c => Fin.ofNat 0x110000 c.toNat

/-- `str` of an int. -/
def numeral (n : Int) : PyStr := py (toString n)

/-! ## Digits -/

/-- The zeros of the ten-digit blocks of decimal digits (Unicode category `Nd`). -/
def decimalZeros : List Nat :=
  [0x30, 0x660, 0x6f0, 0x7c0, 0x966, 0x9e6, 0xa66, 0xae6, 0xb66, 0xbe6, 0xc66, 0xce6,
   0xd66, 0xde6, 0xe50, 0xed0, 0xf20, 0x1040, 0x1090, 0x17e0, 0x1810, 0x1946, 0x19d0,
   0x1a80, 0x1a90, 0x1b50, 0x1bb0, 0x1c40, 0x1c50, 0xa620, 0xa8d0, 0xa900, 0xa9d0,
   0xa9f0, 0xaa50, 0xabf0, 0xff10, 0x104a0, 0x10d30, 0x11066, 0x110f0, 0x11136, 0x111d0,
   0x112f0, 0x11450, 0x114d0, 0x11650, 0x116c0, 0x11730, 0x118e0, 0x11950, 0x11c50,
   0x11d50, 0x11da0, 0x11f50, 0x16a60, 0x16ac0, 0x16b50, 0x1d7ce, 0x1d7d8, 0x1d7e2,
   0x1d7ec, 0x1d7f6, 0x1e140, 0x1e2f0, 0x1e4f0, 0x1e950, 0x1fbf0]

/-- The code points that are digits without being decimal digits (superscripts,
circled digits and so on), as inclusive ranges. -/
def otherDigits : List (Nat × Nat) :=
  [(0xb2, 0xb3), (0xb9, 0xb9), (0x1369, 0x1371), (0x19da, 0x19da), (0x2070, 0x2070),
   (0x2074, 0x2079), (0x2080, 0x2089), (0x2460, 0x2468), (0x2474, 0x247c),
   (0x2488, 0x2490), (0x24ea, 0x24ea), (0x24f5, 0x24fd), (0x24ff, 0x24ff),
   (0x2776, 0x277e), (0x2780, 0x2788), (0x278a, 0x2792), (0x10a40, 0x10a43),
   (0x10e60, 0x10e68), (0x11052, 0x1105a), (0x1f100, 0x1f10a)]

/-- The value of a decimal digit. -/
def decimal? (c : CodePoint) : Option Nat :=
  (decimalZeros.find? fun z => z ≤ c.val ∧ c.val < z + 10).map fun z => c.val - z

/-- Whether `str.isdigit` accepts the character. -/
def isDigit (c : CodePoint) : Bool :=
  (decimal? c).isSome || otherDigits.any fun r => r.1 ≤ c.val && c.val ≤ r.2

/-- `str.isdigit`: at least one character, and only digits. -/
def isdigit (s : PyStr) : Bool := !s.isEmpty && s.all isDigit

/-- The white space of `str.strip`: first and last code point of each block. -/
def whitespace : List (Nat × Nat) :=
  [(0x09, 0x0d), (0x1c, 0x20), (0x85, 0x85), (0xa0, 0xa0), (0x1680, 0x1680), (0x2000, 0x200a),
    (0x2028, 0x2029), (0x202f, 0x202f), (0x205f, 0x205f), (0x3000, 0x3000)]

def isSpace (c : CodePoint) : Bool :=
  whitespace.any fun block => decide (block.1 ≤ c.val ∧ c.val ≤ block.2)

/-- `str.strip`. -/
def strip (s : PyStr) : PyStr := (s.dropWhile isSpace).rdropWhile isSpace

/-- What is stripped has no white space at its ends. -/
theorem strip_strip (s : PyStr) : strip (strip s) = strip s := by
  have hstart : strip s <+: s.dropWhile isSpace := List.rdropWhile_prefix isSpace _
  have hhead : (strip s).dropWhile isSpace = strip s := by
    rw [List.dropWhile_eq_self_iff]
    intro hpos
    have hpos' : 0 < (s.dropWhile isSpace).length := hpos.trans_le hstart.length_le
    rw [hstart.getElem hpos]
    exact List.dropWhile_get_zero_not isSpace s hpos'
  change ((strip s).dropWhile isSpace).rdropWhile isSpace = strip s
  rw [hhead]
  exact List.rdropWhile_idempotent isSpace _

/-- The lower case of an ASCII letter. -/
def lowerAscii (c : CodePoint) : CodePoint :=
  if 0x41 ≤ c.val ∧ c.val ≤ 0x5a then Fin.ofNat 0x110000 (c.val + 0x20) else c

/-- `str.lower`.  Outside ASCII the interpreter's Unicode tables say what stands for the
character at an index: several characters may, and those around it may count. -/
def lower (beyond : PyStr → Nat → PyStr) (s : PyStr) : PyStr :=
  s.zipIdx.flatMap fun m => if m.1.val < 0x80 then [lowerAscii m.1] else beyond s m.2

/-- Only ASCII is lowered to ASCII. -/
theorem lowerAscii_ascii {c : CodePoint} (h : (lowerAscii c).val < 0x80) : c.val < 0x80 := by
  unfold lowerAscii at h
  split at h
  · omega
  · exact h

/-- An ASCII string is lowered character by character, whatever the tables say. -/
theorem lower_of_ascii (beyond : PyStr → Nat → PyStr) {s : PyStr} (h : ∀ c ∈ s, c.val < 0x80) :
    lower beyond s = s.map lowerAscii := by
  have hascii : ∀ m ∈ s.zipIdx,
      (if m.1.val < 0x80 then [lowerAscii m.1] else beyond s m.2) = [lowerAscii m.1] := by
    intro m hm
    rw [if_pos (h m.1 (List.fst_mem_of_mem_zipIdx hm))]
  calc lower beyond s
      = s.zipIdx.flatMap fun m => [lowerAscii m.1] := List.flatMap_congr hascii
    _ = (s.zipIdx.map Prod.fst).map lowerAscii := by
        rw [← List.map_eq_flatMap, List.map_map]
        rfl
    _ = s.map lowerAscii := by rw [List.zipIdx_map_fst]

/-- A spelling of an ASCII string in other letter cases is lowered to it. -/
theorem lower_of_spelling (beyond : PyStr → Nat → PyStr) {s t : PyStr}
    (hspelling : s.map lowerAscii = t) (ht : ∀ c ∈ t, c.val < 0x80) : lower beyond s = t := by
  have hs : ∀ c ∈ s, c.val < 0x80 := by
    intro c hc
    apply lowerAscii_ascii
    apply ht
    rw [← hspelling]
    exact List.mem_map_of_mem hc
  rw [lower_of_ascii beyond hs, hspelling]

/-- The upper case of an ASCII letter. -/
def upperAscii (c : CodePoint) : CodePoint :=
  if 0x61 ≤ c.val ∧ c.val ≤ 0x7a then Fin.ofNat 0x110000 (c.val - 0x20) else c

/-- `str.upper`, with the Unicode tables as for `str.lower`. -/
def upper (beyond : PyStr → Nat → PyStr) (s : PyStr) : PyStr :=
  s.zipIdx.flatMap fun m => if m.1.val < 0x80 then [upperAscii m.1] else beyond s m.2

/-- The most digits `int` converts (`sys.get_int_max_str_digits`). -/
def intMaxStrDigits : Nat := 4300

/-- `int` refuses a string of digits with a character that is no decimal digit, and one
of too many digits (leading zeros count). -/
def intRefuses (s : PyStr) : Bool :=
  (s.any fun c => (decimal? c).isNone) || intMaxStrDigits < s.length

/-- `int` of a string of digits. -/
def intOfStr (s : PyStr) : Except PyException Int :=
  if intRefuses s then .error .valueError
  else .ok (s.foldl (fun n c => 10 * n + (decimal? c).getD 0) 0 : Nat)

/-! ## Floats -/

/-- `int` of a float truncates towards zero; `NaN` and the infinities raise. -/
def intOfFloat (x : Float) : Except PyException Int :=
  match x.toModel.unpack with
  | .notANumber => .error .valueError
  | .infinity _ => .error .overflowError
  | .zero _ => .ok 0
  | .finite s m e _ => .ok (Float.Model.UnpackedFloat.roundToInt s m e)

/-- The conversion of an `int` to a `float` raises when the nearest float is infinite. -/
def floatOfInt (n : Int) : Except PyException Float :=
  let x := Float.ofModel (Float.Model.ofInt n)
  if x.isInf then .error .overflowError else .ok x

/-- `x / n` for a float and an int. An int converts to `0.0` only if it is `0`. -/
def floatDivInt (x : Float) (n : Int) : Except PyException Float :=
  if n = 0 then .error .zeroDivisionError
  else do
    let y ← floatOfInt n
    pure (x / y)

/-- `min(a, b)`: the first unless the second is smaller. -/
def floatMin (a b : Float) : Float := if b < a then b else a

/-- `round` of a rational to the nearest integer, ties to even. -/
def roundHalfEven (q : ℚ) : Int :=
  let f := q.floor
  if q - f < 1 / 2 then f
  else if 1 / 2 < q - f then f + 1
  else if f % 2 = 0 then f else f + 1

/-- The exact value of a finite float. -/
def floatExact? (x : Float) : Option ℚ :=
  match x.toModel.unpack with
  | .notANumber => none
  | .infinity _ => none
  | .zero _ => some 0
  | .finite .positive m e _ => some (m * (2 : ℚ) ^ e)
  | .finite .negative m e _ => some (-(m * (2 : ℚ) ^ e))

/-- `round` of a float; `NaN` and the infinities raise. -/
def floatRound (x : Float) : Except PyException Int :=
  match floatExact? x with
  | some q => .ok (roundHalfEven q)
  | none => .error (if x.isInf then .overflowError else .valueError)

/-- The sign of a formatted number. -/
def signText (s : Float.Model.UnpackedFloat.Sign) : PyStr := if s == .negative then py "-" else []

/-- `f"{x:.3f}"`: the exact value to the nearest thousandth, ties to even.  What rounds to zero
keeps its sign. -/
def formatThousandths (x : Float) : PyStr :=
  match x.toModel.unpack with
  | .notANumber => py "nan"
  | .infinity s => signText s ++ py "inf"
  | .zero s => signText s ++ py "0.000"
  | .finite s m e _ =>
      let n := roundHalfEven (m * (2 : ℚ) ^ e * 1000)
      let decimals := numeral (n % 1000)
      signText s ++ numeral (n / 1000) ++ py "." ++
        List.replicate (3 - decimals.length) 0x30 ++ decimals

/-! ## JSON values -/

/-- A value of Python's JSON module.  An object is the list of its members as parsed:
where a key repeats, the last member counts. -/
inductive Json
  | null
  | bool (b : Bool)
  | int (n : Int)
  | float (x : Float)
  | str (s : PyStr)
  | list (xs : List Json)
  | obj (members : List (PyStr × Json))

mutual
/-- Whether two values are built alike. -/
def Json.same : Json → Json → Bool
  | .null, .null => true
  | .bool a, .bool b => a == b
  | .int m, .int n => m == n
  | .float x, .float y => decide (x = y)
  | .str s, .str t => s == t
  | .list xs, .list ys => Json.sameList xs ys
  | .obj ms, .obj ns => Json.sameObj ms ns
  | _, _ => false
termination_by structural x => x
def Json.sameList : List Json → List Json → Bool
  | [], [] => true
  | x :: xs, y :: ys => Json.same x y && Json.sameList xs ys
  | _, _ => false
termination_by structural xs => xs
def Json.sameObj : List (PyStr × Json) → List (PyStr × Json) → Bool
  | [], [] => true
  | m :: ms, n :: ns => Json.sameEntry m n && Json.sameObj ms ns
  | _, _ => false
termination_by structural ms => ms
def Json.sameEntry : PyStr × Json → PyStr × Json → Bool
  | (key, x), (key', y) => key == key' && Json.same x y
termination_by structural m => m
end
mutual
/-- The test for equality decides it. -/
theorem Json.same_iff (x y : Json) : Json.same x y = true ↔ x = y := by
  cases x with
  | list xs =>
      cases y with
      | list ys => simp [Json.same, Json.sameList_iff xs ys]
      | _ => simp [Json.same]
  | obj ms =>
      cases y with
      | obj ns => simp [Json.same, Json.sameObj_iff ms ns]
      | _ => simp [Json.same]
  | _ => cases y <;> simp [Json.same]
termination_by structural x
/-- It does so for lists, -/
theorem Json.sameList_iff (xs ys : List Json) : Json.sameList xs ys = true ↔ xs = ys := by
  cases xs with
  | nil => cases ys <;> simp [Json.sameList]
  | cons x xs =>
      cases ys with
      | nil => simp [Json.sameList]
      | cons y ys => simp [Json.sameList, Json.same_iff x y, Json.sameList_iff xs ys]
termination_by structural xs
/-- for objects, with their keys in order, -/
theorem Json.sameObj_iff (ms ns : List (PyStr × Json)) : Json.sameObj ms ns = true ↔ ms = ns := by
  cases ms with
  | nil => cases ns <;> simp [Json.sameObj]
  | cons m ms =>
      cases ns with
      | nil => simp [Json.sameObj]
      | cons n ns => simp [Json.sameObj, Json.sameEntry_iff m n, Json.sameObj_iff ms ns]
termination_by structural ms
/-- and for one entry of an object. -/
theorem Json.sameEntry_iff (m n : PyStr × Json) : Json.sameEntry m n = true ↔ m = n := by
  obtain ⟨key, x⟩ := m
  obtain ⟨key', y⟩ := n
  simp [Json.sameEntry, Json.same_iff x y]
termination_by structural m
end
instance : DecidableEq Json := fun x y => decidable_of_iff _ (Json.same_iff x y)

/-- What numbers are compared by: `True` is `1` and `1.0` is `1`. -/
inductive NumberKey
  | nan
  | infinite (positive : Bool)
  | exact (q : ℚ)
deriving DecidableEq

/-- The numeric value of `bool`, `int` and `float`. -/
def Json.number? : Json → Option NumberKey
  | .bool b => some (.exact (if b then 1 else 0))
  | .int n => some (.exact n)
  | .float x =>
      match floatExact? x with
      | some q => some (.exact q)
      | none => some (if x.isInf then .infinite (decide (0 < x)) else .nan)
  | _ => none

/-- The member that counts for a key of a parsed object. -/
def lastMember (members : List (PyStr × Json)) (key : PyStr) : Option Json :=
  (members.reverse.find? fun m => m.1 == key).map Prod.snd

mutual
/-- Equality of the items of a container: `is` or `==`.  All `NaN`s of the JSON
module are one object, so there they are equal. -/
def Json.sameItem : Json → Json → Bool
  | .null, .null => true
  | .str s, .str t => s == t
  | .list xs, .list ys => Json.sameItems xs ys
  | .obj ms, .obj ns =>
      Json.sameMembers ms ns && ns.all fun n => ms.any fun m => m.1 == n.1
  | x, y => x.number?.isSome && x.number? == y.number?
termination_by structural x => x
/-- Lists are equal item by item. -/
def Json.sameItems : List Json → List Json → Bool
  | [], [] => true
  | x :: xs, y :: ys => Json.sameItem x y && Json.sameItems xs ys
  | _, _ => false
termination_by structural xs => xs
/-- Every member that counts on the left has an equal one on the right. -/
def Json.sameMembers : List (PyStr × Json) → List (PyStr × Json) → Bool
  | [], _ => true
  | m :: ms, ns =>
      ((ms.any fun m' => m'.1 == m.1) || Json.sameMember m ns) && Json.sameMembers ms ns
termination_by structural ms => ms
/-- The member of the right object for the same key is equal. -/
def Json.sameMember : PyStr × Json → List (PyStr × Json) → Bool
  | (key, x), ns =>
      match lastMember ns key with
      | some y => Json.sameItem x y
      | none => false
termination_by structural m => m
end

/-- `==`: as for items, except that `NaN` is not equal to itself. -/
def Json.pyEq (x y : Json) : Bool := x.number? != some .nan && Json.sameItem x y

/-- `!=`. -/
def Json.pyNe (x y : Json) : Bool := !Json.pyEq x y

/-- A member comes before those of greater keys; the one that is there is the one that counts. -/
def insertMember (m : PyStr × Json) : List (PyStr × Json) → List (PyStr × Json)
  | [] => [m]
  | n :: ns =>
      if m.1 < n.1 then m :: n :: ns
      else if m.1 = n.1 then n :: ns
      else n :: insertMember m ns

mutual
/-- A value without the differences that are none between equal values of one type: the sign of
a zero, the order of members, and members that do not count. -/
def Json.canonical : Json → Json
  | .float x =>
      match x.toModel.unpack with
      | .zero _ => .float 0.0
      | _ => .float x
  | .list xs => .list (Json.canonicalItems xs)
  | .obj ms => .obj (Json.canonicalMembers ms)
  | x => x
termination_by structural x => x
def Json.canonicalItems : List Json → List Json
  | [] => []
  | x :: xs => Json.canonical x :: Json.canonicalItems xs
termination_by structural xs => xs
def Json.canonicalMembers : List (PyStr × Json) → List (PyStr × Json)
  | [] => []
  | m :: ms => insertMember (Json.canonicalMember m) (Json.canonicalMembers ms)
termination_by structural ms => ms
def Json.canonicalMember : PyStr × Json → PyStr × Json
  | (key, x) => (key, Json.canonical x)
termination_by structural m => m
end

/-- Identical in value and type, also inside of lists and objects. -/
def Json.Identical (x y : Json) : Prop := x.canonical = y.canonical

instance (x y : Json) : Decidable (x.Identical y) :=
  inferInstanceAs (Decidable (x.canonical = y.canonical))

/-- A value is written as it is written. -/
theorem Json.Identical.refl (x : Json) : x.Identical x := rfl

/-- What does not see those differences is the same on identical values. -/
theorem Json.Identical.congr {α : Type} {f : Json → α} (hf : ∀ x, f x.canonical = f x)
    {x y : Json} (h : x.Identical y) : f x = f y := by
  rw [← hf x, ← hf y]
  exact congrArg f h

example : Json.pyEq (.bool true) (.int 1) = true := by decide +kernel
example : Json.pyEq (.float (0.0 / 0.0)) (.float (0.0 / 0.0)) = false := by decide +kernel

/-! ## Dictionaries -/

/-- A Python `dict` with string keys. -/
abbrev PyDict := AList fun _ : PyStr => Json

namespace PyDict

/-- `d.get(key)`: the value, or `None` where the key is missing. -/
def get (d : PyDict) (key : PyStr) : Json := (d.lookup key).getD .null

/-- `d.update(e)`, and `{**d, **e}`. -/
def update (d e : PyDict) : PyDict := e ∪ d

/-- After `dict.update` the new values win. -/
theorem lookup_update (d e : PyDict) (key : PyStr) :
    (d.update e).lookup key = (e.lookup key).or (d.lookup key) := by
  by_cases hkey : key ∈ e
  · obtain ⟨value, hvalue⟩ := Option.isSome_iff_exists.mp (AList.lookup_isSome.mpr hkey)
    rw [update, AList.lookup_union_left hkey, hvalue]
    rfl
  · rw [update, AList.lookup_union_right hkey, AList.lookup_eq_none.mpr hkey]
    rfl

/-- The `dict` of a parsed object. -/
def ofMembers (members : List (PyStr × Json)) : PyDict :=
  members.foldl (fun d m => d.insert m.1 m.2) ∅

end PyDict

end Python
