import HaBirdie.PythonValues
import HaBirdie.TextReplacement

/-!
# Redacted keys

`lan/redact.py`: the filter that keeps local keys out of the protocol library's log, and the
counter of what it replaces.

A key is counted in two forms, as it is and as the library logs it: as `bytes`, some of whose
characters are escaped.  Two keys may share a form, so the counter counts forms.  A form is
replaced as long as its count is not zero.
-/

namespace Lan

open Python TextReplacement

/-- `REDACTED`. -/
def redacted : PyStr := py "**REDACTED**"

/-! ## The forms of a key -/

/-- A character encoded with `"latin1", "replace"`. -/
def latin1 (c : CodePoint) : Fin 256 := if c.val < 256 then Fin.ofNat 256 c.val else 0x3f

/-- A character of ASCII or Latin-1. -/
def ofByte (b : Nat) : CodePoint := ⟨b % 0x110000, Nat.mod_lt b (by decide)⟩

def hexDigit (n : Nat) : CodePoint := ofByte (if n < 10 then 0x30 + n else 0x61 + (n - 10))

/-- A byte as `repr` writes it between quotes. -/
def reprByte (quote : Fin 256) (b : Fin 256) : PyStr :=
  if b = quote || b = 0x5c then [ofByte 0x5c, ofByte b.val]
  else if b = 0x09 then py "\\t"
  else if b = 0x0a then py "\\n"
  else if b = 0x0d then py "\\r"
  else if b.val < 0x20 || 0x7f ≤ b.val then
    py "\\x" ++ [hexDigit (b.val / 16), hexDigit (b.val % 16)]
  else [ofByte b.val]

/-- The quotes are double only around a single quote without double ones. -/
def reprQuote (bytes : List (Fin 256)) : Fin 256 :=
  if bytes.contains 0x27 && !bytes.contains 0x22 then 0x22 else 0x27

/-- `repr` of bytes. -/
def reprBytes (bytes : List (Fin 256)) : PyStr :=
  let quote := reprQuote bytes
  py "b" ++ [ofByte quote.val] ++ bytes.flatMap (reprByte quote) ++ [ofByte quote.val]

/-- `repr(secret.encode("latin1", "replace"))[2:-1]`. -/
def escaped (secret : PyStr) : PyStr := ((reprBytes (secret.map latin1)).drop 2).dropLast

/-- `_variants`: a set, in one of the orders in which it may be iterated. -/
def variants (rawFirst : Bool) (secret : PyStr) : List PyStr :=
  if escaped secret = secret then [secret]
  else if rawFirst then [secret, escaped secret]
  else [escaped secret, secret]

/-! ## The counter -/

/-- A `Counter[str]` without zeros: its texts in the order in which they were added, and how
often each is counted. -/
structure Counter where
  texts : List PyStr
  count : PyStr → Nat
  nodup : texts.Nodup
  mem_texts : ∀ text, text ∈ texts ↔ 0 < count text

namespace Counter

/-- `Counter()`. -/
def empty : Counter where
  texts := []
  count := fun _ => 0
  nodup := List.nodup_nil
  mem_texts := fun _ => ⟨fun h => (List.not_mem_nil h).elim, fun h => (Nat.lt_irrefl 0 h).elim⟩

/-- The texts after one more of `text`, of which there were `n`. -/
def textsAfter (texts : List PyStr) (n : Nat) (text : PyStr) : List PyStr :=
  if n = 0 then texts ++ [text] else texts

/-- Registering a text keeps the list of texts without repetitions. -/
theorem nodup_textsAfter (c : Counter) (text : PyStr) :
    (textsAfter c.texts (c.count text) text).Nodup := by
  unfold textsAfter
  split
  · rename_i hzero
    have hnew : text ∉ c.texts := fun h => by
      have hpos := (c.mem_texts text).mp h
      omega
    refine List.nodup_append.mpr ⟨c.nodup, List.nodup_singleton text, ?_⟩
    intro a ha b hb hab
    rw [List.mem_singleton.mp hb] at hab
    exact hnew (hab ▸ ha)
  · exact c.nodup

/-- After a registration the texts are those whose count is positive.  The registered one is there
already if it had been counted before. -/
theorem mem_textsAfter (c : Counter) (text other : PyStr) :
    other ∈ textsAfter c.texts (c.count text) text ↔
      0 < Function.update c.count text (c.count text + 1) other := by
  unfold textsAfter
  by_cases hother : other = text
  · subst hother
    rw [Function.update_self]
    split
    · simp
    · rename_i hpos
      simp only [c.mem_texts, Nat.succ_pos, iff_true]
      omega
  · rw [Function.update_of_ne hother]
    split
    · rw [List.mem_append, List.mem_singleton, c.mem_texts]
      exact or_iff_left hother
    · exact c.mem_texts other

/-- One more: `counter.update([text])`. -/
def add (c : Counter) (text : PyStr) : Counter where
  texts := textsAfter c.texts (c.count text) text
  count := Function.update c.count text (c.count text + 1)
  nodup := nodup_textsAfter c text
  mem_texts := mem_textsAfter c text

/-- The texts after one less of `text`, of which there were `n`. -/
def textsWithout (texts : List PyStr) (n : Nat) (text : PyStr) : List PyStr :=
  if n ≤ 1 then texts.filter fun other => other != text else texts

/-- So does taking a registration back. -/
theorem nodup_textsWithout (c : Counter) (text : PyStr) :
    (textsWithout c.texts (c.count text) text).Nodup := by
  unfold textsWithout
  split
  · exact c.nodup.filter _
  · exact c.nodup

/-- After it the texts are again those whose count is positive.  A text goes with its last
registration. -/
theorem mem_textsWithout (c : Counter) (text other : PyStr) :
    other ∈ textsWithout c.texts (c.count text) text ↔
      0 < Function.update c.count text (c.count text - 1) other := by
  unfold textsWithout
  by_cases hother : other = text
  · subst hother
    rw [Function.update_self]
    split
    · simp only [List.mem_filter, bne_self_eq_false, Bool.false_eq_true, and_false, false_iff]
      omega
    · rw [c.mem_texts]
      omega
  · rw [Function.update_of_ne hother]
    split
    · rw [List.mem_filter, c.mem_texts]
      exact and_iff_left (bne_iff_ne.mpr hother)
    · exact c.mem_texts other

/-- One less of a text: it is dropped when it is the last, and nothing happens when there is
none. -/
def remove (c : Counter) (text : PyStr) : Counter where
  texts := textsWithout c.texts (c.count text) text
  count := Function.update c.count text (c.count text - 1)
  nodup := nodup_textsWithout c text
  mem_texts := mem_textsWithout c text

@[simp] theorem count_add (c : Counter) (text other : PyStr) :
    (c.add text).count other = c.count other + if other = text then 1 else 0 := by
  show Function.update c.count text (c.count text + 1) other = _
  by_cases hother : other = text
  · subst hother
    rw [Function.update_self, if_pos rfl]
  · rw [Function.update_of_ne hother, if_neg hother, Nat.add_zero]

@[simp] theorem count_remove (c : Counter) (text other : PyStr) :
    (c.remove text).count other = c.count other - if other = text then 1 else 0 := by
  show Function.update c.count text (c.count text - 1) other = _
  by_cases hother : other = text
  · subst hother
    rw [Function.update_self, if_pos rfl]
  · rw [Function.update_of_ne hother, if_neg hother, Nat.sub_zero]

end Counter

/-! ## Registration -/

/-- `register_secret`. -/
def registerSecret (rawFirst : Bool) (secret : PyStr) (secrets : Counter) : Counter :=
  if secret = [] then secrets else (variants rawFirst secret).foldl Counter.add secrets

/-- `unregister_secret`. -/
def unregisterSecret (rawFirst : Bool) (secret : PyStr) (secrets : Counter) : Counter :=
  if secret = [] then secrets else (variants rawFirst secret).foldl Counter.remove secrets

/-- The order of iteration does not matter for what is in the set. -/
theorem mem_variants {rawFirst : Bool} {secret form : PyStr} :
    form ∈ variants rawFirst secret ↔ form = secret ∨ form = escaped secret := by
  unfold variants
  split
  · rename_i heq
    rw [List.mem_singleton, heq, or_self]
  · split
    · exact List.mem_pair
    · rw [List.mem_pair, or_comm]

/-- The spellings of a secret are different. -/
theorem nodup_variants (rawFirst : Bool) (secret : PyStr) : (variants rawFirst secret).Nodup := by
  unfold variants
  split
  · exact List.nodup_singleton secret
  · rename_i hne
    split
    · simpa using fun h => hne h.symm
    · simpa using hne

/-- How much a key contributes to the count of a form. -/
def formCount (secret form : PyStr) : Nat :=
  if secret ≠ [] ∧ (form = secret ∨ form = escaped secret) then 1 else 0

/-- Registering several texts counts each as often as it is among them. -/
theorem count_foldl_add (texts : List PyStr) (c : Counter) (form : PyStr) :
    (texts.foldl Counter.add c).count form = c.count form + texts.count form := by
  induction texts generalizing c with
  | nil => rfl
  | cons text texts ih =>
      rw [List.foldl_cons, ih, Counter.count_add, List.count_cons]
      by_cases hform : form = text
      · simp only [hform, if_true, beq_self_eq_true]
        omega
      · simp [hform, Ne.symm hform]

/-- Taking several back, likewise, and never below zero. -/
theorem count_foldl_remove (texts : List PyStr) (c : Counter) (form : PyStr) :
    (texts.foldl Counter.remove c).count form = c.count form - texts.count form := by
  induction texts generalizing c with
  | nil => rfl
  | cons text texts ih =>
      rw [List.foldl_cons, ih, Counter.count_remove, List.count_cons]
      by_cases hform : form = text
      · simp only [hform, if_true, beq_self_eq_true]
        omega
      · simp [hform, Ne.symm hform]

/-- A key that is not empty has each of its forms once. -/
theorem count_variants {secret : PyStr} (h : secret ≠ []) (rawFirst : Bool) (form : PyStr) :
    (variants rawFirst secret).count form = formCount secret form := by
  rw [(nodup_variants rawFirst secret).count]
  simp only [mem_variants, formCount, ne_eq, h, not_false_eq_true, true_and]

/-- **Registering a key** adds one to each of its forms. -/
theorem count_registerSecret (rawFirst : Bool) (secret : PyStr) (secrets : Counter)
    (form : PyStr) :
    (registerSecret rawFirst secret secrets).count form =
      secrets.count form + formCount secret form := by
  unfold registerSecret
  by_cases hempty : secret = []
  · simp [hempty, formCount]
  · rw [if_neg hempty, count_foldl_add, count_variants hempty]

/-- **Unregistering a key** takes one from each of its forms. -/
theorem count_unregisterSecret (rawFirst : Bool) (secret : PyStr) (secrets : Counter)
    (form : PyStr) :
    (unregisterSecret rawFirst secret secrets).count form =
      secrets.count form - formCount secret form := by
  unfold unregisterSecret
  by_cases hempty : secret = []
  · simp [hempty, formCount]
  · rw [if_neg hempty, count_foldl_remove, count_variants hempty]

/-! ## The filter -/

/-- A log record: its message, and the arguments that are still to be put in. -/
structure LogRecord (Args : Type) where
  msg : PyStr
  args : Option Args

/-- `record.getMessage()`, over `%`; it can raise. -/
def LogRecord.getMessage {Args : Type} (format : PyStr → Args → Option PyStr)
    (record : LogRecord Args) : Option PyStr :=
  match record.args with
  | none => some record.msg
  | some args => format record.msg args

/-- `_RedactLocalKeys.filter`: the record it lets through. -/
def filterRecord {Args : Type} (secrets : Counter) (format : PyStr → Args → Option PyStr)
    (record : LogRecord Args) : LogRecord Args :=
  if secrets.texts.isEmpty then record
  else
    match record.getMessage format with
    | none => record
    | some message =>
        let replaced := replaceEach redacted secrets.texts message
        if replaced ≠ message then { msg := replaced, args := none } else record

/-- The message that is logged: the one without the filter, with the texts replaced one after the
other.  The arguments are merged into it before. -/
theorem getMessage_filterRecord {Args : Type} (secrets : Counter)
    {format : PyStr → Args → Option PyStr} {record : LogRecord Args} {message : PyStr}
    (h : record.getMessage format = some message) :
    (filterRecord secrets format record).getMessage format =
      some (replaceEach redacted secrets.texts message) := by
  unfold filterRecord
  split
  · rename_i hempty
    rw [List.isEmpty_iff.mp hempty]
    exact h
  · rw [h]
    dsimp only
    split
    · rfl
    · rename_i hsame
      rw [h, not_not.mp hsame]

end Lan
