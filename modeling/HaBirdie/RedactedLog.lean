import HaBirdie.ConfigFlow
import HaBirdie.Redaction
import Mathlib.Data.Finset.Basic

/-!
# What the log filter leaves

The filter replaces the forms of all registered keys, one after the other, by one marker.  A key
that overlaps the marker can come back: the marker and the letters beside it may make an
occurrence.

`noKeySurvives_iff` is exact: for a set of keys of the right length, the filtered messages are
free of all forms, in every order of registration, if and only if no key overlaps the marker.
For the one direction, escaped forms overlap the marker no more than the keys do, because all
letters of the marker are written as they are.  For the other, the key with the longest overlap
survives if it is registered first.
-/

namespace Lan

open Python TextReplacement

/-! ## Escaped forms -/

/-- A character as the library logs it. -/
def reprChar (quote : Fin 256) (c : CodePoint) : PyStr := reprByte quote (latin1 c)

/-- `repr` writes a text character by character, but for the quote that it chooses first. -/
theorem escaped_eq (secret : PyStr) :
    escaped secret = secret.flatMap (reprChar (reprQuote (secret.map latin1))) := by
  have hslice : ∀ (a b q : CodePoint) (s : PyStr), (([a] ++ [b] ++ s ++ [q]).drop 2).dropLast = s :=
    fun a b q s => List.dropLast_concat
  unfold escaped reprBytes
  dsimp only
  rw [show py "b" = [98] from by decide, hslice, List.flatMap_map]
  rfl

/-- No character is written as nothing. -/
theorem reprChar_ne_nil (quote : Fin 256) (c : CodePoint) : reprChar quote c ≠ [] := by
  unfold reprChar reprByte
  repeat' split
  all_goals simp [py]

/-- A byte that is written with a letter of the marker is that letter. -/
def plainByte (quote b : Fin 256) : Bool :=
  redacted.all fun m =>
    !(reprByte quote b).contains m || (b.val == m.val && b.val != 0x3f && reprByte quote b == [m])

/-- A byte that is plain is neither of the quotes. -/
theorem plainByte_true (b : Fin 256) : (plainByte 0x22 b && plainByte 0x27 b) = true := by
  revert b
  decide +kernel

/-- The letters of the marker are written as they are, and nothing else is written with them.  None
of them is escaped in a byte string. -/
theorem plain_of_mem_redacted (bytes : List (Fin 256)) {m : CodePoint} (hm : m ∈ redacted) :
    Plain (reprChar (reprQuote bytes)) m := by
  intro c hc
  have hbyte : plainByte (reprQuote bytes) (latin1 c) = true := by
    have hboth := Bool.and_eq_true_iff.mp (plainByte_true (latin1 c))
    unfold reprQuote
    split
    · exact hboth.1
    · exact hboth.2
  obtain ⟨⟨hval, hknown⟩, hone⟩ : ((latin1 c).val = m.val ∧ (latin1 c).val ≠ 0x3f) ∧
      reprByte (reprQuote bytes) (latin1 c) = [m] := by
    have hcheck := List.all_eq_true.mp hbyte m hm
    rw [List.contains_iff_mem.mpr (show m ∈ reprByte (reprQuote bytes) (latin1 c) from hc)]
      at hcheck
    simpa using hcheck
  have hcm : c = m := by
    unfold latin1 at hval hknown
    split at hval
    · rename_i hbyte
      apply Fin.ext
      rw [← hval]
      exact (Nat.mod_eq_of_lt hbyte).symm
    · rename_i hother
      rw [if_neg hother] at hknown
      exact absurd rfl hknown
  exact ⟨hcm, hone⟩

/-- **Letters of the marker in a form** are those of the key itself.  An escape has none of them,
so the cut between them is a cut of the key. -/
theorem split_form {key form u x y : PyStr} (hform : form = key ∨ form = escaped key)
    (hne : u ≠ []) (hu : ∀ m ∈ u, m ∈ redacted) (h : form = x ++ (u ++ y)) :
    ∃ l r, key = l ++ (u ++ r) ∧ (x = [] → l = []) ∧ (y = [] → r = []) := by
  rcases hform with rfl | rfl
  · exact ⟨x, y, h, id, id⟩
  · rw [escaped_eq] at h
    obtain ⟨l, r, hkey, hl, hr⟩ := infix_of_written (reprChar_ne_nil _) hne
      (fun m hm => plain_of_mem_redacted (key.map latin1) (hu m hm)) h
    refine ⟨l, r, hkey, ?_, ?_⟩
    · intro heq
      obtain rfl := heq
      exact flatMap_eq_nil_of (reprChar_ne_nil _) hl
    · intro heq
      obtain rfl := heq
      exact flatMap_eq_nil_of (reprChar_ne_nil _) hr

/-- A spelling of a key is not shorter than the key. -/
theorem length_le_form {key form : PyStr} (hform : form = key ∨ form = escaped key) :
    key.length ≤ form.length := by
  rcases hform with rfl | rfl
  · exact Nat.le_refl _
  · rw [escaped_eq]
    exact length_le_written (reprChar_ne_nil _) key

/-- The start of a form that ends the marker starts the key. -/
theorem start_of_form {key form u : PyStr} (hform : form = key ∨ form = escaped key)
    (hne : u ≠ []) (hu : u <:+ redacted) (h : u <+: form) : u <+: key := by
  obtain ⟨y, hy⟩ := h
  obtain ⟨l, r, hkey, hl, _⟩ := split_form (x := []) hform hne (fun m hm => hu.subset hm) hy.symm
  rw [hl rfl, List.nil_append] at hkey
  exact ⟨r, hkey.symm⟩

/-- The end of a form that starts the marker ends the key. -/
theorem end_of_form {key form u : PyStr} (hform : form = key ∨ form = escaped key)
    (hne : u ≠ []) (hu : u <+: redacted) (h : u <:+ form) : u <:+ key := by
  obtain ⟨x, hx⟩ := h
  obtain ⟨l, r, hkey, _, hr⟩ := split_form (y := []) hform hne (fun m hm => hu.subset hm)
    (by rw [List.append_nil, hx])
  rw [hr rfl, List.append_nil] at hkey
  exact ⟨l, hkey.symm⟩

/-- A form that overlaps the marker is one of a key that does. -/
theorem overlaps_of_form {key form : PyStr} (hkey : key.length = 16)
    (hform : form = key ∨ form = escaped key) (h : Overlaps form redacted) :
    Overlaps key redacted := by
  rcases h with ⟨u, hne, hend, hstart⟩ | ⟨u, hne, hend, hstart⟩ | ⟨x, y, hxy⟩ | hinside
  · exact Or.inl ⟨u, hne, end_of_form hform hne hstart hend, hstart⟩
  · exact Or.inr (Or.inl ⟨u, hne, hend, start_of_form hform hne hend hstart⟩)
  · obtain ⟨l, r, hsplit, _, _⟩ := split_form (x := x) (y := y) hform (by decide)
      (fun m hm => hm) (by rw [← List.append_assoc, hxy])
    exact Or.inr (Or.inr (Or.inl ⟨l, r, by rw [hsplit, List.append_assoc]⟩))
  · have hlength := length_le_form hform
    have hshort := hinside.length_le
    have hmarker : redacted.length = 12 := by decide
    omega

/-! ## Registered keys -/

/-- The secrets after keys were registered, each with the order in which its forms were added. -/
def secretsAfter (registrations : List (PyStr × Bool)) (secrets : Counter) : Counter :=
  registrations.foldl (fun secrets r => registerSecret r.2 r.1 secrets) secrets

/-- The registered texts are the forms of the registered keys: each key as it is and as it is
written in a byte string. -/
theorem mem_secretsAfter (registrations : List (PyStr × Bool)) (secrets : Counter)
    (form : PyStr) :
    form ∈ (secretsAfter registrations secrets).texts ↔
      form ∈ secrets.texts ∨
        ∃ r ∈ registrations, r.1 ≠ [] ∧ (form = r.1 ∨ form = escaped r.1) := by
  induction registrations generalizing secrets with
  | nil => simp [secretsAfter]
  | cons r registrations ih =>
      have hone : form ∈ (registerSecret r.2 r.1 secrets).texts ↔
          form ∈ secrets.texts ∨ (r.1 ≠ [] ∧ (form = r.1 ∨ form = escaped r.1)) := by
        rw [Counter.mem_texts, Counter.mem_texts, count_registerSecret, formCount]
        split
        · rename_i hform
          simp [hform]
        · rename_i hform
          simp [hform]
      show form ∈ (secretsAfter registrations (registerSecret r.2 r.1 secrets)).texts ↔ _
      rw [ih, hone, List.exists_mem_cons_iff, or_assoc]

/-- What was registered first stays first.  Later registrations raise a count or add a text at the
end. -/
theorem secretsAfter_start (registrations : List (PyStr × Bool)) (secrets : Counter) :
    secrets.texts <+: (secretsAfter registrations secrets).texts := by
  have hadd : ∀ (texts : List PyStr) (c : Counter),
      c.texts <+: (texts.foldl Counter.add c).texts := by
    intro texts
    induction texts with
    | nil => exact fun c => List.prefix_rfl
    | cons text texts ih =>
        intro c
        have hone : c.texts <+: (c.add text).texts := by
          show c.texts <+: Counter.textsAfter c.texts (c.count text) text
          unfold Counter.textsAfter
          split
          · exact List.prefix_append _ _
          · exact List.prefix_rfl
        exact hone.trans (ih (c.add text))
  induction registrations generalizing secrets with
  | nil => exact List.prefix_rfl
  | cons r registrations ih =>
      have hone : secrets.texts <+: (registerSecret r.2 r.1 secrets).texts := by
        unfold registerSecret
        split
        · exact List.prefix_rfl
        · exact hadd _ secrets
      exact hone.trans (ih (registerSecret r.2 r.1 secrets))

/-- A key that was registered first, as it is, stands at the head of the texts.  So it is replaced
before any other. -/
theorem secretsAfter_first {key : PyStr} (hkey : key ≠ []) (registrations : List (PyStr × Bool)) :
    ∃ others, (secretsAfter ((key, true) :: registrations) Counter.empty).texts =
      key :: others := by
  have hfirst : ∃ others, (registerSecret true key Counter.empty).texts = key :: others := by
    unfold registerSecret variants
    rw [if_neg hkey]
    have hone : (Counter.empty.add key).texts = [key] := rfl
    split
    · exact ⟨[], hone⟩
    · refine ⟨Counter.textsAfter [] ((Counter.empty.add key).count (escaped key))
        (escaped key), ?_⟩
      show Counter.textsAfter [key] ((Counter.empty.add key).count (escaped key))
        (escaped key) = _
      unfold Counter.textsAfter
      split <;> rfl
  obtain ⟨others, hothers⟩ := hfirst
  obtain ⟨rest, hrest⟩ := secretsAfter_start registrations (registerSecret true key Counter.empty)
  refine ⟨others ++ rest, ?_⟩
  rw [hothers] at hrest
  exact hrest.symm

/-! ## The property -/

/-- No form of a registered key is left in a filtered message, whatever the order in which the
keys were registered. -/
def NoKeySurvives (keys : Finset PyStr) : Prop :=
  ∀ registrations : List (PyStr × Bool),
    (∀ key, key ∈ registrations.map Prod.fst ↔ key ∈ keys) →
    ∀ (Args : Type) (format : PyStr → Args → Option PyStr) (record : LogRecord Args)
      (message : PyStr), record.getMessage format = some message →
      ∃ message', (filterRecord (secretsAfter registrations Counter.empty) format
          record).getMessage format = some message' ∧
        ∀ key ∈ keys, ∀ form ∈ variants true key, ¬ form <:+: message'

/-- **Keys that do not overlap the marker are removed**, in any order.  No replacement can then
spell a key, so what one replacement has removed the later ones do not bring back. -/
theorem noKeySurvives_of {keys : Finset PyStr} (hkeys : ∀ key ∈ keys, key.length = 16)
    (hover : ∀ key ∈ keys, ¬ Overlaps key redacted) : NoKeySurvives keys := by
  intro registrations hregistered Args format record message hmessage
  refine ⟨_, getMessage_filterRecord _ hmessage, ?_⟩
  intro key hkey form hform
  have hne : ∀ k ∈ keys, k ≠ [] := by
    intro k hk heq
    obtain rfl := heq
    exact absurd (hkeys [] hk) (by decide)
  refine absent_replaceEach (fun text htext => ?_) message form ?_
  · rw [mem_secretsAfter] at htext
    rcases htext with htext | ⟨r, hr, _, htext⟩
    · exact nomatch htext
    · have hmem := (hregistered r.1).mp (List.mem_map_of_mem hr)
      refine ⟨?_, fun h => hover r.1 hmem (overlaps_of_form (hkeys r.1 hmem) htext h)⟩
      intro heq
      obtain rfl := heq
      have hlength := length_le_form htext
      rw [hkeys r.1 hmem] at hlength
      exact absurd hlength (by decide)
  · rw [mem_secretsAfter]
    obtain ⟨r, hr, rfl⟩ := List.mem_map.mp ((hregistered key).mpr hkey)
    exact Or.inr ⟨r, hr, hne _ hkey, mem_variants.mp hform⟩

/-! ## A key that overlaps the marker -/

/-- Among texts of bounded length there is a longest. -/
theorem exists_longest {P : PyStr → Prop} (bound : Nat) (hbound : ∀ u, P u → u.length ≤ bound)
    (h : ∃ u, P u) : ∃ u, P u ∧ ∀ u', P u' → u'.length ≤ u.length := by
  classical
  obtain ⟨u₀, h₀⟩ := h
  obtain ⟨u, hu, hlength⟩ := Nat.findGreatest_spec (P := fun n => ∃ u, P u ∧ u.length = n)
    (hbound u₀ h₀) ⟨u₀, h₀, rfl⟩
  refine ⟨u, hu, fun u' hu' => ?_⟩
  rw [hlength]
  exact Nat.le_findGreatest (hbound u' hu') ⟨u', hu', rfl⟩

/-- A form of another key. -/
def OtherForm (keys : Finset PyStr) (key form : PyStr) : Prop :=
  form ≠ key ∧ ∃ k ∈ keys, form = k ∨ form = escaped k

/-- The message keeps the key if it is replaced first, whatever else is replaced. -/
def SurvivesIn (keys : Finset PyStr) (key message : PyStr) : Prop :=
  ∀ others, (∀ form ∈ others, OtherForm keys key form) →
    key <:+: replaceEach redacted (key :: others) message

/-- If the other forms do not occur after the first replacement, it is the last. -/
theorem survivesIn_of {keys : Finset PyStr} {key message : PyStr} (left : PyStr)
    (hleft : replaceAll key redacted message = left) (hkey : key <:+: left)
    (hothers : ∀ form, OtherForm keys key form → ¬ form <:+: left) :
    SurvivesIn keys key message := by
  intro others hforms
  show key <:+: replaceEach redacted others (replaceAll key redacted message)
  rw [hleft, replaceEach_of_absent fun form hform => hothers form (hforms form hform)]
  exact hkey

variable {keys : Finset PyStr}

/-- An end of the marker that starts a key: the key with the longest one survives.  With a shorter
one, a longer one could be removed along with it. -/
theorem survives_of_start (hkeys : ∀ key ∈ keys, key.length = 16)
    (h : ∃ key ∈ keys, EndMeetsStart redacted key) :
    ∃ key ∈ keys, ∃ message, SurvivesIn keys key message := by
  obtain ⟨u, ⟨hne, hend, key, hkey, v, rfl⟩, hlongest⟩ :=
    exists_longest (P := fun u => u ≠ [] ∧ u <:+ redacted ∧ ∃ key ∈ keys, u <+: key)
      redacted.length (fun u hu => hu.2.1.length_le)
      (by
        obtain ⟨key, hkey, u, hne, hend, hstart⟩ := h
        exact ⟨u, hne, hend, key, hkey, hstart⟩)
  obtain ⟨w, hw⟩ := hend
  have hlength := hkeys _ hkey
  rw [List.length_append] at hlength
  have hpos := List.length_pos_of_ne_nil hne
  refine ⟨u ++ v, hkey, (u ++ v) ++ v, survivesIn_of (w ++ (u ++ v)) ?_ ?_ ?_⟩
  · rw [← hw]
    exact replaceAll_start hne
  · exact (List.suffix_append w (u ++ v)).isInfix
  · intro form hparts hfound
    obtain ⟨hother, k, hk, hform⟩ := hparts
    have hlong := length_le_form hform
    rw [hkeys k hk] at hlong
    rw [← List.append_assoc, hw] at hfound
    rcases List.infix_append_iff_ne_nil.mp hfound with hin | hin | ⟨l, r, hl, _, rfl, hlm, hrv⟩
    · have hshort := hin.length_le
      have hmarker : redacted.length = 12 := by decide
      omega
    · have hshort := hin.length_le
      omega
    · -- the part in the marker is no longer than `u`, so the form is the key
      have hle := hlongest l ⟨hl, hlm, k, hk, start_of_form hform hl hlm (List.prefix_append l r)⟩
      have hrle := hrv.length_le
      rw [List.length_append] at hlong
      have hr : r = v := hrv.eq_of_length (by omega)
      have hlu : l = u := List.IsSuffix.eq_of_length
        (List.suffix_of_suffix_length_le hlm ⟨w, hw⟩ hle) (by omega)
      exact hother (by rw [hr, hlu])

/-- The marker ends with the letter it starts with. -/
theorem head_ne_of_not_start (hstart : ¬ ∃ key ∈ keys, EndMeetsStart redacted key) {key : PyStr}
    (hkey : key ∈ keys) : redacted.head? ≠ key.head? := by
  intro h
  cases key with
  | nil => exact absurd h (by decide)
  | cons c key =>
      have hc : c = 42 := (Option.some.inj h).symm
      subst hc
      exact hstart ⟨_, hkey, [42], by simp, by decide, ⟨key, rfl⟩⟩

/-- A start of the marker that ends a key: the key with the longest one survives, unless a key
starts with an end of the marker. -/
theorem survives_of_end (hkeys : ∀ key ∈ keys, key.length = 16)
    (hstart : ¬ ∃ key ∈ keys, EndMeetsStart redacted key)
    (h : ∃ key ∈ keys, EndMeetsStart key redacted) :
    ∃ key ∈ keys, ∃ message, SurvivesIn keys key message := by
  obtain ⟨u, ⟨hne, hbegin, key, hkey, v, rfl⟩, hlongest⟩ :=
    exists_longest (P := fun u => u ≠ [] ∧ u <+: redacted ∧ ∃ key ∈ keys, u <:+ key)
      redacted.length (fun u hu => hu.2.1.length_le)
      (by
        obtain ⟨key, hkey, u, hne, hend, hbegin⟩ := h
        exact ⟨u, hne, hbegin, key, hkey, hend⟩)
  obtain ⟨w, hw⟩ := hbegin
  have hlength := hkeys _ hkey
  rw [List.length_append] at hlength
  have hpos := List.length_pos_of_ne_nil hne
  have hhead : u.head? ≠ (v ++ u).head? := by
    intro heq
    apply head_ne_of_not_start hstart hkey
    rw [← heq, ← hw, List.head?_append_of_ne_nil u hne]
  refine ⟨v ++ u, hkey, v ++ (v ++ u), survivesIn_of (v ++ redacted) ?_ ?_ ?_⟩
  · have hlater := replaceAll_later (b := []) hne redacted hhead
      (by rw [List.length_append]; simp only [List.length_nil]; omega)
    rw [List.append_nil, List.append_nil] at hlater
    exact hlater
  · rw [← hw, ← List.append_assoc]
    exact (List.prefix_append (v ++ u) w).isInfix
  · intro form hparts hfound
    obtain ⟨hother, k, hk, hform⟩ := hparts
    have hlong := length_le_form hform
    rw [hkeys k hk] at hlong
    rcases List.infix_append_iff_ne_nil.mp hfound with hin | hin | ⟨l, r, _, hr, rfl, hlv, hrm⟩
    · have hshort := hin.length_le
      omega
    · have hshort := hin.length_le
      have hmarker : redacted.length = 12 := by decide
      omega
    · have hle := hlongest r ⟨hr, hrm, k, hk, end_of_form hform hr hrm (List.suffix_append l r)⟩
      have hlle := hlv.length_le
      rw [List.length_append] at hlong
      have hl : l = v := hlv.eq_of_length (by omega)
      have hru : r = u := List.IsPrefix.eq_of_length
        (List.prefix_of_prefix_length_le hrm ⟨w, hw⟩ hle) (by omega)
      exact hother (by rw [hl, hru])

/-- A key around the marker survives, unless a key starts with an end of the marker.  The message
has the key in the marker's place, so the replacement completes the one around it. -/
theorem survives_of_inside (hkeys : ∀ key ∈ keys, key.length = 16)
    (hstart : ¬ ∃ key ∈ keys, EndMeetsStart redacted key) {key : PyStr} (hkey : key ∈ keys)
    (h : redacted <:+: key) : ∃ message, SurvivesIn keys key message := by
  obtain ⟨a, b, rfl⟩ := h
  rw [List.append_assoc] at hkey ⊢
  have hne : redacted ++ b ≠ [] := List.append_ne_nil_of_left_ne_nil (by decide) b
  have hhead : (redacted ++ b).head? ≠ (a ++ (redacted ++ b)).head? := by
    intro heq
    apply head_ne_of_not_start hstart hkey
    rw [← heq, List.head?_append_of_ne_nil redacted (by decide)]
  refine ⟨a ++ ((a ++ (redacted ++ b)) ++ b),
    survivesIn_of (a ++ (redacted ++ b)) ?_ List.infix_rfl ?_⟩
  · apply replaceAll_later hne redacted hhead
    have hmarker : redacted.length = 12 := by decide
    simp only [List.length_append]
    omega
  · intro form hparts hfound
    obtain ⟨hother, k, hk, hform⟩ := hparts
    have hlong := length_le_form hform
    rw [hkeys k hk] at hlong
    have hlength := hkeys _ hkey
    exact hother (hfound.eq_of_length (Nat.le_antisymm hfound.length_le (by omega)))

/-- **Some key that overlaps the marker survives.** -/
theorem survives_of_overlaps (hkeys : ∀ key ∈ keys, key.length = 16) {key : PyStr}
    (hkey : key ∈ keys) (h : Overlaps key redacted) :
    ∃ key ∈ keys, ∃ message, SurvivesIn keys key message := by
  by_cases hstart : ∃ key ∈ keys, EndMeetsStart redacted key
  · exact survives_of_start hkeys hstart
  · rcases h with hend | hmeets | hinside | hinside
    · exact survives_of_end hkeys hstart ⟨key, hkey, hend⟩
    · exact absurd ⟨key, hkey, hmeets⟩ hstart
    · exact ⟨key, hkey, survives_of_inside hkeys hstart hkey hinside⟩
    · have hshort := hinside.length_le
      rw [hkeys key hkey] at hshort
      exact absurd hshort (by decide)

/-! ## The exact condition -/

/-- **Which keys are kept out of the log.**  For a set of keys of 16 characters, no form of a key
is ever left in a filtered message, in any order of registration, if and only if none of the keys
overlaps the marker. -/
theorem noKeySurvives_iff {keys : Finset PyStr} (hkeys : ∀ key ∈ keys, key.length = 16) :
    NoKeySurvives keys ↔ ∀ key ∈ keys, ¬ Overlaps key redacted := by
  refine ⟨fun h k hk hover => ?_, noKeySurvives_of hkeys⟩
  obtain ⟨key, hkey, message, hsurvives⟩ := survives_of_overlaps hkeys hk hover
  have hne : key ≠ [] := by
    intro heq
    obtain rfl := heq
    exact absurd (hkeys [] hkey) (by decide)
  let registrations := (key, true) :: keys.toList.map fun k => (k, true)
  have hregistered : ∀ k, k ∈ registrations.map Prod.fst ↔ k ∈ keys := by
    intro k
    simp only [registrations, List.map_cons, List.map_map, List.mem_cons, List.mem_map,
      Finset.mem_toList, Function.comp_apply, exists_eq_right, or_iff_right_iff_imp]
    intro heq
    obtain rfl := heq
    exact hkey
  obtain ⟨others, hothers⟩ :=
    secretsAfter_first hne (keys.toList.map fun k => (k, true))
  let record : LogRecord Unit := { msg := message, args := none }
  have hformat : record.getMessage (fun _ _ => none) = some message := rfl
  obtain ⟨message', hmessage', hgone⟩ :=
    h registrations hregistered Unit (fun _ _ => none) record message hformat
  rw [getMessage_filterRecord _ hformat, hothers] at hmessage'
  apply hgone key hkey key (mem_variants.mpr (Or.inl rfl))
  rw [← Option.some.inj hmessage']
  apply hsurvives others
  intro form hform
  have hnodup := (secretsAfter registrations Counter.empty).nodup
  rw [hothers] at hnodup
  refine ⟨fun heq => (List.nodup_cons.mp hnodup).1 (heq ▸ hform), ?_⟩
  have hmem : form ∈ (secretsAfter registrations Counter.empty).texts := by
    rw [hothers]
    exact List.mem_cons_of_mem key hform
  rcases (mem_secretsAfter _ _ _).mp hmem with hempty | ⟨r, hr, _, hof⟩
  · exact nomatch hempty
  · exact ⟨r.1, (hregistered r.1).mp (List.mem_map_of_mem hr), hof⟩

/-- A key of hexadecimal digits is kept out of the log. -/
theorem noKeySurvives_iff_example : NoKeySurvives {py "0123456789abcdef"} := by
  refine (@noKeySurvives_iff {py "0123456789abcdef"} ?_).mpr ?_
  · intro key hkey
    rw [Finset.mem_singleton.mp hkey]
    decide
  · intro key hkey
    rw [Finset.mem_singleton.mp hkey]
    decide

/-- A key that starts like the marker ends, which the form accepts. -/
def starredKey : PyStr := py "**abcdefghijklmn"

/-- **The end of the marker and the letters behind it are the key again.**  The key is one that the
config flow accepts. -/
theorem starred_key_survives :
    ¬ ∀ keys : Finset PyStr, (∀ key ∈ keys, ConfigFlow.cleanLocalKey key = some key) →
      NoKeySurvives keys := by
  intro hclaim
  have haccepted : ∀ key ∈ ({starredKey} : Finset PyStr),
      ConfigFlow.cleanLocalKey key = some key := by
    intro key hkey
    rw [Finset.mem_singleton.mp hkey]
    decide +kernel
  let record : LogRecord Unit := { msg := starredKey ++ py "abcdefghijklmn", args := none }
  have hmessage : record.getMessage (fun _ _ => none) =
      some (starredKey ++ py "abcdefghijklmn") := rfl
  obtain ⟨message', hmessage', hgone⟩ := hclaim _ haccepted [(starredKey, true)]
    (fun key => by simp) Unit (fun _ _ => none) record _ hmessage
  have hlogged : (filterRecord (secretsAfter [(starredKey, true)] Counter.empty)
      (fun _ _ => none) record).getMessage (fun _ _ => none) =
      some (py "**REDACTED**abcdefghijklmn") := by decide +kernel
  rw [hlogged] at hmessage'
  refine hgone starredKey (Finset.mem_singleton_self _) starredKey
    (mem_variants.mpr (Or.inl rfl)) ?_
  rw [← Option.some.inj hmessage']
  decide

end Lan
