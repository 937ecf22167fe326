import Mathlib.Data.List.Infix

/-!
# Replacing occurrences in a text

`replaceAll old new` replaces the occurrences of a non-empty text from left to right, as long as
they do not share letters.  Done for several texts, one after the other, it need not remove them:
what is put in can make an occurrence together with the letters beside it.

It does remove them if none of them overlaps what is put in (`Overlaps`).  The other direction is
in two parts.  A text that overlaps at its start survives in `old ++ v`; one that overlaps
otherwise survives in the text with its own beginning in front, unless it also overlaps at its
start (`head_of_earlier`).
-/

namespace TextReplacement

variable {α : Type} [DecidableEq α]

/-! ## Replacement -/

/-- Replaces from left to right, where `skip` letters belong to an occurrence already replaced. -/
def replaceFrom (old new : List α) : Nat → List α → List α
  | _, [] => []
  | skip + 1, _ :: text => replaceFrom old new skip text
  | 0, c :: text =>
      if old.isPrefixOf (c :: text) then new ++ replaceFrom old new (old.length - 1) text
      else c :: replaceFrom old new 0 text

/-- Replaces all occurrences of a non-empty text. -/
def replaceAll (old new text : List α) : List α := replaceFrom old new 0 text

/-- Replaces several texts by the same one, one after the other. -/
def replaceEach (new : List α) (olds : List (List α)) (text : List α) : List α :=
  olds.foldl (fun text old => replaceAll old new text) text

/-- Skipping some elements is replacing in what is left. -/
theorem replaceFrom_drop (old new : List α) (skip : Nat) (text : List α) :
    replaceFrom old new skip text = replaceAll old new (text.drop skip) := by
  induction skip generalizing text with
  | zero => rfl
  | succ skip ih =>
      cases text with
      | nil => rfl
      | cons c text => exact ih text

/-- At an occurrence. -/
theorem replaceAll_append {old : List α} (hold : old ≠ []) (new rest : List α) :
    replaceAll old new (old ++ rest) = new ++ replaceAll old new rest := by
  cases old with
  | nil => exact absurd rfl hold
  | cons c old =>
      have hstarts : (c :: old).isPrefixOf (c :: (old ++ rest)) = true :=
        List.isPrefixOf_iff_prefix.mpr ⟨rest, rfl⟩
      show replaceFrom (c :: old) new 0 (c :: (old ++ rest)) = _
      unfold replaceFrom
      rw [if_pos hstarts, replaceFrom_drop]
      have hdrop : (old ++ rest).drop ((c :: old).length - 1) = rest := by
        rw [List.length_cons, Nat.add_sub_cancel, List.drop_left]
      rw [hdrop]

/-- Where no occurrence starts. -/
theorem replaceAll_cons {old : List α} {c : α} {text : List α} (h : ¬ old <+: c :: text)
    (new : List α) : replaceAll old new (c :: text) = c :: replaceAll old new text := by
  show replaceFrom old new 0 (c :: text) = _
  unfold replaceFrom
  rw [if_neg (fun hstarts => h (List.isPrefixOf_iff_prefix.mp hstarts))]
  rfl

/-- The course of a replacement. -/
inductive Replaced (old new : List α) : List α → List α → Prop
  | nil : Replaced old new [] []
  | occurrence {rest result : List α} :
      Replaced old new rest result → Replaced old new (old ++ rest) (new ++ result)
  | letter {c : α} {text result : List α} : ¬ old <+: c :: text →
      Replaced old new text result → Replaced old new (c :: text) (c :: result)

/-- `replaceAll` does replace, if there is something to look for.  By strong induction on the
length, because an occurrence is skipped as a whole. -/
theorem replaced {old : List α} (hold : old ≠ []) (new text : List α) :
    Replaced old new text (replaceAll old new text) := by
  induction hlength : text.length using Nat.strong_induction_on generalizing text with
  | _ n ih =>
      cases text with
      | nil => exact Replaced.nil
      | cons c text =>
          by_cases hstarts : old <+: c :: text
          · obtain ⟨rest, hrest⟩ := hstarts
            have hshorter : rest.length < n := by
              have hlengths := congrArg List.length hrest
              have hpos := List.length_pos_of_ne_nil hold
              rw [List.length_append] at hlengths
              omega
            rw [← hrest, replaceAll_append hold]
            exact Replaced.occurrence (ih rest.length hshorter rest rfl)
          · rw [replaceAll_cons hstarts]
            refine Replaced.letter hstarts (ih text.length ?_ text rfl)
            rw [← hlength]
            exact Nat.lt_succ_self text.length

/-- A text without occurrences is left alone. -/
theorem replaceAll_of_absent {old text : List α} (h : ¬ old <:+: text) (new : List α) :
    replaceAll old new text = text := by
  induction text with
  | nil => rfl
  | cons c text ih =>
      rw [replaceAll_cons (fun hstarts => h hstarts.isInfix),
        ih (fun hfound => h (hfound.trans (List.suffix_cons c text).isInfix))]

/-- Up to the first occurrence. -/
theorem replaceAll_first {old : List α} (hold : old ≠ []) (new a b : List α)
    (hfirst : ∀ x z, a ++ (old ++ b) = x ++ (old ++ z) → a.length ≤ x.length) :
    replaceAll old new (a ++ (old ++ b)) = a ++ (new ++ replaceAll old new b) := by
  induction a with
  | nil => exact replaceAll_append hold new b
  | cons c a ih =>
      have hnot : ¬ old <+: c :: (a ++ (old ++ b)) := by
        intro hparts
        obtain ⟨z, hz⟩ := hparts
        exact absurd (hfirst [] z hz.symm) (by simp)
      rw [List.cons_append, List.cons_append, replaceAll_cons hnot, ih fun x z hxz => ?_]
      have hlater := hfirst (c :: x) z (by rw [List.cons_append, List.cons_append, hxz])
      exact Nat.le_of_succ_le_succ hlater

/-! ## Overlaps -/

/-- A non-empty end of the one text is a start of the other. -/
def EndMeetsStart (s t : List α) : Prop := ∃ u, u ≠ [] ∧ u <:+ s ∧ u <+: t

/-- The texts can share letters of a third one. -/
def Overlaps (s t : List α) : Prop :=
  EndMeetsStart s t ∨ EndMeetsStart t s ∨ t <:+: s ∨ s <:+: t

instance (s t : List α) : Decidable (EndMeetsStart s t) :=
  decidable_of_iff (∃ u ∈ s.tails, u ≠ [] ∧ u <+: t)
    ⟨fun ⟨u, hs, hne, ht⟩ => ⟨u, hne, (List.mem_tails u s).mp hs, ht⟩,
     fun ⟨u, hne, hs, ht⟩ => ⟨u, (List.mem_tails u s).mpr hs, hne, ht⟩⟩

instance (s t : List α) : Decidable (Overlaps s t) :=
  inferInstanceAs (Decidable (_ ∨ _ ∨ _ ∨ _))

omit [DecidableEq α] in
/-- Without an overlap, an occurrence is on one side of what was put in. -/
theorem infix_beside {s t a b : List α} (h : ¬ Overlaps s t) (hs : s <:+: a ++ (t ++ b)) :
    s <:+: a ∨ s <:+: b := by
  rcases List.infix_append_iff_ne_nil.mp hs with ha | htb | ⟨l, r, hl, hr, rfl, hla, hrt⟩
  · exact Or.inl ha
  · rcases List.infix_append_iff_ne_nil.mp htb with ht | hb | ⟨l, r, hl, _, rfl, hlt, _⟩
    · exact absurd (Or.inr (Or.inr (Or.inr ht))) h
    · exact Or.inr hb
    · exact absurd (Or.inr (Or.inl ⟨l, hl, hlt, List.prefix_append l r⟩)) h
  · rcases List.prefix_or_prefix_of_prefix hrt (List.prefix_append t b) with hr' | ht
    · exact absurd (Or.inl ⟨r, hr, List.suffix_append l r, hr'⟩) h
    · have hfound : t <:+: l ++ r := ht.isInfix.trans (List.suffix_append l r).isInfix
      exact absurd (Or.inr (Or.inr (Or.inl hfound))) h

/-! ## Texts that do not overlap are removed -/

omit [DecidableEq α] in
/-- A replacement makes no occurrence of a text that does not overlap what is put in. `before` is
what stands before the part that is replaced. -/
theorem Replaced.contained {old new text result s before : List α}
    (h : Replaced old new text result) (hs : ¬ Overlaps s new)
    (hmem : s <:+: before ++ result) : s <:+: before ++ text := by
  induction h generalizing before with
  | nil => exact hmem
  | @occurrence rest result _ ih =>
      rcases infix_beside hs hmem with hbefore | hresult
      · exact List.infix_append_of_infix_left hbefore
      · have hrest : s <:+: [] ++ rest := ih hresult
        exact List.infix_append_of_infix_right (List.infix_append_of_infix_right hrest)
  | @letter c text result _ _ ih =>
      rw [List.append_cons] at hmem ⊢
      exact ih hmem

omit [DecidableEq α] in
/-- If no occurrence starts in `before`, none lies in it. -/
theorem absent_before {old before text : List α} (hold : old ≠ [])
    (h : ∀ x z, before ++ text = x ++ (old ++ z) → before.length ≤ x.length) :
    ¬ old <:+: before := by
  intro hparts
  obtain ⟨x, z, rfl⟩ := hparts
  have hlength := h x (z ++ text) (by simp only [List.append_assoc])
  have hpos := List.length_pos_of_ne_nil hold
  simp only [List.length_append] at hlength
  omega

omit [DecidableEq α] in
/-- The replaced text itself is gone, if no occurrence starts in `before`.  What has been written
so far is carried along as `before`. -/
theorem Replaced.absent {old new text result before : List α} (hold : old ≠ [])
    (h : Replaced old new text result) (hover : ¬ Overlaps old new)
    (hbefore : ∀ x z, before ++ text = x ++ (old ++ z) → before.length ≤ x.length) :
    ¬ old <:+: before ++ result := by
  induction h generalizing before with
  | nil =>
      rw [List.append_nil]
      exact absent_before hold hbefore
  | @occurrence rest result _ ih =>
      intro hmem
      rcases infix_beside hover hmem with hinside | hresult
      · exact absent_before hold hbefore hinside
      · have hrest : ¬ old <:+: [] ++ result := ih fun x z _ => Nat.zero_le _
        exact hrest hresult
  | @letter c text result hstart _ ih =>
      rw [List.append_cons]
      apply ih
      intro x z hxz
      rw [← List.append_cons] at hxz
      -- an occurrence that starts at this letter is excluded
      rcases Nat.lt_or_eq_of_le (hbefore x z hxz) with hlt | heq
      · rw [List.length_append, List.length_singleton]
        exact hlt
      · obtain ⟨_, hright⟩ := List.append_inj hxz heq
        exact absurd ⟨z, hright.symm⟩ hstart

/-- **Texts that do not overlap are removed.**  After one replacement for each of them, in any
order, none of them is left. -/
theorem absent_replaceEach {new : List α} {olds : List (List α)}
    (holds : ∀ old ∈ olds, old ≠ [] ∧ ¬ Overlaps old new) (text : List α) :
    ∀ old ∈ olds, ¬ old <:+: replaceEach new olds text := by
  have hkept : ∀ (olds : List (List α)) (text s : List α), (∀ old ∈ olds, old ≠ []) →
      ¬ Overlaps s new → s <:+: replaceEach new olds text → s <:+: text := by
    intro olds
    induction olds with
    | nil => exact fun text s _ _ h => h
    | cons old olds ih =>
        intro text s hne hs h
        have hlater := ih (replaceAll old new text) s
          (fun o ho => hne o (List.mem_cons_of_mem old ho)) hs h
        have hmade : s <:+: [] ++ text :=
          (replaced (hne old List.mem_cons_self) new text).contained hs hlater
        exact hmade
  induction olds generalizing text with
  | nil => exact fun old hold => nomatch hold
  | cons first olds ih =>
      have hrest : ∀ old ∈ olds, old ≠ [] ∧ ¬ Overlaps old new :=
        fun old hold => holds old (List.mem_cons_of_mem first hold)
      intro old hold hmem
      rcases List.mem_cons.mp hold with rfl | hold
      · obtain ⟨hne, hover⟩ := holds old List.mem_cons_self
        have hgone : ¬ old <:+: [] ++ replaceAll old new text :=
          (replaced hne new text).absent hne hover fun x z _ => Nat.zero_le _
        exact hgone (hkept olds _ old (fun o ho => (hrest o ho).1) hover hmem)
      · exact ih hrest (replaceAll first new text) old hold hmem

/-! ## Texts that overlap survive -/

/-- Replacements for texts that are not there change nothing. -/
theorem replaceEach_of_absent {new : List α} {olds : List (List α)} {text : List α}
    (h : ∀ old ∈ olds, ¬ old <:+: text) : replaceEach new olds text = text := by
  induction olds with
  | nil => rfl
  | cons old olds ih =>
      show replaceEach new olds (replaceAll old new text) = text
      rw [replaceAll_of_absent (h old List.mem_cons_self)]
      exact ih fun o ho => h o (List.mem_cons_of_mem old ho)

omit [DecidableEq α] in
/-- A shorter text has no occurrence. -/
theorem absent_of_length_lt {s t : List α} (h : t.length < s.length) : ¬ s <:+: t :=
  fun hfound => absurd hfound.length_le (by omega)

/-- **An overlap at the start.**  The end of what is put in and the letters behind it are the
replaced text again. -/
theorem replaceAll_start {u v w : List α} (hu : u ≠ []) :
    replaceAll (u ++ v) (w ++ u) ((u ++ v) ++ v) = w ++ (u ++ v) := by
  have hne : u ++ v ≠ [] := fun h => hu (List.append_eq_nil_iff.mp h).1
  have hshort : ¬ u ++ v <:+: v := by
    apply absent_of_length_lt
    have hpos := List.length_pos_of_ne_nil hu
    rw [List.length_append]
    omega
  rw [replaceAll_append hne, replaceAll_of_absent hshort, List.append_assoc]

omit [DecidableEq α] in
/-- An earlier occurrence in the text with its beginning `v` in front: then the text continues
after `v` with the letter it begins with. -/
theorem head_of_earlier {v rest x z b : List α} (hrest : rest ≠ [])
    (h : v ++ ((v ++ rest) ++ b) = x ++ ((v ++ rest) ++ z)) (hx : x.length < v.length) :
    rest.head? = (v ++ rest).head? := by
  have hpos := List.length_pos_of_ne_nil hrest
  have hfirst : (v ++ rest)[0]? = v[x.length]? := by
    have hleft : (v ++ ((v ++ rest) ++ b))[x.length]? = v[x.length]? :=
      List.getElem?_append_left hx
    have hright : (x ++ ((v ++ rest) ++ z))[x.length]? = (v ++ rest)[0]? := by
      rw [List.getElem?_append_right (Nat.le_refl _), Nat.sub_self,
        List.getElem?_append_left (by rw [List.length_append]; omega)]
    rw [← hright, ← h, hleft]
  have hnext : rest[0]? = v[x.length]? := by
    have hleft : (v ++ ((v ++ rest) ++ b))[v.length + x.length]? = v[x.length]? := by
      rw [List.getElem?_append_right (Nat.le_add_right _ _), Nat.add_sub_cancel_left,
        List.append_assoc, List.getElem?_append_left hx]
    have hright : (x ++ ((v ++ rest) ++ z))[x.length + v.length]? = rest[0]? := by
      rw [List.getElem?_append_right (Nat.le_add_right _ _), Nat.add_sub_cancel_left,
        List.append_assoc, List.getElem?_append_right (Nat.le_refl _), Nat.sub_self,
        List.getElem?_append_left hpos]
    rw [← hright, ← h, Nat.add_comm x.length, hleft]
  rw [List.head?_eq_getElem?, List.head?_eq_getElem?, hnext, hfirst]

/-- **An overlap elsewhere.**  With the beginning `v` of the text in front, the first occurrence is
the text itself, unless it continues after `v` with the letter it begins with. -/
theorem replaceAll_later {v rest b : List α} (hrest : rest ≠ []) (new : List α)
    (hhead : rest.head? ≠ (v ++ rest).head?) (hb : b.length < (v ++ rest).length) :
    replaceAll (v ++ rest) new (v ++ ((v ++ rest) ++ b)) = v ++ (new ++ b) := by
  have hne : v ++ rest ≠ [] := fun h => hrest (List.append_eq_nil_iff.mp h).2
  rw [replaceAll_first hne new v b fun x z hxz => ?_,
    replaceAll_of_absent (absent_of_length_lt hb)]
  by_contra hlt
  exact hhead (head_of_earlier hrest hxz (not_le.mp hlt))

/-! ## Texts written letter by letter -/

section Written

variable {write : α → List α}

/-- The letter is written as itself, and no other letter is written with it. -/
def Plain (write : α → List α) (m : α) : Prop := ∀ c, m ∈ write c → c = m ∧ write c = [m]

omit [DecidableEq α] in
/-- Plain letters at the start of a written text are letters at the start of the text.  By
induction on these letters. -/
theorem prefix_of_written (hwrite : ∀ c, write c ≠ []) {u : List α} (hu : ∀ m ∈ u, Plain write m)
    {s y : List α} (h : s.flatMap write = u ++ y) : ∃ r, s = u ++ r ∧ r.flatMap write = y := by
  induction u generalizing s with
  | nil => exact ⟨s, rfl, h⟩
  | cons m u ih =>
      cases s with
      | nil => exact nomatch h
      | cons c s =>
          have hm : m ∈ write c := by
            rw [List.flatMap_cons] at h
            cases hc : write c with
            | nil => exact absurd hc (hwrite c)
            | cons d rest =>
                rw [hc] at h
                rw [(List.cons.inj h).1]
                exact List.mem_cons_self
          obtain ⟨rfl, hc⟩ := hu m List.mem_cons_self c hm
          rw [List.flatMap_cons, hc] at h
          obtain ⟨r, hr, hy⟩ := ih (fun n hn => hu n (List.mem_cons_of_mem c hn))
            (List.cons.inj h).2
          exact ⟨r, by rw [hr]; rfl, hy⟩

omit [DecidableEq α] in
/-- A plain letter inside of a written text is a letter of the text.  So a cut at it is a cut of
what was written. -/
theorem split_of_written {m : α} (hm : Plain write m) {s x y : List α}
    (h : s.flatMap write = x ++ m :: y) :
    ∃ l r, s = l ++ m :: r ∧ l.flatMap write = x ∧ r.flatMap write = y := by
  induction s generalizing x with
  | nil => exact absurd h.symm (List.append_ne_nil_of_right_ne_nil x (List.cons_ne_nil m y))
  | cons c s ih =>
      rw [List.flatMap_cons] at h
      have hlater : ∀ x', x = write c ++ x' → s.flatMap write = x' ++ m :: y →
          ∃ l r, c :: s = l ++ m :: r ∧ l.flatMap write = x ∧ r.flatMap write = y := by
        intro x' hx hs
        obtain ⟨l, r, hlr, hl, hr⟩ := ih hs
        exact ⟨c :: l, r, by rw [hlr]; rfl, by rw [List.flatMap_cons, hl, hx], hr⟩
      rcases List.append_eq_append_iff.mp h with ⟨x', hx, hs⟩ | ⟨z, hc, hz⟩
      · exact hlater x' hx hs
      · cases z with
        | nil => exact hlater [] (by rw [hc]; simp) hz.symm
        | cons n z =>
            obtain ⟨rfl, hrest⟩ := List.cons.inj hz
            have hmem : m ∈ write c := by
              rw [hc]
              exact List.mem_append_right x List.mem_cons_self
            obtain ⟨rfl, hone⟩ := hm c hmem
            obtain ⟨rfl, rfl⟩ : x = [] ∧ z = [] := by
              rw [hone] at hc
              cases x with
              | nil => exact ⟨rfl, (List.cons.inj hc).2.symm⟩
              | cons d x => exact absurd (List.cons.inj hc).2.symm (by simp)
            exact ⟨[], s, rfl, rfl, hrest.symm⟩

omit [DecidableEq α] in
/-- **Plain letters in a written text** are those of the text itself. -/
theorem infix_of_written (hwrite : ∀ c, write c ≠ []) {u : List α} (hne : u ≠ [])
    (hu : ∀ m ∈ u, Plain write m) {s x y : List α} (h : s.flatMap write = x ++ (u ++ y)) :
    ∃ l r, s = l ++ (u ++ r) ∧ l.flatMap write = x ∧ r.flatMap write = y := by
  cases u with
  | nil => exact absurd rfl hne
  | cons m u =>
      obtain ⟨l, r, hlr, hl, hr⟩ := split_of_written (hu m List.mem_cons_self) h
      obtain ⟨r', hr', hy⟩ := prefix_of_written hwrite
        (fun n hn => hu n (List.mem_cons_of_mem m hn)) hr
      exact ⟨l, r', by rw [hlr, hr']; rfl, hl, hy⟩

omit [DecidableEq α] in
/-- What is written as nothing was nothing, if no element is. -/
theorem flatMap_eq_nil_of (hwrite : ∀ c, write c ≠ []) {s : List α} (h : s.flatMap write = []) :
    s = [] := by
  cases s with
  | nil => rfl
  | cons c s =>
      rw [List.flatMap_cons] at h
      exact absurd (List.append_eq_nil_iff.mp h).1 (hwrite c)

omit [DecidableEq α] in
/-- Writing does not make a text shorter. -/
theorem length_le_written (hwrite : ∀ c, write c ≠ []) (s : List α) :
    s.length ≤ (s.flatMap write).length := by
  induction s with
  | nil => exact Nat.zero_le _
  | cons c s ih =>
      have hpos := List.length_pos_of_ne_nil (hwrite c)
      rw [List.flatMap_cons, List.length_append, List.length_cons]
      omega

end Written

end TextReplacement
