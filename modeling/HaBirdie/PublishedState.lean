import HaBirdie.PurifierCoordinator
import HaBirdie.PurifierReports

/-!
# When the published state follows the device

`_handle_dps` merges every report and publishes it if it is a full one or brings news.  News are
found with `!=`, and Python takes `True` and `1` for equal; the decoder does not.  So a report
that swaps one for the other is merged and not published, and what is shown no longer decodes
from the known DPs.

`follows_iff` is exact: for all sequences of reports that decode, the published state follows the
device if and only if the reports that are passed over repeat the known values identically.
-/

namespace Purifier

open Python Lan

/-- The same DPs with identical values. -/
def SameDps (d e : PyDict) : Prop :=
  ∀ dp, (d.lookup dp).map Json.canonical = (e.lookup dp).map Json.canonical

/-- Two states with every field identical. -/
structure SameState (s t : PurifierState) : Prop where
  fields : ∀ f : Field, f.Same s t
  dps : SameDps s.dps t.dps

/-- What was published last is what the DPs of the device decode to; nothing was published only
while there are no DPs. -/
structure Follows (dev : Device) (c : Coordinator) : Prop where
  published : ∀ s ∈ c.data, ∃ t, fromDps dev.dps = .ok t ∧ SameState s t
  unpublished : c.data = none → dev.dps = ∅

/-- A status report with the time of its arrival, and whether it is a full one. -/
structure Report where
  now : ℚ
  dps : PyDict
  full : Bool

/-- The published state follows the device after each of the reports. -/
def FollowsAll : List Report → Device → Coordinator → Prop
  | [], _, _ => True
  | r :: reports, dev, c =>
      let handled := handleDps Coordinator.callbacks r.now r.dps r.full dev c
      Follows handled.dev handled.client ∧ FollowsAll reports handled.dev handled.client

/-- The DPs known after each of the reports decode. -/
def AllDecode : PyDict → List Report → Prop
  | _, [] => True
  | known, r :: reports =>
      Decodable (known.update r.dps) ∧ AllDecode (known.update r.dps) reports

/-- The report is not published. -/
def PassedOver (known : PyDict) (r : Report) : Prop :=
  r.full = false ∧ reportsNews known r.dps = false

/-- Every value of the report is known identically. -/
def Repeats (known report : PyDict) : Prop :=
  ∀ dp value, report.lookup dp = some value →
    ∃ old, known.lookup dp = some old ∧ old.Identical value

instance (known report : PyDict) : Decidable (Repeats known report) :=
  decidable_of_iff (∀ e ∈ report.entries, ∃ old ∈ known.lookup e.1, old.Identical e.2)
    ⟨fun h dp value hvalue => h ⟨dp, value⟩ (AList.mem_lookup_iff.mp hvalue),
      fun h e he => h e.1 e.2 (AList.mem_lookup_iff.mpr he)⟩

/-- The reports that are passed over repeat what is known. -/
def PassedRepeat : PyDict → List Report → Prop
  | _, [] => True
  | known, r :: reports =>
      (PassedOver known r → Repeats known r.dps) ∧ PassedRepeat (known.update r.dps) reports

/-! ## One report -/

/-- DPs that read alike twice read alike. -/
theorem SameDps.trans {d e f : PyDict} (h : SameDps d e) (h' : SameDps e f) : SameDps d f :=
  fun dp => (h dp).trans (h' dp)

/-- Reading alike goes both ways. -/
theorem SameDps.symm {d e : PyDict} (h : SameDps d e) : SameDps e d := fun dp => (h dp).symm

/-- DPs that read alike have the same value under each ID, up to how it is written. -/
theorem SameDps.get {d e : PyDict} (h : SameDps d e) (dp : PyStr) :
    (d.get dp).Identical (e.get dp) := by
  have hdp := h dp
  unfold PyDict.get Json.Identical
  cases hd : d.lookup dp with
  | none =>
      cases he : e.lookup dp with
      | none => rfl
      | some y =>
          rw [hd, he] at hdp
          exact absurd hdp (by simp)
  | some x =>
      cases he : e.lookup dp with
      | none =>
          rw [hd, he] at hdp
          exact absurd hdp (by simp)
      | some y =>
          rw [hd, he] at hdp
          exact Option.some.inj hdp

/-- A report repeats what is known exactly if merging it changes nothing. -/
theorem repeats_iff {known report : PyDict} :
    Repeats known report ↔ SameDps known (known.update report) := by
  constructor
  · intro hrepeats dp
    rw [PyDict.lookup_update]
    cases hvalue : report.lookup dp with
    | none => rfl
    | some value =>
        obtain ⟨old, hold, hsame⟩ := hrepeats dp value hvalue
        rw [hold]
        exact congrArg some hsame
  · intro hsame dp value hvalue
    have hdp := hsame dp
    rw [PyDict.lookup_update, hvalue] at hdp
    cases hold : known.lookup dp with
    | none =>
        rw [hold] at hdp
        exact absurd hdp (by simp)
    | some old =>
        rw [hold] at hdp
        exact ⟨old, rfl, Option.some.inj hdp⟩

/-- To a device without DPs every value is news. -/
theorem empty_of_no_news {report : PyDict} (h : reportsNews ∅ report = false) : report = ∅ := by
  apply AList.ext
  simp only [reportsNews, Bool.or_eq_false_iff, List.any_eq_false, decide_eq_true_eq,
    not_not] at h
  exact List.eq_nil_iff_forall_not_mem.mpr fun e he => AList.notMem_empty e.1 (h.2 e he)

/-- A field that stays the same twice is the same. -/
theorem Field.Same.trans {s t u : PurifierState} {f : Field} (h : f.Same s t)
    (h' : f.Same t u) : f.Same s u := by
  cases f <;> exact Eq.trans h h'

/-- States of maps with the same DPs. -/
theorem sameState_of_sameDps {d e : PyDict} {s t : PurifierState} (hs : fromDps d = .ok s)
    (ht : fromDps e = .ok t) (h : SameDps d e) : SameState s t := by
  have hs' := fromDps_decoded hs
  have ht' := fromDps_decoded ht
  refine ⟨fun f => f.same_of_get hs' ht' fun dp _ => h.get dp, ?_⟩
  rw [hs'.dps, ht'.dps]
  exact h

/-- What is published follows the device. -/
theorem Follows.publish {dev : Device} (hdec : Decodable dev.dps) (c : Coordinator) :
    Follows dev (c.publish dev.dps).1 := by
  obtain ⟨s, hs⟩ := (fromDps_ok_iff _).mpr hdec
  have hdata : (c.publish dev.dps).1.data = some s := by
    simp [Coordinator.publish, hs, Coordinator.setUpdatedData]
  refine ⟨fun t ht => ?_, fun hnone => absurd (hdata.symm.trans hnone) (by simp)⟩
  obtain rfl := Option.some.inj (hdata.symm.trans ht)
  exact ⟨s, hs, sameState_of_sameDps hs hs fun _ => rfl⟩

/-- **One report.**  The published state follows on exactly if the report, where it is passed
over, repeats what is known. -/
theorem follows_step {dev : Device} {c : Coordinator} {r : Report} (hfollows : Follows dev c)
    (hdec : Decodable (dev.dps.update r.dps)) :
    Follows (handleDps Coordinator.callbacks r.now r.dps r.full dev c).dev
        (handleDps Coordinator.callbacks r.now r.dps r.full dev c).client ↔
      (PassedOver dev.dps r → Repeats dev.dps r.dps) := by
  unfold handleDps
  dsimp only
  split
  · rename_i hpublished
    have hnot : ¬ PassedOver dev.dps r := by
      intro hparts
      obtain ⟨hfull, hnews⟩ := hparts
      simp [hfull, hnews] at hpublished
    constructor
    · intro _ hpassed
      exact absurd hpassed hnot
    · intro _
      let dev' := mergeReport r.now r.dps r.full dev
      have hmerged : Decodable dev'.dps := hdec
      exact Follows.publish hmerged c
  · rename_i hpassed
    have hpass : PassedOver dev.dps r := by
      simpa [PassedOver, and_comm] using hpassed
    rw [repeats_iff]
    cases hdata : c.data with
    | none =>
        have hempty := hfollows.unpublished hdata
        have hnews := hpass.2
        rw [hempty] at hnews
        have hunchanged : dev.dps.update r.dps = dev.dps := by
          rw [hempty, empty_of_no_news hnews]
          rfl
        constructor
        · intro _ _ dp
          rw [hunchanged]
        · intro _
          refine ⟨fun s hs => absurd (hdata.symm.trans hs) (by simp), fun _ => ?_⟩
          exact hunchanged.trans hempty
    | some s =>
        obtain ⟨t, ht, hst⟩ := hfollows.published s hdata
        obtain ⟨u, hu⟩ := (fromDps_ok_iff _).mpr hdec
        constructor
        · intro hfollows' _
          obtain ⟨u', hu', hsu⟩ := hfollows'.published s hdata
          have hbefore := hst.dps
          have hafter := hsu.dps
          rw [(fromDps_decoded ht).dps] at hbefore
          rw [(fromDps_decoded hu').dps] at hafter
          exact hbefore.symm.trans hafter
        · intro hrepeats
          refine ⟨fun v hv => ?_, fun hnone => absurd (hdata.symm.trans hnone) (by simp)⟩
          obtain rfl := Option.some.inj (hdata.symm.trans hv)
          have htu := sameState_of_sameDps ht hu (hrepeats hpass)
          exact ⟨u, hu, ⟨fun f => (hst.fields f).trans (htu.fields f), hst.dps.trans htu.dps⟩⟩

/-! ## All reports -/

/-- **When the published state follows the device.**  From a device whose published state follows
it, such as a new one, and for reports after each of which the known DPs decode: the published
state follows the device after every report if and only if every report that is passed over
repeats the values that are known, identical in value and type. -/
theorem follows_iff (reports : List Report) {dev : Device} {c : Coordinator}
    (hfollows : Follows dev c) (hdec : AllDecode dev.dps reports) :
    FollowsAll reports dev c ↔ PassedRepeat dev.dps reports := by
  induction reports generalizing dev c with
  | nil => exact ⟨fun _ => trivial, fun _ => trivial⟩
  | cons r reports ih =>
      have hone := follows_step hfollows hdec.1
      constructor
      · intro hparts
        obtain ⟨hnow, hlater⟩ := hparts
        have hrest := ih hnow (by rw [handleDps_dps]; exact hdec.2)
        rw [handleDps_dps] at hrest
        exact ⟨hone.mp hnow, hrest.mp hlater⟩
      · intro hparts
        obtain ⟨hnow, hlater⟩ := hparts
        have hfollows' := hone.mpr hnow
        have hrest := ih hfollows' (by rw [handleDps_dps]; exact hdec.2)
        rw [handleDps_dps] at hrest
        exact ⟨hfollows', hrest.mpr hlater⟩

/-! ## Examples -/

/-- A new device with its coordinator. -/
def newDevice : Device := { config := exampleConfig }

def newCoordinator : Coordinator := { entry := Coordinator.exampleEntry }

/-- A device that has reported nothing is followed by a coordinator that shows nothing. -/
theorem newDevice_follows : Follows newDevice newCoordinator :=
  ⟨fun s hs => absurd hs (by simp [newCoordinator]), fun _ => rfl⟩

instance AllDecode.decidable :
    ∀ (known : PyDict) (reports : List Report), Decidable (AllDecode known reports)
  | _, [] => isTrue trivial
  | known, r :: reports =>
      have := AllDecode.decidable (known.update r.dps) reports
      inferInstanceAs (Decidable (Decodable (known.update r.dps) ∧ _))

instance (known : PyDict) (r : Report) : Decidable (PassedOver known r) :=
  inferInstanceAs (Decidable (_ ∧ _))

/-- A full status, the same PM2.5 value again, and a new one. -/
def plainReports : List Report :=
  [⟨1, PyDict.ofMembers [(dpSwitch, .bool true), (dpPm25, .int 12)], true⟩,
   ⟨2, PyDict.ofMembers [(dpPm25, .int 12)], false⟩,
   ⟨3, PyDict.ofMembers [(dpPm25, .int 35)], false⟩]

/-- Reports without a repeated value are followed, one by one. -/
theorem plainReports_followed : FollowsAll plainReports newDevice newCoordinator := by
  refine (follows_iff plainReports newDevice_follows (by decide +kernel)).mpr ?_
  refine ⟨fun h => absurd h (by decide), fun _ dp value hvalue => ?_,
    fun h => absurd h (by decide +kernel), trivial⟩
  have hmem := List.mem_singleton.mp (AList.mem_lookup_iff.mp hvalue)
  obtain ⟨rfl, hsame⟩ := Sigma.mk.inj hmem
  obtain rfl := eq_of_heq hsame
  exact ⟨.int 12, rfl, Json.Identical.refl _⟩

/-- The purifier is on, and then reports `1` for its switch. -/
def oneForTrue : List Report :=
  [⟨1, PyDict.ofMembers [(dpSwitch, .bool true)], true⟩,
   ⟨2, PyDict.ofMembers [(dpSwitch, .int 1)], false⟩]

/-- **`1` for `True`.**  The report is passed over, and the purifier is shown switched on while
its DPs no longer say so. -/
theorem oneForTrue_not_followed :
    ¬ ∀ (reports : List Report) (dev : Device) (c : Coordinator), Follows dev c →
      AllDecode dev.dps reports → FollowsAll reports dev c := by
  intro hclaim
  obtain ⟨hfirst, hsecond, _⟩ :=
    hclaim oneForTrue newDevice newCoordinator newDevice_follows (by decide +kernel)
  let r : Report := ⟨2, PyDict.ofMembers [(dpSwitch, .int 1)], false⟩
  have hrepeats := (follows_step (r := r) hfirst (by decide +kernel)).mp hsecond
    (by decide +kernel)
  obtain ⟨old, hold, hsame⟩ := hrepeats dpSwitch (.int 1) rfl
  obtain rfl := Option.some.inj (hold.symm.trans (show _ = some (.bool true) from rfl))
  exact absurd hsame (by simp [Json.Identical, Json.canonical])

end Purifier
