import HaBirdie.PurifierCoordinator

/-!
# How long an expected result is shown

After a command the coordinator publishes the state the command is expected to produce
(`apply_dps`).  That state exists in the coordinator only; the LAN client still knows the
DPs as the device last reported them.  Every later report that brings news is published from
the client's DPs, also one about something else, so the expected power and mode stay only
while the client's own DPs decode to them (`ExpectedKnown`).

`expected_shown_iff` is exact: for every coordinator state, command and sequence of pushed
reports.
-/

namespace Purifier

open Python Lan

/-- The published power, mode and fan speed are those of `expected`. -/
def Shows (expected : PurifierState) (c : Coordinator) : Prop :=
  ∃ s ∈ c.data, s.power = expected.power ∧ s.mode = expected.mode ∧
    s.fanSpeed = expected.fanSpeed

/-- The expected power, mode and fan speed are shown now, and after each of the pushed
reports. -/
def StaysShown (expected : PurifierState) : List (ℚ × PyDict) → Device → Coordinator → Prop
  | [], _, c => Shows expected c
  | (now, report) :: reports, dev, c =>
      Shows expected c ∧
        let handled := handleDps Coordinator.callbacks now report false dev c
        StaysShown expected reports handled.dev handled.client

/-- The switch and mode DPs of the two maps decode alike. -/
def SameShown (d e : PyDict) : Prop :=
  toBool (d.get dpSwitch) = toBool (e.get dpSwitch) ∧
    decodeMode (d.get dpMode) = decodeMode (e.get dpMode)

/-- Whenever a report brings news and decodes, the DPs the client then knows show what the
expected DPs show. -/
def ExpectedKnown (expectedDps : PyDict) : PyDict → List (ℚ × PyDict) → Prop
  | _, [] => True
  | known, (_, report) :: reports =>
      (reportsNews known report = true → Decodable (known.update report) →
        SameShown (known.update report) expectedDps) ∧
      ExpectedKnown expectedDps (known.update report) reports

instance (expected : PurifierState) (c : Coordinator) : Decidable (Shows expected c) :=
  inferInstanceAs (Decidable (∃ s ∈ c.data, _))

instance StaysShown.decidable (expected : PurifierState) :
    ∀ (reports : List (ℚ × PyDict)) (dev : Device) (c : Coordinator),
      Decidable (StaysShown expected reports dev c)
  | [], _, c => inferInstanceAs (Decidable (Shows expected c))
  | (now, report) :: reports, dev, c =>
      have := StaysShown.decidable expected reports
        (handleDps Coordinator.callbacks now report false dev c).dev
        (handleDps Coordinator.callbacks now report false dev c).client
      inferInstanceAs (Decidable (Shows expected c ∧ _))

instance (d e : PyDict) : Decidable (SameShown d e) :=
  inferInstanceAs (Decidable (_ ∧ _))

instance ExpectedKnown.decidable (expectedDps : PyDict) :
    ∀ (known : PyDict) (reports : List (ℚ × PyDict)),
      Decidable (ExpectedKnown expectedDps known reports)
  | _, [] => isTrue trivial
  | known, (_, report) :: reports =>
      have := ExpectedKnown.decidable expectedDps (known.update report) reports
      inferInstanceAs (Decidable ((_ → _ → _) ∧ _))

/-- The shown fields of a decoded state are those of its switch and mode DPs. -/
theorem fromDps_shown {dps : PyDict} {s : PurifierState} (h : fromDps dps = .ok s) :
    s.power = toBool (dps.get dpSwitch) ∧
      decodeMode (dps.get dpMode) = .ok (s.mode, s.fanSpeed) := by
  have hs := fromDps_decoded h
  exact ⟨hs.power, hs.mode⟩

/-- States of two DP maps show the same where the three DPs that are shown read alike. -/
theorem shows_of_sameShown {d e : PyDict} {s expected : PurifierState}
    (hs : fromDps d = .ok s) (he : fromDps e = .ok expected) :
    (s.power = expected.power ∧ s.mode = expected.mode ∧ s.fanSpeed = expected.fanSpeed) ↔
      SameShown d e := by
  obtain ⟨hpower, hmode⟩ := fromDps_shown hs
  obtain ⟨hpower', hmode'⟩ := fromDps_shown he
  unfold SameShown
  rw [hpower, hpower', hmode, hmode']
  simp

/-- What a coordinator shows is what its published state shows. -/
theorem shows_data {expected s : PurifierState} {c : Coordinator} (h : c.data = some s) :
    Shows expected c ↔
      (s.power = expected.power ∧ s.mode = expected.mode ∧ s.fanSpeed = expected.fanSpeed) := by
  unfold Shows
  rw [h]
  simp

/-- **One report.**  A pushed report keeps the expected result on show exactly if it brings no
news, does not decode, or finds the client's DPs showing the same. -/
theorem shows_handleDps {expected : PurifierState} {expectedDps : PyDict}
    (hexpected : fromDps expectedDps = .ok expected) (now : ℚ) (report : PyDict) (dev : Device)
    (c : Coordinator) (hshows : Shows expected c) :
    Shows expected (handleDps Coordinator.callbacks now report false dev c).client ↔
      (reportsNews dev.dps report = true → Decodable (dev.dps.update report) →
        SameShown (dev.dps.update report) expectedDps) := by
  unfold handleDps
  by_cases hnews : reportsNews dev.dps report = true
  · rw [if_pos (by simp [hnews])]
    show Shows expected (c.publish (dev.dps.update report)).1 ↔ _
    by_cases hdec : Decodable (dev.dps.update report)
    · obtain ⟨s, hs⟩ := (fromDps_ok_iff _).mpr hdec
      have hpublished : (c.publish (dev.dps.update report)).1.data = some s := by
        simp [Coordinator.publish, hs, Coordinator.setUpdatedData]
      rw [shows_data hpublished, shows_of_sameShown hs hexpected]
      simp [hnews, hdec]
    · have hsame : (c.publish (dev.dps.update report)).1 = c := by
        unfold Coordinator.publish
        cases hs : fromDps (dev.dps.update report) with
        | ok s => exact absurd ((fromDps_ok_iff _).mp ⟨s, hs⟩) hdec
        | error e => rfl
      rw [hsame]
      simp [hshows, hdec]
  · rw [if_neg (by simpa using hnews)]
    simp [hshows, hnews]

/-- From a state in which the expected result is shown. -/
theorem staysShown_iff {expected : PurifierState} {expectedDps : PyDict}
    (hexpected : fromDps expectedDps = .ok expected) (reports : List (ℚ × PyDict))
    (dev : Device) (c : Coordinator) (hshows : Shows expected c) :
    StaysShown expected reports dev c ↔ ExpectedKnown expectedDps dev.dps reports := by
  induction reports generalizing dev c with
  | nil => simp [StaysShown, ExpectedKnown, hshows]
  | cons timed reports ih =>
      obtain ⟨now, report⟩ := timed
      have hone := shows_handleDps hexpected now report dev c hshows
      simp only [StaysShown, ExpectedKnown]
      by_cases hnext :
          Shows expected (handleDps Coordinator.callbacks now report false dev c).client
      · have hrest := ih (handleDps Coordinator.callbacks now report false dev c).dev _ hnext
        rw [handleDps_dps] at hrest
        rw [hrest]
        exact ⟨fun h => ⟨hone.mp hnext, h.2⟩, fun h => ⟨hshows, h.2⟩⟩
      · -- the result is lost with this report
        have hlost : ¬ StaysShown expected reports
            (handleDps Coordinator.callbacks now report false dev c).dev
            (handleDps Coordinator.callbacks now report false dev c).client := by
          intro hstay
          cases reports with
          | nil => exact hnext hstay
          | cons timed' reports' => exact hnext hstay.1
        simp only [hlost, and_false, false_iff]
        exact fun h => hnext (hone.mpr h.1)

/-- **How long an expected result is shown.**  After a successful command, the expected power,
mode and fan speed stay shown over a sequence of pushed reports if and only if, whenever one
of them brings news and decodes, the client's own DPs show the same. -/
theorem expected_shown_iff {dev : Device} {c : Coordinator} {state expected : PurifierState}
    {w : PyDict} (hdata : c.data = some state) (hexpected : applyDps state w = .ok expected)
    (reports : List (ℚ × PyDict)) :
    StaysShown expected reports dev (c.commandSent w).1 ↔
      ExpectedKnown (state.dps.update (w.erase dpResetFilter)) dev.dps reports := by
  apply staysShown_iff hexpected reports dev _
  have hsent : (c.commandSent w).1.data = some expected := by
    simp [Coordinator.commandSent, hdata, hexpected, Coordinator.setUpdatedData]
  rw [shows_data hsent]
  exact ⟨rfl, rfl, rfl⟩

/-! ## Examples -/

/-- The DPs of a purifier that is off, and a device and coordinator that know them. -/
def offDps : PyDict :=
  PyDict.ofMembers [(dpSwitch, .bool false), (dpMode, .str modeAuto), (dpPm25, .int 12)]

def offDevice : Device := { config := exampleConfig, dps := offDps }

/-- The coordinator after the status of `offDps` was published. -/
def offCoordinator : Coordinator :=
  (Coordinator.publish offDps { entry := Coordinator.exampleEntry }).1

/-- A result that has a value returned it. -/
theorem ok_of_toOption {ε α : Type} {r : Except ε α} {a : α} (h : a ∈ r.toOption) : r = .ok a := by
  cases r with
  | error e => exact absurd h (by simp [Except.toOption])
  | ok b => rw [show b = a by simpa [Except.toOption] using h]

/-- The same device once it has switched itself on, which its last push said. -/
def onDevice : Device := { offDevice with dps := offDps.update (powerDps true) }

/-- While the device repeats what is known, the purifier is shown switched on; and once it has the
written value, also when a new PM2.5 value comes. -/
theorem expected_shown_known :
    ∃ state expected, offCoordinator.data = some state ∧
      applyDps state (powerDps true) = .ok expected ∧ expected.power = some true ∧
      StaysShown expected [(1, PyDict.ofMembers [(dpPm25, .int 12)])] offDevice
        (offCoordinator.commandSent (powerDps true)).1 ∧
      reportsNews onDevice.dps (PyDict.ofMembers [(dpPm25, .int 35)]) = true ∧
      StaysShown expected [(1, PyDict.ofMembers [(dpPm25, .int 35)])] onDevice
        (offCoordinator.commandSent (powerDps true)).1 := by
  have hsome : offCoordinator.data.isSome = true := by decide +kernel
  obtain ⟨state, hstate⟩ := Option.isSome_iff_exists.mp hsome
  have hfacts : ∀ s ∈ offCoordinator.data, ∃ e ∈ (applyDps s (powerDps true)).toOption,
      e.power = some true ∧
      ExpectedKnown (s.dps.update ((powerDps true).erase dpResetFilter)) offDevice.dps
        [(1, PyDict.ofMembers [(dpPm25, .int 12)])] ∧
      reportsNews onDevice.dps (PyDict.ofMembers [(dpPm25, .int 35)]) = true ∧
      ExpectedKnown (s.dps.update ((powerDps true).erase dpResetFilter)) onDevice.dps
        [(1, PyDict.ofMembers [(dpPm25, .int 35)])] := by decide +kernel
  obtain ⟨expected, hexpected, hpower, hknown, hnews, hknown'⟩ := hfacts state hstate
  have hexpected' := ok_of_toOption hexpected
  exact ⟨state, expected, hstate, hexpected', hpower,
    (expected_shown_iff hstate hexpected' _).mpr hknown, hnews,
    (expected_shown_iff hstate hexpected' _).mpr hknown'⟩

/-- A new PM2.5 value alone shows the purifier switched off again. -/
theorem expected_lost_with_news :
    ∃ state expected, offCoordinator.data = some state ∧
      applyDps state (powerDps true) = .ok expected ∧
      dpPm25 ∉ powerDps true ∧
      ¬ StaysShown expected [(1, PyDict.ofMembers [(dpPm25, .int 35)])] offDevice
        (offCoordinator.commandSent (powerDps true)).1 := by
  have hsome : offCoordinator.data.isSome = true := by decide +kernel
  obtain ⟨state, hstate⟩ := Option.isSome_iff_exists.mp hsome
  have hfacts : ∀ s ∈ offCoordinator.data, ∃ e ∈ (applyDps s (powerDps true)).toOption,
      ¬ StaysShown e [(1, PyDict.ofMembers [(dpPm25, .int 35)])] offDevice
        (offCoordinator.commandSent (powerDps true)).1 := by decide +kernel
  obtain ⟨expected, hexpected, hlost⟩ := hfacts state hstate
  exact ⟨state, expected, hstate, ok_of_toOption hexpected, by decide +kernel, hlost⟩

end Purifier
