import HaBirdie.PurifierModes

/-!
# Reports with unexpected values

`from_dps` promises that "unexpected types or values become None".  Which values a DP is expected
to hold is documented where the DP ids are (`dpTypes`): a bool, a number, one of a list of texts,
or a text.

`DecodesSafely` is the promise for a whole report: decoding returns, every field whose DP holds
an unexpected value is `None`, and the other fields are as if that DP was not there.  It is kept
exactly for the reports that decode and spell no fan speed in another way
(`decodesSafely_iff`).
-/

namespace Purifier

open Python

/-! ## What is expected -/

/-- The documented types of DPs. -/
inductive DpType
  | bool
  | value
  | enum (texts : List PyStr)
  | string

/-- The DPs with their documented types. -/
def dpTypes : List (PyStr × DpType) :=
  [(dpSwitch, .bool),
   (dpPm25, .value),
   (dpMode, .enum (presetModes.map Prod.fst ++ writtenSpeeds.map (modeManual ++ ·))),
   (dpAirQuality, .enum (airQualityLevels.map Prod.fst)),
   (dpFilterTotalMinutes, .value),
   (dpFilterUsedMinutes, .value),
   (dpFilterStatus, .bool),
   (dpResetFilter, .bool),
   (dpFilterCover, .bool),
   (dpHwVersion, .string),
   (dpDeviceError, .enum (faultsByDp.map Prod.fst))]

/-- Whether a value is of the type. -/
def DpType.accepts : DpType → Json → Bool
  | .bool, .bool _ => true
  | .value, .int _ => true
  | .value, .float x => x.toModel.unpack.isFinite
  | .enum texts, .str s => texts.contains s
  | .string, .str s => !s.isEmpty
  | _, _ => false

/-- Whether a DP is expected to hold the value. No other DP is expected to be reported. -/
def expectedValue (dp : PyStr) (value : Json) : Bool :=
  (dpTypes.lookup dp).any fun t => t.accepts value

/-! ## Fields and their DPs -/

/-- The decoded fields of `PurifierState`. -/
inductive Field
  | power
  | mode
  | fanSpeed
  | pm25
  | airQuality
  | filterLifePercent
  | filterRemainingMinutes
  | filterReplaceNeeded
  | filterCoverOpen
  | hardwareVersion
  | fault

/-- The DPs whose value the field shows. -/
def Field.shows : Field → List PyStr
  | .power => [dpSwitch]
  | .mode | .fanSpeed => [dpMode]
  | .pm25 => [dpPm25]
  | .airQuality => [dpAirQuality]
  | .filterLifePercent | .filterRemainingMinutes => [dpFilterTotalMinutes, dpFilterUsedMinutes]
  | .filterReplaceNeeded => [dpFilterStatus]
  | .filterCoverOpen => [dpFilterCover]
  | .hardwareVersion => [dpHwVersion]
  | .fault => [dpDeviceError]

/-- The DPs the field depends on: the PM2.5 value and the air quality are hidden while the
sensor is broken. -/
def Field.dependsOn : Field → List PyStr
  | .pm25 => [dpPm25, dpDeviceError]
  | .airQuality => [dpAirQuality, dpDeviceError]
  | f => f.shows

/-- The field is `None`. -/
def Field.IsNone (s : PurifierState) : Field → Prop
  | .power => s.power = none
  | .mode => s.mode = none
  | .fanSpeed => s.fanSpeed = none
  | .pm25 => s.pm25 = none
  | .airQuality => s.airQuality = none
  | .filterLifePercent => s.filterLifePercent = none
  | .filterRemainingMinutes => s.filterRemainingMinutes = none
  | .filterReplaceNeeded => s.filterReplaceNeeded = none
  | .filterCoverOpen => s.filterCoverOpen = none
  | .hardwareVersion => s.hardwareVersion = none
  | .fault => s.fault = none

/-- The field is the same in two states. -/
def Field.Same (s t : PurifierState) : Field → Prop
  | .power => s.power = t.power
  | .mode => s.mode = t.mode
  | .fanSpeed => s.fanSpeed = t.fanSpeed
  | .pm25 => s.pm25 = t.pm25
  | .airQuality => s.airQuality = t.airQuality
  | .filterLifePercent => s.filterLifePercent = t.filterLifePercent
  | .filterRemainingMinutes => s.filterRemainingMinutes = t.filterRemainingMinutes
  | .filterReplaceNeeded => s.filterReplaceNeeded = t.filterReplaceNeeded
  | .filterCoverOpen => s.filterCoverOpen = t.filterCoverOpen
  | .hardwareVersion => s.hardwareVersion = t.hardwareVersion
  | .fault => s.fault = t.fault

/-- The fields of a DP with an unexpected value are `None`, and the fields of other DPs are what
they are without it. -/
def UnexpectedIsNone (dps : PyDict) (s : PurifierState) : Prop :=
  ∀ dp value, dps.lookup dp = some value → expectedValue dp value = false →
    (∀ f : Field, dp ∈ f.shows → f.IsNone s) ∧
      ∃ t, fromDps (dps.erase dp) = .ok t ∧ ∀ f : Field, dp ∉ f.dependsOn → f.Same s t

/-- A report decodes as promised, and it can be told whether it is a purifier's. -/
def DecodesSafely (dps : PyDict) : Prop :=
  (∃ s, fromDps dps = .ok s ∧ UnexpectedIsNone dps s) ∧
    ∃ answer, looksLikePurifier dps = .ok answer

/-! ## Fields depend on their DPs only -/

/-- A field is the same in two states whose DPs are identical where it depends on them.  The fault
counts among these for the fine dust. -/
theorem Field.same_of_get {d e : PyDict} {s t : PurifierState} (hs : Decoded d s)
    (ht : Decoded e t) (f : Field) (h : ∀ dp ∈ f.dependsOn, (d.get dp).Identical (e.get dp)) :
    f.Same s t := by
  have hfault : (d.get dpDeviceError).Identical (e.get dpDeviceError) → s.fault = t.fault := by
    intro heq
    rw [hs.fault, ht.fault]
    exact known_identical faultsByDp heq
  have hfilter : (d.get dpFilterTotalMinutes).Identical (e.get dpFilterTotalMinutes) →
      (d.get dpFilterUsedMinutes).Identical (e.get dpFilterUsedMinutes) →
      s.filterRemainingMinutes = t.filterRemainingMinutes ∧
        s.filterLifePercent = t.filterLifePercent := by
    intro htotal hused
    obtain ⟨total, used, h1, h2, h3, h4⟩ := hs.filter
    obtain ⟨total', used', h1', h2', h3', h4'⟩ := ht.filter
    rw [htotal.congr toInt_canonical, h1'] at h1
    rw [hused.congr toInt_canonical, h2'] at h2
    obtain rfl := Except.ok.inj h1
    obtain rfl := Except.ok.inj h2
    exact ⟨h3.trans h3'.symm, Except.ok.inj (h4.symm.trans h4')⟩
  have hmode : (d.get dpMode).Identical (e.get dpMode) →
      s.mode = t.mode ∧ s.fanSpeed = t.fanSpeed := by
    intro heq
    have hsame := hs.mode
    rw [heq.congr decodeMode_canonical, ht.mode] at hsame
    exact ⟨(congrArg Prod.fst (Except.ok.inj hsame)).symm,
      (congrArg Prod.snd (Except.ok.inj hsame)).symm⟩
  cases f with
  | power =>
      show s.power = t.power
      rw [hs.power, ht.power]
      exact (h dpSwitch (by simp [dependsOn, shows])).congr toBool_canonical
  | mode => exact (hmode (h dpMode (by simp [dependsOn, shows]))).1
  | fanSpeed => exact (hmode (h dpMode (by simp [dependsOn, shows]))).2
  | pm25 =>
      have hsame := hs.pm25
      rw [hfault (h dpDeviceError (by simp [dependsOn])),
        (h dpPm25 (by simp [dependsOn])).congr toInt_canonical, ht.pm25] at hsame
      exact (Except.ok.inj hsame).symm
  | airQuality =>
      show s.airQuality = t.airQuality
      rw [hs.airQuality, ht.airQuality, hfault (h dpDeviceError (by simp [dependsOn])),
        known_identical airQualityLevels (h dpAirQuality (by simp [dependsOn]))]
  | filterLifePercent =>
      exact (hfilter (h dpFilterTotalMinutes (by simp [dependsOn, shows]))
        (h dpFilterUsedMinutes (by simp [dependsOn, shows]))).2
  | filterRemainingMinutes =>
      exact (hfilter (h dpFilterTotalMinutes (by simp [dependsOn, shows]))
        (h dpFilterUsedMinutes (by simp [dependsOn, shows]))).1
  | filterReplaceNeeded =>
      show s.filterReplaceNeeded = t.filterReplaceNeeded
      rw [hs.filterReplaceNeeded, ht.filterReplaceNeeded, flag, flag,
        (h dpFilterStatus (by simp [dependsOn, shows])).congr toBool_canonical]
  | filterCoverOpen =>
      show s.filterCoverOpen = t.filterCoverOpen
      rw [hs.filterCoverOpen, ht.filterCoverOpen, flag, flag,
        (h dpFilterCover (by simp [dependsOn, shows])).congr toBool_canonical]
  | hardwareVersion =>
      show s.hardwareVersion = t.hardwareVersion
      rw [hs.hardwareVersion, ht.hardwareVersion]
      exact (h dpHwVersion (by simp [dependsOn, shows])).congr hardwareVersion_canonical
  | fault => exact hfault (h dpDeviceError (by simp [dependsOn, shows]))

/-! ## Unexpected values decode to `None` -/

/-- A value that was reported is the one that is read. -/
theorem get_of_lookup {dps : PyDict} {dp : PyStr} {value : Json} (h : dps.lookup dp = some value) :
    dps.get dp = value := by
  unfold PyDict.get
  rw [h]
  rfl

/-- A value that is no boolean decodes to nothing. -/
theorem toBool_unexpected {value : Json} (h : DpType.accepts .bool value = false) :
    toBool value = none := by
  cases value with
  | bool b => exact absurd h (by simp [DpType.accepts])
  | _ => rfl

/-- A value that is none of the options decodes to nothing. -/
theorem known_unexpected {α : Type} {options : List (PyStr × α)} {value : Json}
    (h : DpType.accepts (.enum (options.map Prod.fst)) value = false) :
    known value options = none := by
  cases value with
  | str s =>
      simp only [DpType.accepts, List.contains_eq_mem, List.mem_map, decide_eq_false_iff_not] at h
      apply List.lookup_eq_none_iff.mpr
      intro p hp
      simp only [ne_eq, bne_iff_ne]
      intro heq
      obtain rfl := heq
      exact h ⟨p, hp, rfl⟩
  | _ => rfl

/-- A value that is no number, or one that `int` refuses. -/
theorem toInt_unexpected {value : Json} {n : Option Int} (h : DpType.accepts .value value = false)
    (hn : toInt value = .ok n) : n = none := by
  cases value with
  | int m => exact absurd h (by simp [DpType.accepts])
  | float x =>
      have hfinite : nonFinite (.float x) = false :=
        (toInt_isOk _).mp (isOk_iff.mpr ⟨n, hn⟩)
      simp only [DpType.accepts] at h
      simp [nonFinite, h] at hfinite
  | _ => exact (Except.ok.inj hn).symm

/-- A hardware version that is no text decodes to nothing. -/
theorem hardwareVersion_unexpected {value : Json} (h : DpType.accepts .string value = false) :
    hardwareVersion value = none := by
  cases value with
  | str s =>
      cases s with
      | nil => rfl
      | cons c s => exact absurd h (by simp [DpType.accepts])
  | _ => rfl

/-- A mode that is not listed, if it is spelled as written.  Decoding then finds neither a preset
nor a speed. -/
theorem decodeMode_unexpected {value : Json} (hwritten : AsWritten value)
    (h : expectedValue dpMode value = false) : decodeMode value = .ok (none, none) := by
  refine (ModeInverse.of_asWritten hwritten).other ?_ ?_
  · intro n hn
    obtain ⟨⟨hmin, hmax⟩, rfl⟩ := encodesSpeed_iff.mp hn
    unfold fanSpeedMin at hmin
    unfold fanSpeedMax at hmax
    have hcases : n = 1 ∨ n = 2 ∨ n = 3 ∨ n = 4 := by omega
    have hlisted : expectedValue dpMode (.str (modeManual ++ numeral n)) = true := by
      rcases hcases with rfl | rfl | rfl | rfl <;> decide
    exact absurd (hlisted.symm.trans h) (by simp)
  · intro preset hp
    obtain ⟨⟨mode, hmem⟩, rfl⟩ := encodesPreset_iff.mp hp
    have hlisted : ∀ p ∈ presetModes, expectedValue dpMode (.str p.1) = true := by decide
    exact absurd ((hlisted _ hmem).symm.trans h) (by simp)

/-- **A field whose DP holds an unexpected value is `None`.**  By cases over the fields, each with
the DP it is decoded from. -/
theorem Field.isNone_of_unexpected {dps : PyDict} {s : PurifierState} (hs : Decoded dps s)
    (hwritten : AsWritten (dps.get dpMode)) (f : Field) {dp : PyStr} (hdp : dp ∈ f.shows)
    (h : expectedValue dp (dps.get dp) = false) : f.IsNone s := by
  have hfilter : DpType.accepts .value (dps.get dpFilterTotalMinutes) = false ∨
      DpType.accepts .value (dps.get dpFilterUsedMinutes) = false →
      s.filterRemainingMinutes = none ∧ s.filterLifePercent = none := by
    intro hor
    obtain ⟨total, used, htotal, hused, hremaining, hlife⟩ := hs.filter
    rw [hremaining]
    rcases hor with hno | hno
    · obtain rfl := toInt_unexpected hno htotal
      exact ⟨rfl, (Except.ok.inj hlife).symm⟩
    · obtain rfl := toInt_unexpected hno hused
      cases total with
      | none => exact ⟨rfl, (Except.ok.inj hlife).symm⟩
      | some t => exact ⟨rfl, (Except.ok.inj hlife).symm⟩
  have hmode : expectedValue dpMode (dps.get dpMode) = false →
      s.mode = none ∧ s.fanSpeed = none := by
    intro hno
    have hnone := Except.ok.inj (hs.mode.symm.trans (decodeMode_unexpected hwritten hno))
    exact ⟨congrArg Prod.fst hnone, congrArg Prod.snd hnone⟩
  cases f with
  | power =>
      obtain rfl := List.mem_singleton.mp hdp
      exact hs.power.trans (toBool_unexpected h)
  | mode =>
      obtain rfl := List.mem_singleton.mp hdp
      exact (hmode h).1
  | fanSpeed =>
      obtain rfl := List.mem_singleton.mp hdp
      exact (hmode h).2
  | pm25 =>
      obtain rfl := List.mem_singleton.mp hdp
      have hpm25 := hs.pm25
      split at hpm25
      · exact toInt_unexpected h hpm25
      · exact (Except.ok.inj hpm25).symm
  | airQuality =>
      obtain rfl := List.mem_singleton.mp hdp
      show s.airQuality = none
      rw [hs.airQuality, known_unexpected h, ite_self]
  | filterLifePercent =>
      rcases List.mem_pair.mp hdp with rfl | rfl
      · exact (hfilter (Or.inl h)).2
      · exact (hfilter (Or.inr h)).2
  | filterRemainingMinutes =>
      rcases List.mem_pair.mp hdp with rfl | rfl
      · exact (hfilter (Or.inl h)).1
      · exact (hfilter (Or.inr h)).1
  | filterReplaceNeeded =>
      obtain rfl := List.mem_singleton.mp hdp
      show s.filterReplaceNeeded = none
      rw [hs.filterReplaceNeeded, flag, toBool_unexpected h]
      rfl
  | filterCoverOpen =>
      obtain rfl := List.mem_singleton.mp hdp
      show s.filterCoverOpen = none
      rw [hs.filterCoverOpen, flag, toBool_unexpected h]
      rfl
  | hardwareVersion =>
      obtain rfl := List.mem_singleton.mp hdp
      exact hs.hardwareVersion.trans (hardwareVersion_unexpected h)
  | fault =>
      obtain rfl := List.mem_singleton.mp hdp
      exact hs.fault.trans (known_unexpected h)

/-! ## Without the DP -/

/-- Erasing a DP makes it `None`, and leaves the others. -/
theorem get_erase (dps : PyDict) (dp other : PyStr) :
    PyDict.get (dps.erase dp) other = if other = dp then .null else dps.get other := by
  unfold PyDict.get
  split
  · rename_i h
    rw [h, AList.lookup_erase]
    rfl
  · rename_i h
    rw [AList.lookup_erase_ne h]

/-- A property of values that `None` has is kept when a DP is taken away. -/
theorem erase_keeps {f : Json → Bool} (hnull : f .null = false) {dps : PyDict} {other : PyStr}
    (h : f (dps.get other) = false) (dp : PyStr) : f (PyDict.get (dps.erase dp) other) = false := by
  rw [get_erase]
  split
  · exact hnull
  · exact h

/-- A report that decodes does so without a DP with an unexpected value.  Without the DP its part
of the decoding has nothing to raise about. -/
theorem Decodable.erase {dps : PyDict} (h : Decodable dps) {dp : PyStr}
    (hdp : expectedValue dp (dps.get dp) = false) : Decodable (dps.erase dp) := by
  refine { mode := ?mode, total := ?total, used := ?used, pm25 := ?pm25, life := ?life }
  case mode => exact erase_keeps rfl h.mode dp
  case total => exact erase_keeps rfl h.total dp
  case used => exact erase_keeps rfl h.used dp
  case pm25 =>
    intro hsensor
    refine erase_keeps rfl (h.pm25 ?_) dp
    rw [get_erase] at hsensor
    split at hsensor
    · rename_i heq
      -- the unexpected value is no fault
      rw [← heq] at hdp
      rw [known_unexpected hdp]
      simp
    · exact hsensor
  case life =>
    rw [get_erase, get_erase]
    split
    · rfl
    · split
      · unfold lifeOverflows
        split
        · rename_i hused
          exact absurd (Except.ok.inj hused) (by simp)
        · rfl
      · exact h.life

/-! ## The whole report -/

/-- A purifier is recognised if the mode can be read. -/
theorem looksLikePurifier_ok {dps : PyDict} (h : unreadableSpeed (dps.get dpMode) = false) :
    ∃ answer, looksLikePurifier dps = .ok answer := by
  unfold looksLikePurifier
  split
  · exact ⟨_, rfl⟩
  · obtain ⟨r, hr⟩ := isOk_iff.mp ((decodeMode_isOk _).mpr h)
    rw [hr]
    exact ⟨_, rfl⟩

/-- A respelled speed is reported. -/
theorem lookup_of_respelled {dps : PyDict} (h : respelledSpeed (dps.get dpMode) = true) :
    ∃ value, dps.lookup dpMode = some value ∧ dps.get dpMode = value := by
  cases hlookup : dps.lookup dpMode with
  | none => simp [PyDict.get, hlookup, respelledSpeed] at h
  | some value => exact ⟨value, rfl, get_of_lookup hlookup⟩

/-- It is not one of the documented modes. -/
theorem respelled_unexpected {value : Json} (h : respelledSpeed value = true) :
    expectedValue dpMode value = false := by
  cases value with
  | str s =>
      have hlisted : ∀ t ∈ presetModes.map Prod.fst ++ writtenSpeeds.map (modeManual ++ ·),
          respelledSpeed (.str t) = false := by decide
      cases hexpected : expectedValue dpMode (.str s) with
      | false => rfl
      | true =>
          have hmem := List.contains_iff_mem.mp hexpected
          exact absurd ((hlisted s hmem).symm.trans h) (by simp)
  | _ => exact absurd h (by simp [respelledSpeed])

/-- **Reports that decode as promised.**  A report decodes without raising, with `None` for every
unexpected value and the other fields unchanged, exactly if it is decodable and its mode does
not spell a fan speed in another way. -/
theorem decodesSafely_iff (dps : PyDict) :
    DecodesSafely dps ↔ Decodable dps ∧ respelledSpeed (dps.get dpMode) = false := by
  constructor
  · intro hparts
    obtain ⟨⟨s, hs, hnone⟩, _⟩ := hparts
    have hdec := (fromDps_ok_iff dps).mp ⟨s, hs⟩
    refine ⟨hdec, ?_⟩
    cases hspelled : respelledSpeed (dps.get dpMode) with
    | false => rfl
    | true =>
        obtain ⟨value, hvalue, hget⟩ := lookup_of_respelled hspelled
        rw [hget] at hspelled
        have hmode := (hnone dpMode value hvalue (respelled_unexpected hspelled)).1 .mode
          (List.mem_singleton.mpr rfl)
        have hread : unreadableSpeed value = false := by
          rw [← hget]
          exact hdec.mode
        obtain ⟨n, hn⟩ := decodeMode_respelled hread hspelled
        have hdecoded := (fromDps_decoded hs).mode
        rw [hget, hn] at hdecoded
        have hmanual := congrArg Prod.fst (Except.ok.inj hdecoded)
        exact absurd (hmanual.trans hmode) (by simp)
  · intro hparts
    obtain ⟨hdec, hspelled⟩ := hparts
    obtain ⟨s, hs⟩ := (fromDps_ok_iff dps).mpr hdec
    have hdecoded := fromDps_decoded hs
    refine ⟨⟨s, hs, ?_⟩, looksLikePurifier_ok hdec.mode⟩
    intro dp value hvalue hunexpected
    rw [← get_of_lookup hvalue] at hunexpected
    refine ⟨fun f hf =>
      f.isNone_of_unexpected hdecoded ⟨hdec.mode, hspelled⟩ hf hunexpected, ?_⟩
    obtain ⟨t, ht⟩ := (fromDps_ok_iff _).mpr (hdec.erase hunexpected)
    refine ⟨t, ht, fun f hf => f.same_of_get hdecoded (fromDps_decoded ht) ?_⟩
    intro other hother
    have hne : other ≠ dp := by
      intro heq
      obtain rfl := heq
      exact hf hother
    rw [get_erase, if_neg hne]
    exact Json.Identical.refl _

/-- **`NaN` raises.**  Python's JSON module reads it, and `int` does not take it. -/
theorem nan_does_not_decode : ¬ ∀ dps, DecodesSafely dps := by
  intro hclaim
  obtain ⟨⟨s, hs, _⟩, _⟩ := hclaim (PyDict.ofMembers [(dpPm25, .float (0.0 / 0.0))])
  exact absurd ((fromDps_ok_iff _).mp ⟨s, hs⟩) (by decide +kernel)

end Purifier
