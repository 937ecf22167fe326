import HaBirdie.CommandEcho
import HaBirdie.PurifierEntity
import Mathlib.Algebra.Order.Floor.Ring

/-!
# The fan and its remote control

`purifier/fan.py`: what the fan entity shows of the published state, and what its services send.
A service reads the state when it is called, sends DPs, and the coordinator shows the expected
state when they were sent; in between other calls begin, are sent or fail, and reports come in.

`Remote` says what that amounts to without DPs and their texts: a switch, a setting that is one of
two presets or one of four speeds, and wishes on their way.  Every run of the fan follows it
(`fan_follows_remote`).
-/

namespace Purifier

open Python Lan StepRuns

/-! ## The fan entity -/

/-- Home Assistant's `percentage_to_ranged_value` and `ranged_value_to_percentage`, on the speed
range of the fan. -/
structure Percentages where
  toRanged : Int → ℚ
  fromRanged : Int → Int

/-- They scale linearly, where the numbers allow it up to the rounding of a float. -/
structure Percentages.Linear (ha : Percentages) : Prop where
  exact : ∀ speed : Int, 0 ≤ speed → speed ≤ fanSpeedMax → ha.toRanged (25 * speed) = speed
  near : ∀ p : Int, 0 ≤ p → p ≤ 100 → |ha.toRanged p - p / 25| < 1 / 25
  back : ∀ speed : Int, fanSpeedMin ≤ speed → speed ≤ fanSpeedMax →
    ha.fromRanged speed = 25 * speed

/-- `_speed_for`. -/
def speedFor (ha : Percentages) (percentage : Int) : Int := ⌈ha.toRanged percentage⌉

/-- `PurifierState()`. -/
def PurifierState.empty : PurifierState where
  power := none
  mode := none
  fanSpeed := none
  pm25 := none
  airQuality := none
  filterLifePercent := none
  filterRemainingMinutes := none
  filterReplaceNeeded := none
  filterCoverOpen := none
  hardwareVersion := none
  fault := none
  dps := ∅

/-- `state_data`. -/
def Coordinator.stateData (c : Coordinator) : PurifierState := c.data.getD .empty

/-- `is_on`. -/
def PurifierState.isOn (s : PurifierState) : Option Bool := s.power

/-- `percentage`. -/
def PurifierState.percentage (ha : Percentages) (s : PurifierState) : Option Int :=
  if s.power = some false then some 0
  else
    match s.mode, s.fanSpeed with
    | some .manual, some speed => some (ha.fromRanged speed)
    | _, _ => none

/-- `preset_mode`. -/
def PurifierState.presetMode (s : PurifierState) : Option Mode :=
  s.mode.filter fun mode => decide (mode ∈ presetModes.map Prod.snd)

/-- `ServiceValidationError`, by its translation key. -/
inductive ServiceError
  | invalidCommand (error : CommandError)
  | modeNotSupported
deriving DecidableEq

/-- `_async_send` up to its await: the DPs that it sends. -/
def fanSend (s : PurifierState) (power : Option Bool) (mode : Option PyStr)
    (speed : Option Int) : Except ServiceError PyDict := do
  let dps := power.elim ∅ fun on => (∅ : PyDict).update (powerDps on)
  let dps ← mode.elim (.ok dps) fun mode =>
    ((modeDps mode).mapError .invalidCommand).map dps.update
  let dps ← speed.elim (.ok dps) fun speed =>
    ((fanSpeedDps (.int speed)).mapError .invalidCommand).map dps.update
  if (mode.isSome || speed.isSome) && !s.reported [dpMode] then .error .modeNotSupported
  else .ok dps

/-- The services of the fan. -/
inductive FanCall
  | turnOn (percentage : Option Int) (presetMode : Option PyStr)
  | turnOff
  | setPercentage (percentage : Int)
  | setPresetMode (presetMode : PyStr)

/-- `power=None if self.is_on else True`. -/
def switchedOn (s : PurifierState) : Option Bool := if s.isOn = some true then none else some true

/-- The services, up to the DPs that they send. -/
def fanCall (ha : Percentages) (s : PurifierState) : FanCall → Except ServiceError PyDict
  | .turnOn percentage presetMode =>
      let speed := match percentage, presetMode with
        | some p, none => if p = 0 then none else some (speedFor ha p)
        | _, _ => none
      fanSend s (some true) presetMode speed
  | .turnOff => fanSend s (some false) none none
  | .setPercentage percentage =>
      if percentage = 0 then fanSend s (some false) none none
      else fanSend s (switchedOn s) none (some (speedFor ha percentage))
  | .setPresetMode presetMode => fanSend s (switchedOn s) (some presetMode) none

/-- The fan with the DPs that its calls are sending, and the answers to its calls so far: the
error that a call was refused with, or none. -/
structure Fan where
  coordinator : Coordinator
  sending : List PyDict := []
  answers : List (Option ServiceError) := []

/-- A service is called, `async_set_dps` of a call returns or raises, or a status is published. -/
inductive FanAction
  | call (call : FanCall)
  | sent (i : Nat)
  | failed (i : Nat)
  | report (dps : PyDict)

/-- One step. -/
def Fan.step (ha : Percentages) (f : Fan) : FanAction → Option Fan
  | .call call =>
      match fanCall ha f.coordinator.stateData call with
      | .ok dps =>
          some { f with sending := f.sending ++ [dps], answers := f.answers ++ [none] }
      | .error e => some { f with answers := f.answers ++ [some e] }
  | .sent i => f.sending[i]?.map fun dps =>
      { f with
        coordinator := (f.coordinator.commandSent dps).1
        sending := f.sending.eraseIdx i }
  | .failed i => f.sending[i]?.map fun _ => { f with sending := f.sending.eraseIdx i }
  | .report dps => some { f with coordinator := (f.coordinator.publish dps).1 }

/-- Home Assistant passes percentages from 0 to 100. -/
def FanAction.Served : FanAction → Prop
  | .call (.turnOn (some percentage) _) | .call (.setPercentage percentage) =>
      0 ≤ percentage ∧ percentage ≤ 100
  | _ => True

instance : (a : FanAction) → Decidable a.Served
  | .call (.turnOn (some percentage) _) | .call (.setPercentage percentage) =>
      inferInstanceAs (Decidable (0 ≤ percentage ∧ percentage ≤ 100))
  | .call (.turnOn none _) | .call .turnOff | .call (.setPresetMode _) | .sent _ | .failed _
  | .report _ => isTrue trivial

/-! ## The remote control -/

/-- What a fan is set to: a preset, or the speed `level + 1`. -/
inductive Setting
  | auto
  | sleep
  | speed (level : Fin 4)
deriving DecidableEq

/-- What the remote control shows; `hasModes` says whether the fan has settings at all. -/
structure Controls where
  on : Option Bool
  setting : Option Setting
  hasModes : Bool
deriving DecidableEq

/-- What one command changes. -/
structure Wish where
  on : Option Bool
  setting : Option Setting
deriving DecidableEq

/-- A fan that is off runs at 0 %, and each speed at a quarter more than the one before. -/
def Controls.percentage (c : Controls) : Option Int :=
  if c.on = some false then some 0
  else
    match c.setting with
    | some (.speed level) => some (25 * (level + 1))
    | _ => none

/-- The preset that is shown. -/
def Controls.preset (c : Controls) : Option Mode :=
  match c.setting with
  | some .auto => some .auto
  | some .sleep => some .sleep
  | _ => none

/-- The lowest speed that reaches a percentage. -/
def Setting.reaching (percentage : Int) : Setting :=
  .speed (Fin.ofNat 4 ((percentage - 1) / 25).toNat)

/-- The presets by their names. -/
def Setting.named (name : PyStr) : Except ServiceError Setting :=
  if name = modeAuto then .ok .auto
  else if name = modeSleep then .ok .sleep
  else .error (.invalidCommand .modeExpected)

/-- A wish for a setting, which a fan without settings refuses. -/
def Controls.choose (c : Controls) (on : Option Bool) (setting : Setting) :
    Except ServiceError Wish :=
  if c.hasModes then .ok ⟨on, some setting⟩ else .error .modeNotSupported

/-- A setting switches the fan on, unless it is on. -/
def Controls.switchOn (c : Controls) : Option Bool := if c.on = some true then none else some true

/-- What the buttons ask for. -/
def Controls.ask (c : Controls) : FanCall → Except ServiceError Wish
  | .turnOn _ (some name) => do c.choose (some true) (← Setting.named name)
  | .turnOn (some percentage) none =>
      if percentage = 0 then .ok ⟨some true, none⟩
      else c.choose (some true) (.reaching percentage)
  | .turnOn none none => .ok ⟨some true, none⟩
  | .turnOff => .ok ⟨some false, none⟩
  | .setPercentage percentage =>
      if percentage = 0 then .ok ⟨some false, none⟩ else c.choose c.switchOn (.reaching percentage)
  | .setPresetMode name => do c.choose c.switchOn (← Setting.named name)

/-- A wish comes true. -/
def Controls.granted (c : Controls) (wish : Wish) : Controls where
  on := wish.on.or c.on
  setting := wish.setting.or c.setting
  hasModes := c.hasModes || wish.setting.isSome

/-- The remote control with the wishes on their way, and its answers so far. -/
structure Remote where
  controls : Controls
  wishes : List Wish := []
  answers : List (Option ServiceError) := []
deriving DecidableEq

/-- What happens to it: a report that tells anything replaces what is shown. -/
inductive RemoteAction
  | press (call : FanCall)
  | grant (i : Nat)
  | refuse (i : Nat)
  | tell (controls : Option Controls)

def Remote.step (r : Remote) : RemoteAction → Option Remote
  | .press call =>
      match r.controls.ask call with
      | .ok wish => some { r with wishes := r.wishes ++ [wish], answers := r.answers ++ [none] }
      | .error e => some { r with answers := r.answers ++ [some e] }
  | .grant i => r.wishes[i]?.map fun wish =>
      { r with controls := r.controls.granted wish, wishes := r.wishes.eraseIdx i }
  | .refuse i => r.wishes[i]?.map fun _ => { r with wishes := r.wishes.eraseIdx i }
  | .tell controls => some { r with controls := controls.getD r.controls }

/-! ## States and their controls -/

/-- The setting of a decoded mode and speed. -/
def settingOf : Option Mode → Option Int → Option Setting
  | some .auto, _ => some .auto
  | some .sleep, _ => some .sleep
  | some .manual, some speed =>
      if fanSpeedMin ≤ speed ∧ speed ≤ fanSpeedMax then
        some (.speed (Fin.ofNat 4 (speed - 1).toNat))
      else none
  | _, _ => none

/-- What a state sets the remote control to. -/
def PurifierState.controls (s : PurifierState) : Controls where
  on := s.power
  setting := settingOf s.mode s.fanSpeed
  hasModes := s.reported [dpMode]

/-- The value of the mode DP for a setting. -/
def Setting.text : Setting → Json
  | .auto => .str modeAuto
  | .sleep => .str modeSleep
  | .speed level => .str (modeManual ++ numeral (level + 1))

/-- A speed and its level. -/
theorem settingOf_speed {speed : Int} (hmin : fanSpeedMin ≤ speed) (hmax : speed ≤ fanSpeedMax) :
    ∃ level : Fin 4, settingOf (some .manual) (some speed) = some (.speed level) ∧
      speed = level + 1 := by
  refine ⟨Fin.ofNat 4 (speed - 1).toNat, if_pos ⟨hmin, hmax⟩, ?_⟩
  unfold fanSpeedMin at hmin
  unfold fanSpeedMax at hmax
  rw [Fin.val_ofNat]
  omega

/-- Each setting is decoded from its text. -/
theorem Setting.decode_text (setting : Setting) :
    ∃ mode speed, decodeMode setting.text = .ok (mode, speed) ∧
      settingOf mode speed = some setting := by
  cases setting with
  | auto => exact ⟨some .auto, none, decodeMode_preset (p := (modeAuto, .auto)) (by decide), rfl⟩
  | sleep =>
      exact ⟨some .sleep, none, decodeMode_preset (p := (modeSleep, .sleep)) (by decide), rfl⟩
  | speed level =>
      have hmin : fanSpeedMin ≤ (level : Int) + 1 := by unfold fanSpeedMin; omega
      have hmax : (level : Int) + 1 ≤ fanSpeedMax := by unfold fanSpeedMax; omega
      refine ⟨some .manual, some (level + 1), decodeMode_numeral hmin hmax, ?_⟩
      obtain ⟨level', hsetting, heq⟩ := settingOf_speed hmin hmax
      obtain rfl : level' = level := Fin.ext (by omega)
      exact hsetting

/-- **A decoded state shows what its controls show.**  The percentages are those of the four speeds;
the preset is `auto` or `sleep`, or there is none. -/
theorem shown_controls {ha : Percentages} (hha : ha.Linear) {s : PurifierState}
    (hs : fromDps s.dps = .ok s) :
    s.isOn = s.controls.on ∧ s.percentage ha = s.controls.percentage ∧
      s.presetMode = s.controls.preset := by
  refine ⟨rfl, ?_⟩
  unfold PurifierState.percentage Controls.percentage PurifierState.presetMode Controls.preset
  show (if s.power = some false then some 0 else _) =
    (if s.power = some false then some 0 else _) ∧ _
  have hdecodes := decodes_of_decodeMode (fromDps_decoded hs).mode
  generalize s.dps.get dpMode = value at hdecodes
  unfold PurifierState.controls
  generalize hmode : s.mode = mode at hdecodes ⊢
  generalize hspeed : s.fanSpeed = speed at hdecodes ⊢
  cases hdecodes with
  | @preset text mode hp =>
      have hpresets : mode = .auto ∨ mode = .sleep := by
        have hall : ∀ p ∈ presetModes, p.2 = .auto ∨ p.2 = .sleep := by decide
        exact hall _ hp
      rcases hpresets with rfl | rfl
      · exact ⟨rfl, by simp [settingOf, presetModes]⟩
      · exact ⟨rfl, by simp [settingOf, presetModes]⟩
  | @speed suffix n _ _ hmin hmax =>
      obtain ⟨level, hsetting, hn⟩ := settingOf_speed hmin hmax
      rw [hsetting]
      refine ⟨?_, by simp [presetModes]⟩
      dsimp only
      rw [hha.back n hmin hmax, hn]
  | unknown => exact ⟨rfl, rfl⟩

/-! ## Wishes and the DPs that carry them -/

/-- The DPs of a command carry a wish. -/
structure Carries (w : PyDict) (wish : Wish) : Prop where
  power : w.lookup dpSwitch = wish.on.map Json.bool
  mode : w.lookup dpMode = wish.setting.map Setting.text
  command : CommandWrite w

/-- **A command that was sent** grants the wish that it carries.  The expected state is decoded
from the merged DPs, and its controls are those wished for. -/
theorem Carries.granted {w : PyDict} {wish : Wish} {s : PurifierState} (h : Carries w wish)
    (hs : fromDps s.dps = .ok s) :
    ∃ expected, applyDps s w = .ok expected ∧ fromDps expected.dps = .ok expected ∧
      expected.controls = s.controls.granted wish := by
  have hdec : Decodable s.dps := (fromDps_ok_iff _).mp ⟨s, hs⟩
  obtain ⟨expected, hexpected⟩ := (fromDps_ok_iff _).mpr (hdec.command h.command)
  have hnew := fromDps_decoded hexpected
  have hold := fromDps_decoded hs
  have hlookup : ∀ {dp : PyStr}, dp ≠ dpResetFilter →
      (s.dps.update (w.erase dpResetFilter)).lookup dp = (w.lookup dp).or (s.dps.lookup dp) := by
    intro dp hdp
    rw [PyDict.lookup_update, AList.lookup_erase_ne hdp]
  have hswitch := @hlookup dpSwitch (by decide)
  have hmode := @hlookup dpMode (by decide)
  refine ⟨expected, hexpected, by rw [hnew.dps]; exact hexpected, ?_⟩
  have hon : expected.power = wish.on.or s.power := by
    rw [hnew.power, hold.power, PyDict.get, hswitch, h.power]
    cases wish.on <;> rfl
  have hsetting : settingOf expected.mode expected.fanSpeed =
      wish.setting.or (settingOf s.mode s.fanSpeed) := by
    have hdecoded := hnew.mode
    rw [PyDict.get, hmode, h.mode] at hdecoded
    cases hwish : wish.setting with
    | none =>
        rw [hwish] at hdecoded
        have hsame := Except.ok.inj (hdecoded.symm.trans hold.mode)
        obtain ⟨hm, hf⟩ := Prod.mk.inj hsame
        rw [hm, hf]
        rfl
    | some setting =>
        rw [hwish] at hdecoded
        obtain ⟨mode, speed, htext, hset⟩ := setting.decode_text
        obtain ⟨hm, hf⟩ := Prod.mk.inj (Except.ok.inj (hdecoded.symm.trans htext))
        rw [hm, hf, hset]
        rfl
  have hmodes : expected.reported [dpMode] = (s.reported [dpMode] || wish.setting.isSome) := by
    simp only [PurifierState.reported, List.all_cons, List.all_nil, Bool.and_true]
    rw [hnew.dps, Bool.eq_iff_iff, Bool.or_eq_true, decide_eq_true_eq, decide_eq_true_eq,
      ← AList.lookup_isSome, ← AList.lookup_isSome, hmode, h.mode]
    cases wish.setting <;> simp
  unfold PurifierState.controls Controls.granted
  rw [hon, hsetting, hmodes]

/-! ## Calls -/

/-- The switch of a call, as `_async_send` builds it. -/
def switchDps (power : Option Bool) : PyDict :=
  power.elim ∅ fun on => (∅ : PyDict).update (powerDps on)

/-- The DPs of a switch carry just that. -/
theorem carries_switch (power : Option Bool) : Carries (switchDps power) ⟨power, none⟩ := by
  cases power with
  | none => exact ⟨rfl, rfl, .empty⟩
  | some on => exact ⟨by cases on <;> rfl, by cases on <;> rfl, .merge .empty (.power on)⟩

/-- What the command functions write for a setting. -/
theorem Setting.command (setting : Setting) :
    CommandWrite ((∅ : PyDict).insert dpMode setting.text) := by
  cases setting with
  | auto => exact @CommandWrite.mode modeAuto _ rfl
  | sleep => exact @CommandWrite.mode modeSleep _ rfl
  | speed level =>
      refine @CommandWrite.fanSpeed (.int (level + 1)) _ ?_
      unfold fanSpeedDps fanSpeedMin fanSpeedMax
      exact if_pos (by omega)

/-- A setting on top of the switch. -/
theorem carries_setting (power : Option Bool) (setting : Setting) :
    Carries ((switchDps power).update ((∅ : PyDict).insert dpMode setting.text))
      ⟨power, some setting⟩ := by
  have hswitch := carries_switch power
  refine ⟨?_, ?_, .merge hswitch.command setting.command⟩
  · rw [PyDict.lookup_update, AList.lookup_insert_ne (by decide), hswitch.power]
    rfl
  · rw [PyDict.lookup_update, AList.lookup_insert]
    rfl

/-- The fan answers a call as the remote control does. -/
inductive Answers : Except ServiceError PyDict → Except ServiceError Wish → Prop
  | accepted {dps : PyDict} {wish : Wish} (h : Carries dps wish) : Answers (.ok dps) (.ok wish)
  | rejected (e : ServiceError) : Answers (.error e) (.error e)

/-- A setting is refused while the mode DP was not reported. -/
theorem answers_setting (s : PurifierState) (power : Option Bool) (setting : Setting) :
    Answers
      (if (!s.reported [dpMode]) = true then .error .modeNotSupported
        else .ok ((switchDps power).update ((∅ : PyDict).insert dpMode setting.text)))
      (s.controls.choose power setting) := by
  unfold Controls.choose PurifierState.controls
  by_cases hreported : s.reported [dpMode] = true
  · rw [if_neg (by simp [hreported]), if_pos hreported]
    exact .accepted (carries_setting power setting)
  · rw [if_pos (by simp [hreported]), if_neg hreported]
    exact .rejected _

/-- A call that only switches sends just the switch, and is never refused. -/
theorem answers_switch (s : PurifierState) (power : Option Bool) :
    Answers (fanSend s power none none) (.ok ⟨power, none⟩) :=
  .accepted (carries_switch power)

/-- A speed from 1 to 4.  The command carries the mode of that speed, and the power where it has to
be switched. -/
theorem answers_speed (s : PurifierState) (power : Option Bool) {speed : Int} {level : Fin 4}
    (hspeed : speed = level + 1) :
    Answers (fanSend s power none (some speed)) (s.controls.choose power (.speed level)) := by
  have hdps : fanSpeedDps (.int speed) =
      .ok ((∅ : PyDict).insert dpMode (Setting.text (.speed level))) := by
    subst hspeed
    unfold fanSpeedDps fanSpeedMin fanSpeedMax
    exact if_pos (by omega)
  have hsend : fanSend s power none (some speed) =
      if (!s.reported [dpMode]) = true then .error .modeNotSupported
      else .ok ((switchDps power).update
        ((∅ : PyDict).insert dpMode (Setting.text (.speed level)))) := by
    unfold fanSend
    simp only [Option.elim_none, Option.elim_some, hdps]
    rfl
  rw [hsend]
  exact answers_setting s power _

/-- A preset by its name.  A name that is no preset is refused with the same error on both
sides. -/
theorem answers_preset (s : PurifierState) (power : Option Bool) (name : PyStr) :
    Answers (fanSend s power (some name) none)
      (Setting.named name >>= s.controls.choose power) := by
  have hsend : ∀ {setting : Setting},
      modeDps name = .ok ((∅ : PyDict).insert dpMode setting.text) →
      Setting.named name = .ok setting →
      Answers (fanSend s power (some name) none)
        (Setting.named name >>= s.controls.choose power) := by
    intro setting hdps hnamed
    have hsend : fanSend s power (some name) none =
        if (!s.reported [dpMode]) = true then .error .modeNotSupported
        else .ok ((switchDps power).update ((∅ : PyDict).insert dpMode setting.text)) := by
      unfold fanSend
      simp only [Option.elim_none, Option.elim_some, hdps]
      rfl
    rw [hsend, hnamed]
    exact answers_setting s power setting
  by_cases hauto : name = modeAuto
  · subst hauto
    exact @hsend .auto rfl rfl
  by_cases hsleep : name = modeSleep
  · subst hsleep
    exact @hsend .sleep rfl rfl
  · have hdps : modeDps name = .error .modeExpected := by
      unfold modeDps
      have hlookup : presetModes.lookup name = none := by
        rw [List.lookup_eq_none_iff]
        intro p hp
        rcases List.mem_pair.mp hp with rfl | rfl
        · exact bne_iff_ne.mpr hauto
        · exact bne_iff_ne.mpr hsleep
      rw [hlookup]
    have hnamed : Setting.named name = .error (.invalidCommand .modeExpected) := by
      unfold Setting.named
      rw [if_neg hauto, if_neg hsleep]
    unfold fanSend
    simp only [Option.elim_some, hdps]
    rw [hnamed]
    exact .rejected _

/-- A percentage above 0 is reached by the lowest speed that reaches it.  With linear percentages
each speed has a quarter. -/
theorem speedFor_reaching {ha : Percentages} (hha : ha.Linear) {p : Int} (hpos : 0 < p)
    (hmax : p ≤ 100) : ∃ level : Fin 4, Setting.reaching p = .speed level ∧
      speedFor ha p = level + 1 := by
  refine ⟨Fin.ofNat 4 ((p - 1) / 25).toNat, rfl, ?_⟩
  have hlevel : (((Fin.ofNat 4 ((p - 1) / 25).toNat : Fin 4) : ℕ) : Int) = (p - 1) / 25 := by
    rw [Fin.val_ofNat]
    omega
  rw [hlevel]
  unfold speedFor
  rw [Int.ceil_eq_iff]
  obtain ⟨q, hq⟩ : ∃ q, (p - 1) / 25 = q := ⟨_, rfl⟩
  rw [hq]
  by_cases hmultiple : p = 25 * (q + 1)
  · rw [hmultiple, hha.exact (q + 1) (by omega) (by unfold fanSpeedMax; omega)]
    push_cast
    constructor
    · linarith
    · linarith
  · -- strictly between two multiples of 25 the rounding does not reach either
    have hnear := abs_lt.mp (hha.near p (by omega) hmax)
    have hlow : 25 * q + 1 ≤ p := by omega
    have hhigh : p + 1 ≤ 25 * (q + 1) := by omega
    have hlow' : (25 * q + 1 : ℚ) ≤ p := by exact_mod_cast hlow
    have hhigh' : (p + 1 : ℚ) ≤ 25 * (q + 1) := by exact_mod_cast hhigh
    push_cast
    constructor
    · linarith [hnear.1]
    · linarith [hnear.2]

/-- **A call** is answered as the remote control answers it.  This is the case distinction over the
calls of a fan entity. -/
theorem answers_call {ha : Percentages} (hha : ha.Linear) (s : PurifierState) {call : FanCall}
    (hserved : (FanAction.call call).Served) :
    Answers (fanCall ha s call) (s.controls.ask call) := by
  have hswitched : switchedOn s = s.controls.switchOn := rfl
  have hspeed : ∀ {p : Int} (power : Option Bool), p ≠ 0 → 0 ≤ p ∧ p ≤ 100 →
      Answers (fanSend s power none (some (speedFor ha p)))
        (s.controls.choose power (.reaching p)) := by
    intro p power hne hrange
    obtain ⟨level, hreaching, hlevel⟩ := speedFor_reaching hha (by omega : 0 < p) hrange.2
    rw [hreaching]
    exact answers_speed s power hlevel
  cases call with
  | turnOn percentage presetMode =>
      cases presetMode with
      | some name =>
          have hnone : fanCall ha s (.turnOn percentage (some name)) =
              fanSend s (some true) (some name) none := by
            cases percentage <;> rfl
          rw [hnone]
          exact answers_preset s (some true) name
      | none =>
          cases percentage with
          | none => exact answers_switch s (some true)
          | some p =>
              unfold fanCall Controls.ask
              by_cases hp : p = 0
              · simp only [if_pos hp]
                exact answers_switch s (some true)
              · simp only [if_neg hp]
                exact hspeed (some true) hp hserved
  | turnOff => exact answers_switch s (some false)
  | setPercentage p =>
      unfold fanCall Controls.ask
      by_cases hp : p = 0
      · simp only [if_pos hp]
        exact answers_switch s (some false)
      · simp only [if_neg hp]
        rw [hswitched]
        exact hspeed _ hp hserved
  | setPresetMode name => exact answers_preset s (switchedOn s) name

/-! ## The simulation -/

/-- The published state shows what the remote control shows, what is being sent carries its
wishes, and the calls were answered alike. -/
structure Controlled (f : Fan) (r : Remote) : Prop where
  published : ∃ s, f.coordinator.data = some s ∧ fromDps s.dps = .ok s ∧ s.controls = r.controls
  sending : List.Forall₂ Carries f.sending r.wishes
  answers : f.answers = r.answers

/-- The published state decodes from its own DPs, and shows what the remote control shows. -/
theorem Controlled.stateData {f : Fan} {r : Remote} (h : Controlled f r) :
    fromDps f.coordinator.stateData.dps = .ok f.coordinator.stateData ∧
      f.coordinator.stateData.controls = r.controls := by
  obtain ⟨s, hdata, hs, hcontrols⟩ := h.published
  have hstate : f.coordinator.stateData = s := by simp [Coordinator.stateData, hdata]
  rw [hstate]
  exact ⟨hs, hcontrols⟩

/-- What the remote control sees of an action. -/
def FanAction.remote : FanAction → RemoteAction
  | .call c => .press c
  | .sent i => .grant i
  | .failed i => .refuse i
  | .report dps => .tell ((fromDps dps).toOption.map PurifierState.controls)

/-- Lists that are related element by element are related at each index. -/
theorem forall₂_getElem? {α β : Type} {rel : α → β → Prop} {xs : List α} {ys : List β}
    (h : List.Forall₂ rel xs ys) {i : ℕ} {x : α} (hx : xs[i]? = some x) :
    ∃ y, ys[i]? = some y ∧ rel x y := by
  obtain ⟨hlt, rfl⟩ := List.getElem?_eq_some_iff.mp hx
  have hlt' : i < ys.length := h.length_eq ▸ hlt
  exact ⟨ys[i], List.getElem?_eq_getElem hlt', h.get hlt hlt'⟩

/-- They stay related without one of their pairs. -/
theorem forall₂_eraseIdx {α β : Type} {rel : α → β → Prop} {xs : List α} {ys : List β}
    (h : List.Forall₂ rel xs ys) (i : ℕ) : List.Forall₂ rel (xs.eraseIdx i) (ys.eraseIdx i) := by
  induction h generalizing i with
  | nil => exact .nil
  | cons hrel htail ih =>
      cases i with
      | zero => exact htail
      | succ i => exact .cons hrel (ih i)

/-- **The remote control follows one step.**  A command's echo and a report go the same way through
the controls as through the DPs. -/
theorem Controlled.step {ha : Percentages} (hha : ha.Linear) {f f' : Fan} {a : FanAction}
    {r : Remote} (h : Controlled f r) (hserved : a.Served) (hstep : f.step ha a = some f') :
    ∃ r', r.step a.remote = some r' ∧ Controlled f' r' := by
  obtain ⟨hs, hcontrols⟩ := h.stateData
  cases a with
  | call call =>
      have hanswers := answers_call hha f.coordinator.stateData hserved
      rw [hcontrols] at hanswers
      simp only [Fan.step] at hstep
      simp only [FanAction.remote, Remote.step]
      generalize fanCall ha f.coordinator.stateData call = sends at hanswers hstep
      generalize r.controls.ask call = asks at hanswers
      cases hanswers with
      | accepted hcarries =>
          obtain rfl := Option.some.inj hstep
          refine ⟨_, rfl, h.published,
            List.rel_append h.sending (List.Forall₂.cons hcarries .nil), ?_⟩
          show f.answers ++ [none] = r.answers ++ [none]
          rw [h.answers]
      | rejected e =>
          obtain rfl := Option.some.inj hstep
          refine ⟨_, rfl, h.published, h.sending, ?_⟩
          show f.answers ++ [some e] = r.answers ++ [some e]
          rw [h.answers]
  | sent i =>
      obtain ⟨dps, hdps, rfl⟩ := Option.map_eq_some_iff.mp hstep
      obtain ⟨wish, hwish, hcarries⟩ := forall₂_getElem? h.sending hdps
      refine ⟨{ r with controls := r.controls.granted wish, wishes := r.wishes.eraseIdx i },
        Option.map_eq_some_iff.mpr ⟨wish, hwish, rfl⟩, ?_, forall₂_eraseIdx h.sending i,
        h.answers⟩
      obtain ⟨s, hdata, hs, hcontrols⟩ := h.published
      obtain ⟨expected, happly, hexpected, hgranted⟩ := hcarries.granted hs
      refine ⟨expected, ?_, hexpected, by rw [hgranted, hcontrols]⟩
      simp [Coordinator.commandSent, hdata, happly, Coordinator.setUpdatedData]
  | failed i =>
      obtain ⟨dps, hdps, rfl⟩ := Option.map_eq_some_iff.mp hstep
      obtain ⟨wish, hwish, _⟩ := forall₂_getElem? h.sending hdps
      exact ⟨_, Option.map_eq_some_iff.mpr ⟨wish, hwish, rfl⟩, h.published,
        forall₂_eraseIdx h.sending i, h.answers⟩
  | report dps =>
      obtain rfl := Option.some.inj hstep
      refine ⟨_, rfl, ?_, h.sending, h.answers⟩
      cases hdecode : fromDps dps with
      | error e =>
          obtain ⟨s, hdata, hs, hcontrols⟩ := h.published
          refine ⟨s, ?_, hs, ?_⟩
          · simp [Coordinator.publish, hdecode, hdata]
          · simpa [Except.toOption] using hcontrols
      | ok state =>
          have hdps := (fromDps_decoded hdecode).dps
          refine ⟨state, ?_, by rw [hdps]; exact hdecode, ?_⟩
          · simp [Coordinator.publish, hdecode, Coordinator.setUpdatedData]
          · simp [Except.toOption]

/-- **The fan follows its remote control.**  Let a state be published, and let services be called
at any time, with percentages from 0 to 100 and any preset names, be sent or fail in any order, and
any reports come in.  Then the remote control can follow, with a wish for each command that is
being sent; it accepted the same calls and refused the others with the same errors; and the fan
shows its switch, its percentage and its preset. -/
theorem fan_follows_remote {ha : Percentages} (hha : ha.Linear) {c : Coordinator}
    {s : PurifierState} (hdata : c.data = some s) (hs : fromDps s.dps = .ok s)
    {as : List FanAction} {f : Fan}
    (hrun : Run (Fan.step ha) (fun _ a => a.Served) { coordinator := c } as f) :
    ∃ r : Remote, exec Remote.step { controls := s.controls } (as.map FanAction.remote) = some r ∧
      f.answers = r.answers ∧
      List.Forall₂ Carries f.sending r.wishes ∧
      f.coordinator.stateData.isOn = r.controls.on ∧
      f.coordinator.stateData.percentage ha = r.controls.percentage ∧
      f.coordinator.stateData.presetMode = r.controls.preset := by
  have hinit : Controlled { coordinator := c } { controls := s.controls } :=
    ⟨⟨s, hdata, hs, rfl⟩, .nil, rfl⟩
  obtain ⟨r, hexec, hr⟩ := hrun.simulates Controlled FanAction.remote
    (fun _ _ _ _ h hserved hstep => h.step hha hserved hstep) hinit
  obtain ⟨hstate, hcontrols⟩ := hr.stateData
  refine ⟨r, hexec, hr.answers, hr.sending, ?_⟩
  rw [← hcontrols]
  exact shown_controls hha hstate

/-- The two functions on numbers that floats have. -/
def exactPercentages : Percentages where
  toRanged p := p * 4 / 100
  fromRanged speed := 25 * speed

/-- Percentages computed without rounding are linear. -/
theorem exactPercentages_linear : exactPercentages.Linear where
  exact speed _ _ := by
    simp only [exactPercentages]
    push_cast
    ring
  near p _ _ := by
    have hzero : exactPercentages.toRanged p - p / 25 = 0 := by
      simp only [exactPercentages]
      ring
    rw [hzero]
    norm_num
  back _ _ _ := rfl

/-- Two thirds while the fan is off, a preset, a preset that there is not, and a command that
fails. -/
def fourCalls : List FanAction :=
  [.call (.setPercentage 66), .call (.setPresetMode modeSleep), .call (.setPresetMode modeManual),
    .call .turnOff, .sent 1, .failed 1, .sent 0]

/-- The four calls: the third is refused, and two thirds are the third speed.  The remote control
refuses the same one, with the same error. -/
theorem fan_follows_remote_calls :
    ∃ (s : PurifierState) (f : Fan), offCoordinator.data = some s ∧
      f.answers = [none, none, some (.invalidCommand .modeExpected), none] ∧
      f.coordinator.stateData.percentage exactPercentages = some 75 ∧
      ∃ r : Remote,
        exec Remote.step { controls := s.controls } (fourCalls.map FanAction.remote) = some r ∧
        f.answers = r.answers ∧
        List.Forall₂ Carries f.sending r.wishes ∧
        f.coordinator.stateData.isOn = r.controls.on ∧
        f.coordinator.stateData.percentage exactPercentages = r.controls.percentage ∧
        f.coordinator.stateData.presetMode = r.controls.preset := by
  obtain ⟨s, hs⟩ := (fromDps_ok_iff offDps).mpr (by decide +kernel)
  have hdata : offCoordinator.data = some s := by
    simp [offCoordinator, Coordinator.publish, hs, Coordinator.setUpdatedData]
  have hdps : s.dps = offDps := (fromDps_decoded hs).dps
  let execution := exec (Fan.step exactPercentages) { coordinator := offCoordinator } fourCalls
  obtain ⟨f, hf⟩ := Option.isSome_iff_exists.mp (show execution.isSome = true by decide +kernel)
  have hfacts : ∀ f ∈ execution,
      f.answers = [none, none, some (.invalidCommand .modeExpected), none] ∧
        f.coordinator.stateData.percentage exactPercentages = some 75 := by decide +kernel
  obtain ⟨hanswers, hpercentage⟩ := hfacts f hf
  exact ⟨s, f, hdata, hanswers, hpercentage, fan_follows_remote exactPercentages_linear hdata
    (by rw [hdps]; exact hs) (Run.of_meets hf (by decide +kernel))⟩

end Purifier
