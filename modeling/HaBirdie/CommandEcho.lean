import HaBirdie.OptimisticState
import HaBirdie.PurifierReports

/-!
# A command and its echo

A command is applied twice: `apply_dps` merges it into the decoded state that is shown at once,
and later the device reports the DPs it was sent, which `_handle_dps` merges into the DPs of the
client.  The device never reports the trigger of a filter reset.

Both merge the same DPs into the same map, and no command makes a map undecodable, so the two
agree after any number of commands (`optimistic_agrees_with_echo`).
-/

namespace Purifier

open Python Lan

variable {γ : Type}

/-! ## Command writes -/

/-- DPs to write, put together from the command functions. -/
inductive CommandWrite : PyDict → Prop
  | empty : CommandWrite ∅
  | power (on : Bool) : CommandWrite (powerDps on)
  | mode {mode : PyStr} {w : PyDict} : modeDps mode = .ok w → CommandWrite w
  | fanSpeed {speed : Json} {w : PyDict} : fanSpeedDps speed = .ok w → CommandWrite w
  | resetFilter : CommandWrite resetFilterDps
  | merge {v w : PyDict} : CommandWrite v → CommandWrite w → CommandWrite (v.update w)

/-- What a command can write: the switch, a readable mode, and the trigger.  Nothing else is ever
written by an entity. -/
theorem CommandWrite.cases_lookup {w : PyDict} (h : CommandWrite w) {dp : PyStr} {value : Json}
    (hvalue : w.lookup dp = some value) :
    dp = dpSwitch ∨ (dp = dpMode ∧ unreadableSpeed value = false) ∨ dp = dpResetFilter := by
  have hone : ∀ {key : PyStr} {v : Json}, ((∅ : PyDict).insert key v).lookup dp = some value →
      dp = key ∧ value = v := by
    intro key v hlookup
    by_cases hkey : dp = key
    · subst hkey
      rw [AList.lookup_insert] at hlookup
      exact ⟨rfl, (Option.some.inj hlookup).symm⟩
    · rw [AList.lookup_insert_ne hkey] at hlookup
      exact nomatch hlookup
  induction h with
  | empty => exact nomatch hvalue
  | power on => exact Or.inl (hone hvalue).1
  | @mode mode w hmode =>
      unfold modeDps at hmode
      split at hmode
      · rename_i preset hpreset
        obtain rfl := Except.ok.inj hmode
        obtain ⟨hdp, rfl⟩ := hone hvalue
        have hread : ∀ p ∈ presetModes, unreadableSpeed (.str p.1) = false := by decide
        have hmem : ∃ p ∈ presetModes, p.1 = mode := by
          by_contra hnone
          push Not at hnone
          have hlookup := List.lookup_eq_none_iff.mpr fun p hp =>
            show (mode != p.1) = true from bne_iff_ne.mpr (hnone p hp).symm
          rw [hpreset] at hlookup
          exact nomatch hlookup
        obtain ⟨p, hp, rfl⟩ := hmem
        exact Or.inr (Or.inl ⟨hdp, hread p hp⟩)
      · exact nomatch hmode
  | @fanSpeed speed w hspeed =>
      unfold fanSpeedDps at hspeed
      split at hspeed
      · rename_i n
        split at hspeed
        · rename_i hrange
          obtain rfl := Except.ok.inj hspeed
          obtain ⟨hdp, rfl⟩ := hone hvalue
          exact Or.inr (Or.inl ⟨hdp, (asWritten_numeral hrange.1 hrange.2).1⟩)
        · exact nomatch hspeed
      · exact nomatch hspeed
  | resetFilter => exact Or.inr (Or.inr (hone hvalue).1)
  | @merge v w _ _ ihv ihw =>
      rw [PyDict.lookup_update] at hvalue
      cases hw : w.lookup dp with
      | some x =>
          rw [hw] at hvalue
          exact ihw (hw.trans hvalue)
      | none =>
          rw [hw] at hvalue
          exact ihv hvalue

/-- A command leaves the other DPs as they are. -/
theorem get_command_other {w : PyDict} (h : CommandWrite w) (d : PyDict) {dp : PyStr}
    (hswitch : dp ≠ dpSwitch) (hmode : dp ≠ dpMode) :
    (d.update (w.erase dpResetFilter)).get dp = d.get dp := by
  have hnone : AList.lookup dp (w.erase dpResetFilter) = none := by
    by_cases hreset : dp = dpResetFilter
    · rw [hreset]
      exact AList.lookup_erase dpResetFilter w
    · rw [AList.lookup_erase_ne hreset]
      cases hlookup : w.lookup dp with
      | none => rfl
      | some value => rcases h.cases_lookup hlookup with h | ⟨h, _⟩ | h <;> contradiction
  rw [PyDict.get, PyDict.lookup_update, hnone]
  rfl

/-- The mode is the one before, or a readable one. -/
theorem get_command_mode {w : PyDict} (h : CommandWrite w) {d : PyDict}
    (hd : unreadableSpeed (d.get dpMode) = false) :
    unreadableSpeed ((d.update (w.erase dpResetFilter)).get dpMode) = false := by
  have hkept : AList.lookup dpMode (w.erase dpResetFilter) = w.lookup dpMode :=
    AList.lookup_erase_ne (by decide)
  rw [PyDict.get, PyDict.lookup_update, hkept]
  cases hlookup : w.lookup dpMode with
  | none => exact hd
  | some value =>
      rcases h.cases_lookup hlookup with hdp | ⟨_, hread⟩ | hdp
      · exact absurd hdp (by decide)
      · exact hread
      · exact absurd hdp (by decide)

/-- No command makes a map undecodable.  The switch and a readable mode decode, and the trigger is
left out of the map. -/
theorem Decodable.command {d w : PyDict} (hd : Decodable d) (h : CommandWrite w) :
    Decodable (d.update (w.erase dpResetFilter)) := by
  have hother : ∀ dp, dp ≠ dpSwitch → dp ≠ dpMode →
      (d.update (w.erase dpResetFilter)).get dp = d.get dp :=
    fun dp => get_command_other h d
  refine
    { mode := get_command_mode h hd.mode
      total := ?total, used := ?used, pm25 := ?pm25, life := ?life }
  case total =>
    rw [hother dpFilterTotalMinutes (by decide) (by decide)]
    exact hd.total
  case used =>
    rw [hother dpFilterUsedMinutes (by decide) (by decide)]
    exact hd.used
  case pm25 =>
    rw [hother dpDeviceError (by decide) (by decide), hother dpPm25 (by decide) (by decide)]
    exact hd.pm25
  case life =>
    rw [hother dpFilterTotalMinutes (by decide) (by decide),
      hother dpFilterUsedMinutes (by decide) (by decide)]
    exact hd.life

/-! ## Both ways of applying commands -/

/-- The DPs that commands are expected to lead to. -/
def writtenDps (dps : PyDict) (writes : List PyDict) : PyDict :=
  writes.foldl (fun d w => d.update (w.erase dpResetFilter)) dps

/-- The client after the device has reported each of the written DPs, except for the trigger. -/
def echoWrites (cb : Callbacks γ) : List (ℚ × PyDict) → Device → γ → Device × γ
  | [], dev, client => (dev, client)
  | (now, w) :: writes, dev, client =>
      let handled := handleDps cb now (w.erase dpResetFilter) false dev client
      echoWrites cb writes handled.dev handled.client

/-- The client's DPs after the echoes. -/
theorem echoWrites_dps (cb : Callbacks γ) (writes : List (ℚ × PyDict)) (dev : Device)
    (client : γ) :
    (echoWrites cb writes dev client).1.dps = writtenDps dev.dps (writes.map Prod.snd) := by
  induction writes generalizing dev client with
  | nil => rfl
  | cons timed writes ih =>
      obtain ⟨now, w⟩ := timed
      unfold echoWrites
      dsimp only
      rw [ih, handleDps_dps]
      rfl

/-- **The optimistic states.**  Folding `apply_dps` over commands never raises, and gives the
state of the written DPs. -/
theorem foldlM_applyDps {dps : PyDict} {s : PurifierState} (hs : fromDps dps = .ok s)
    (writes : List PyDict) (hw : ∀ w ∈ writes, CommandWrite w) :
    ∃ t, writes.foldlM applyDps s = .ok t ∧ fromDps (writtenDps dps writes) = .ok t := by
  induction writes generalizing dps s with
  | nil => exact ⟨s, rfl, hs⟩
  | cons w writes ih =>
      have hdec := (fromDps_ok_iff dps).mp ⟨s, hs⟩
      have hnext := hdec.command (hw w List.mem_cons_self)
      obtain ⟨next, hn⟩ := (fromDps_ok_iff _).mpr hnext
      have happly : applyDps s w = .ok next := by
        show fromDps (s.dps.update (w.erase dpResetFilter)) = .ok next
        rw [(fromDps_decoded hs).dps]
        exact hn
      obtain ⟨t, ht, hdecoded⟩ := ih hn fun v hv => hw v (List.mem_cons_of_mem w hv)
      refine ⟨t, ?_, hdecoded⟩
      rw [List.foldlM_cons, happly]
      exact ht

/-- Commands leave the DPs other than switch and mode as they are. -/
theorem get_writtenDps_other (dps : PyDict) (writes : List PyDict)
    (hw : ∀ w ∈ writes, CommandWrite w) {dp : PyStr} (hswitch : dp ≠ dpSwitch)
    (hmode : dp ≠ dpMode) : (writtenDps dps writes).get dp = dps.get dp := by
  induction writes generalizing dps with
  | nil => rfl
  | cons w writes ih =>
      have hrest := ih (dps.update (w.erase dpResetFilter))
        fun v hv => hw v (List.mem_cons_of_mem w hv)
      have hone := get_command_other (hw w List.mem_cons_self) dps hswitch hmode
      exact hrest.trans hone

/-! ## The same command twice -/

/-- Entries that are merged again change nothing. -/
theorem kunion_self_left (entries others : List (Sigma fun _ : PyStr => Json)) :
    entries.kunion (entries.kunion others) = entries.kunion others := by
  induction entries generalizing others with
  | nil => rfl
  | cons e entries ih =>
      rw [List.kunion_cons, List.kunion_cons, List.kerase_cons_eq rfl, ih]

/-- A second merge of the same map changes nothing. -/
theorem update_twice (d e : PyDict) : (d.update e).update e = d.update e :=
  AList.ext (kunion_self_left e.entries d.entries)

/-- Writing the last command once more. -/
theorem writtenDps_again (dps : PyDict) (writes : List PyDict) (w : PyDict) :
    writtenDps dps (writes ++ [w, w]) = writtenDps dps (writes ++ [w]) := by
  unfold writtenDps
  rw [List.foldl_append, List.foldl_append]
  exact update_twice _ _

/-! ## The agreement -/

/-- **The optimistic update agrees with the echo.**  From any DPs that decode, a sequence of
commands leads the shown state and the client's DPs to the same state.  Only the fields of the
switch and the mode can change, and repeating the last command changes nothing. -/
theorem optimistic_agrees_with_echo {s : PurifierState} (cb : Callbacks γ) (dev : Device)
    (client : γ) (hs : fromDps dev.dps = .ok s) (writes : List (ℚ × PyDict))
    (hw : ∀ w ∈ writes.map Prod.snd, CommandWrite w) :
    ∃ t, (writes.map Prod.snd).foldlM applyDps s = .ok t ∧
      fromDps (echoWrites cb writes dev client).1.dps = .ok t ∧
      (∀ f : Field, dpSwitch ∉ f.dependsOn → dpMode ∉ f.dependsOn → f.Same t s) ∧
      ∀ now now' w, CommandWrite w → ∃ u,
        (writes.map Prod.snd ++ [w]).foldlM applyDps s = .ok u ∧
        (writes.map Prod.snd ++ [w, w]).foldlM applyDps s = .ok u ∧
        (echoWrites cb (writes ++ [(now, w), (now', w)]) dev client).1.dps =
          (echoWrites cb (writes ++ [(now, w)]) dev client).1.dps := by
  obtain ⟨t, ht, hdecoded⟩ := foldlM_applyDps hs _ hw
  refine ⟨t, ht, by rw [echoWrites_dps]; exact hdecoded, ?_, ?_⟩
  · intro f hswitch hmode
    apply f.same_of_get (fromDps_decoded hdecoded) (fromDps_decoded hs)
    intro dp hdp
    have hsame : (writtenDps dev.dps (writes.map Prod.snd)).get dp = dev.dps.get dp := by
      refine get_writtenDps_other dev.dps _ hw ?_ ?_
      · intro heq
        obtain rfl := heq
        exact hswitch hdp
      · intro heq
        obtain rfl := heq
        exact hmode hdp
    rw [hsame]
    exact Json.Identical.refl _
  · intro now now' w hcommand
    have honce : ∀ v ∈ writes.map Prod.snd ++ [w], CommandWrite v := by
      intro v hv
      rcases List.mem_append.mp hv with hv | hv
      · exact hw v hv
      · rw [List.mem_singleton.mp hv]
        exact hcommand
    have htwice : ∀ v ∈ writes.map Prod.snd ++ [w, w], CommandWrite v := by
      intro v hv
      rcases List.mem_append.mp hv with hv | hv
      · exact hw v hv
      · rcases List.mem_pair.mp hv with rfl | rfl <;> exact hcommand
    obtain ⟨u, hu, hdecoded⟩ := foldlM_applyDps hs _ honce
    obtain ⟨u', hu', hdecoded'⟩ := foldlM_applyDps hs _ htwice
    rw [writtenDps_again] at hdecoded'
    obtain rfl := Except.ok.inj (hdecoded.symm.trans hdecoded')
    refine ⟨u, hu, hu', ?_⟩
    rw [echoWrites_dps, echoWrites_dps, List.map_append, List.map_append]
    exact writtenDps_again _ _ _

/-- Switching on in manual speed 3, with a filter reset.  What is expected is what the echo of both
commands shows. -/
theorem optimistic_agrees_with_echo_example :
    ∃ s w, fromDps offDps = .ok s ∧ fanSpeedDps (.int 3) = .ok w ∧ ∃ t,
      [(powerDps true).update w, resetFilterDps].foldlM applyDps s = .ok t ∧
      fromDps (echoWrites Coordinator.callbacks
        [(1, (powerDps true).update w), (2, resetFilterDps)] offDevice offCoordinator).1.dps =
        .ok t := by
  obtain ⟨s, hs⟩ := (fromDps_ok_iff offDps).mpr (by decide +kernel)
  have hspeed : ∃ w ∈ (fanSpeedDps (.int 3)).toOption, True := by decide +kernel
  obtain ⟨w, hw, _⟩ := hspeed
  have hw := ok_of_toOption hw
  refine ⟨s, w, hs, hw, ?_⟩
  have hwrites : ∀ v ∈ [(powerDps true).update w, resetFilterDps], CommandWrite v := by
    intro v hv
    rcases List.mem_pair.mp hv with rfl | rfl
    · exact (CommandWrite.power true).merge (CommandWrite.fanSpeed hw)
    · exact CommandWrite.resetFilter
  obtain ⟨t, ht, hecho, _⟩ := optimistic_agrees_with_echo Coordinator.callbacks offDevice
    offCoordinator hs [(1, (powerDps true).update w), (2, resetFilterDps)] hwrites
  exact ⟨t, ht, hecho⟩

end Purifier
