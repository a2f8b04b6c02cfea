import DshDesktop.Runtime.Consistency

/-!
# Who owns the live process trees

A live tree is the one retained in the shared record, or it was taken out of the
record by a caller that has not finished stopping it. While such a caller is
still at work the record is free, so another caller can spawn.
-/

namespace DshDesktop.Runtime
open Interleaving

namespace ManagedRuntimeState
variable (w : ManagedRuntimeState) (r : Readings)

theorem alive_changed (c : Change) (q : ℕ) :
    (w.changed c).alive q ↔ w.alive q ∧ (q = c.pid → c.child) := by
  simp only [alive, changed, List.getElem?_modify]
  cases w.trees[q]? with
  | none => simp
  | some tree =>
    by_cases h : c.pid = q
    · simp [h]
    · simp [h, Ne.symm h]

theorem length_changed (c : Change) : (w.changed c).trees.length = w.trees.length :=
  List.length_modify ..

theorem alive_spawn {w : ManagedRuntimeState} {id : String} {spec : LaunchSpec} {gen lat q : ℕ} :
    (w.spawn id spec gen lat).alive q ↔ w.alive q ∨ q = w.trees.length := by
  simp only [alive, spawn]
  rcases lt_trichotomy q w.trees.length with h | h | h
  · rw [List.getElem?_append_left h]
    simp [Nat.ne_of_lt h]
  · subst h
    simp
  · rw [List.getElem?_eq_none (by simp; omega), List.getElem?_eq_none (le_of_lt h)]
    simp
    omega

theorem outlived_spawn_new {w : ManagedRuntimeState} {id : String} {spec : LaunchSpec}
    {gen lat pid : ℕ} (h : w.trees.length ≤ pid) :
    (w.spawn id spec gen lat).outlived pid = false := by
  rcases Nat.eq_or_lt_of_le h with rfl | hlt
  · simp [outlived, spawn]
  · rw [outlived, spawn, List.getElem?_eq_none (by simp; omega)]
    rfl

theorem refreshed_alive (q : ℕ) : (w.refreshed r).alive q ↔
      w.alive q ∧ (w.supervisor.process = some q →
        (w.refreshed r).supervisor.process = some q) := by
  rcases w.refreshed_cases r with ⟨hkp, -⟩ | ⟨pid, left, hp, hdr⟩
  · rw [hkp]
    simp
  rw [hdr]
  show (w.changed ⟨pid, false, left⟩).alive q ↔ _
  rw [alive_changed, hp]
  simp only [Supervisor.exitObserved, Supervisor.failed, Option.some.injEq, reduceCtorEq,
    imp_false]
  tauto

theorem refreshed_process (q : ℕ) (h : (w.refreshed r).supervisor.process = some q) :
    w.supervisor.process = some q := by
  rcases w.refreshed_cases r with ⟨hkp, -⟩ | ⟨pid, left, -, hdr⟩
  · rw [hkp] at h
    exact h
  · rw [hdr] at h
    cases h

theorem refreshed_length : (w.refreshed r).trees.length = w.trees.length := by
  rcases w.refreshed_cases r with ⟨hkp, -⟩ | ⟨pid, left, -, hdr⟩
  · rw [hkp]
  · rw [hdr]
    exact w.length_changed _

end ManagedRuntimeState

/-- How a step moves trees between the record and the caller: no live one is lost, and none comes
from elsewhere. -/
structure Handover (w : ManagedRuntimeState) (p : Phase) (w' : ManagedRuntimeState)
    (p' : Phase) : Prop where
  length : w.trees.length ≤ w'.trees.length
  process : ∀ pid, w'.supervisor.process = some pid →
    w.supervisor.process = some pid ∨ pid = w.trees.length ∧ pid < w'.trees.length
  held : ∀ pid, p'.held = some pid →
    p.held = some pid ∨ w.supervisor.process = some pid ∧ w'.supervisor.process = none
  alive : ∀ pid, w'.alive pid = true → w.alive pid = true ∨ w'.supervisor.process = some pid
  keptProcess : ∀ pid, w'.alive pid = true → w.supervisor.process = some pid →
    w'.supervisor.process = some pid ∨ p'.held = some pid
  keptHeld : ∀ pid, w'.alive pid = true → p.held = some pid → p'.held = some pid

variable {r : Readings} {p p' : Phase} (events : List (Event Input Change))

namespace Handover
variable {w w' : ManagedRuntimeState}

theorem written (trees : w'.trees = w.trees) (held : p.held = none)
    (proc : w'.supervisor.process = w.supervisor.process ∧ p'.held = none ∨
      w'.supervisor.process = none ∧ p'.held = w.supervisor.process) : Handover w p w' p' where
  length := le_of_eq (by rw [trees])
  process := by
    intro pid h
    rcases proc with ⟨heq, -⟩ | ⟨hnn, -⟩
    · exact .inl (heq ▸ h)
    · rw [hnn] at h
      cases h
  held := by
    intro pid h
    rcases proc with ⟨-, hnn⟩ | ⟨hfr, htk⟩
    · rw [hnn] at h
      cases h
    · exact .inr ⟨htk ▸ h, hfr⟩
  alive := by
    intro pid h
    refine .inl ?_
    unfold ManagedRuntimeState.alive at h ⊢
    rw [trees] at h
    exact h
  keptProcess := by
    intro pid _ h
    rcases proc with ⟨heq, -⟩ | ⟨-, htk⟩
    · exact .inl (heq ▸ h)
    · exact .inr (htk ▸ h)
  keptHeld := by
    intro pid _ h
    rw [held] at h
    cases h

theorem ended {c : Change} (held : p.held = some c.pid) (ends : c.child = false)
    (free : p'.held = none) : Handover w p (w.changed c) p' where
  length := le_of_eq (w.length_changed c).symm
  process := fun _ h => .inl h
  held := by
    intro q h
    rw [free] at h
    cases h
  alive := fun q h => .inl ((w.alive_changed c q).mp h).1
  keptProcess := fun _ _ h => .inl h
  keptHeld := by
    intro q hal hq
    rw [held] at hq
    have hgone := ((w.alive_changed c q).mp hal).2 (Option.some.inj hq).symm
    rw [ends] at hgone
    cases hgone

theorem spawn {id : String} {spec : LaunchSpec} {gen lat : ℕ}
    (free : w.supervisor.process = none) (held : p.held = none) (hel' : p'.held = none) :
    Handover w p (w.spawn id spec gen lat) p' where
  length := by simp [ManagedRuntimeState.spawn]
  process := by
    intro pid h
    have hpid : w.trees.length = pid := Option.some.inj h
    exact .inr ⟨hpid.symm, by simp [ManagedRuntimeState.spawn, ← hpid]⟩
  held := by
    intro pid h
    rw [hel'] at h
    cases h
  alive := by
    intro pid h
    rcases ManagedRuntimeState.alive_spawn.mp h with hold | hnew
    · exact .inl hold
    · exact .inr (congrArg some hnew.symm)
  keptProcess := by
    intro pid _ h
    rw [free] at h
    cases h
  keptHeld := by
    intro pid _ h
    rw [held] at h
    cases h

theorem refreshed (h : Handover (w.refreshed r) p w' p') : Handover w p w' p' where
  length := le_of_eq_of_le (w.refreshed_length r).symm h.length
  process := by
    intro pid hp
    rw [← w.refreshed_length r]
    rcases h.process pid hp with hold | hnew
    · exact .inl (w.refreshed_process r pid hold)
    · exact .inr hnew
  held := by
    intro pid hp
    rcases h.held pid hp with hold | ⟨htk, hfr⟩
    · exact .inl hold
    · exact .inr ⟨w.refreshed_process r pid htk, hfr⟩
  alive := by
    intro pid hal
    rcases h.alive pid hal with hold | hnew
    · exact .inl ((w.refreshed_alive r pid).mp hold).1
    · exact .inr hnew
  keptProcess := by
    intro pid hal hp
    rcases h.alive pid hal with hold | hnew
    · exact h.keptProcess pid hal (((w.refreshed_alive r pid).mp hold).2 hp)
    · exact .inl hnew
  keptHeld := h.keptHeld

theorem calm (h : Calm p p') : Handover w p w p' :=
  written rfl h.held.1 (.inl ⟨rfl, h.held.2⟩)

end Handover

theorem Acted.handover {w w' : ManagedRuntimeState} (h : Acted r w p w' p') :
    Handover w p w' p' := by
  cases h with
  | kept calm => exact .calm calm
  | looked calm => exact .refreshed (.calm calm)
  | bound verified | configured free | stoppedIdle accepted free rests =>
    exact .refreshed (.written rfl rfl (.inl ⟨rfl, rfl⟩))
  | restartsItself checks =>
    exact .refreshed (.written rfl (Phase.held_of_checks checks) (.inl ⟨rfl, rfl⟩))
  | spawned free next => exact .refreshed (.spawn free rfl rfl)
  | published alive rests =>
    exact .refreshed (.written rfl rfl (.inl ⟨rfl, Phase.held_of_resting rests⟩))
  | startFailed own taken =>
    refine .written rfl rfl (.inr ⟨rfl, ?_⟩)
    rcases taken with ⟨hfr, hrs⟩ | ⟨pid, how, rfl⟩
    · rw [hfr]
      exact Phase.held_of_resting hrs
    · exact how.symm
  | cleaned rests => exact .ended rfl rfl (Phase.held_of_resting rests)
  | takenForStop accepted owned => exact .refreshed (.written rfl rfl (.inr ⟨rfl, owned.symm⟩))
  | treeStopFailed fails | treeStopped stops => exact .ended rfl rfl rfl
  | stopFailureRecorded own | stopFailureStale other | stopRecorded own rests | stopStale other =>
    exact .written rfl rfl (.inl ⟨rfl, rfl⟩)
  | takenForRestart accepted => exact .refreshed (.written rfl rfl (.inr ⟨rfl, rfl⟩))
  | treeReleased next =>
    refine .ended rfl rfl ?_
    rcases next with ⟨spec, rfl, -⟩ | hrs
    · rfl
    · exact Phase.held_of_resting hrs
  | nothingReleased next =>
    refine .written rfl rfl (.inl ⟨rfl, ?_⟩)
    rcases next with ⟨spec, rfl, -⟩ | hrs
    · rfl
    · exact Phase.held_of_resting hrs

theorem Entered.held {m : Machine} {c : Call} (h : Entered m c p) : p.held = none := by
  cases h <;> rfl

theorem Moved.handover {w w' : ManagedRuntimeState} {i : Input} (h : Moved w p i w' p') :
    Handover w p w' p' := by
  cases h with
  | same =>
    exact ⟨le_rfl, fun _ h => .inl h, fun _ h => .inl h, fun _ h => .inl h, fun _ _ h => .inl h,
      fun _ _ h => h⟩
  | begun ready entered =>
    exact .written rfl (Phase.held_of_ready ready) (.inl ⟨rfl, entered.held⟩)
  | acted h => exact h.handover

def Separate (w : ManagedRuntimeState) (p : Phase) : Prop :=
  ∀ pid, p.held = some pid → pid < w.trees.length ∧ w.supervisor.process ≠ some pid

def Retained (w : ManagedRuntimeState) : Prop :=
  ∀ pid, w.supervisor.process = some pid → pid < w.trees.length

section
variable {w : ManagedRuntimeState} {w' : ManagedRuntimeState} (h : Handover w p w' p')
include h

theorem Handover.retained (hw : Retained w) : Retained w' := by
  intro pid hp
  rcases h.process pid hp with hold | ⟨-, hlt⟩
  · exact lt_of_lt_of_le (hw pid hold) h.length
  · exact hlt

theorem Handover.separate_other {q : Phase} (hq : Separate w q) : Separate w' q := by
  intro pid hhl
  obtain ⟨hlt, hne⟩ := hq pid hhl
  refine ⟨lt_of_lt_of_le hlt h.length, ?_⟩
  intro hp
  rcases h.process pid hp with hold | ⟨hnew, -⟩
  · exact hne hold
  · omega

theorem Handover.separate (hw : Retained w) (hp : Separate w p) : Separate w' p' := by
  intro pid hhl
  rcases h.held pid hhl with hold | ⟨htk, hfr⟩
  · exact h.separate_other hp pid hold
  · refine ⟨lt_of_lt_of_le (hw pid htk) h.length, ?_⟩
    rw [hfr]
    simp

end

theorem run_separate : Holds Retained Separate (System.run events) := by
  refine holds_run ?_ ?_ ?_ ?_ events ⟨nofun, nofun⟩
  · intro w p i hw hp
    have h := (act_moved w p i).handover
    exact ⟨h.retained hw, h.separate hw hp⟩
  · intro w p i q _ _ hq
    exact (act_moved w p i).handover.separate_other hq
  · intro w c hw q hq
    rw [w.length_changed]
    exact hw q hq
  · intro w c q _ hq held hhl
    rw [w.length_changed]
    exact hq held hhl

def Owned (s : System) : Prop :=
  ∀ pid, s.shared.alive pid = true →
    s.shared.supervisor.process = some pid ∨ ∃ t, (s.thread t).held = some pid

theorem step_owned (s : System) (e : Event Input Change) (h : Owned s) : Owned (s.step e) := by
  cases e with
  | act t i =>
    have hand := (act_moved s.shared (s.thread t) i).handover
    have hself : (s.step (.act t i)).thread t = (act s.shared (s.thread t) i).2 := step_act_self t i
    intro pid hal
    rcases hand.alive pid hal with hold | hnew
    · rcases h pid hold with hprocess | ⟨u, hu⟩
      · rcases hand.keptProcess pid hal hprocess with hkp | htk
        · exact .inl hkp
        · exact .inr ⟨t, hself ▸ htk⟩
      by_cases hut : u = t
      · subst hut
        exact .inr ⟨u, hself ▸ hand.keptHeld pid hal hu⟩
      · refine .inr ⟨u, ?_⟩
        have hot : (s.step (.act t i)).thread u = s.thread u := step_act_other hut i
        rw [hot]
        exact hu
    · exact .inl hnew
  | surroundings c =>
    intro pid hal
    exact h pid ((s.shared.alive_changed c pid).mp hal).1

theorem run_owned : Owned (System.run events) := by
  refine Runs.run_invariant Owned step_owned events ?_
  intro pid h
  cases h

def System.Spawns (s : System) (e : Event Input Change) : Prop :=
  s.shared.trees.length < (s.step e).shared.trees.length

theorem Acted.spawns {w w' : ManagedRuntimeState} (h : Acted r w p w' p')
    (longer : w.trees.length < w'.trees.length) :
    ∃ purpose id spec gen lat,
      p = .spawning purpose id spec ∧ (w.refreshed r).supervisor.process = none ∧
      (w.refreshed r).supervisor.nextGeneration = some gen ∧
      w' = (w.refreshed r).spawn id spec gen lat ∧
      p' = .awaiting purpose id gen spec.expectedPort := by
  have hr := w.refreshed_length r
  have he := w.length_changed
  cases h with
  | spawned free next => exact ⟨_, _, _, _, _, rfl, free, next, rfl, rfl⟩
  | kept | looked | bound | restartsItself | stopFailureStale | stopStale | nothingReleased => omega
  | configured | published | stoppedIdle | takenForStop | takenForRestart =>
    exact absurd longer (not_lt.mpr (le_of_eq hr))
  | startFailed | stopFailureRecorded | stopRecorded => exact absurd longer (lt_irrefl _)
  | cleaned | treeStopFailed | treeStopped | treeReleased =>
    exact absurd longer (not_lt.mpr (le_of_eq (he _)))

theorem Moved.spawns {w w' : ManagedRuntimeState} {i : Input} (h : Moved w p i w' p')
    (longer : w.trees.length < w'.trees.length) : ∃ r, i = .step r ∧ Acted r w p w' p' := by
  cases h with
  | same | begun => exact absurd longer (lt_irrefl _)
  | acted h => exact ⟨_, rfl, h⟩

def plainMachine : Machine :=
  ⟨false, fun _ => true, fun _ => true, fun _ => true, fun a b => a ++ "/" ++ b, some,
    some ["/bin"], fun _ => none⟩

def plainEnvironment (id : String) : ManagedEnvironment :=
  ⟨1, id, "Managed DSH", ⟨.executable, "/opt/" ++ id, none, []⟩, "/home/dsh", "default", none,
    ⟨"127.0.0.1", .fixed 4000⟩, .managed, some ⟨some true⟩⟩

def plainReadings : Readings where
  machine := plainMachine
  waitFails := false
  crashClock := some 0
  launchClock := some 0
  reportClock := some 0
  spawn := .ok ()
  line := none
  probe := true
  deadlinePassed := false
  gracePassed := true
  stop := some .graceful
  outlives := true
  released := true

def calls (t : ℕ) (c : Call) : Event Input Change := .act t (.call plainMachine c)

def goesOn (t : ℕ) : Event Input Change := .act t (.step plainReadings)

/-- Caller 0 starts generation 1, caller 1 takes its tree out to stop it, and
caller 2 records its own start. -/
def stopUnderWay : List (Event Input Change) :=
  [calls 0 (.start (plainEnvironment "dsh")), goesOn 0, goesOn 0,
    calls 1 (.stop (plainEnvironment "dsh") 1), goesOn 1,
    calls 2 (.start (plainEnvironment "dsh")), goesOn 2]

def stopDone : List (Event Input Change) := stopUnderWay.take 5 ++ [goesOn 1, goesOn 1] ++
  [.surroundings ⟨0, false, false⟩] ++ stopUnderWay.drop 5

/-- The child of generation 1 exits and leaves a process of its group. -/
def childExited : List (Event Input Change) :=
  stopUnderWay.take 3 ++ [.surroundings ⟨0, false, true⟩] ++ stopUnderWay.drop 5

end DshDesktop.Runtime
