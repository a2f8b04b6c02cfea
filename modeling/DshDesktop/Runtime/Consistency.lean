import DshDesktop.Runtime.Calls

/-!
# Consistency of the supervisor under every interleaving

The published part of the record (Healthy, endpoint, bootstrap URL), the order
of the generations, and the accounting of crashes, as invariants of the system
of all callers.
-/

namespace DshDesktop.Runtime
open Interleaving Phase List
variable {s : Supervisor} {p p' : Phase} {r : Readings} {w' w : ManagedRuntimeState}
  {b : VerifiedSurfaceBinding} {i : Input} {id : String}

namespace ManagedRuntimeState

def generations (w : ManagedRuntimeState) : List ℕ := w.trees.map Tree.generation

theorem generations_changed (c : Change) : (w.changed c).generations = w.generations := by
  refine ext_getElem? ?_
  intro i
  simp only [generations, changed, getElem?_map, getElem?_modify]
  cases w.trees[i]? with
  | none => simp
  | some tree =>
    by_cases h : c.pid = i
    · simp [h]
    · simp [h]

theorem generations_spawn {spec : LaunchSpec} {gen lat : ℕ} :
    (w.spawn id spec gen lat).generations = w.generations ++ [gen] := by
  simp [generations, spawn]

theorem refreshed_cases (r : Readings) (w : ManagedRuntimeState) :
    (w.refreshed r = w ∧ ∀ pid, w.supervisor.process = some pid → w.alive pid) ∨
      ∃ pid left, w.supervisor.process = some pid ∧
        w.refreshed r = { w.changed ⟨pid, false, left⟩ with
          supervisor := w.supervisor.exitObserved r.crashClock
          crashLog := w.supervisor.generation :: w.crashLog } := by
  unfold refreshed refreshExit
  cases hp : w.supervisor.process with
  | none => exact .inl ⟨rfl, fun pid h => by cases h⟩
  | some pid =>
    dsimp only
    split
    · next h =>
      refine .inl ⟨rfl, ?_⟩
      intro pid' h'
      rw [← Option.some.inj h']
      exact (Bool.and_eq_true_iff.mp h).1
    · exact .inr ⟨pid, _, rfl, rfl⟩

end ManagedRuntimeState

structure Consistent (w : ManagedRuntimeState) : Prop where
  healthy : w.supervisor.state = some .healthy →
    w.supervisor.process.isSome = true ∧ w.supervisor.endpoint.isSome = true
  url : ∀ url, w.supervisor.bootstrapUrl = some url →
    w.supervisor.state = some .healthy ∧ ∃ endpoint, w.supervisor.endpoint = some endpoint ∧
      url.host = some "127.0.0.1" ∧ url.port = some endpoint.port
  uncrashed : w.supervisor.process.isSome = true → w.supervisor.generation ∉ w.crashLog
  increasing : w.generations.Pairwise (· < ·)
  spawnedBelow : ∀ n ∈ w.generations, n ≤ w.supervisor.generation
  once : w.crashLog.Nodup
  crashedBelow : ∀ n ∈ w.crashLog, n ≤ w.supervisor.generation

namespace Consistent
theorem initial : Consistent .initial where
  healthy := fun h => by cases h
  url := fun url h => by cases h
  uncrashed := fun h => by cases h
  increasing := List.Pairwise.nil
  spawnedBelow := fun n h => by cases h
  once := nodup_nil
  crashedBelow := fun n h => by cases h

theorem changed (h : Consistent w) (c : Change) : Consistent (w.changed c) where
  healthy := h.healthy
  url := h.url
  uncrashed := h.uncrashed
  increasing := by rw [ManagedRuntimeState.generations_changed]; exact h.increasing
  spawnedBelow := by rw [ManagedRuntimeState.generations_changed]; exact h.spawnedBelow
  once := h.once
  crashedBelow := h.crashedBelow

theorem unpublished (h : Consistent w) (gen : s.generation = w.supervisor.generation)
    (proc : s.process = w.supervisor.process ∨ s.process = none)
    (state : s.state ≠ some .healthy) (url : s.bootstrapUrl = none) :
    Consistent { w with supervisor := s } where
  healthy := fun hs => absurd hs state
  url := fun u hu => by
    have hnn : s.bootstrapUrl = some u := hu
    rw [url] at hnn
    cases hnn
  uncrashed := by
    intro hs
    rw [gen]
    cases proc with
    | inl hp => exact h.uncrashed (hp ▸ hs)
    | inr hp =>
      have hsome : s.process.isSome := hs
      rw [hp] at hsome
      cases hsome
  increasing := h.increasing
  spawnedBelow := fun n hn => le_of_le_of_eq (h.spawnedBelow n hn) gen.symm
  once := h.once
  crashedBelow := fun n hn => le_of_le_of_eq (h.crashedBelow n hn) gen.symm

theorem crashLogged (h : Consistent w) (owned : w.supervisor.process.isSome)
    (gen : s.generation = w.supervisor.generation) (proc : s.process = none)
    (state : s.state ≠ some .healthy) (url : s.bootstrapUrl = none) :
    Consistent { w with supervisor := s, crashLog := w.supervisor.generation :: w.crashLog } where
  healthy := fun hs => absurd hs state
  url := (h.unpublished gen (.inr proc) state url).url
  uncrashed := by
    intro hs
    have hsome : s.process.isSome := hs
    rw [proc] at hsome
    cases hsome
  increasing := h.increasing
  spawnedBelow := (h.unpublished gen (.inr proc) state url).spawnedBelow
  once := nodup_cons.mpr ⟨h.uncrashed owned, h.once⟩
  crashedBelow := by
    intro n hn
    rw [gen]
    rcases mem_cons.mp hn with he | hm
    · exact le_of_eq he
    · exact h.crashedBelow n hm

theorem failureState_ne : some s.failureState ≠ some ManagedState.healthy := by
  unfold Supervisor.failureState
  split <;> simp

variable (h : Consistent w)
include h

theorem refreshed (r : Readings) : Consistent (w.refreshed r) := by
  rcases w.refreshed_cases r with ⟨hkp, -⟩ | ⟨pid, left, hp, hdr⟩
  · rw [hkp]
    exact h
  rw [hdr]
  have how : (w.changed ⟨pid, false, left⟩).supervisor.process.isSome := by
    show w.supervisor.process.isSome
    rw [hp]
    rfl
  exact (h.changed _).crashLogged how rfl rfl failureState_ne rfl

theorem failStart (clock : Option ℕ) : Consistent (w.failStart clock) := by
  unfold ManagedRuntimeState.failStart Supervisor.failStart
  cases hp : w.supervisor.process with
  | none => exact h.unpublished rfl (.inr rfl) failureState_ne rfl
  | some pid =>
    have how : w.supervisor.process.isSome := by rw [hp]; rfl
    exact h.crashLogged how rfl rfl failureState_ne rfl

theorem spawn {spec : LaunchSpec} {gen lat : ℕ} (next : w.supervisor.nextGeneration = some gen) :
    Consistent (w.spawn id spec gen lat) := by
  have hgen := Supervisor.nextGeneration_some next
  have hbelow : ∀ n ∈ w.generations, n < gen := by
    intro n hn
    have hle := h.spawnedBelow n hn
    omega
  refine ⟨nofun, nofun, ?_, ?_, ?_, h.once, ?_⟩
  · intro _ hmem
    have hle := h.crashedBelow gen hmem
    omega
  · rw [ManagedRuntimeState.generations_spawn, pairwise_append]
    refine ⟨h.increasing, pairwise_singleton _ _, ?_⟩
    intro n hn m hm
    rw [mem_singleton.mp hm]
    exact hbelow n hn
  · intro n hn
    rw [ManagedRuntimeState.generations_spawn] at hn
    rcases mem_append.mp hn with hold | hnew
    · exact le_of_lt (hbelow n hold)
    · exact le_of_eq (mem_singleton.mp hnew)
  · intro n hn
    show n ≤ gen
    have hle := h.crashedBelow n hn
    omega

theorem configured (auto : Bool) (spec : LaunchSpec) :
    Consistent (w.update (·.configured auto spec)) :=
  ⟨h.healthy, h.url, h.uncrashed, h.increasing, h.spawnedBelow, h.once, h.crashedBelow⟩

theorem published {c : ParsedCandidate} (hc : c.Loopback)
    (owned : w.supervisor.process.isSome) : Consistent (w.update (·.published c)) :=
  ⟨fun _ => ⟨owned, rfl⟩, fun u hu => ⟨rfl, c.endpoint, rfl, hc u hu⟩, h.uncrashed,
    h.increasing, h.spawnedBelow, h.once, h.crashedBelow⟩

end Consistent

def Phase.Sound (p : Phase) : Prop := ∀ c, p.candidate = some c → c.Loopback

theorem Phase.sound_of_none (h : p.candidate = none) : p.Sound := by
  intro c hc
  rw [h] at hc
  cases hc

theorem Phase.sound_of_resting (h : p.resting) : p.Sound :=
  sound_of_none (candidate_of_resting h)

theorem Calm.sound (h : Calm p p') (hp : p.Sound) : p'.Sound := by
  cases h with
  | rest held stop rests => exact sound_of_resting rests
  | wait bef after cand =>
    intro c hc
    rcases cand c hc with hold | hnew
    · exact hp c hold
    · exact hnew

theorem Acted.consistent (h : Acted r w p w' p') (hw : Consistent w) (hp : p.Sound) :
    Consistent w' ∧ p'.Sound := by
  have hr := hw.refreshed r
  cases h with
  | kept calm => exact ⟨hw, calm.sound hp⟩
  | looked calm => exact ⟨hr, calm.sound hp⟩
  | bound verified | restartsItself => exact ⟨hr, sound_of_none rfl⟩
  | configured free => exact ⟨hr.configured _ _, sound_of_none rfl⟩
  | spawned free next => exact ⟨hr.spawn next, sound_of_none rfl⟩
  | published alive rests =>
    have how := (Bool.and_eq_true_iff.mp alive).2
    exact ⟨hr.published (hp _ rfl) how, sound_of_resting rests⟩
  | startFailed own taken =>
    refine ⟨hw.failStart _, ?_⟩
    rcases taken with ⟨-, hrs⟩ | ⟨pid, -, rfl⟩
    · exact sound_of_resting hrs
    · exact sound_of_none rfl
  | cleaned rests => exact ⟨hw.changed _, sound_of_resting rests⟩
  | stoppedIdle acc free rests =>
    exact ⟨hr.unpublished rfl (.inl rfl)
      (by simp [Supervisor.alreadyStopped, Supervisor.stopped]) rfl, sound_of_resting rests⟩
  | takenForStop acc owned =>
    exact ⟨hr.unpublished rfl (.inr rfl) (by simp [Supervisor.stopping]) rfl, sound_of_none rfl⟩
  | treeStopFailed fails | treeStopped stops => exact ⟨hw.changed _, sound_of_none rfl⟩
  | stopFailureRecorded own =>
    exact ⟨hw.unpublished rfl (.inl rfl) (by simp [Supervisor.stopFailed]) rfl, sound_of_none rfl⟩
  | stopFailureStale other | stopStale other => exact ⟨hw, sound_of_none rfl⟩
  | stopRecorded own rests =>
    exact ⟨hw.unpublished rfl (.inl rfl) (by simp [Supervisor.treeStopped, Supervisor.stopped]) rfl,
      sound_of_resting rests⟩
  | takenForRestart acc =>
    exact ⟨hr.unpublished rfl (.inr rfl) (by simp [Supervisor.restarting]) rfl, sound_of_none rfl⟩
  | treeReleased next =>
    refine ⟨hw.changed _, ?_⟩
    rcases next with ⟨spec, rfl, -⟩ | hrs
    · exact sound_of_none rfl
    · exact sound_of_resting hrs
  | nothingReleased next =>
    refine ⟨hw, ?_⟩
    rcases next with ⟨spec, rfl, -⟩ | hrs
    · exact sound_of_none rfl
    · exact sound_of_resting hrs

theorem Moved.consistent (h : Moved w p i w' p') (hw : Consistent w) (hp : p.Sound) :
    Consistent w' ∧ p'.Sound := by
  cases h with
  | same => exact ⟨hw, hp⟩
  | begun ready entered =>
    refine ⟨hw, sound_of_none ?_⟩
    cases entered <;> rfl
  | acted h => exact h.consistent hw hp

theorem run_consistent (evs : List (Event Input Change)) :
    Holds Consistent (fun _ p => p.Sound) (System.run evs) :=
  holds_run (fun w p i hw hp => (act_moved w p i).consistent hw hp) (fun _ _ _ _ _ _ hm => hm)
    (fun _ c hw => hw.changed c) (fun _ _ _ _ hm => hm) evs
    ⟨Consistent.initial, fun _ => sound_of_none rfl⟩

namespace Supervisor

def crashCount (s : Supervisor) : ℕ := (s.recovery.map RecoveryState.crashCount).getD 0

end Supervisor

def CrashesLogged (w w' : ManagedRuntimeState) : Prop :=
  w.supervisor.crashCount < w'.supervisor.crashCount →
    w'.crashLog = w.supervisor.generation :: w.crashLog

theorem crashesLogged_of_le (h : w'.supervisor.crashCount ≤ w.supervisor.crashCount) :
    CrashesLogged w w' :=
  fun hlt => absurd hlt (not_lt.mpr h)

theorem crashesLogged_refreshed (hlog : w'.crashLog = (w.refreshed r).crashLog)
    (hcount : w'.supervisor.crashCount ≤ (w.refreshed r).supervisor.crashCount) :
    CrashesLogged w w' := by
  rcases w.refreshed_cases r with ⟨hkp, -⟩ | ⟨pid, left, -, hdr⟩
  · rw [hkp] at hcount
    exact crashesLogged_of_le hcount
  · intro _
    rw [hlog, hdr]

theorem Acted.crashesLogged (h : Acted r w p w' p') : CrashesLogged w w' := by
  cases h with
  | kept calm | cleaned rests | treeStopFailed fails | treeStopped stops
  | stopFailureRecorded own | stopFailureStale other | stopStale other | treeReleased next
  | nothingReleased next => exact crashesLogged_of_le le_rfl
  | looked calm | bound verified | restartsItself | spawned free next | published alive rests
  | takenForStop acc owned => exact crashesLogged_refreshed rfl le_rfl
  | configured free | stoppedIdle acc free rests | takenForRestart acc =>
    exact crashesLogged_refreshed rfl (Nat.zero_le _)
  | startFailed own taken =>
    rcases taken with ⟨hfr, -⟩ | ⟨pid, how, -⟩
    · refine crashesLogged_of_le (le_of_eq ?_)
      simp [ManagedRuntimeState.failStart, Supervisor.failStart, hfr, Supervisor.failed,
        Supervisor.crashCount]
    · intro _
      simp [ManagedRuntimeState.failStart, how]
  | stopRecorded own rests => exact crashesLogged_of_le (Nat.zero_le _)

theorem Moved.crashesLogged (h : Moved w p i w' p') : CrashesLogged w w' := by
  cases h with
  | same | begun ready entered => exact crashesLogged_of_le le_rfl
  | acted h => exact h.crashesLogged

theorem step_crashesLogged {s : System} {e : Event Input Change} :
    CrashesLogged s.shared (s.step e).shared := by
  cases e with
  | act t i => exact (act_moved s.shared (s.thread t) i).crashesLogged
  | surroundings c => exact crashesLogged_of_le le_rfl

theorem not_calm_bound : ¬ Calm p (.returned (.ok (.binding b))) := by
  intro h
  cases h with
  | rest held stop rests => cases rests
  | wait bef after cand => cases after

theorem Moved.binding (h : Moved w p i w' p') (after : p' = .returned (.ok (.binding b)))
    (bef : p ≠ p') :
    ∃ id want, p = .readingBinding id want ∧ w'.supervisor.verifiedBinding id want = .ok b := by
  subst after
  cases h with
  | same => exact absurd rfl bef
  | begun ready entered => cases entered
  | acted h =>
    cases h with
    | kept calm | looked calm => exact absurd calm not_calm_bound
    | bound verified => exact ⟨_, _, rfl, verified⟩
    | published alive rests | cleaned rests | stoppedIdle accepted free rests
    | stopRecorded own rests => cases rests
    | startFailed own taken =>
      rcases taken with ⟨-, hrs⟩ | ⟨pid, -, hcleaning⟩
      · cases hrs
      · cases hcleaning
    | treeReleased next | nothingReleased next =>
      rcases next with ⟨spec, hsp, -⟩ | hrs
      · cases hsp
      · cases hrs

theorem verifiedBinding_ok {want : ℕ} (h : s.verifiedBinding id want = .ok b) :
    s.environmentId = some id ∧ s.generation = want ∧ s.state = some .healthy ∧
      s.bootstrapUrl = some b.bootstrapUrl ∧ b.generation = want := by
  unfold Supervisor.verifiedBinding at h
  split at h
  · cases h
  next hgen =>
  split at h
  · cases h
  next hst =>
  simp only [not_or, not_not] at hgen hst
  cases hep : s.endpoint with
  | none => simp [hep] at h
  | some endp =>
    cases hurl : s.bootstrapUrl with
    | none => simp [hep, hurl] at h
    | some url =>
      simp only [hep, hurl] at h
      have hb := Except.ok.inj h
      subst hb
      exact ⟨hst.1, hgen, hst.2.1, rfl, hgen⟩

/-- In every interleaving Healthy comes with a process and an endpoint, a binding is handed out
only for what is Healthy then, the generations of the spawned trees increase, and none is counted
as crashed twice. -/
theorem supervisor_consistent (events : List (Event Input Change)) :
    let s := System.run events
    (s.shared.supervisor.state = some .healthy →
      s.shared.supervisor.process.isSome = true ∧ s.shared.supervisor.endpoint.isSome = true) ∧
    (∀ url, s.shared.supervisor.bootstrapUrl = some url →
      s.shared.supervisor.state = some .healthy ∧
        ∃ endpoint, s.shared.supervisor.endpoint = some endpoint ∧
          url.host = some "127.0.0.1" ∧ url.port = some endpoint.port) ∧
    (∀ t i b, (s.step (.act t i)).thread t = .returned (.ok (.binding b)) →
      s.thread t ≠ .returned (.ok (.binding b)) →
      ∃ id expected, s.thread t = .readingBinding id expected ∧
        let after := (s.step (.act t i)).shared.supervisor
        after.environmentId = some id ∧ after.generation = expected ∧
          after.state = some .healthy ∧ after.bootstrapUrl = some b.bootstrapUrl ∧
          b.generation = expected) ∧
    (s.shared.trees.map Tree.generation).Pairwise (· < ·) ∧
    (∀ e, s.shared.supervisor.crashCount < (s.step e).shared.supervisor.crashCount →
      (s.step e).shared.crashLog = s.shared.supervisor.generation :: s.shared.crashLog) ∧
    s.shared.crashLog.Nodup := by
  intro s
  have h := (run_consistent events).1
  refine ⟨h.healthy, h.url, ?_, h.increasing, fun e => step_crashesLogged, h.once⟩
  intro t i b haf hbf
  have hmv := act_moved s.shared (s.thread t) i
  have hb : (act s.shared (s.thread t) i).2 = .returned (.ok (.binding b)) := by
    rw [← haf]
    exact (step_act_self t i).symm
  obtain ⟨id, expected, hph, hvr⟩ := hmv.binding hb (hb ▸ hbf)
  exact ⟨id, expected, hph, verifiedBinding_ok hvr⟩

end DshDesktop.Runtime
