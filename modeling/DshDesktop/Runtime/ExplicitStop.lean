import DshDesktop.Runtime.Ownership

/-!
# Explicit stops

What can still start a process or change the recorded state after a stop call for the
current generation was accepted.
-/

namespace DshDesktop.Runtime
open Interleaving Runs Runtime.System
variable {r : Readings} {w w' : ManagedRuntimeState} {p p' : Phase} {i : Input} {s : System}
  {e : Event Input Change} {g t : ℕ} {id : String} {purpose : Purpose}

namespace System

def Accepts (s : System) (e : Event Input Change) (t : ℕ) (id : String) (g : ℕ) : Prop :=
  ∃ r, e = .act t (.step r) ∧ s.thread t = .stopRequested id g ∧
    Accepted (s.shared.refreshed r) id g

def SpawnsFor (s : System) (e : Event Input Change) (purpose : Purpose) : Prop :=
  s.Spawns e ∧ ∃ t i id spec, e = .act t i ∧ s.thread t = .spawning purpose id spec

end System

/-- The caller is not past the check of an automatic restart, does not wait for
the readiness of generation `g`, and has no failed stop of it to record. -/
structure Phase.Settled (g : ℕ) (p : Phase) : Prop where
  notRestarting : p.restartsItself = false
  notStarting : ∀ k, p.attempt = some k → k.2.2 ≠ g
  noFailure : p.failedStop ≠ some g

def System.Settled (g : ℕ) (s : System) : Prop := ∀ t, (s.thread t).Settled g

def StopsSucceed (g : ℕ) (s : System) (e : Event Input Change) : Prop :=
  ∀ t r, e = .act t (.step r) →
    ∀ id pid endpoint, s.thread t = .stoppingTree id g pid endpoint → r.stop ≠ none

def NotRestarted (g : ℕ) (s : System) (e : Event Input Change) : Prop :=
  ∀ t r, e = .act t (.step r) → ∀ environment, s.thread t = .restartRequested environment g →
      ¬ Accepted (s.shared.refreshed r) environment.id g

structure SameGeneration (w w' : ManagedRuntimeState) : Prop where
  generation : w'.supervisor.generation = w.supervisor.generation
  environment : w'.supervisor.environmentId = w.supervisor.environmentId

theorem ManagedRuntimeState.refreshed_same (r : Readings) (w : ManagedRuntimeState) :
    SameGeneration w (w.refreshed r) := by
  rcases w.refreshed_cases r with ⟨hkp, -⟩ | ⟨pid, left, -, hdr⟩
  · rw [hkp]
    exact ⟨rfl, rfl⟩
  · rw [hdr]
    exact ⟨rfl, rfl⟩

theorem SameGeneration.trans {a b c : ManagedRuntimeState} (h : SameGeneration a b)
    (h' : SameGeneration b c) : SameGeneration a c :=
  ⟨h'.generation.trans h.generation, h'.environment.trans h.environment⟩

theorem failStart_same {clock : Option ℕ} : SameGeneration w (w.failStart clock) := by
  unfold ManagedRuntimeState.failStart Supervisor.failStart
  split <;> exact ⟨rfl, rfl⟩

theorem ManagedRuntimeState.length_lt_spawned (r : Readings) (w : ManagedRuntimeState) (id : String)
    (spec : LaunchSpec) (gen lat : ℕ) :
    w.trees.length < ((w.refreshed r).spawn id spec gen lat).trees.length := by
  rw [← w.refreshed_length r]
  simp [ManagedRuntimeState.spawn]

theorem Acted.sameGeneration (h : Acted r w p w' p') (hsp : ¬ w.trees.length < w'.trees.length) :
    SameGeneration w w' := by
  have hr := w.refreshed_same r
  cases h with
  | kept | cleaned | treeStopFailed | treeStopped | stopFailureRecorded | stopFailureStale
  | stopRecorded | stopStale | treeReleased | nothingReleased => exact ⟨rfl, rfl⟩
  | looked | bound | restartsItself => exact hr
  | configured | published | stoppedIdle | takenForStop | takenForRestart =>
    exact hr.trans ⟨rfl, rfl⟩
  | spawned => exact absurd (w.length_lt_spawned r _ _ _ _) hsp
  | startFailed => exact failStart_same

theorem Moved.sameGeneration (h : Moved w p i w' p') (hsp : ¬ w.trees.length < w'.trees.length) :
    SameGeneration w w' := by
  cases h with
  | same | begun => exact ⟨rfl, rfl⟩
  | acted h => exact h.sameGeneration hsp

theorem step_sameGeneration (h : ¬ s.Spawns e) : SameGeneration s.shared (s.step e).shared := by
  cases e with
  | act t i => exact (act_moved s.shared (s.thread t) i).sameGeneration h
  | surroundings c => exact ⟨rfl, rfl⟩

theorem step_spawns (h : s.Spawns e) : ∃ t r purpose id spec gen lat, e = .act t (.step r) ∧
      s.thread t = .spawning purpose id spec ∧
      (s.shared.refreshed r).supervisor.process = none ∧
      (s.shared.refreshed r).supervisor.nextGeneration = some gen ∧
      (s.step e).shared = (s.shared.refreshed r).spawn id spec gen lat ∧
      (s.step e).thread t = .awaiting purpose id gen spec.expectedPort := by
  cases e with
  | surroundings c => exact absurd h (not_lt.mpr (le_of_eq (s.shared.length_changed c)))
  | act t i =>
    obtain ⟨r, rfl, hac⟩ := (act_moved s.shared (s.thread t) i).spawns h
    obtain ⟨purpose, id, spec, gen, lat, hp, hfr, hnx, hw', hp'⟩ := hac.spawns h
    exact ⟨t, r, purpose, id, spec, gen, lat, rfl, hp, hfr, hnx, hw', (step_act_self t _).trans hp'⟩

theorem step_spawns_generation (h : s.Spawns e) :
    (s.step e).shared.supervisor.generation = s.shared.supervisor.generation + 1 := by
  obtain ⟨t, r, _, id, spec, gen, lat, -, -, -, hnx, hsh, -⟩ := step_spawns h
  rw [hsh, ← (s.shared.refreshed_same r).generation]
  exact Supervisor.nextGeneration_some hnx

theorem step_generation_le (s : System) (e : Event Input Change) :
    s.shared.supervisor.generation ≤ (s.step e).shared.supervisor.generation := by
  by_cases h : s.Spawns e
  · rw [step_spawns_generation h]
    omega
  · exact le_of_eq (step_sameGeneration h).generation.symm

theorem run_generation_le (s : System) (evs : List (Event Input Change)) :
    s.shared.supervisor.generation ≤ (run step s evs).shared.supervisor.generation :=
  run_related (fun _ => True)
    (fun s s' => s.shared.supervisor.generation ≤ s'.shared.supervisor.generation)
    (fun _ => le_rfl) le_trans (fun _ _ _ => trivial) (fun s e _ => step_generation_le s e) evs
    trivial

theorem run_named (evs : List (Event Input Change)) :
    (run evs).shared.supervisor.environmentId = none →
      (run evs).shared.supervisor.generation = 0 := by
  refine run_invariant (fun s : System => s.shared.supervisor.environmentId = none →
    s.shared.supervisor.generation = 0) ?_ evs (fun _ => rfl)
  intro s e h hnn
  by_cases hsp : s.Spawns e
  · obtain ⟨t, r, _, id, spec, gen, lat, -, -, -, -, hsh, -⟩ := step_spawns hsp
    rw [hsh] at hnn
    cases hnn
  · have heq := step_sameGeneration hsp
    rw [heq.generation]
    exact h (heq.environment ▸ hnn)

structure Stopped (id : String) (g : ℕ) (w : ManagedRuntimeState) : Prop where
  environment : w.supervisor.environmentId = some id
  generation : w.supervisor.generation = g
  free : w.supervisor.process = none
  notCrashed : w.supervisor.state ≠ some .crashed

theorem refreshed_free (h : w.supervisor.process = none) (r : Readings) : w.refreshed r = w := by
  rcases w.refreshed_cases r with ⟨hkp, -⟩ | ⟨pid, -, hp, -⟩
  · exact hkp
  · rw [h] at hp
    cases hp

theorem settled_of_plain (restarts : p.restartsItself = false) (attempt : p.attempt = none)
    (failure : p.failedStop = none) : p.Settled g where
  notRestarting := restarts
  notStarting := by
    intro k h
    rw [attempt] at h
    cases h
  noFailure := by
    rw [failure]
    simp

theorem settled_of_resting (h : p.resting) : p.Settled g :=
  settled_of_plain (Phase.restartsItself_of_resting h) (Phase.attempt_of_resting h)
    (Phase.failedStop_of_resting h)

theorem Calm.settled (h : Calm p p') (hp : p.Settled g) : p'.Settled g := by
  cases h with
  | rest held stop rests => exact settled_of_resting rests
  | wait bef after cand =>
    refine ⟨Phase.restartsItself_of_attempt after, ?_, ?_⟩
    · intro k htry
      rw [after] at htry
      exact hp.notStarting k (bef.trans htry)
    · rw [Phase.failedStop_of_attempt after]
      simp

theorem owns_generation {s : Supervisor} {gen : ℕ} (h : s.owns id gen) : gen = s.generation := by
  have hgen := (Bool.and_eq_true_iff.mp h).2
  exact (beq_iff_eq.mp hgen).symm

theorem Stopped.congr (hw : Stopped id g w) (h : w'.supervisor = w.supervisor) :
    Stopped id g w' := by
  obtain ⟨henv, hgen, hfr, hcr⟩ := hw
  rw [← h] at henv hgen hfr hcr
  exact ⟨henv, hgen, hfr, hcr⟩

section
variable (hw : Stopped id g w) (hp : p.Settled g) (hsp : ¬ w.trees.length < w'.trees.length)
include hw hp hsp

theorem Acted.stopped (h : Acted r w p w' p')
    (hst : ∀ id pid endp, p = .stoppingTree id g pid endp → r.stop ≠ none) :
    Stopped id g w' ∧ p'.Settled g ∧
      ((∀ e, p = .restartRequested e g → ¬ Accepted (w.refreshed r) e.id g) →
        w.supervisor.state = some .stopped → w'.supervisor.state = some .stopped) := by
  have hfr := refreshed_free hw.free r
  have keep : ∀ {s : Supervisor}, s.environmentId = w.supervisor.environmentId →
      s.generation = w.supervisor.generation → s.process = none → s.state ≠ some .crashed →
      Stopped id g { w with supervisor := s } := by
    intro s henv hgen hproc hsa
    exact ⟨henv.trans hw.environment, hgen.trans hw.generation, hproc, hsa⟩
  cases h with
  | kept calm => exact ⟨hw, calm.settled hp, fun _ h => h⟩
  | looked calm =>
    rw [hfr]
    exact ⟨hw, calm.settled hp, fun _ h => h⟩
  | bound =>
    rw [hfr]
    exact ⟨hw, settled_of_plain rfl rfl rfl, fun _ h => h⟩
  | restartsItself checks automatic own eligible ret =>
    rw [hfr] at eligible
    simp [Supervisor.autoRestartEligible, hw.notCrashed] at eligible
  | configured free =>
    rw [hfr]
    exact ⟨keep rfl rfl hw.free hw.notCrashed, settled_of_plain rfl rfl rfl, fun _ h => h⟩
  | spawned => exact absurd (w.length_lt_spawned r _ _ _ _) hsp
  | published alive rests =>
    rw [hfr] at alive
    simp [Supervisor.generationIsAlive, hw.free] at alive
  | startFailed own taken =>
    have hgen := owns_generation own
    exact absurd (hgen.trans hw.generation) (hp.notStarting _ rfl)
  | cleaned rests =>
    exact ⟨hw.congr rfl, settled_of_resting rests, fun _ h => h⟩
  | stoppedIdle acc free rests =>
    rw [hfr]
    exact ⟨keep rfl rfl hw.free nofun, settled_of_resting rests, fun _ _ => rfl⟩
  | takenForStop acc owned =>
    rw [hfr, hw.free] at owned
    cases owned
  | @treeStopFailed stopId expected pid endp fails =>
    refine ⟨hw.congr rfl, ⟨rfl, nofun, ?_⟩, fun _ h => h⟩
    intro hfailure
    have hep : expected = g := Option.some.inj hfailure
    subst hep
    exact hst stopId pid endp rfl fails
  | treeStopped stops => exact ⟨hw.congr rfl, settled_of_plain rfl rfl rfl, fun _ h => h⟩
  | @stopFailureRecorded stopId expected own =>
    have hgen := (owns_generation own).trans hw.generation
    subst hgen
    exact absurd rfl hp.noFailure
  | stopFailureStale | stopStale => exact ⟨hw, settled_of_resting rfl, fun _ h => h⟩
  | stopRecorded own rests =>
    exact ⟨keep rfl rfl hw.free nofun, settled_of_resting rests, fun _ _ => rfl⟩
  | @takenForRestart e expected acc =>
    rw [hfr] at acc ⊢
    refine ⟨keep rfl rfl rfl nofun, settled_of_plain rfl rfl rfl, ?_⟩
    intro hag
    have hgen : expected = g := acc.current.trans hw.generation
    subst hgen
    exact absurd acc (hag e rfl)
  | treeReleased next =>
    refine ⟨hw.congr rfl, ?_, fun _ h => h⟩
    rcases next with ⟨spec, rfl, -⟩ | hrs
    · exact settled_of_plain rfl rfl rfl
    · exact settled_of_resting hrs
  | nothingReleased next =>
    refine ⟨hw, ?_, fun _ h => h⟩
    rcases next with ⟨spec, rfl, -⟩ | hrs
    · exact settled_of_plain rfl rfl rfl
    · exact settled_of_resting hrs

theorem Moved.stopped (h : Moved w p i w' p')
    (hst : ∀ r, i = .step r → ∀ id pid endp, p = .stoppingTree id g pid endp → r.stop ≠ none) :
    Stopped id g w' ∧ p'.Settled g ∧
      ((∀ r, i = .step r → ∀ e, p = .restartRequested e g → ¬ Accepted (w.refreshed r) e.id g) →
        w.supervisor.state = some .stopped → w'.supervisor.state = some .stopped) := by
  cases h with
  | same => exact ⟨hw, hp, fun _ h => h⟩
  | begun ready entered =>
    refine ⟨hw, ?_, fun _ h => h⟩
    cases entered <;> exact settled_of_plain rfl rfl rfl
  | acted h =>
    obtain ⟨hw', hp', hkp⟩ := h.stopped hw hp hsp (hst _ rfl)
    exact ⟨hw', hp', fun hag => hkp (hag _ rfl)⟩

end

structure Quiescent (id : String) (g : ℕ) (s : System) : Prop where
  stopped : Stopped id g s.shared
  settled : s.Settled g

theorem settled_step (h : s.Settled g) (hown : (act s.shared (s.thread t) i).2.Settled g) :
    (s.step (.act t i)).Settled g := by
  intro u
  by_cases hu : u = t
  · subst hu
    have hself : (s.step (.act u i)).thread u = (act s.shared (s.thread u) i).2 := step_act_self u i
    rw [hself]
    exact hown
  · have hot : (s.step (.act t i)).thread u = s.thread u := step_act_other hu i
    rw [hot]
    exact h u

theorem step_quiescent (s : System) (e : Event Input Change) (hst : StopsSucceed g s e)
    (h : Quiescent id g s) (hsp : ¬ s.Spawns e) : Quiescent id g (s.step e) := by
  cases e with
  | act t i =>
    have hmv := (act_moved s.shared (s.thread t) i).stopped h.stopped (h.settled t) hsp
      fun r hi => hst t r (by rw [hi])
    exact ⟨hmv.1, settled_step h.settled hmv.2.1⟩
  | surroundings c => exact ⟨h.stopped.congr rfl, h.settled⟩

theorem Quiescent.spawnsFor (h : Quiescent id g s) (hsp : s.SpawnsFor e purpose) :
    purpose.automatic = false := by
  obtain ⟨-, t, i, envId, spec, -, ht⟩ := hsp
  have hset := (h.settled t).notRestarting
  rw [ht] at hset
  cases purpose with
  | start | restart => rfl
  | status | binding want => cases hset

theorem spawnsFor_of_spawns (h : s.Spawns e) : ∃ purpose, s.SpawnsFor e purpose := by
  obtain ⟨t, r, purpose, id, spec, _, _, he, ht, -⟩ := step_spawns h
  exact ⟨purpose, h, t, .step r, id, spec, he, ht⟩

def StopProgress (id : String) (g : ℕ) (w : ManagedRuntimeState) (p : Phase) : Prop :=
  (∃ pid endpoint, p = .stoppingTree id g pid endpoint) ∨
    (∃ disposition released, p = .recordingStop id g disposition released) ∨
    w.supervisor.state = some .stopped

section
variable (hw : Stopped id g w) (hp : p.Settled g) (hsp : ¬ w.trees.length < w'.trees.length)
  (hprog : StopProgress id g w p)
include hw hp hsp hprog

theorem Acted.progress (h : Acted r w p w' p')
    (hst : ∀ id pid endp, p = .stoppingTree id g pid endp → r.stop ≠ none)
    (hag : ∀ e, p = .restartRequested e g → ¬ Accepted (w.refreshed r) e.id g) :
    StopProgress id g w' p' := by
  rcases hprog with ⟨pid, endp, rfl⟩ | ⟨disp, rel', rfl⟩ | hsa
  · cases h with
    | kept calm | looked calm => cases calm.held.1
    | restartsItself checks => cases checks
    | treeStopFailed fails => exact absurd fails (hst id pid endp rfl)
    | treeStopped stops => exact .inr (.inl ⟨_, _, rfl⟩)
  · have how : w.supervisor.owns id g := by
      simp [Supervisor.owns, hw.environment, hw.generation]
    cases h with
    | kept calm | looked calm =>
      cases calm with
      | rest held stop rests => cases stop
      | wait bef after cand => cases bef
    | restartsItself checks => cases checks
    | stopRecorded own rests => exact .inr (.inr rfl)
    | stopStale other =>
      rw [how] at other
      cases other
  · exact .inr (.inr ((h.stopped hw hp hsp hst).2.2 hag hsa))

theorem Moved.progress (h : Moved w p i w' p')
    (hst : ∀ r, i = .step r → ∀ id pid endp, p = .stoppingTree id g pid endp → r.stop ≠ none)
    (hag : ∀ r, i = .step r → ∀ e, p = .restartRequested e g → ¬ Accepted (w.refreshed r) e.id g) :
    StopProgress id g w' p' := by
  cases h with
  | same => exact hprog
  | begun ready entered =>
    rcases hprog with ⟨pid, endp, rfl⟩ | ⟨disp, rel', rfl⟩ | hsa
    · cases ready
    · cases ready
    · exact .inr (.inr hsa)
  | acted h => exact h.progress hw hp hsp hprog (hst _ rfl) (hag _ rfl)

end

theorem step_progress (hst : StopsSucceed g s e)
    (hag : NotRestarted g s e) (h : Quiescent id g s) (hsp : ¬ s.Spawns e)
    (hprog : StopProgress id g s.shared (s.thread t)) :
    StopProgress id g (s.step e).shared ((s.step e).thread t) := by
  cases e with
  | surroundings c => exact hprog
  | act u i =>
    have hmv := act_moved s.shared (s.thread u) i
    by_cases hu : t = u
    · subst hu
      have hself : (s.step (.act t i)).thread t = (act s.shared (s.thread t) i).2 :=
        step_act_self t i
      rw [hself]
      exact hmv.progress h.stopped (h.settled t) hsp hprog (fun r hi => hst t r (by rw [hi]))
        fun r hi => hag t r (by rw [hi])
    have hot : (s.step (.act u i)).thread t = s.thread t := step_act_other hu i
    rw [hot]
    rcases hprog with hso | hrec | hsa
    · exact .inl hso
    · exact .inr (.inl hrec)
    · exact .inr (.inr ((hmv.stopped h.stopped (h.settled u) hsp
        fun r hi => hst u r (by rw [hi])).2.2 (fun r hi => hag u r (by rw [hi])) hsa))

theorem foreign_false {s : Supervisor} (h : s.foreign id = false)
    (hsome : s.environmentId ≠ none) : s.environmentId = some id := by
  unfold Supervisor.foreign at h
  cases henv : s.environmentId with
  | none => exact absurd henv hsome
  | some own =>
    rw [henv] at h
    simpa using h

/-- The critical section that accepts a stop leaves the record stopped and the
caller on its way to stop the tree, or done. -/
theorem accepts_quiescent {evs : List (Event Input Change)}
    (hac : (run evs).Accepts e t id g) (hset : (run evs).Settled g) :
    Quiescent id g ((run evs).step e) ∧ StopProgress id g ((run evs).step e).shared
        (((run evs).step e).thread t) := by
  have hnm := run_named evs
  generalize run evs = s at *
  obtain ⟨r, rfl, ht, hacc⟩ := hac
  have heq := s.shared.refreshed_same r
  have hso : (s.shared.refreshed r).supervisor.environmentId ≠ none := by
    intro hnn
    have hzr := hnm (heq.environment.symm.trans hnn)
    have hgen := hacc.current.trans heq.generation
    exact hacc.positive (hgen.trans hzr)
  have henv := foreign_false hacc.own hso
  have hact : act s.shared (s.thread t) (.step r) = acceptStop r s.shared id g := by
    rw [ht]
    rfl
  have hself : (s.step (.act t (.step r))).thread t = (acceptStop r s.shared id g).2 :=
    (step_act_self t _).trans (congrArg Prod.snd hact)
  have hsh : (s.step (.act t (.step r))).shared = (acceptStop r s.shared id g).1 :=
    congrArg Prod.fst hact
  have hcr : ¬ (g = 0 ∨ g ≠ (s.shared.refreshed r).supervisor.generation) :=
    not_or.mpr ⟨hacc.positive, not_not.mpr hacc.current⟩
  have hsp : (acceptStop r s.shared id g).2.Settled g ∧
      Stopped id g (acceptStop r s.shared id g).1 ∧
      StopProgress id g (acceptStop r s.shared id g).1 (acceptStop r s.shared id g).2 := by
    unfold acceptStop
    simp only [hacc.own, Bool.false_eq_true, if_false, hcr]
    cases hp : (s.shared.refreshed r).supervisor.process with
    | none =>
      exact ⟨settled_of_resting (answer_rests _ _ _),
        ⟨henv, hacc.current.symm, hp, nofun⟩, .inr (.inr rfl)⟩
    | some pid =>
      exact ⟨settled_of_plain rfl rfl rfl, ⟨henv, hacc.current.symm, rfl, nofun⟩,
        .inl ⟨pid, _, rfl⟩⟩
  obtain ⟨hown, hst, hprog⟩ := hsp
  refine ⟨⟨by rw [hsh]; exact hst, settled_step hset ?_⟩, ?_⟩
  · rw [hact]
    exact hown
  · rw [hsh, hself]
    exact hprog

theorem no_automatic_spawn {after : List (Event Input Change)} (h : Quiescent id g s)
    (hal : Along step (StopsSucceed g) s after) {xs ys : List (Event Input Change)}
    (hsp : after = xs ++ e :: ys) (hsa : (run step s xs).SpawnsFor e purpose)
    (hat : purpose.automatic) :
    ∃ us e₀ vs purpose₀, xs = us ++ e₀ :: vs ∧
      (run step s us).SpawnsFor e₀ purpose₀ ∧ purpose₀.automatic = false := by
  rw [hsp] at hal
  have hxs := (along_append.mp hal).1
  rcases run_until (StopsSucceed g) System.Spawns (Quiescent id g) step_quiescent hxs h with
    hend | ⟨us, e₀, vs, hus, hqt, hfirst⟩
  · rw [hend.spawnsFor hsa] at hat
    cases hat
  · obtain ⟨purpose₀, hfor⟩ := spawnsFor_of_spawns hfirst
    exact ⟨us, e₀, vs, purpose₀, hus, hfor, hqt.spawnsFor hfor⟩

theorem run_generation_lt {xs : List (Event Input Change)} (ys : List (Event Input Change))
    (hgen : (run step s xs).shared.supervisor.generation = g) (hsp : (run step s xs).Spawns e) :
    g < (run step s (xs ++ e :: ys)).shared.supervisor.generation := by
  rw [run_append, run_cons]
  have hst := step_spawns_generation hsp
  have hle := run_generation_le ((run step s xs).step e) ys
  omega

theorem stopped_until_next_generation {xs ys : List (Event Input Change)}
    {out : Except ManagedRuntimeError Answer} (h : Quiescent id g s)
    (hprog : StopProgress id g s.shared (s.thread t))
    (hal : Along step (fun s e => StopsSucceed g s e ∧ NotRestarted g s e) s (xs ++ ys))
    (hret : (run step s xs).thread t = .returned out)
    (hgen : (run step s (xs ++ ys)).shared.supervisor.generation = g) :
    (run step s (xs ++ ys)).shared.supervisor.state = some .stopped := by
  obtain ⟨hxs, hys⟩ := along_append.mp hal
  have hse : ∀ u (s : System) e, StopsSucceed g s e ∧ NotRestarted g s e →
      (Quiescent id g s ∧ StopProgress id g s.shared (s.thread u)) → ¬ s.Spawns e →
      Quiescent id g (s.step e) ∧ StopProgress id g (s.step e).shared ((s.step e).thread u) :=
    fun u s e hok hs hsp =>
      ⟨step_quiescent s e hok.1 hs.1 hsp, step_progress hok.1 hok.2 hs.1 hsp hs.2⟩
  rcases run_until _ System.Spawns _ (hse t) hxs ⟨h, hprog⟩ with
    ⟨hqt, hreach⟩ | ⟨us, e₀, vs, hus, ⟨hqt, -⟩, hsp⟩
  · have hst : (run step s xs).shared.supervisor.state = some .stopped := by
      rcases hreach with ⟨pid, endp, hp⟩ | ⟨disp, rel', hp⟩ | hst
      · rw [hret] at hp
        cases hp
      · rw [hret] at hp
        cases hp
      · exact hst
    have hkp : ∀ (s : System) e, StopsSucceed g s e ∧ NotRestarted g s e →
        (Quiescent id g s ∧ s.shared.supervisor.state = some .stopped) → ¬ s.Spawns e →
        Quiescent id g (s.step e) ∧ (s.step e).shared.supervisor.state = some .stopped := by
      intro s e hok hs hsp
      refine ⟨step_quiescent s e hok.1 hs.1 hsp, ?_⟩
      cases e with
      | surroundings c => exact hs.2
      | act u i =>
        exact ((act_moved s.shared (s.thread u) i).stopped hs.1.stopped (hs.1.settled u) hsp
          fun r hi => hok.1 u r (by rw [hi])).2.2 (fun r hi => hok.2 u r (by rw [hi])) hs.2
    rcases run_until _ System.Spawns _ hkp hys ⟨hqt, hst⟩ with
      hend | ⟨us, e₀, vs, hus, ⟨hqt', -⟩, hsp⟩
    · rw [run_append]
      exact hend.2
    · have hlt := run_generation_lt vs hqt'.stopped.generation hsp
      rw [← hus, ← run_append] at hlt
      omega
  · have hlt := run_generation_lt (vs ++ ys) hqt.stopped.generation hsp
    rw [← List.cons_append, ← List.append_assoc, ← hus] at hlt
    omega

theorem explicit_stop_sticks (before after : List (Event Input Change)) (e : Event Input Change)
    (t g : ℕ)
    (id : String) (accepts : (System.run before).Accepts e t id g)
    (settled : (System.run before).Settled g) :
    let s := (System.run before).step e
    (Along System.step (StopsSucceed g) s after → ∀ xs next ys purpose, after = xs ++ next :: ys →
        (run System.step s xs).SpawnsFor next purpose → purpose.automatic = true →
        ∃ us first vs purpose₀, xs = us ++ first :: vs ∧
          (run System.step s us).SpawnsFor first purpose₀ ∧ purpose₀.automatic = false) ∧
    (Along System.step (fun s e => StopsSucceed g s e ∧ NotRestarted g s e) s after →
      ∀ xs ys answer, after = xs ++ ys → (run System.step s xs).thread t = .returned (.ok answer) →
        (run System.step s after).shared.supervisor.generation = g →
        (run System.step s after).shared.supervisor.state = some .stopped) := by
  intro s
  obtain ⟨hqt, hprogress⟩ := accepts_quiescent accepts settled
  refine ⟨?_, ?_⟩
  · intro hal xs next ys purpose hsp hsa hat
    exact no_automatic_spawn hqt hal hsp hsa hat
  · intro hal xs ys answer hsp hrt hgen
    subst hsp
    exact stopped_until_next_generation hqt hprogress hal hrt hgen

def healthyThenStop : List (Event Input Change) :=
  calls 0 (.start (plainEnvironment "dsh")) :: List.replicate 7 (goesOn 0) ++
    [calls 1 (.stop (plainEnvironment "dsh") 1)]

theorem stopsSucceed_goesOn : StopsSucceed g s (goesOn t) := by
  intro u r he id pid endp _
  cases he
  exact nofun

theorem notRestarted_goesOn (h : ∀ e, s.thread t ≠ .restartRequested e g) :
    NotRestarted g s (goesOn t) := by
  intro u r he environment hph
  cases he
  exact absurd hph (h environment)

theorem explicit_stop_sticks_healthy :
    (run System.step ((System.run healthyThenStop).step (goesOn 1))
      [goesOn 1, goesOn 1]).shared.supervisor.state = some .stopped := by
  have hac : (System.run healthyThenStop).Accepts (goesOn 1) 1 "dsh" 1 :=
    ⟨plainReadings, rfl, rfl, by decide +kernel, by decide, by decide +kernel⟩
  have hse : (System.run healthyThenStop).Settled 1 := by
    intro u
    match u with
    | 0 => exact settled_of_plain rfl rfl rfl
    | 1 => exact settled_of_plain rfl rfl rfl
    | n + 2 => exact settled_of_plain rfl rfl rfl
  obtain ⟨answer, hrt⟩ : ∃ answer, (run System.step ((System.run healthyThenStop).step (goesOn 1))
        [goesOn 1, goesOn 1]).thread 1 = .returned (.ok answer) := ⟨_, rfl⟩
  have hst : ∃ pid endpoint, ((System.run healthyThenStop).step (goesOn 1)).thread 1 =
      .stoppingTree "dsh" 1 pid endpoint := ⟨_, _, rfl⟩
  have hrecording : ∃ disposition released,
      (((System.run healthyThenStop).step (goesOn 1)).step (goesOn 1)).thread 1 =
        .recordingStop "dsh" 1 disposition released := ⟨_, _, rfl⟩
  have hal : Along System.step (fun s e => StopsSucceed 1 s e ∧ NotRestarted 1 s e)
      ((System.run healthyThenStop).step (goesOn 1)) [goesOn 1, goesOn 1] := by
    obtain ⟨pid, endpoint, hst⟩ := hst
    obtain ⟨disposition, released, hrecording⟩ := hrecording
    refine ⟨⟨stopsSucceed_goesOn, notRestarted_goesOn ?_⟩,
      ⟨stopsSucceed_goesOn, notRestarted_goesOn ?_⟩, trivial⟩
    · intro environment hph
      cases hst.symm.trans hph
    · intro environment hph
      cases hrecording.symm.trans hph
  exact (explicit_stop_sticks healthyThenStop [goesOn 1, goesOn 1] (goesOn 1) 1 1 "dsh"
    hac hse).2 hal [goesOn 1, goesOn 1] [] answer rfl hrt (by decide +kernel)

/-- Generation 1 crashes, a status call finds it eligible for a restart and
backs off, and a stop of generation 1 is asked for. -/
def restartBackingOff : List (Event Input Change) :=
  [calls 0 (.start (plainEnvironment "dsh")), goesOn 0, goesOn 0, .surroundings ⟨0, false, false⟩,
    calls 1 (.status (plainEnvironment "dsh")), goesOn 1,
    calls 2 (.stop (plainEnvironment "dsh") 1)]

def startThenStop : List (Event Input Change) :=
  [calls 0 (.start (plainEnvironment "dsh")), goesOn 0, goesOn 0,
    calls 1 (.stop (plainEnvironment "dsh") 1)]

/-- Two ways in which an accepted stop comes undone: the status call that backed
off spawns generation 2, and the failed start overwrites the recorded Stopped. -/
theorem explicit_stop_undone : ((System.run restartBackingOff).Accepts (goesOn 2) 2 "dsh" 1 ∧
      ((System.run restartBackingOff).step (goesOn 2)).SpawnsFor (goesOn 1) .status) ∧
    (System.run startThenStop).Accepts (goesOn 1) 1 "dsh" 1 ∧
      (∃ answer, (run System.step ((System.run startThenStop).step (goesOn 1))
        [goesOn 1, goesOn 1]).thread 1 = .returned (.ok answer)) ∧
      (run System.step ((System.run startThenStop).step (goesOn 1))
        [goesOn 1, goesOn 1, goesOn 0, goesOn 0]).shared.supervisor.generation = 1 ∧
      (run System.step ((System.run startThenStop).step (goesOn 1))
        [goesOn 1, goesOn 1, goesOn 0, goesOn 0]).shared.supervisor.state = some .crashed := by
  have hbc : (System.run restartBackingOff).Accepts (goesOn 2) 2 "dsh" 1 :=
    ⟨plainReadings, rfl, rfl, by decide +kernel, by decide, by decide +kernel⟩
  have hst : (System.run startThenStop).Accepts (goesOn 1) 1 "dsh" 1 :=
    ⟨plainReadings, rfl, rfl, by decide +kernel, by decide, by decide +kernel⟩
  refine ⟨⟨hbc, ?_, ?_⟩, hst, ?_, ?_, ?_⟩
  · unfold System.Spawns
    decide +kernel
  · exact ⟨1, _, _, _, rfl, rfl⟩
  · exact ⟨_, rfl⟩
  · decide +kernel
  · decide +kernel

end DshDesktop.Runtime
