import DshDesktop.Library.Text
import DshDesktop.Runtime.ExplicitStop

/-!
# What a process is launched from

`push_dsh_arguments` puts the loopback host, the port and `--no-open` after what the source of
the environment and its profile contribute, and before the extra arguments, which alone go
through the filter for reserved ones. An explicit start records its launch specification
before it spawns, and the environment id only with the spawn. In between the record names one
environment and keeps the recipe of another, and a start that fails there leaves it so.
-/

namespace DshDesktop.Runtime
open List

structure OwnArguments (portArgument : String) (args : List String) : Prop where
  once : ∀ owned ∈ ["--host", "--port", "--no-open"], args.count owned = 1
  host : ["--host", "127.0.0.1"] <:+: args
  port : ["--port", portArgument] <:+: args
  trusted : "--trusted-host" ∉ args
  assigned : ∀ argument ∈ args, ∀ reserved ∈ reservedArguments,
    ¬ (reserved ++ "=").toList <+: argument.toList

def ownArguments (portArgument : String) : List String :=
  ["--host", "127.0.0.1", "--port", portArgument, "--no-open"]

section
variable {arg parg : String}

theorem isReservedArgument_eq_false : isReservedArgument arg = false ↔ ∀ resv ∈ reservedArguments,
      arg ≠ resv ∧ ¬ (resv ++ "=").toList <+: arg.toList := by
  simp [isReservedArgument]

theorem isReservedArgument_of_head {argument : String} (h : argument.toList.head? ≠ some '-') :
    isReservedArgument argument = false := by
  have hds : ∀ resv ∈ reservedArguments, resv.toList.head? = some '-' := by decide
  refine isReservedArgument_eq_false.mpr fun resv hmem => ⟨?_, ?_⟩
  · rintro rfl
    exact h (hds argument hmem)
  · rintro ⟨rest, hrs⟩
    refine h ?_
    rw [← hrs, String.toList_append, head?_append, head?_append, hds _ hmem]
    rfl

theorem isReservedArgument_toString {n : ℕ} : isReservedArgument (toString n) = false := by
  refine isReservedArgument_of_head ?_
  intro hhd
  exact Text.notMem_toString (c := '-') rfl n (mem_of_mem_head? hhd)

variable (hport : isReservedArgument parg = false)
include hport

theorem own_ownArguments : OwnArguments parg (ownArguments parg) where
  once := by
    have hne : ∀ owned ∈ ["--host", "--port", "--no-open"], parg ≠ owned :=
      fun owned how =>
        (isReservedArgument_eq_false.mp hport owned (mem_append_left ["--trusted-host"] how)).1
    simp [ownArguments, count_cons, hne]
  host := ⟨[], ["--port", parg, "--no-open"], rfl⟩
  port := ⟨["--host", "127.0.0.1"], ["--no-open"], rfl⟩
  trusted := by
    have hne := (isReservedArgument_eq_false.mp hport "--trusted-host" (by decide)).1
    simpa [ownArguments] using hne.symm
  assigned := by
    have hpl : ∀ argument ∈ ["--host", "127.0.0.1", "--port", "--no-open"],
        ∀ resv ∈ reservedArguments, ¬ (resv ++ "=").toList <+: argument.toList := by
      decide
    intro argument hmem resv hrs
    by_cases heq : argument = parg
    · exact heq ▸ (isReservedArgument_eq_false.mp hport resv hrs).2
    · exact hpl argument (by simpa [ownArguments, heq] using hmem) resv hrs

theorem ownArguments_iff (front extra : List String) :
    OwnArguments parg (front ++ ownArguments parg ++ extra) ↔
      ∀ argument ∈ front ++ extra, isReservedArgument argument = false := by
  have hown := own_ownArguments hport
  have hif := infix_append front (ownArguments parg) extra
  have hcount : ∀ owned ∈ ["--host", "--port", "--no-open"],
      (front ++ ownArguments parg ++ extra).count owned = (front ++ extra).count owned + 1 := by
    intro owned how
    rw [count_append, count_append, hown.once owned how, count_append]
    omega
  have hmem : ∀ argument, argument ∈ front ++ ownArguments parg ++ extra ↔
      argument ∈ front ++ extra ∨ argument ∈ ownArguments parg := by
    intro argument
    simp only [mem_append]
    tauto
  simp only [isReservedArgument_eq_false]
  constructor
  · intro h argument harg resv hrs
    have har := (hmem argument).mpr (.inl harg)
    refine ⟨?_, h.assigned argument har resv hrs⟩
    rintro rfl
    rcases mem_append.mp (show argument ∈ ["--host", "--port", "--no-open"] ++
      ["--trusted-host"] from hrs) with how | htrusted
    · have hon := h.once argument how
      rw [hcount argument how] at hon
      have hpos := count_pos_iff.mpr harg
      omega
    · exact h.trusted (mem_singleton.mp htrusted ▸ har)
  · intro h
    have hfr : ∀ resv ∈ reservedArguments, resv ∉ front ++ extra :=
      fun resv hrs hin => (h resv hin resv hrs).1 rfl
    refine ⟨?_, hown.host.trans hif, hown.port.trans hif, ?_, ?_⟩
    · intro owned how
      rw [hcount owned how, count_eq_zero.mpr
        (hfr owned (mem_append_left ["--trusted-host"] how))]
    · rw [hmem]
      exact not_or.mpr ⟨hfr _ (by decide), hown.trusted⟩
    · intro argument harg resv hrs
      rcases (hmem argument).mp harg with hin | how
      · exact (h argument hin resv hrs).2
      · exact hown.assigned argument how resv hrs

end

section
variable {m : Machine} {e : ManagedEnvironment} {spec : LaunchSpec}

theorem args_of_valid (h : e.isValid m) :
    ∀ argument ∈ e.harness.args, isReservedArgument argument = false := by
  simp only [ManagedEnvironment.isValid, Bool.and_eq_true, Bool.not_eq_true', Bool.or_eq_false_iff,
    any_eq_false] at h
  intro argument hmem
  exact Bool.not_eq_true _ ▸ h.1.2.2 argument hmem

inductive SourceArguments (m : Machine) (e : ManagedEnvironment) : List String → Prop
  | repository (loader : String) (mode : e.harness.mode = .repository)
      (loads : loaderArgument m e.harness.path = .ok loader) :
      SourceArguments m e ["--import", loader, m.join e.harness.path repoCliEntryRel]
  | direct (mode : e.harness.mode ≠ .repository) : SourceArguments m e []

theorem buildRepositorySpec_args {nodePath : Option String}
    (h : buildRepositorySpec m e nodePath = .ok spec) :
    ∃ loader, loaderArgument m e.harness.path = .ok loader ∧
      spec.args = ["--import", loader, m.join e.harness.path repoCliEntryRel] ++
        dshArguments e (toString (e.managedExpectedPort.getD 0)) := by
  unfold buildRepositorySpec at h
  simp only [bind, Except.bind, pure, Except.pure] at h
  split at h
  · cases h
  split at h
  · cases h
  split at h
  · cases h
  · next loader hld =>
    cases h
    exact ⟨loader, hld, rfl⟩

theorem buildLaunchSpec_args (h : buildLaunchSpec m e = .ok spec) :
    e.isValid m ∧ ∃ src, SourceArguments m e src ∧
      spec.args = src ++ dshArguments e (toString (e.managedExpectedPort.getD 0)) := by
  unfold buildLaunchSpec at h
  simp only [bind, Except.bind, pure, Except.pure] at h
  split at h
  · cases h
  split at h
  · cases h
  next hvl =>
  split at h
  · cases h
  split at h
  · cases h
  refine ⟨by simpa using hvl, ?_⟩
  split at h
  · next hmd =>
    obtain ⟨loader, hld, har⟩ := buildRepositorySpec_args h
    exact ⟨_, .repository loader (by simpa using hmd) hld, har⟩
  · next hmd =>
    cases h
    exact ⟨[], .direct (by simpa using hmd), rfl⟩

end

/-- The arguments of the supervisor stand once and unopposed exactly when neither the profile
nor the path of the repository's entry is itself a reserved argument. -/
theorem ownArguments_kept_iff (m : Machine)
    (hurl : ∀ path url, m.fromFilePath path = some url → "file:".toList <+: url.toList)
    (e : ManagedEnvironment) (spec : LaunchSpec) (h : buildLaunchSpec m e = .ok spec) :
    OwnArguments (toString (e.managedExpectedPort.getD 0)) spec.args ↔
      isReservedArgument e.profile = false ∧ (e.harness.mode = .repository →
          isReservedArgument (m.join e.harness.path repoCliEntryRel) = false) := by
  obtain ⟨hvalid, source, hsr, har⟩ := buildLaunchSpec_args h
  have het := args_of_valid hvalid
  have hprofile : (∀ argument ∈ (if e.profile = "default" then ["web"]
      else ["--profile", e.profile]), isReservedArgument argument = false) ↔
      isReservedArgument e.profile = false := by
    have hweb : isReservedArgument "web" = false := by decide
    have hflag : isReservedArgument "--profile" = false := by decide
    have hdf : isReservedArgument "default" = false := by decide
    split_ifs with heq
    · simp [hweb, heq, hdf]
    · simp [hflag]
  have hso : (∀ argument ∈ source, isReservedArgument argument = false) ↔
      (e.harness.mode = .repository →
        isReservedArgument (m.join e.harness.path repoCliEntryRel) = false) := by
    cases hsr with
    | direct mode => simp [mode]
    | repository loader mode loads =>
      have hip : isReservedArgument "--import" = false := by decide
      have hld : isReservedArgument loader = false := by
        unfold loaderArgument at loads
        dsimp only at loads
        split_ifs at loads
        · split at loads
          · next url hfi =>
            cases loads
            obtain ⟨rest, hrs⟩ := hurl _ _ hfi
            refine isReservedArgument_of_head ?_
            rw [← hrs]
            exact nofun
          · cases loads
        · cases loads
          decide
      simp [mode, hip, hld]
  rw [har, dshArguments, ← append_assoc, ← append_assoc]
  refine (ownArguments_iff isReservedArgument_toString _ _).trans ?_
  rw [forall_mem_append, forall_mem_append, hprofile, hso, and_iff_left het]
  exact And.comm

def urlMachine : Machine :=
  { plainMachine with fromFilePath := fun path => some ("file://" ++ path) }

def workEnvironment : ManagedEnvironment :=
  { plainEnvironment "dsh" with
    harness := ⟨.repository, "/opt/dsh", none, ["--verbose"]⟩
    profile := "work" }

def trustingEnvironment : ManagedEnvironment :=
  { plainEnvironment "dsh" with profile := "--trusted-host" }

theorem urlMachine_fromFilePath (path url : String) (h : urlMachine.fromFilePath path = some url) :
    "file:".toList <+: url.toList := by
  cases h
  rw [String.toList_append]
  exact ⟨"//".toList ++ path.toList, rfl⟩

theorem plain_arguments_kept : ∃ spec, buildLaunchSpec urlMachine workEnvironment = .ok spec ∧
    "work" ∈ spec.args ∧ "--verbose" ∈ spec.args ∧ OwnArguments "4000" spec.args :=
  ⟨_, rfl, by decide, by decide, (ownArguments_kept_iff urlMachine urlMachine_fromFilePath
    workEnvironment _ rfl).mpr ⟨by decide, fun _ => by decide⟩⟩

theorem trusted_host_passed : trustingEnvironment.isValid urlMachine = true ∧
      ∃ spec, buildLaunchSpec urlMachine trustingEnvironment = .ok spec ∧
        ¬ OwnArguments "4000" spec.args := by
  refine ⟨by decide, _, rfl, ?_⟩
  intro h
  exact h.trusted (by decide)

open Interleaving Runs Option
variable {id : String} {r : Readings} {p : Phase} {purpose : Purpose} {spec : LaunchSpec}
  {s : Supervisor} {m : Machine}

def Call.environment : Call → ManagedEnvironment
  | .start e | .status e | .binding e _ | .stop e _ | .restart e _ => e

def Sequential (s : System) (e : Event Input Change) : Prop :=
  ∀ t m c, e = .act t (.call m c) → ∀ u, (s.thread u).ready = true

/-- A start that has recorded its recipe while another environment is named goes
through: a generation number and the clock are available and the spawn succeeds. -/
def StartsRecorded (s : System) (e : Event Input Change) : Prop :=
  ∀ t r, e = .act t (.step r) → ∀ id spec, s.thread t = .spawning .start id spec →
    s.shared.supervisor.environmentId = none ∨ s.shared.supervisor.environmentId = some id ∨
      s.shared.supervisor.nextGeneration ≠ none ∧ r.launchClock ≠ none ∧ r.spawn = .ok ()

def Built (P : ManagedEnvironment → Prop) (id : String) (spec : LaunchSpec) : Prop :=
  ∃ m e, P e ∧ e.id = id ∧ buildLaunchSpec m e = .ok spec

namespace Phase

def carriesNothing : Phase → Bool
  | .starting _ _ _ | .spawning _ _ _ | .restartRequested _ _ | .restarting _ _ _ => false
  | _ => true

def startsSpawn : Phase → Bool
  | .spawning .start _ _ => true
  | _ => false

theorem carriesNothing_of_resting (h : p.resting) : p.carriesNothing := by
  cases p <;> first | rfl | cases h

theorem carriesNothing_of_attempt {k : Purpose × String × ℕ} (h : p.attempt = some k) :
    p.carriesNothing := by
  cases p <;> first | rfl | cases h

theorem carriesNothing_of_ready (h : p.ready) : p.carriesNothing := by
  cases p <;> first | rfl | cases h

theorem startsSpawn_of_carriesNothing (h : p.carriesNothing) : p.startsSpawn = false := by
  cases p <;> first | rfl | cases h

end Phase

theorem Calm.carriesNothing {p' : Phase} (h : Calm p p') : p'.carriesNothing := by
  cases h with
  | rest held stop rests => exact Phase.carriesNothing_of_resting rests
  | wait bef after cand => exact Phase.carriesNothing_of_attempt after

section
variable (P : ManagedEnvironment → Prop)

def Recorded (w : ManagedRuntimeState) : Prop :=
  ∀ id spec, w.supervisor.environmentId = some id → w.supervisor.retainedSpec = some spec →
    Built P id spec

def Phase.Carries (w : ManagedRuntimeState) : Phase → Prop
  | .starting id _ spec => Built P id spec
  | .spawning purpose id spec =>
    Built P id spec ∧
      if purpose = .start then
        w.supervisor.retainedSpec = some spec ∧ w.supervisor.process = none
      else w.supervisor.environmentId = some id
  | .restartRequested e _ => P e
  | .restarting e _ retained =>
    P e ∧ w.supervisor.environmentId = some e.id ∧ ∀ spec, retained = some spec → Built P e.id spec
  | _ => True

def Unnamed (w : ManagedRuntimeState) : Prop :=
  w.supervisor.environmentId = none →
    w.supervisor.state = none ∧ w.supervisor.process = none ∧ w.supervisor.generation = 0

def TreesBuilt (w : ManagedRuntimeState) : Prop :=
  ∀ tree ∈ w.trees, Built P tree.environmentId tree.spec

structure Recipes (w : ManagedRuntimeState) (p : Phase) : Prop where
  unnamed : Unnamed w
  trees : TreesBuilt P w
  carries : p.Carries P w
  recorded : p.startsSpawn = true ∨ Recorded P w

end

section
variable {P : ManagedEnvironment → Prop} {w w' : ManagedRuntimeState} {p' : Phase}

theorem carries_of_nothing (h : p.carriesNothing) : p.Carries P w := by
  cases p <;> trivial

theorem treesBuilt_changed (h : TreesBuilt P w) (c : Change) : TreesBuilt P (w.changed c) := by
  intro tree hmem
  obtain ⟨i, hi⟩ := mem_iff_getElem?.mp hmem
  simp only [ManagedRuntimeState.changed, getElem?_modify] at hi
  obtain ⟨old, hold, hnew⟩ := map_eq_some_iff.mp hi
  have hbl := h old (mem_of_getElem? hold)
  subst hnew
  split <;> exact hbl

structure SameRecord (w w' : ManagedRuntimeState) : Prop where
  environment : w'.supervisor.environmentId = w.supervisor.environmentId
  retained : w'.supervisor.retainedSpec = w.supervisor.retainedSpec

theorem SameRecord.recorded (h : SameRecord w w') (hw : Recorded P w) : Recorded P w' := by
  intro id spec hid hsp
  exact hw id spec (h.environment ▸ hid) (h.retained ▸ hsp)

theorem refreshed_record (r : Readings) (w : ManagedRuntimeState) :
    SameRecord w (w.refreshed r) := by
  rcases w.refreshed_cases r with ⟨hkp, -⟩ | ⟨pid, left, -, hdr⟩
  · rw [hkp]
    exact ⟨rfl, rfl⟩
  · rw [hdr]
    exact ⟨rfl, rfl⟩

theorem unnamed_refreshed (h : Unnamed w) (r : Readings) : Unnamed (w.refreshed r) := by
  intro hnn
  have hw := h ((refreshed_record r w).environment ▸ hnn)
  rw [refreshed_free hw.2.1]
  exact hw

theorem treesBuilt_refreshed (h : TreesBuilt P w) (r : Readings) :
    TreesBuilt P (w.refreshed r) := by
  rcases w.refreshed_cases r with ⟨hkp, -⟩ | ⟨pid, left, -, hdr⟩
  · rw [hkp]
    exact h
  · rw [hdr]
    exact treesBuilt_changed h _

theorem unnamed_of_some (h : w.supervisor.environmentId = some id) : Unnamed w := by
  intro hnn
  rw [h] at hnn
  cases hnn

theorem Recipes.write (trees : TreesBuilt P w) (recorded : Recorded P w)
    (env : s.environmentId = w.supervisor.environmentId)
    (ret : s.retainedSpec = w.supervisor.retainedSpec)
    (named : w.supervisor.environmentId = some id) (plain : p'.carriesNothing) :
    Recipes P { w with supervisor := s } p' where
  unnamed := unnamed_of_some (env.trans named)
  trees := trees
  carries := carries_of_nothing plain
  recorded := .inr (SameRecord.recorded ⟨env, ret⟩ recorded)

theorem accepted_named {g : ℕ} (h : Accepted w id g) (hw : Unnamed w) :
    w.supervisor.environmentId = some id := by
  refine foreign_false h.own ?_
  intro hnn
  exact h.positive (h.current.trans (hw hnn).2.2)

theorem owns_named {gen : ℕ} (h : s.owns id gen) : s.environmentId = some id :=
  beq_iff_eq.mp (Bool.and_eq_true_iff.mp h).1

theorem carries_released {e : ManagedEnvironment} {pid : Option ℕ} {ret : Option LaunchSpec}
    (h : (Phase.restarting e pid ret).Carries P w)
    (heq : w'.supervisor.environmentId = w.supervisor.environmentId)
    (next : (∃ spec, p' = .spawning .restart e.id spec ∧ (ret = some spec ∨ ret = none ∧
      buildLaunchSpec r.machine e = .ok spec)) ∨ p'.resting) : p'.Carries P w' := by
  obtain ⟨hPe, hnm, hbuilt⟩ := h
  rcases next with ⟨spec, rfl, hsp⟩ | hrs
  · refine ⟨?_, heq.trans hnm⟩
    rcases hsp with hkp | ⟨-, hb⟩
    · exact hbuilt spec hkp
    · exact ⟨r.machine, e, hPe, rfl, hb⟩
  · exact carries_of_nothing (Phase.carriesNothing_of_resting hrs)

theorem Acted.recipes (h : Acted r w p w' p') (hp : Recipes P w p)
    (hsp : ∀ purpose id spec, p ≠ .spawning purpose id spec) : Recipes P w' p' := by
  have hst : p.startsSpawn = false := by
    cases p <;> first | rfl | exact absurd rfl (hsp _ _ _)
  have hrec : Recorded P w := by
    rcases hp.recorded with hs | hr
    · rw [hst] at hs
      cases hs
    · exact hr
  have han := unnamed_refreshed hp.unnamed r
  have htrees := treesBuilt_refreshed hp.trees r
  have hrecorded := (refreshed_record r w).recorded hrec
  have hlk : ∀ {q : Phase}, q.carriesNothing → Recipes P (w.refreshed r) q :=
    fun hq => ⟨han, htrees, carries_of_nothing hq, .inr hrecorded⟩
  have hen : ∀ {q : Phase} (pid : ℕ), q.carriesNothing → Recipes P (w.changed (r.stopped pid)) q :=
    fun pid hq => ⟨hp.unnamed, treesBuilt_changed hp.trees _, carries_of_nothing hq, .inr hrec⟩
  cases h with
  | kept calm =>
    exact ⟨hp.unnamed, hp.trees, carries_of_nothing calm.carriesNothing, .inr hrec⟩
  | looked calm => exact hlk calm.carriesNothing
  | bound => exact hlk rfl
  | @restartsItself _ purpose id spec checks automatic own eligible retained =>
    have hcr : (w.refreshed r).supervisor.state = some .crashed := by
      simp only [Supervisor.autoRestartEligible, Bool.and_eq_true, beq_iff_eq] at eligible
      exact eligible.1.1.1
    have hnm : (w.refreshed r).supervisor.environmentId ≠ none := by
      intro hnn
      rw [(han hnn).1] at hcr
      cases hcr
    have hid := foreign_false own hnm
    refine ⟨han, htrees, ⟨hrecorded id spec hid retained, ?_⟩, .inr hrecorded⟩
    cases purpose with
    | start | restart => cases automatic
    | status | binding want => exact hid
  | configured free =>
    refine ⟨?_, htrees, ⟨hp.carries, rfl, free⟩, .inl rfl⟩
    intro hnn
    exact han hnn
  | spawned => exact absurd rfl (hsp _ _ _)
  | published alive rests =>
    have hnm : (w.refreshed r).supervisor.environmentId = some _ :=
      beq_iff_eq.mp (Bool.and_eq_true_iff.mp (Bool.and_eq_true_iff.mp alive).1).1
    exact Recipes.write htrees hrecorded rfl rfl hnm
      (Phase.carriesNothing_of_resting rests)
  | startFailed own taken =>
    have hnm := owns_named own
    have heq : SameRecord w (w.failStart r.crashClock) := by
      unfold ManagedRuntimeState.failStart Supervisor.failStart
      split <;> exact ⟨rfl, rfl⟩
    refine ⟨unnamed_of_some (heq.environment.trans hnm), hp.trees, carries_of_nothing ?_,
      .inr (heq.recorded hrec)⟩
    rcases taken with ⟨-, hrs⟩ | ⟨pid, -, rfl⟩
    · exact Phase.carriesNothing_of_resting hrs
    · rfl
  | cleaned rests => exact hen _ (Phase.carriesNothing_of_resting rests)
  | stoppedIdle acc free rests | takenForStop acc owned =>
    have hnm := accepted_named acc han
    exact Recipes.write htrees hrecorded rfl rfl hnm rfl
  | treeStopFailed | treeStopped => exact hen _ rfl
  | stopFailureRecorded own | stopRecorded own rests =>
    exact Recipes.write hp.trees hrec rfl rfl (owns_named own) rfl
  | stopFailureStale | stopStale => exact ⟨hp.unnamed, hp.trees, trivial, .inr hrec⟩
  | @takenForRestart e want acc =>
    have hnm := accepted_named acc han
    refine ⟨unnamed_of_some hnm, htrees, ⟨hp.carries, hnm, ?_⟩,
      .inr (SameRecord.recorded ⟨rfl, rfl⟩ hrecorded)⟩
    intro spec hse
    exact hrecorded e.id spec hnm hse
  | @treeReleased e pid retained _ next =>
    exact ⟨hp.unnamed, treesBuilt_changed hp.trees _, carries_released hp.carries rfl next,
      .inr hrec⟩
  | @nothingReleased e retained _ next =>
    exact ⟨hp.unnamed, hp.trees, carries_released hp.carries rfl next, .inr hrec⟩

theorem spawnGeneration_cases :
    (∃ gen lat, spawnGeneration r w purpose id spec = ((w.refreshed r).spawn id spec gen lat,
        .awaiting purpose id gen spec.expectedPort)) ∨
    ((spawnGeneration r w purpose id spec).1 = w.refreshed r ∧
      (spawnGeneration r w purpose id spec).2.resting ∧
      ((w.refreshed r).supervisor.process ≠ none ∨
        (w.refreshed r).supervisor.nextGeneration = none ∨ r.launchClock = none ∨
        r.spawn ≠ .ok ())) := by
  unfold spawnGeneration
  dsimp only
  cases hp : (w.refreshed r).supervisor.process with
  | some pid =>
    exact .inr ⟨rfl, finish_rests (retainedAnswer_rests _ _ _), .inl nofun⟩
  | none =>
    cases hn : (w.refreshed r).supervisor.nextGeneration with
    | none => exact .inr ⟨rfl, finish_rests rfl, .inr (.inl rfl)⟩
    | some gen =>
      cases hc : r.launchClock with
      | none => exact .inr ⟨rfl, finish_rests rfl, .inr (.inr (.inl rfl))⟩
      | some lat =>
        cases hs : r.spawn with
        | error error => exact .inr ⟨rfl, finish_rests rfl, .inr (.inr (.inr nofun))⟩
        | ok u => exact .inl ⟨gen, lat, rfl⟩

theorem Recipes.spawned (hp : Recipes P w (.spawning purpose id spec)) (r : Readings)
    (gen lat : ℕ) :
    Recipes P ((w.refreshed r).spawn id spec gen lat)
      (.awaiting purpose id gen spec.expectedPort) := by
  have hrec := refreshed_record r w
  refine ⟨unnamed_of_some rfl, ?_, trivial, .inr ?_⟩
  · intro tree hmem
    rcases mem_append.mp hmem with hold | hnew
    · exact treesBuilt_refreshed hp.trees r tree hold
    · rw [mem_singleton.mp hnew]
      exact hp.carries.1
  · intro id' spec' hid hsp
    have hid : id = id' := some.inj hid
    subst hid
    have hkp : w.supervisor.retainedSpec = some spec' := hrec.retained.symm.trans hsp
    have hcr := hp.carries.2
    by_cases hst : purpose = .start
    · rw [if_pos hst] at hcr
      rw [hcr.1] at hkp
      rw [← some.inj hkp]
      exact hp.carries.1
    · rw [if_neg hst] at hcr
      rcases hp.recorded with hs | hr
      · cases purpose <;> first | exact absurd rfl hst | cases hs
      · exact hr id spec' hcr hkp

theorem Recipes.unspawned (hp : Recipes P w (.spawning purpose id spec)) (r : Readings)
    (hrs : p'.resting)
    (hown : purpose = .start → w.supervisor.environmentId = none ∨
      w.supervisor.environmentId = some id) : Recipes P (w.refreshed r) p' := by
  refine ⟨unnamed_refreshed hp.unnamed r, treesBuilt_refreshed hp.trees r,
    carries_of_nothing (Phase.carriesNothing_of_resting hrs),
    .inr ((refreshed_record r w).recorded ?_)⟩
  rcases hp.recorded with hs | hr
  · have hst : purpose = .start := by
      cases purpose <;> first | rfl | cases hs
    have hcr := hp.carries.2
    rw [if_pos hst] at hcr
    intro id' spec' hid hsp
    rcases hown hst with hnn | heq
    · rw [hnn] at hid
      cases hid
    · rw [heq] at hid
      rw [hcr.1] at hsp
      rw [← some.inj hid, ← some.inj hsp]
      exact hp.carries.1
  · exact hr

theorem stepPhase_recipes (hp : Recipes P w p)
    (hrec : ∀ id spec, p = .spawning .start id spec → w.supervisor.environmentId = none ∨
      w.supervisor.environmentId = some id ∨ w.supervisor.nextGeneration ≠ none ∧
      r.launchClock ≠ none ∧ r.spawn = .ok ()) :
    Recipes P (stepPhase r w p).1 (stepPhase r w p).2 := by
  by_cases hsp : ∃ purpose id spec, p = .spawning purpose id spec
  · obtain ⟨purpose, id, spec, rfl⟩ := hsp
    have hst : stepPhase r w (.spawning purpose id spec) =
        spawnGeneration r w purpose id spec := rfl
    rw [hst]
    rcases spawnGeneration_cases (r := r) (w := w) with
      ⟨generation, launchedAt, hs⟩ | ⟨hw, hrs, hwhy⟩
    · rw [hs]
      exact hp.spawned r generation launchedAt
    rw [hw]
    refine hp.unspawned r hrs ?_
    intro hsa
    subst hsa
    have hfr := hp.carries.2.2
    rw [refreshed_free hfr] at hwhy
    rcases hrec id spec rfl with hnn | heq | ⟨hnx, hclock, hsw⟩
    · exact .inl hnn
    · exact .inr heq
    rcases hwhy with h | h | h | h
    · exact absurd hfr h
    · exact absurd h hnx
    · exact absurd h hclock
    · exact absurd hsw h
  · rcases stepPhase_acted (r := r) (w := w) p with hkp | hac
    · rw [hkp]
      exact hp
    · exact hac.recipes hp fun purpose id spec h => hsp ⟨purpose, id, spec, h⟩

theorem Entered.carries {c : Call} (h : Entered m c p) (hc : P c.environment) : p.Carries P w := by
  cases h with
  | refused | status | binding | stop => trivial
  | @start e spec built => exact ⟨m, e, hc, rfl, built⟩
  | restart => exact hc

theorem Recipes.begun {c : Call} (hp : Recipes P w p) (hrd : p.ready)
    (hc : P c.environment) : Recipes P w (begin m c) := by
  refine ⟨hp.unnamed, hp.trees, (begin_entered m c).carries hc, .inr ?_⟩
  have hil := Phase.startsSpawn_of_carriesNothing (Phase.carriesNothing_of_ready hrd)
  rcases hp.recorded with hs | hr
  · rw [hil] at hs
    cases hs
  · exact hr

def InOrder (P : ManagedEnvironment → Prop) (s : System) : Prop :=
  ∃ t, (∀ u, u ≠ t → (s.thread u).ready = true) ∧ Recipes P s.shared (s.thread t)

theorem stepPhase_ready (h : p.ready) : stepPhase r w p = (w, p) := by
  cases p <;> first | rfl | cases h

theorem step_inOrder (s : System) (e : Event Input Change)
    (hok : (Sequential s e ∧ StartsRecorded s e) ∧
      ∀ t m c, e = .act t (.call m c) → P c.environment) (h : InOrder P s) :
    InOrder P (s.step e) := by
  obtain ⟨⟨hseq, hrec⟩, hps⟩ := hok
  obtain ⟨t, hel, hrecs⟩ := h
  cases e with
  | surroundings c =>
    refine ⟨t, hel, hrecs.unnamed, treesBuilt_changed hrecs.trees c, ?_, hrecs.recorded⟩
    have hcr := hrecs.carries
    show (s.thread t).Carries P (s.shared.changed c)
    cases hph : s.thread t <;> rw [hph] at hcr <;> exact hcr
  | act u i =>
    have hself : (s.step (.act u i)).thread u = (act s.shared (s.thread u) i).2 := step_act_self u i
    have hot : ∀ v, v ≠ u → (s.step (.act u i)).thread v = s.thread v :=
      fun v hv => step_act_other hv i
    have hsh : (s.step (.act u i)).shared = (act s.shared (s.thread u) i).1 := rfl
    cases i with
    | call m c =>
      have hrd := hseq u m c rfl
      refine ⟨u, ?_, ?_⟩
      · intro v hv
        rw [hot v hv]
        exact hrd v
      · rw [hself, hsh]
        simp only [act, hrd u, if_true]
        exact hrecs.begun (hrd t) (hps u m c rfl)
    | step r =>
      by_cases hut : u = t
      · subst hut
        refine ⟨u, ?_, ?_⟩
        · intro v hv
          rw [hot v hv]
          exact hel v hv
        · rw [hself, hsh]
          exact stepPhase_recipes hrecs (hrec u r rfl)
      have hil := hel u hut
      have hact : act s.shared (s.thread u) (.step r) = (s.shared, s.thread u) :=
        stepPhase_ready hil
      refine ⟨t, ?_, ?_⟩
      · intro v hv
        by_cases hvu : v = u
        · subst hvu
          rw [hself, hact]
          exact hil
        · rw [hot v hvu]
          exact hel v hv
      · rw [hsh, hact, hot t (Ne.symm hut)]
        exact hrecs

end

def Passed (events : List (Event Input Change)) (e : ManagedEnvironment) : Prop :=
  ∃ t m c, Event.act t (.call m c) ∈ events ∧ c.environment = e

/-- In a sequence of calls in which every start that recorded a recipe for an
environment other than the named one goes through, each process is spawned from
a recipe of the environment it is reported under. -/
theorem spawned_from_own_recipe (events : List (Event Input Change))
    (sequential : Along System.step Sequential .initial events)
    (recorded : Along System.step StartsRecorded .initial events) :
    ∀ tree ∈ (System.run events).shared.trees,
      ∃ m e, Passed events e ∧ e.id = tree.environmentId ∧ buildLaunchSpec m e = .ok tree.spec := by
  have hps : ∀ e ∈ events, ∀ t m c, e = .act t (.call m c) → Passed events c.environment := by
    intro e he t m c hcall
    exact ⟨t, m, c, hcall ▸ he, rfl⟩
  have hin : InOrder (Passed events) .initial :=
    ⟨0, fun _ _ => rfl, fun _ => ⟨rfl, rfl, rfl⟩, nofun, trivial, .inr nofun⟩
  obtain ⟨t, -, hrecipes⟩ := run_invariant_along _ _ step_inOrder
    (along_and (along_and sequential recorded) (along_of_forall hps)) hin
  exact hrecipes.trees

theorem sequential_step {s : System} {t : ℕ} {r : Readings} : Sequential s (.act t (.step r)) := by
  intro u m c h
  cases h

theorem startsRecorded_call {s : System} {t : ℕ} {c : Call} : StartsRecorded s (calls t c) := by
  intro u r h
  cases h

theorem startsRecorded_goesOn {s : System} {t : ℕ}
    (h : s.shared.supervisor.nextGeneration.isSome) : StartsRecorded s (goesOn t) := by
  intro u r he id spec _
  cases he
  exact .inr (.inr ⟨isSome_iff_ne_none.mp h, nofun, rfl⟩)

theorem sequential_calls {s : System} {c : Call} (h0 : (s.thread 0).ready)
    (hothers : ∀ u, (s.thread (u + 1)).ready) : Sequential s (calls 0 c) := by
  intro t m c' _ u
  match u with
  | 0 => exact h0
  | u + 1 => exact hothers u

def startedAndStopped : List (Event Input Change) :=
  [calls 0 (.start (plainEnvironment "dsh")), goesOn 0, goesOn 0, goesOn 0, goesOn 0, goesOn 0,
    goesOn 0, goesOn 0, calls 0 (.stop (plainEnvironment "dsh") 1), goesOn 0, goesOn 0, goesOn 0]

theorem startedAndStopped_sequential :
    Along System.step Sequential .initial startedAndStopped := by
  have hstep : ∀ s r, Sequential s (.act 0 (.step r)) := fun s r => sequential_step
  exact ⟨sequential_calls rfl fun _ => rfl, hstep _ _, hstep _ _, hstep _ _, hstep _ _, hstep _ _,
    hstep _ _, hstep _ _, sequential_calls rfl fun _ => rfl, hstep _ _, hstep _ _, hstep _ _,
    trivial⟩

def secondStart : List (Event Input Change) :=
  startedAndStopped ++ [calls 0 (.start (plainEnvironment "web")), goesOn 0, goesOn 0]

theorem spawned_from_own_recipe_second :
    (System.run secondStart).shared.trees.map (·.environmentId) = ["dsh", "web"] ∧
      ∀ tree ∈ (System.run secondStart).shared.trees,
        ∃ m e, Passed secondStart e ∧ e.id = tree.environmentId ∧
          buildLaunchSpec m e = .ok tree.spec := by
  have hgo : ∀ s : System, s.shared.supervisor.nextGeneration.isSome →
    StartsRecorded s (goesOn 0) := fun _ => startsRecorded_goesOn
  refine ⟨by decide +kernel, spawned_from_own_recipe secondStart
    (along_append.mpr ⟨startedAndStopped_sequential, sequential_calls rfl fun _ => rfl,
      sequential_step, sequential_step, trivial⟩)
    ⟨startsRecorded_call, hgo _ rfl, hgo _ rfl, hgo _ rfl, hgo _ rfl, hgo _ rfl, hgo _ rfl,
      hgo _ rfl, startsRecorded_call, hgo _ rfl, hgo _ rfl, hgo _ rfl, startsRecorded_call,
      hgo _ rfl, hgo _ rfl, trivial⟩⟩

/-- A start of another environment fails to spawn; then the stopped environment,
whose generation is still current, is restarted. -/
def restartAfterFailedStart : List (Event Input Change) :=
  startedAndStopped ++ [calls 0 (.start (plainEnvironment "web")), goesOn 0,
    .act 0 (.step { plainReadings with spawn := .error (.spawnFailed "no such file") }),
    calls 0 (.restart (plainEnvironment "dsh") 1), goesOn 0, goesOn 0, goesOn 0]

theorem restart_spawns_other_recipe :
    Along System.step Sequential .initial restartAfterFailedStart ∧
      ∃ tree ∈ (System.run restartAfterFailedStart).shared.trees,
        tree.environmentId = "dsh" ∧ tree.spec.executable = "/opt/web" ∧
          ∀ m e, Passed restartAfterFailedStart e → e.id = "dsh" →
            buildLaunchSpec m e ≠ .ok tree.spec := by
  refine ⟨along_append.mpr ⟨startedAndStopped_sequential, sequential_calls rfl fun _ => rfl,
    sequential_step, sequential_step, sequential_calls rfl fun _ => rfl, sequential_step,
    sequential_step, sequential_step, trivial⟩, ?_⟩
  have hweb : ∃ tree ∈ (System.run restartAfterFailedStart).shared.trees,
      tree.environmentId = "dsh" ∧ tree.spec.executable = "/opt/web" := by decide +kernel
  obtain ⟨tree, hmem, hid, hee⟩ := hweb
  refine ⟨tree, hmem, hid, hee, ?_⟩
  intro m e hps he hbuilt
  have henv : e = plainEnvironment "dsh" ∨ e = plainEnvironment "web" := by
    obtain ⟨t, m', c, hc, rfl⟩ := hps
    simp only [restartAfterFailedStart, startedAndStopped, calls, goesOn, cons_append, nil_append,
      mem_cons, Event.act.injEq, Input.call.injEq, not_mem_nil, reduceCtorEq, and_false, or_false,
      false_or] at hc
    rcases hc with h | h | h | h <;> obtain ⟨-, -, rfl⟩ := h
    · exact .inl rfl
    · exact .inl rfl
    · exact .inr rfl
    · exact .inl rfl
  rcases henv with rfl | rfl
  · have hpt := buildLaunchSpec_executable (by decide) hbuilt
    rw [hee] at hpt
    exact absurd hpt (by decide)
  · exact absurd he (by decide)

end DshDesktop.Runtime
