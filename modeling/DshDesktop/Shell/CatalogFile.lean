import DshDesktop.Library.FallibleLoop
import DshDesktop.Shell.EnvironmentCheck
import Mathlib.Data.String.Basic
import Mathlib.Data.List.Sort
import DshDesktop.Library.Runs

/-!
# The catalog file and the environment store

`environment_store.rs`: the catalog of environments, its check, and a protocol over three
files for writing it, each of whose calls may fail and after each of which the process
may stop. Of the JSON encoding only the round trip is known. `save_environment`,
`set_active_environment` and `remove_environment` load the catalog, change it, give it the
next revision (a checked 64-bit increment), check it and write it back.
-/

namespace DshDesktop.Shell
open DshDesktop.Runtime FaultySteps Effects List

def maxEnvironments : ℕ := 128

structure EnvironmentCatalog where
  schemaVersion : ℕ
  revision : ℕ
  activeEnvironmentId : Option String
  environments : List DshEnvironment
  deriving DecidableEq

namespace EnvironmentCatalog

def default : EnvironmentCatalog := ⟨catalogSchemaVersion, 0, none, []⟩

def ids (c : EnvironmentCatalog) : List String := c.environments.map DshEnvironment.id

end EnvironmentCatalog

inductive StoreError
  | corrupt
  | invalidEnvironment
  | capacity
  | notFound
  | unavailable
  deriving DecidableEq

def collectIds (m : Machine) : List String → List DshEnvironment → Except StoreError (List String)
  | ids, [] => .ok ids
  | ids, e :: rest =>
    if ids.contains e.id || !(validateEnvironmentValue m e).valid then .error .corrupt
    else collectIds m (e.id :: ids) rest

def validateCatalog (m : Machine) (c : EnvironmentCatalog) : Except StoreError Unit :=
  if c.schemaVersion != catalogSchemaVersion || maxEnvironments < c.environments.length then
    .error .corrupt
  else
    match collectIds m [] c.environments with
    | .error e => .error e
    | .ok ids =>
      if c.activeEnvironmentId.any fun active => !ids.contains active then .error .corrupt
      else .ok ()

structure CatalogValid (m : Machine) (c : EnvironmentCatalog) : Prop where
  schemaVersion : c.schemaVersion = catalogSchemaVersion
  count : c.environments.length ≤ maxEnvironments
  ids_nodup : c.ids.Nodup
  accepted : ∀ e ∈ c.environments, (validateEnvironmentValue m e).valid = true
  active : ∀ id, c.activeEnvironmentId = some id → id ∈ c.ids

theorem collectIds_ok {m : Machine} {seen ids : List String} {envs : List DshEnvironment} :
    collectIds m seen envs = .ok ids ↔ ids = (envs.map DshEnvironment.id).reverse ++ seen ∧
        (envs.map DshEnvironment.id).Nodup ∧
        (∀ e ∈ envs, e.id ∉ seen ∧ (validateEnvironmentValue m e).valid) := by
  induction envs generalizing seen with
  | nil =>
    rw [collectIds, Except.ok.injEq]
    constructor
    · intro h
      exact ⟨h.symm, nodup_nil, fun e he => absurd he not_mem_nil⟩
    · intro h
      exact h.1.symm
  | cons e rest ih =>
    rw [collectIds]
    by_cases hsn : e.id ∈ seen
    · simp [hsn]
    by_cases hvalid : (validateEnvironmentValue m e).valid
    · simp only [contains_eq_mem, hsn, decide_false, hvalid, Bool.not_true, Bool.or_self,
        Bool.false_eq_true, if_false, ih]
      constructor
      · intro h
        obtain ⟨rfl, hnd, hrs⟩ := h
        refine ⟨by simp, ?_, ?_⟩
        · rw [map_cons, nodup_cons]
          refine ⟨?_, hnd⟩
          intro hmem
          obtain ⟨other, hot, hid⟩ := mem_map.mp hmem
          exact (hrs other hot).1 (hid ▸ mem_cons_self)
        · intro other hot
          rcases mem_cons.mp hot with rfl | hot
          · exact ⟨hsn, hvalid⟩
          · exact ⟨fun hmem => (hrs other hot).1 (mem_cons_of_mem _ hmem), (hrs other hot).2⟩
      · intro h
        obtain ⟨rfl, hnd, hall⟩ := h
        rw [map_cons, nodup_cons] at hnd
        refine ⟨by simp, hnd.2, ?_⟩
        intro other hot
        have hmm := hall other (mem_cons_of_mem e hot)
        refine ⟨?_, hmm.2⟩
        intro hmem
        rcases mem_cons.mp hmem with hid | hmem
        · exact hnd.1 (hid ▸ mem_map_of_mem hot)
        · exact hmm.1 hmem
    · simp [hvalid]

theorem validateCatalog_ok {m : Machine} {c : EnvironmentCatalog} :
    validateCatalog m c = .ok () ↔ CatalogValid m c := by
  rw [validateCatalog]
  split_ifs with hhd
  · constructor
    · intro h
      cases h
    · intro h
      have hcount := h.count
      simp [h.schemaVersion] at hhd
      omega
  have hhd' : c.schemaVersion = catalogSchemaVersion ∧
      c.environments.length ≤ maxEnvironments := by
    simpa using hhd
  cases hids : collectIds m [] c.environments with
  | error e =>
    constructor
    · intro h
      cases h
    · intro h
      have hok := collectIds_ok.mpr ⟨rfl, h.ids_nodup, fun e he => ⟨not_mem_nil, h.accepted e he⟩⟩
      rw [hids] at hok
      cases hok
  | ok ids =>
    obtain ⟨hids, hnd, hacc⟩ := collectIds_ok.mp hids
    have hmem : ∀ id, id ∈ ids ↔ id ∈ c.ids := by
      intro id
      rw [hids, append_nil, mem_reverse]
      exact Iff.rfl
    dsimp only
    split_ifs with hact
    · constructor
      · intro h
        cases h
      · intro h
        cases hid : c.activeEnvironmentId with
        | none => simp [hid] at hact
        | some id =>
          simp [hid, hmem, h.active id hid] at hact
    · refine ⟨fun _ => ⟨hhd'.1, hhd'.2, hnd, fun e he => (hacc e he).2, ?_⟩, fun _ => rfl⟩
      intro id hid
      simpa [hid, hmem] using hact

structure CatalogFormat (τ : Type) where
  toVec : EnvironmentCatalog → List τ
  newline : τ
  fromSlice : List τ → Option EnvironmentCatalog
  fromSlice_toVec : ∀ c, fromSlice (toVec c ++ [newline]) = some c

structure Disk (τ : Type) where
  catalog : Option (List τ)
  next : Option (List τ)
  backup : Option (List τ)
  deriving DecidableEq

section
variable {τ : Type} (m : Machine) (format : CatalogFormat τ)

def loadCatalog (d : Disk τ) : Except StoreError EnvironmentCatalog :=
  match d.catalog with
  | none => .ok .default
  | some bytes =>
    match format.fromSlice bytes with
    | none => .error .corrupt
    | some c =>
      match validateCatalog m c with
      | .error e => .error e
      | .ok () => .ok c

inductive FileStep
  | createDirectory
  | restrictDirectory
  | openNext
  | writePayload
  | writeNewline
  | syncNext
  | restrictNext
  | copyBackup
  | restrictBackup
  | syncBackup
  | removeCatalog
  | renameNext
  | restoreCatalog
  | restrictRestored
  | syncDirectory
  deriving DecidableEq

def FileStep.complete (payload : List τ) : FileStep → Disk τ → Disk τ
  | openNext, d => { d with next := some [] }
  | writePayload, d => { d with next := d.next.map (· ++ payload) }
  | writeNewline, d => { d with next := d.next.map (· ++ [format.newline]) }
  | copyBackup, d => { d with backup := d.catalog }
  | removeCatalog, d => { d with catalog := none }
  | renameNext, d => { d with catalog := d.next, next := none }
  | restoreCatalog, d => { d with catalog := d.backup }
  | _, d => d

def FileStep.spoil : FileStep → Option (List τ) → Disk τ → Disk τ
  | openNext, left, d => { d with next := left }
  | writePayload, left, d => { d with next := left }
  | writeNewline, left, d => { d with next := left }
  | copyBackup, left, d => { d with backup := left }
  | restoreCatalog, left, d => { d with catalog := left }
  | _, _, d => d

def fileEffects (payload : List τ) : Effects FileStep (Disk τ) (Option (List τ)) :=
  ⟨FileStep.complete format payload, FileStep.spoil⟩

def prepareSteps : List FileStep :=
  [.createDirectory, .restrictDirectory, .openNext, .writePayload, .writeNewline, .syncNext,
    .restrictNext]

def backupSteps : List FileStep := [.copyBackup, .restrictBackup, .syncBackup]

def setAsideSteps : List FileStep := backupSteps ++ [.removeCatalog]

abbrev WriteRun (τ : Type) := Except StoreError Unit × Run FileStep (Disk τ)

variable (payload : List τ) (outcome : FileStep → Outcome (Option (List τ)))

def replaceCatalog (hadPrevious : Bool) (r : Run FileStep (Disk τ)) : WriteRun τ :=
  match (fileEffects format payload).attempt outcome .renameNext r with
  | (false, r) =>
    if hadPrevious then
      let r := ((fileEffects format payload).attempt outcome .restoreCatalog r).2
      (.error .unavailable, ((fileEffects format payload).attempt outcome .restrictRestored r).2)
    else (.error .unavailable, r)
  | (true, r) =>
    match (fileEffects format payload).attempt outcome .syncDirectory r with
    | (false, r) => (.error .unavailable, r)
    | (true, r) => (.ok (), r)

def writeCatalog (c : EnvironmentCatalog) (d : Disk τ) : WriteRun τ :=
  let payload := format.toVec c
  match (fileEffects format payload).attemptAll outcome prepareSteps ⟨d, []⟩ with
  | (false, r) => (.error .unavailable, r)
  | (true, r) =>
    let hadPrevious := r.state.catalog.isSome
    match (fileEffects format payload).attemptAll outcome
        (if hadPrevious then setAsideSteps else []) r with
    | (false, r) => (.error .unavailable, r)
    | (true, r) => replaceCatalog format payload outcome hadPrevious r

variable {m format payload outcome} {d s d' : Disk τ} {old new c : EnvironmentCatalog}
  {k : FileStep}
  {r : Run FileStep (Disk τ)}

theorem loadCatalog_some {bytes : List τ} (h : d.catalog = some bytes)
    (hparse : format.fromSlice bytes = some c) (hvl : validateCatalog m c = .ok ()) :
    loadCatalog m format d = .ok c := by
  simp [loadCatalog, h, hparse, hvl]

theorem loadCatalog_congr (h : d'.catalog = d.catalog) :
    loadCatalog m format d' = loadCatalog m format d := by
  rw [loadCatalog, h, loadCatalog]

theorem complete_catalog (hk : k ∈ prepareSteps ++ backupSteps) :
    ((fileEffects format payload).complete k s).catalog = s.catalog := by
  cases k <;> first | rfl | exact absurd hk (by decide)

theorem stopAfter_catalog (hk : k ∈ prepareSteps ++ backupSteps) :
    ((fileEffects format payload).stopAfter outcome k s).state.catalog = s.catalog := by
  cases hdn : outcome k with
  | done =>
    rw [stopAfter_done hdn]
    exact complete_catalog hk
  | failed left =>
    rw [stopAfter_failed hdn]
    cases k <;> first | rfl | exact absurd hk (by decide)

theorem replaceCatalog_done (h : ∀ k, outcome k = .done) (hadPrevious : Bool) :
    (replaceCatalog format payload outcome hadPrevious r).1 = .ok () ∧
      (replaceCatalog format payload outcome hadPrevious r).2.state.catalog = r.state.next := by
  simp only [replaceCatalog, attempt, stopAfter_done (h _)]
  exact ⟨trivial, rfl⟩

theorem writeCatalog_done (format : CatalogFormat τ) (h : ∀ k, outcome k = .done)
    (c : EnvironmentCatalog) (d : Disk τ) :
    (writeCatalog format outcome c d).1 = .ok () ∧
      (writeCatalog format outcome c d).2.state.catalog =
        some (format.toVec c ++ [format.newline]) := by
  obtain ⟨hprep, hst⟩ := attemptAll_done (fileEffects format (format.toVec c))
    (fun k (_ : k ∈ prepareSteps) => h k) ⟨d, []⟩
  rw [writeCatalog]
  generalize (fileEffects format (format.toVec c)).attemptAll outcome prepareSteps ⟨d, []⟩ =
    prepared at hprep hst ⊢
  obtain ⟨done, r⟩ := prepared
  cases hprep
  dsimp only at hst ⊢
  generalize r.state.catalog.isSome = hadPrevious
  have hall : ∀ k ∈ (if hadPrevious then setAsideSteps else []), outcome k = .done := fun k _ => h k
  obtain ⟨has, hst'⟩ := attemptAll_done (fileEffects format (format.toVec c)) hall r
  have hnx : ((if hadPrevious then setAsideSteps else []).foldl
      (fun s k => (fileEffects format (format.toVec c)).complete k s) r.state).next =
      r.state.next := by
    cases hadPrevious <;> rfl
  rw [← hst', hst] at hnx
  generalize (fileEffects format (format.toVec c)).attemptAll outcome
    (if hadPrevious then setAsideSteps else []) r = aside at has hnx ⊢
  obtain ⟨done, r'⟩ := aside
  cases has
  exact (replaceCatalog_done h hadPrevious).imp id fun hcat => hcat.trans hnx

def Kept (m : Machine) (format : CatalogFormat τ) (old new : EnvironmentCatalog) (d : Disk τ) :
    Prop :=
  d.catalog.isSome = true ∧ (loadCatalog m format d = .ok old ∨ loadCatalog m format d = .ok new)

/-- The stop lies between the removal of the old catalog and the point where the
rename, or the restoring copy, has put a whole one in its place. -/
def Exposed (m : Machine) (format : CatalogFormat τ)
    (outcome : FileStep → Outcome (Option (List τ))) (old new : EnvironmentCatalog)
    (stop : Stop FileStep (Disk τ)) : Prop :=
  match stop.step with
  | .removeCatalog => stop.done = true
  | .renameNext => stop.done = false
  | .restoreCatalog | .restrictRestored =>
    ∃ left, outcome .restoreCatalog = .failed left ∧
      ¬ Kept m format old new { stop.state with catalog := left }
  | _ => False

abbrev StopJudged (m : Machine) (format : CatalogFormat τ)
    (outcome : FileStep → Outcome (Option (List τ))) (old new : EnvironmentCatalog)
    (stop : Stop FileStep (Disk τ)) : Prop :=
  Kept m format old new stop.state ↔ ¬ Exposed m format outcome old new stop

theorem kept_congr (h : d'.catalog = d.catalog) :
    Kept m format old new d' ↔ Kept m format old new d := by
  rw [Kept, Kept, h, loadCatalog_congr h]

theorem kept_new (hnew : validateCatalog m new = .ok ())
    (h : d.catalog = some (format.toVec new ++ [format.newline])) : Kept m format old new d := by
  refine ⟨by rw [h]; rfl, .inr ?_⟩
  exact loadCatalog_some h (format.fromSlice_toVec new) hnew

section
variable (hold : Kept m format old new d)
include hold

theorem kept_before_removal (hk : k ∈ prepareSteps ++ backupSteps) (hs : s.catalog = d.catalog) :
    StopJudged m format outcome old new ((fileEffects format payload).stopAfter outcome k s) := by
  have hep :
      ¬ Exposed m format outcome old new ((fileEffects format payload).stopAfter outcome k s) := by
    rw [Exposed, stopAfter_step]
    cases k <;> first | exact id | exact absurd hk (by decide)
  have hkp : Kept m format old new ((fileEffects format payload).stopAfter outcome k s).state :=
    (kept_congr ((stopAfter_catalog hk).trans hs)).mpr hold
  exact iff_of_true hkp hep

theorem kept_at_removal (hs : s.catalog = d.catalog) : StopJudged m format outcome old new
      ((fileEffects format payload).stopAfter outcome .removeCatalog s) := by
  cases hdn : outcome .removeCatalog with
  | done =>
    rw [stopAfter_done hdn]
    refine iff_of_false ?_ (fun hep => hep rfl)
    intro hkp
    cases hkp.1
  | failed left =>
    rw [stopAfter_failed hdn]
    refine iff_of_true ((kept_congr hs).mpr hold) ?_
    intro hep
    cases hep

theorem kept_restored (hbc : s.backup = d.catalog) {stop : Stop FileStep (Disk τ)}
    (hst : stop.step = .restoreCatalog ∨ stop.step = .restrictRestored)
    (hso : stop.state = ((fileEffects format payload).stopAfter outcome .restoreCatalog s).state)
      : StopJudged m format outcome old new stop := by
  have hep : Exposed m format outcome old new stop ↔
      ∃ left, outcome .restoreCatalog = .failed left ∧
        ¬ Kept m format old new { stop.state with catalog := left } := by
    rcases hst with hst | hst <;> rw [Exposed, hst]
  rw [StopJudged, hep]
  cases hdn : outcome .restoreCatalog with
  | done =>
    rw [stopAfter_done hdn] at hso
    have hcat : stop.state.catalog = d.catalog := by
      rw [hso]
      exact hbc
    refine iff_of_true ((kept_congr hcat).mpr hold) ?_
    intro hfail
    obtain ⟨left, hlf, -⟩ := hfail
    cases hlf
  | failed left =>
    rw [stopAfter_failed hdn] at hso
    have hcat : ({ stop.state with catalog := left } : Disk τ).catalog = stop.state.catalog := by
      rw [hso]
      rfl
    constructor
    · intro hkp hfail
      obtain ⟨other, hot, hlost⟩ := hfail
      cases hot
      exact hlost ((kept_congr hcat).mpr hkp)
    · intro hnv
      by_contra hlost
      exact hnv ⟨left, rfl, fun hkp => hlost ((kept_congr hcat).mp hkp)⟩

end

theorem replaceCatalog_renamed (h : outcome .renameNext = .done) (hadPrevious : Bool) :
    (replaceCatalog format payload outcome hadPrevious r).2 =
      ((fileEffects format payload).attempt outcome .syncDirectory
        ((fileEffects format payload).attempt outcome .renameNext r).2).2 := by
  have hdn : ((fileEffects format payload).attempt outcome .renameNext r).1 := by
    rw [attempt, stopAfter_done h]
  rw [replaceCatalog]
  generalize (fileEffects format payload).attempt outcome .renameNext r = renamed at hdn ⊢
  obtain ⟨done, r'⟩ := renamed
  cases hdn
  dsimp only
  generalize (fileEffects format payload).attempt outcome .syncDirectory r' = synced
  obtain ⟨done, r''⟩ := synced
  cases done <;> rfl

theorem replaceCatalog_not_renamed {left : Option (List τ)}
    (h : outcome .renameNext = .failed left) :
    (replaceCatalog format payload outcome true r).2 =
      ((fileEffects format payload).attempt outcome .restrictRestored
        ((fileEffects format payload).attempt outcome .restoreCatalog
          ((fileEffects format payload).attempt outcome .renameNext r).2).2).2 := by
  have hfail : ((fileEffects format payload).attempt outcome .renameNext r).1 = false := by
    rw [attempt, stopAfter_failed h]
  rw [replaceCatalog]
  generalize (fileEffects format payload).attempt outcome .renameNext r = renamed at hfail ⊢
  obtain ⟨done, r'⟩ := renamed
  cases hfail
  rfl

theorem kept_after_removal (hnew : validateCatalog m new = .ok ()) (hold : Kept m format old new d)
    (hcat : r.state.catalog = none)
    (hnx : r.state.next = some (format.toVec new ++ [format.newline]))
    (hbc : r.state.backup = d.catalog)
    (hso : ∀ stop ∈ r.stops, StopJudged m format outcome old new stop) :
    ∀ stop ∈ (replaceCatalog format payload outcome true r).2.stops,
      StopJudged m format outcome old new stop := by
  intro stop hst
  cases hren : outcome .renameNext with
  | done =>
    rw [replaceCatalog_renamed hren, mem_attempt, mem_attempt, attempt, stopAfter_done hren] at hst
    rcases hst with (hps | rfl) | rfl
    · exact hso stop hps
    · exact iff_of_true (kept_new hnew hnx) (fun hep => by cases hep)
    refine iff_of_true ?_ ?_
    · rw [stopAfter_still rfl fun _ => rfl]
      exact kept_new hnew hnx
    · rw [Exposed, stopAfter_step]
      exact id
  | failed left =>
    rw [replaceCatalog_not_renamed hren, mem_attempt, mem_attempt, mem_attempt, attempt, attempt,
      stopAfter_failed hren] at hst
    rcases hst with ((hps | rfl) | rfl) | rfl
    · exact hso stop hps
    · refine iff_of_false ?_ (fun hep => hep rfl)
      intro hkp
      have hsome := hkp.1
      rw [show ((fileEffects format payload).spoil .renameNext left r.state).catalog = none from
        hcat] at hsome
      cases hsome
    · exact kept_restored hold (s := r.state) hbc (.inl (stopAfter_step ..)) rfl
    · exact kept_restored hold (s := r.state) hbc (.inr (stopAfter_step ..))
        (stopAfter_still rfl fun _ => rfl)

theorem kept_set_aside (payload : List τ) (hold : Kept m format old new d)
    (hcat : r.state.catalog = d.catalog)
    (hsp : ∀ stop ∈ r.stops, StopJudged m format outcome old new stop) :
    ∀ stop ∈ ((fileEffects format payload).attemptAll outcome setAsideSteps r).2.stops,
      StopJudged m format outcome old new stop := by
  have hst : ∀ k ∈ backupSteps, k ∈ prepareSteps ++ backupSteps := fun k hk => mem_append_right _ hk
  have hkp : ∀ k ∈ backupSteps, ∀ s : Disk τ, s.catalog = d.catalog →
      ((fileEffects format payload).complete k s).catalog = d.catalog :=
    fun k hk s hs => (complete_catalog (hst k hk)).trans hs
  have hjd : ∀ stop ∈ ((fileEffects format payload).attemptAll outcome backupSteps r).2.stops,
      StopJudged m format outcome old new stop :=
    attemptAll_forall _ _ hkp
      (fun k hk s hs => kept_before_removal hold (hst k hk) hs) hcat hsp
  have hsa : ((fileEffects format payload).attemptAll outcome backupSteps r).1 →
      ((fileEffects format payload).attemptAll outcome backupSteps r).2.state.catalog = d.catalog :=
    attemptAll_keeps (fun s : Disk τ => s.catalog = d.catalog) hkp hcat
  rw [setAsideSteps, attemptAll_append]
  generalize (fileEffects format payload).attemptAll outcome backupSteps r = backedUp
    at hjd hsa ⊢
  obtain ⟨done, r'⟩ := backedUp
  cases done with
  | false => exact hjd
  | true =>
    intro stop hso
    have hmem : stop ∈ r'.stops ∨ stop =
        (fileEffects format payload).stopAfter outcome .removeCatalog r'.state := by
      refine mem_attempt.mp ?_
      cases hrm : outcome .removeCatalog with
      | done =>
        simpa [attemptAll, attempt, stopAfter_done hrm] using hso
      | failed left =>
        simpa [attemptAll, attempt, stopAfter_failed hrm] using hso
    rcases hmem with hps | rfl
    · exact hjd stop hps
    · exact kept_at_removal hold (hsa rfl)

/-- The process may stop after any call of a write, completed or failed, over a stored
valid catalog: the catalog is kept unless the stop is exposed. -/
theorem kept_iff_not_exposed (outcome : FileStep → Outcome (Option (List τ)))
    (hpresent : d.catalog.isSome = true) (hload : loadCatalog m format d = .ok old)
    (hnew : validateCatalog m new = .ok ()) :
    ∀ stop ∈ (writeCatalog format outcome new d).2.stops,
      (Kept m format old new stop.state ↔ ¬ Exposed m format outcome old new stop) := by
  have hold : Kept m format old new d := ⟨hpresent, .inl hload⟩
  have hse : ∀ k ∈ prepareSteps, k ∈ prepareSteps ++ backupSteps :=
    fun k hk => List.mem_append_left _ hk
  have hjd : ∀ stop ∈ ((fileEffects format (format.toVec new)).attemptAll outcome
      prepareSteps ⟨d, []⟩).2.stops, StopJudged m format outcome old new stop :=
    Effects.attemptAll_forall (fun s : Disk τ => s.catalog = d.catalog) _
      (fun k hk s hs => (complete_catalog (hse k hk)).trans hs)
      (fun k hk s hs => kept_before_removal hold (hse k hk) hs) rfl
      fun stop hso => absurd hso List.not_mem_nil
  have hprepared : ((fileEffects format (format.toVec new)).attemptAll outcome
      prepareSteps ⟨d, []⟩).1 = true →
      ((fileEffects format (format.toVec new)).attemptAll outcome prepareSteps ⟨d, []⟩).2.state =
        { d with next := some (format.toVec new ++ [format.newline]) } :=
    fun h => Effects.attemptAll_state h
  rw [writeCatalog]
  generalize (fileEffects format (format.toVec new)).attemptAll outcome prepareSteps ⟨d, []⟩ =
    prepared at hjd hprepared ⊢
  obtain ⟨done, r⟩ := prepared
  cases done with
  | false => exact hjd
  | true =>
    have hst := hprepared rfl
    have hpe : r.state.catalog.isSome = true := by rw [hst]; exact hpresent
    have has := kept_set_aside (format.toVec new) hold (by rw [hst]) hjd
    have hrm : ((fileEffects format (format.toVec new)).attemptAll outcome
        setAsideSteps r).1 = true →
        ((fileEffects format (format.toVec new)).attemptAll outcome setAsideSteps r).2.state =
          { r.state with catalog := none, backup := r.state.catalog } :=
      fun h => Effects.attemptAll_state h
    simp only [hpe, if_true]
    generalize (fileEffects format (format.toVec new)).attemptAll outcome setAsideSteps r = aside
      at has hrm ⊢
    obtain ⟨done, r'⟩ := aside
    cases done with
    | false => exact has
    | true =>
      have hst' := hrm rfl
      rw [hst] at hst'
      exact kept_after_removal hnew hold (by rw [hst']) (by rw [hst']) (by rw [hst'])
        has

end

def catalogLetters : CatalogFormat (Option EnvironmentCatalog) where
  toVec c := [some c]
  newline := none
  fromSlice
    | [some c, none] => some c
    | _ => none
  fromSlice_toVec _ := rfl

def localEnvironment : DshEnvironment :=
  { brokenPathEnvironment with harness := ⟨.executable, "/opt/dsh", none, []⟩ }

def storedCatalog : EnvironmentCatalog := ⟨1, 1, some "local", [localEnvironment]⟩

def storedDisk : Disk (Option EnvironmentCatalog) := ⟨some [some storedCatalog, none], none, none⟩

theorem storedDisk_kept_iff_not_exposed : storedDisk.catalog.isSome = true ∧
      loadCatalog emptyMachine catalogLetters storedDisk = .ok storedCatalog ∧
      ∀ stop ∈ (writeCatalog catalogLetters (fun _ => .done)
        { storedCatalog with revision := 2 } storedDisk).2.stops,
        (Kept emptyMachine catalogLetters storedCatalog { storedCatalog with revision := 2 }
          stop.state ↔
          ¬ Exposed emptyMachine catalogLetters (fun _ => .done) storedCatalog
            { storedCatalog with revision := 2 } stop) :=
  ⟨rfl, by decide +kernel,
    kept_iff_not_exposed (fun _ => .done) rfl (by decide +kernel) (by decide +kernel)⟩

/-- Every call of the write completes, and the process stops after the removal of the
old catalog: the next load finds the empty default. -/
theorem catalog_lost_after_removal : ⟨.removeCatalog, true,
      ⟨none, some [some { storedCatalog with revision := 2 }, none],
        some [some storedCatalog, none]⟩⟩ ∈
      (writeCatalog catalogLetters (fun _ => .done) { storedCatalog with revision := 2 }
        storedDisk).2.stops ∧
    loadCatalog emptyMachine catalogLetters
      ⟨none, some [some { storedCatalog with revision := 2 }, none],
        some [some storedCatalog, none]⟩ = .ok .default ∧
    ¬ Kept emptyMachine catalogLetters storedCatalog { storedCatalog with revision := 2 }
      ⟨none, some [some { storedCatalog with revision := 2 }, none],
        some [some storedCatalog, none]⟩ := by
  refine ⟨by decide +kernel, rfl, ?_⟩
  intro hkp
  cases hkp.1

variable {τ : Type} (m : Machine) (format : CatalogFormat τ)
  (outcome : FileStep → Outcome (Option (List τ))) (d : Disk τ)

def commitCatalog (c : EnvironmentCatalog) : Except StoreError EnvironmentCatalog × Disk τ :=
  if 2 ^ 64 ≤ c.revision + 1 then (.error .capacity, d)
  else
    let c := { c with revision := c.revision + 1 }
    match validateCatalog m c with
    | .error e => (.error e, d)
    | .ok () =>
      match writeCatalog format outcome c d with
      | (.error e, r) => (.error e, r.state)
      | (.ok (), r) => (.ok c, r.state)

def setActiveEnvironment (id : String) : Except StoreError EnvironmentCatalog × Disk τ :=
  match loadCatalog m format d with
  | .error e => (.error e, d)
  | .ok c =>
    if !c.environments.any fun e => e.id == id then (.error .invalidEnvironment, d)
    else if c.activeEnvironmentId = some id then (.ok c, d)
    else commitCatalog m format outcome d { c with activeEnvironmentId := some id }

def replaceById (environment : DshEnvironment) : List DshEnvironment → Option (List DshEnvironment)
  | [] => none
  | e :: rest =>
    if e.id = environment.id then some (environment :: rest)
    else (replaceById environment rest).map (e :: ·)

def sortById (environments : List DshEnvironment) : List DshEnvironment :=
  environments.mergeSort fun left right => left.id ≤ right.id

def commitSaved (c : EnvironmentCatalog) (environment : DshEnvironment)
    (environments : List DshEnvironment) : Except StoreError EnvironmentCatalog × Disk τ :=
  commitCatalog m format outcome d
    { c with environments := sortById environments, activeEnvironmentId := some environment.id }

def saveEnvironment (environment : DshEnvironment) :
    Except StoreError EnvironmentCatalog × Disk τ :=
  if !(validateEnvironmentValue m environment).valid then (.error .invalidEnvironment, d)
  else
    match loadCatalog m format d with
    | .error e => (.error e, d)
    | .ok c =>
      match replaceById environment c.environments with
      | some environments => commitSaved m format outcome d c environment environments
      | none =>
        if maxEnvironments ≤ c.environments.length then (.error .capacity, d)
        else commitSaved m format outcome d c environment (c.environments ++ [environment])

def removeEnvironment (id : String) : Except StoreError EnvironmentCatalog × Disk τ :=
  match loadCatalog m format d with
  | .error e => (.error e, d)
  | .ok c =>
    let kept := c.environments.filter fun e => e.id != id
    if kept.length = c.environments.length then (.error .notFound, d)
    else
      commitCatalog m format outcome d
        { c with
          environments := kept
          activeEnvironmentId := if c.activeEnvironmentId = some id then none
            else c.activeEnvironmentId }

inductive StoreCall
  | save (environment : DshEnvironment)
  | setActive (id : String)
  | remove (id : String)

def storeCall : StoreCall → Except StoreError EnvironmentCatalog × Disk τ
  | .save environment => saveEnvironment m format (fun _ => .done) d environment
  | .setActive id => setActiveEnvironment m format (fun _ => .done) d id
  | .remove id => removeEnvironment m format (fun _ => .done) d id

def storeStep (d : Disk τ) (c : StoreCall) : Disk τ := (storeCall m format d c).2

structure Orderly (c : EnvironmentCatalog) : Prop where
  valid : CatalogValid m c
  sorted : c.ids.Pairwise (· < ·)

inductive Stored : Except StoreError EnvironmentCatalog × Disk τ → Prop
  | refused (e : StoreError) : Stored (.error e, d)
  | unchanged {c : EnvironmentCatalog} (loaded : loadCatalog m format d = .ok c) : Stored (.ok c, d)
  | written {c c' : EnvironmentCatalog} {d' : Disk τ} (loaded : loadCatalog m format d = .ok c)
      (revision : c'.revision = c.revision + 1) (valid : CatalogValid m c')
      (sorted : CatalogValid m c → c.ids.Pairwise (· < ·) → c'.ids.Pairwise (· < ·))
      (file : d'.catalog = some (format.toVec c' ++ [format.newline])) :
      Stored (.ok c', d')

variable {m format d} {envs replaced : List DshEnvironment} {env : DshEnvironment} (id : String)

theorem catalogValid_default : CatalogValid m .default :=
  ⟨rfl, Nat.zero_le _, nodup_nil, fun _ he => absurd he not_mem_nil, fun _ hid => by cases hid⟩

theorem commitCatalog_stored {loaded c : EnvironmentCatalog}
    (hld : loadCatalog m format d = .ok loaded) (hrv : c.revision = loaded.revision)
    (hsr : CatalogValid m loaded → loaded.ids.Pairwise (· < ·) → c.ids.Pairwise (· < ·)) :
    Stored m format d (commitCatalog m format (fun _ => .done) d c) := by
  rw [commitCatalog]
  split_ifs with hlm
  · exact .refused _
  dsimp only
  cases hvalid : validateCatalog m { c with revision := c.revision + 1 } with
  | error e => exact .refused e
  | ok u =>
    obtain ⟨hok, hfile⟩ := writeCatalog_done format
      (fun k =>
        (rfl : (fun _ : FileStep => (Outcome.done : Outcome (Option (List τ)))) k = .done))
      { c with revision := c.revision + 1 } d
    generalize writeCatalog format (fun _ => .done) { c with revision := c.revision + 1 } d =
      written at hok hfile ⊢
    obtain ⟨result, r⟩ := written
    cases hok
    exact .written hld (congrArg (· + 1) hrv) (validateCatalog_ok.mp hvalid) hsr hfile

theorem replaceById_ids (h : replaceById env envs = some replaced) :
    replaced.map DshEnvironment.id = envs.map DshEnvironment.id := by
  induction envs generalizing replaced with
  | nil => cases h
  | cons e rest ih =>
    rw [replaceById] at h
    split_ifs at h with hid
    · cases h
      rw [map_cons, map_cons, hid]
    · obtain ⟨rest', hrs, rfl⟩ := Option.map_eq_some_iff.mp h
      rw [map_cons, map_cons, ih hrs]

theorem replaceById_none (h : replaceById env envs = none) :
    env.id ∉ envs.map DshEnvironment.id := by
  induction envs with
  | nil => exact not_mem_nil
  | cons e rest ih =>
    rw [replaceById] at h
    split_ifs at h with hid
    rw [map_cons, mem_cons, not_or]
    exact ⟨fun heq => hid heq.symm, ih (Option.map_eq_none_iff.mp h)⟩

theorem sortById_perm : (sortById envs).Perm envs :=
  mergeSort_perm _ _

theorem sortById_sorted (h : (envs.map DshEnvironment.id).Nodup) :
    ((sortById envs).map DshEnvironment.id).Pairwise (· < ·) := by
  have hle : (sortById envs).Pairwise fun left right => left.id ≤ right.id := by
    have htrans : ∀ a b c : DshEnvironment, decide (a.id ≤ b.id) →
        decide (b.id ≤ c.id) → decide (a.id ≤ c.id) := by
      simpa using fun a b c => le_trans
    have htt : ∀ a b : DshEnvironment, (decide (a.id ≤ b.id) || decide (b.id ≤ a.id)) := by
      simpa using fun a b : DshEnvironment => le_total a.id b.id
    exact (pairwise_mergeSort htrans htt envs).imp of_decide_eq_true
  have hnd : ((sortById envs).map DshEnvironment.id).Nodup :=
    (sortById_perm.map DshEnvironment.id).nodup_iff.mpr h
  rw [pairwise_map]
  exact (hle.and (pairwise_map.mp hnd)).imp fun h => lt_of_le_of_ne h.1 h.2

theorem setActiveEnvironment_stored :
    Stored m format d (setActiveEnvironment m format (fun _ => .done) d id) := by
  rw [setActiveEnvironment]
  cases hld : loadCatalog m format d with
  | error e => exact .refused e
  | ok c =>
    dsimp only
    split_ifs
    · exact .refused _
    · exact .unchanged hld
    · exact commitCatalog_stored hld rfl fun _ hsr => hsr

theorem saveEnvironment_stored :
    Stored m format d (saveEnvironment m format (fun _ => .done) d env) := by
  rw [saveEnvironment]
  split_ifs
  · exact .refused _
  cases hld : loadCatalog m format d with
  | error e => exact .refused e
  | ok c =>
    dsimp only
    cases hrp : replaceById env c.environments with
    | some environments =>
      refine commitCatalog_stored hld rfl ?_
      intro hvl _
      refine sortById_sorted ?_
      rw [replaceById_ids hrp]
      exact hvl.ids_nodup
    | none =>
      split_ifs
      · exact .refused _
      refine commitCatalog_stored hld rfl ?_
      intro hvl _
      refine sortById_sorted ?_
      rw [map_append, nodup_append]
      refine ⟨hvl.ids_nodup, nodup_singleton _, ?_⟩
      intro id hid other hot heq
      rw [map_singleton, mem_singleton] at hot
      exact replaceById_none hrp (hot ▸ heq ▸ hid)

theorem removeEnvironment_stored :
    Stored m format d (removeEnvironment m format (fun _ => .done) d id) := by
  rw [removeEnvironment]
  cases hld : loadCatalog m format d with
  | error e => exact .refused e
  | ok c =>
    dsimp only
    by_cases hfn : (c.environments.filter fun e => e.id != id).length = c.environments.length
    · rw [if_pos hfn]
      exact .refused _
    · rw [if_neg hfn]
      refine commitCatalog_stored hld rfl ?_
      intro _ hsr
      exact hsr.sublist (filter_sublist.map DshEnvironment.id)

theorem storeCall_stored {call : StoreCall} : Stored m format d (storeCall m format d call) := by
  cases call with
  | save environment => exact saveEnvironment_stored
  | setActive id => exact setActiveEnvironment_stored id
  | remove id => exact removeEnvironment_stored id

def Readable (m : Machine) (format : CatalogFormat τ) (d : Disk τ) : Prop :=
  ∃ c, loadCatalog m format d = .ok c ∧ Orderly m c

theorem storeStep_readable {call : StoreCall} (h : Readable m format d) :
    Readable m format (storeStep m format d call) := by
  obtain ⟨c, hld, hord⟩ := h
  rw [storeStep]
  have hkp : Stored m format d (storeCall m format d call) := storeCall_stored
  generalize storeCall m format d call = result at hkp ⊢
  cases hkp with
  | refused e | unchanged loaded => exact ⟨c, hld, hord⟩
  | written loaded revision valid sorted file =>
    rw [hld] at loaded
    cases loaded
    refine ⟨_, loadCatalog_some file (format.fromSlice_toVec _) (validateCatalog_ok.mpr valid),
      valid, sorted hord.valid hord.sorted⟩

theorem run_readable (next backup : Option (List τ)) (calls : List StoreCall) :
    Readable m format (Runs.run (storeStep m format) ⟨none, next, backup⟩ calls) := by
  refine Runs.run_invariant (Readable m format) (fun d c h => storeStep_readable h) calls ?_
  exact ⟨.default, rfl, catalogValid_default, List.Pairwise.nil⟩

structure StoreLaws (m : Machine) (format : CatalogFormat τ) (d : Disk τ) (call : StoreCall)
    (c c' : EnvironmentCatalog) : Prop where
  loads : loadCatalog m format d = .ok c
  loads_after : loadCatalog m format (storeStep m format d call) = .ok c'
  orderly : Orderly m c
  orderly_after : Orderly m c'
  revision_changed : (storeStep m format d call).catalog ≠ d.catalog → c'.revision = c.revision + 1
  revision_kept : (storeStep m format d call).catalog = d.catalog → c'.revision = c.revision
  refused : ∀ e, (storeCall m format d call).1 = .error e →
    (storeStep m format d call).catalog = d.catalog

theorem store_laws (m : Machine) (format : CatalogFormat τ) (next backup : Option (List τ))
    (calls : List StoreCall) (call : StoreCall) :
    ∃ c c', StoreLaws m format (Runs.run (storeStep m format) ⟨none, next, backup⟩ calls) call
      c c' := by
  have hrd : Readable m format
      (Runs.run (storeStep m format) ⟨none, next, backup⟩ calls) := run_readable next backup calls
  generalize Runs.run (storeStep m format) ⟨none, next, backup⟩ calls = d at hrd ⊢
  obtain ⟨c', hld', hor'⟩ := storeStep_readable hrd
  obtain ⟨c, hld, hor⟩ := hrd
  have heq : (storeStep m format d call).catalog = d.catalog → c'.revision = c.revision := by
    intro hfile
    rw [loadCatalog_congr hfile, hld] at hld'
    cases hld'
    rfl
  refine ⟨c, c', hld, hld', hor, hor', ?_, heq, ?_⟩
  · intro hch
    rw [storeStep] at hch hld'
    have hst : Stored m format d (storeCall m format d call) := storeCall_stored
    generalize storeCall m format d call = result at hst hch hld'
    cases hst with
    | refused e | unchanged loaded => exact absurd rfl hch
    | written loaded revision valid sorted file =>
      rw [hld] at loaded
      cases loaded
      rw [loadCatalog_some file (format.fromSlice_toVec _) (validateCatalog_ok.mpr valid)] at hld'
      cases hld'
      exact revision
  · intro e he
    rw [storeStep]
    have hst : Stored m format d (storeCall m format d call) := storeCall_stored
    generalize storeCall m format d call = result at hst he ⊢
    cases hst with
    | refused e => rfl
    | unchanged loaded | written loaded revision valid sorted file => cases he

end DshDesktop.Shell
