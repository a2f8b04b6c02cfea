import DshDesktop.Library.Interleaving
import DshDesktop.Shell.FileReports

/-!
# The editor of the file manager

`FileManagerPanel.tsx`: `loadFile` asks for the content and, by a second request, for the
size and modification time that a later save has to match. Every call is a thread; requests
are served in any order, mixed with changes of the files from outside. A save is refused
with a conflict exactly when the file has changed since the stat of its baseline.
-/

namespace DshDesktop.Shell
open Utf8 Interleaving

structure Slot where
  file : Option FsFile
  version : ℕ
  external : ℕ
  deriving DecidableEq

/-- The file in the panel. `seen` counts the changes from outside before its content was
read or, after a save, written. -/
structure Shown where
  report : FsFileReport
  seen : ℕ
  deriving DecidableEq

structure Baseline where
  stamp : WriteBaseline
  version : ℕ
  external : ℕ
  deriving DecidableEq

structure Save where
  shown : Shown
  baseline : Baseline
  draft : Text
  force : Bool
  deriving DecidableEq

structure Refusal where
  error : FsError
  other : error ≠ .conflict
  deriving DecidableEq

structure Check where
  save : Save
  slot : Slot
  refusal : Option Refusal
  result : Except FsError Unit
  deriving DecidableEq

structure Panel where
  file : Option Shown
  baseline : Option Baseline
  draft : Text
  saving : Bool
  conflict : Bool
  pendingOpen : Option (String × String)
  error : Option String

structure Editor where
  panel : Panel
  slots : ℕ → Slot
  checks : List Check
  writes : List Check

inductive Task
  | idle
  | reading (rootId path : String)
  | stating (rootId path : String) (shown : Shown)
  | loaded (result : Except FsError (Shown × Baseline))
  | saving (save : Save)
  | admitted (check : Check)
  | written (save : Save) (seen : ℕ)
  | saved (result : Except FsError (Shown × Baseline))

inductive Start
  | openFile (rootId path : String)
  | confirmOpen
  | discard
  | save (force : Bool)

/-- The service of the request that a call waits for may fail, and a write is given its
modification time. -/
inductive Input
  | start (call : Start)
  | serve (refusal : Option Refusal) (time : Option ℕ)

inductive Change
  | modify (i : ℕ) (file : Option FsFile)
  | edit (text : Text)
  | cancelOpen
  | keepEditing

def Panel.dirty (p : Panel) : Bool := p.file.any fun shown => p.draft ≠ shown.report.content

/-- `requestOpen`, the two dialogs and the ways to save: the short cut asks that the file
is not read-only, and the forced save belongs to the conflict dialog. -/
def beginCall (g : Editor) : Start → Editor × Task
  | .openFile rootId path =>
    if g.panel.dirty then
      ({ g with panel := { g.panel with pendingOpen := some (rootId, path) } }, .idle)
    else (g, .reading rootId path)
  | .confirmOpen =>
    match g.panel.pendingOpen with
    | none => (g, .idle)
    | some (rootId, path) =>
      ({ g with panel := { g.panel with pendingOpen := none } }, .reading rootId path)
  | .discard =>
    match g.panel.file with
    | none => (g, .idle)
    | some shown =>
      if g.panel.conflict then (g, .reading shown.report.rootId shown.report.path) else (g, .idle)
  | .save force =>
    match g.panel.file, g.panel.baseline with
    | some shown, some baseline =>
      if (if force then g.panel.conflict else !shown.report.readOnly) then
        ({ g with panel := { g.panel with saving := true } },
          .saving ⟨shown, baseline, g.panel.draft, force⟩)
      else (g, .idle)
    | _, _ => (g, .idle)

def finishLoad (p : Panel) : Except FsError (Shown × Baseline) → Panel
  | .ok (shown, baseline) =>
    { p with
      file := some shown
      baseline := some baseline
      draft := shown.report.content
      conflict := false
      error := none }
  | .error e => { p with file := none, baseline := none, error := some e.message }

def finishSave (p : Panel) : Except FsError (Shown × Baseline) → Panel
  | .ok (shown, baseline) =>
    { p with
      file := some shown
      baseline := some baseline
      conflict := false
      error := none
      saving := false }
  | .error e =>
    if e.code = "CONFLICT" then { p with conflict := true, saving := false }
    else { p with error := some e.message, saving := false }

section
variable (locate : String → List String → ℕ) (lossy : List UInt8 → Text)

def slotOf (rootId relative : String) : Except FsError ℕ :=
  match validateRelative relative with
  | .error e => .error e
  | .ok names => .ok (locate rootId names)

def answer {α : Type} (refusal : Option Refusal) (slot : Slot)
    (ask : FsFile → Except FsError α) : Except FsError α :=
  match refusal with
  | some refused => .error refused.error
  | none =>
    match slot.file with
    | none => .error (.unavailable "the path does not exist")
    | some f => ask f

variable (g : Editor)

def serveRead (rootId path : String) (refusal : Option Refusal) : Task :=
  match slotOf locate rootId path with
  | .error e => .loaded (.error e)
  | .ok i =>
    match answer refusal (g.slots i) (fileReport lossy rootId path) with
    | .error e => .loaded (.error e)
    | .ok report => .stating rootId path ⟨report, (g.slots i).external⟩

def serveStat (rootId path : String) (refusal : Option Refusal) : Except FsError Baseline :=
  match slotOf locate rootId path with
  | .error e => .error e
  | .ok i =>
    match answer refusal (g.slots i) (fileStat rootId path) with
    | .error e => .error e
    | .ok stat =>
      .ok ⟨⟨stat.size, stat.modifiedUnixMs⟩, (g.slots i).version, (g.slots i).external⟩

def decideSave (save : Save) (slot : Slot) : Option Refusal → Except FsError Unit
  | some refused => .error refused.error
  | none => checkWrite save.draft slot.file (some save.baseline.stamp) save.force

def serveCheck (save : Save) (refusal : Option Refusal) : Editor × Task :=
  match slotOf locate save.shown.report.rootId save.shown.report.path with
  | .error e => (g, .saved (.error e))
  | .ok i =>
    let check : Check := ⟨save, g.slots i, refusal, decideSave save (g.slots i) refusal⟩
    ({ g with checks := g.checks ++ [check] },
      match check.result with
      | .error e => .saved (.error e)
      | .ok () => .admitted check)

def Editor.change (i : ℕ) (file : Option FsFile) (outside : Bool) : Editor :=
  { g with
    slots := Function.update g.slots i
      ⟨file, (g.slots i).version + 1, (g.slots i).external + if outside then 1 else 0⟩ }

def serveWrite (check : Check) (refusal : Option Refusal) (time : Option ℕ) : Editor × Task :=
  match refusal, slotOf locate check.save.shown.report.rootId check.save.shown.report.path with
  | some refused, _ => (g, .saved (.error refused.error))
  | none, .error e => (g, .saved (.error e))
  | none, .ok i =>
    ({ g.change i (some ⟨check.save.draft.bytes, time, true⟩) false with
        writes := g.writes ++ [check] },
      .written check.save (g.slots i).external)

def serveSaved (save : Save) (seen : ℕ) (refusal : Option Refusal) : Task :=
  match serveStat locate g save.shown.report.rootId save.shown.report.path refusal with
  | .error e => .saved (.error e)
  | .ok baseline =>
    .saved (.ok (⟨{ save.shown.report with content := save.draft, size := baseline.stamp.size },
      seen⟩, baseline))

def serveCall (refusal : Option Refusal) (time : Option ℕ) : Task → Editor × Task
  | .idle => (g, .idle)
  | .reading rootId path => (g, serveRead locate lossy g rootId path refusal)
  | .stating rootId path shown =>
    (g, .loaded ((serveStat locate g rootId path refusal).map fun baseline => (shown, baseline)))
  | .loaded result => ({ g with panel := finishLoad g.panel result }, .idle)
  | .saving save => serveCheck locate g save refusal
  | .admitted check => serveWrite locate g check refusal time
  | .written save seen => (g, serveSaved locate g save seen refusal)
  | .saved result => ({ g with panel := finishSave g.panel result }, .idle)

def editorAct (task : Task) : Input → Editor × Task
  | .serve refusal time => serveCall locate lossy g refusal time task
  | .start call =>
    match task with
    | .idle => beginCall g call
    | task => (g, task)

def editorChange : Change → Editor
  | .modify i file => g.change i file true
  | .edit text =>
    if g.panel.file.any fun shown => !shown.report.readOnly then
      { g with panel := { g.panel with draft := text } }
    else g
  | .cancelOpen => { g with panel := { g.panel with pendingOpen := none } }
  | .keepEditing => { g with panel := { g.panel with conflict := false } }

end

def emptyPanel : Panel := ⟨none, none, Text.empty, false, false, none, none⟩

def openedPanel (slots : ℕ → Slot) : Pool Editor Task :=
  ⟨⟨emptyPanel, slots, [], []⟩, fun _ => .idle⟩

def editorRun (locate : String → List String → ℕ) (lossy : List UInt8 → Text) (slots : ℕ → Slot)
    (events : List (Event Input Change)) : Editor :=
  (Runs.run (step (editorAct locate lossy) editorChange) (openedPanel slots) events).shared

open List

/-- An unforced save of a file that was changed from outside after its content was read. -/
def Check.Overtaken (c : Check) : Prop :=
  c.save.force = false ∧ c.save.shown.seen < c.slot.external

instance (c : Check) : Decidable c.Overtaken :=
  inferInstanceAs (Decidable (_ ∧ _))

def Check.Compared (c : Check) : Prop :=
  c.refusal = none ∧ Comparable c.save.draft c.slot.file

/-- The file has changed since the stat behind the baseline, and not back to the recorded
size and time. -/
def Check.Noticed (c : Check) : Prop :=
  c.save.baseline.version < c.slot.version ∧
    ∀ f, c.slot.file = some f → f.stamp ≠ c.save.baseline.stamp

def Guarded (g : Editor) : Prop :=
  ∀ c ∈ g.checks, c.Overtaken → c.result = .error .conflict ∧ c ∉ g.writes

structure Baseline.Fits (b : Baseline) (slot : Slot) : Prop where
  version : b.version ≤ slot.version
  external : b.external < slot.external → b.version < slot.version
  current : b.version = slot.version → ∃ f, slot.file = some f ∧ f.stamp = b.stamp

section
variable (locate : String → List String → ℕ) (lossy : List UInt8 → Text)

def FitsShown (slots : ℕ → Slot) (shown : Shown) (baseline : Baseline) : Prop :=
  ∃ i, slotOf locate shown.report.rootId shown.report.path = .ok i ∧ baseline.Fits (slots i)

structure EditorFits (g : Editor) : Prop where
  panel : ∀ shown baseline, g.panel.file = some shown → g.panel.baseline = some baseline →
    FitsShown locate g.slots shown baseline
  checks : ∀ c ∈ g.checks, c.save.baseline.Fits c.slot ∧
    c.result = decideSave c.save c.slot c.refusal
  writes : ∀ c ∈ g.writes, c.result = .ok ()

def TaskFits (slots : ℕ → Slot) : Task → Prop
  | .stating rootId path shown =>
    ∃ i, slotOf locate rootId path = .ok i ∧
      slotOf locate shown.report.rootId shown.report.path = .ok i
  | .loaded (.ok (shown, baseline)) => FitsShown locate slots shown baseline
  | .saving save => FitsShown locate slots save.shown save.baseline
  | .admitted check => check.result = .ok ()
  | .saved (.ok (shown, baseline)) => FitsShown locate slots shown baseline
  | _ => True

end

variable {locate : String → List String → ℕ} {lossy : List UInt8 → Text} {g : Editor}
  {res : Except FsError (Shown × Baseline)} {rfs : Option Refusal} {base b : Baseline}
  {slot : Slot} {task : Task}

theorem Baseline.Fits.changed (h : b.Fits slot) (file : Option FsFile) (k : ℕ) :
    b.Fits ⟨file, slot.version + 1, slot.external + k⟩ := by
  have hver := h.version
  refine ⟨?_, ?_, ?_⟩
  · dsimp only
    omega
  · intro _
    dsimp only
    omega
  · intro heq
    dsimp only at heq
    omega

theorem change_slot_self {i : ℕ} {file : Option FsFile} {outside : Bool} :
    (g.change i file outside).slots i =
      ⟨file, (g.slots i).version + 1, (g.slots i).external + if outside then 1 else 0⟩ :=
  Function.update_self ..

theorem change_slot_other {file : Option FsFile} {outside : Bool} {i j : ℕ} (h : j ≠ i) :
    (g.change i file outside).slots j = g.slots j :=
  Function.update_of_ne h ..

theorem FitsShown.changed {shown : Shown} (h : FitsShown locate g.slots shown base) (i : ℕ)
    (file : Option FsFile) (outside : Bool) :
    FitsShown locate (g.change i file outside).slots shown base := by
  obtain ⟨j, hslot, hft⟩ := h
  refine ⟨j, hslot, ?_⟩
  by_cases hj : j = i
  · subst hj
    rw [change_slot_self]
    exact hft.changed file _
  · rw [change_slot_other hj]
    exact hft

theorem TaskFits.changed (h : TaskFits locate g.slots task) (i : ℕ) (file : Option FsFile)
    (outside : Bool) : TaskFits locate (g.change i file outside).slots task := by
  cases task with
  | idle | reading rootId path | written save seen => trivial
  | stating rootId path shown | admitted check => exact h
  | loaded result | saved result =>
    cases result with
    | error e => trivial
    | ok loaded => exact FitsShown.changed h i file outside
  | saving save => exact FitsShown.changed h i file outside

theorem EditorFits.changed (h : EditorFits locate g) (i : ℕ) (file : Option FsFile)
    (outside : Bool) : EditorFits locate (g.change i file outside) :=
  ⟨fun shown bl hfile hbs => (h.panel shown bl hfile hbs).changed i file
    outside, h.checks, h.writes⟩

theorem fileReport_path {rid path : String} {f : FsFile} {report : FsFileReport}
    (h : fileReport lossy rid path f = .ok report) :
    report.rootId = rid ∧ report.path = relativePathString path := by
  rw [fileReport] at h
  split_ifs at h
  cases h
  exact ⟨rfl, rfl⟩

theorem answer_ok {α : Type} {ask : FsFile → Except FsError α} {a : α}
    (h : answer rfs slot ask = .ok a) : ∃ f, slot.file = some f ∧ ask f = .ok a := by
  rw [answer.eq_def] at h
  cases rfs with
  | some e => cases h
  | none =>
    cases hfile : slot.file with
    | none => simp [hfile] at h
    | some f =>
      simp only [hfile] at h
      exact ⟨f, rfl, h⟩

theorem serveRead_fits {rid path : String} :
    TaskFits locate g.slots (serveRead locate lossy g rid path rfs) := by
  rw [serveRead]
  cases hslot : slotOf locate rid path with
  | error e => trivial
  | ok i =>
    dsimp only
    cases hrep : answer rfs (g.slots i) (fileReport lossy rid path) with
    | error e => trivial
    | ok report =>
      obtain ⟨f, -, hf⟩ := answer_ok hrep
      obtain ⟨hrt, hpt⟩ := fileReport_path hf
      refine ⟨i, hslot, ?_⟩
      rw [hrt, hpt]
      rw [slotOf] at hslot ⊢
      cases hnm : validateRelative path with
      | error e => simp [hnm] at hslot
      | ok names =>
        simp only [hnm] at hslot
        simp only [validateRelative_relativePathString hnm]
        exact hslot

theorem serveStat_fits {rid path : String} (h : serveStat locate g rid path rfs = .ok base) :
    ∃ i, slotOf locate rid path = .ok i ∧ base.Fits (g.slots i) := by
  rw [serveStat] at h
  cases hslot : slotOf locate rid path with
  | error e => simp [hslot] at h
  | ok i =>
    simp only [hslot] at h
    cases hst : answer rfs (g.slots i) (fileStat rid path) with
    | error e => simp [hst] at h
    | ok stat =>
      simp only [hst] at h
      cases h
      obtain ⟨f, hfile, hf⟩ := answer_ok hst
      refine ⟨i, rfl, Nat.le_refl _, fun hlt => absurd hlt (Nat.lt_irrefl _), ?_⟩
      intro _
      rw [fileStat] at hf
      split_ifs at hf
      cases hf
      exact ⟨f, hfile, rfl⟩

theorem finishLoad_fits (h : EditorFits locate g)
    (hres : TaskFits locate g.slots (.loaded res)) :
    EditorFits locate { g with panel := finishLoad g.panel res } := by
  refine ⟨?_, h.checks, h.writes⟩
  intro shown bl hfile hbs
  cases res with
  | error e => cases hfile
  | ok loaded =>
    cases hfile
    cases hbs
    exact hres

theorem finishSave_fits (h : EditorFits locate g) (hres : TaskFits locate g.slots (.saved res)) :
    EditorFits locate { g with panel := finishSave g.panel res } := by
  refine ⟨?_, h.checks, h.writes⟩
  intro shown bl hfile hbs
  cases res with
  | error e =>
    dsimp only [finishSave] at hfile hbs
    split_ifs at hfile hbs
    · exact h.panel shown bl hfile hbs
    · exact h.panel shown bl hfile hbs
  | ok saved =>
    cases hfile
    cases hbs
    exact hres

abbrev StepFits (locate : String → List String → ℕ) (r : Editor × Task) : Prop :=
  EditorFits locate r.1 ∧ TaskFits locate r.1.slots r.2

section
variable (h : EditorFits locate g) (rfs : Option Refusal) (time : Option ℕ)
include h

theorem serveCheck_fits {save : Save} (hsv : FitsShown locate g.slots save.shown save.baseline) :
    StepFits locate (serveCheck locate g save rfs) := by
  obtain ⟨i, hslot, hft⟩ := hsv
  rw [serveCheck, hslot]
  dsimp only
  refine ⟨⟨h.panel, ?_, h.writes⟩, ?_⟩
  · intro c hc
    rcases mem_append.mp hc with hc | hc
    · exact h.checks c hc
    · rw [mem_singleton] at hc
      subst hc
      exact ⟨hft, rfl⟩
  · generalize hres : decideSave save (g.slots i) rfs = res
    cases res with
    | error e => trivial
    | ok done => rfl

theorem serveWrite_fits {check : Check} (hch : check.result = .ok ()) :
    StepFits locate (serveWrite locate g check rfs time) := by
  rw [serveWrite.eq_def]
  cases rfs with
  | some e => exact ⟨h, trivial⟩
  | none =>
    cases slotOf locate check.save.shown.report.rootId check.save.shown.report.path with
    | error e => exact ⟨h, trivial⟩
    | ok i =>
      have hdf := h.changed i (some ⟨check.save.draft.bytes, time, true⟩) false
      refine ⟨⟨hdf.panel, hdf.checks, ?_⟩, trivial⟩
      intro c hc
      rcases mem_append.mp hc with hc | hc
      · exact h.writes c hc
      · rw [mem_singleton] at hc
        subst hc
        exact hch

omit h in
theorem serveSaved_fits {save : Save} {seen : ℕ} {rfs : Option Refusal} :
    TaskFits locate g.slots (serveSaved locate g save seen rfs) := by
  rw [serveSaved]
  cases hst : serveStat locate g save.shown.report.rootId save.shown.report.path rfs with
  | error e => trivial
  | ok bl => exact serveStat_fits hst

theorem beginCall_fits (call : Start) : StepFits locate (beginCall g call) := by
  cases call with
  | openFile rid path =>
    rw [beginCall]
    split_ifs
    · exact ⟨⟨h.panel, h.checks, h.writes⟩, trivial⟩
    · exact ⟨h, trivial⟩
  | confirmOpen =>
    rw [beginCall]
    cases g.panel.pendingOpen with
    | none => exact ⟨h, trivial⟩
    | some pending => exact ⟨⟨h.panel, h.checks, h.writes⟩, trivial⟩
  | discard =>
    rw [beginCall]
    cases g.panel.file with
    | none => exact ⟨h, trivial⟩
    | some shown =>
      split_ifs <;> exact ⟨h, trivial⟩
  | save force =>
    rw [beginCall]
    cases hfile : g.panel.file with
    | none => exact ⟨h, trivial⟩
    | some shown =>
      cases hbs : g.panel.baseline with
      | none => exact ⟨h, trivial⟩
      | some bl =>
        dsimp only
        by_cases hal : (if force then g.panel.conflict else !shown.report.readOnly)
        · rw [if_pos hal]
          refine ⟨⟨?_, h.checks, h.writes⟩, h.panel shown bl hfile hbs⟩
          intro shown' baseline' hfl' hbs'
          exact h.panel shown' baseline' hfl' hbs'
        · rw [if_neg hal]
          exact ⟨h, trivial⟩

theorem serveCall_fits (hts : TaskFits locate g.slots task) :
    StepFits locate (serveCall locate lossy g rfs time task) := by
  cases task with
  | idle => exact ⟨h, trivial⟩
  | reading rid path => exact ⟨h, serveRead_fits⟩
  | stating rid path shown =>
    refine ⟨h, ?_⟩
    rw [serveCall]
    cases hst : serveStat locate g rid path rfs with
    | error e => trivial
    | ok bl =>
      obtain ⟨i, hslot, hsh⟩ := hts
      obtain ⟨j, hsl', hft⟩ := serveStat_fits hst
      rw [hslot] at hsl'
      cases hsl'
      exact ⟨i, hsh, hft⟩
  | loaded result => exact ⟨finishLoad_fits h hts, trivial⟩
  | saving save => exact serveCheck_fits h rfs hts
  | admitted check => exact serveWrite_fits h rfs time hts
  | written save seen => exact ⟨h, serveSaved_fits⟩
  | saved result => exact ⟨finishSave_fits h hts, trivial⟩

theorem editorAct_fits (hts : TaskFits locate g.slots task) (input : Input) :
    StepFits locate (editorAct locate lossy g task input) := by
  cases input with
  | serve rfs time => exact serveCall_fits h rfs time hts
  | start call =>
    cases task with
    | idle => exact beginCall_fits h call
    | _ => exact ⟨h, hts⟩

end

theorem beginCall_slots {call : Start} : (beginCall g call).1.slots = g.slots := by
  cases call with
  | openFile rid path =>
    rw [beginCall]
    split_ifs <;> rfl
  | confirmOpen =>
    rw [beginCall]
    split <;> rfl
  | discard =>
    rw [beginCall]
    split
    · rfl
    · split_ifs <;> rfl
  | save force =>
    rw [beginCall]
    split
    · split_ifs <;> rfl
    · rfl

theorem editorAct_slots {input : Input} : (editorAct locate lossy g task input).1.slots = g.slots ∨
      ∃ i file, (editorAct locate lossy g task input).1.slots = (g.change i file false).slots := by
  cases input with
  | start call =>
    cases task with
    | idle => exact .inl beginCall_slots
    | _ => exact .inl rfl
  | serve rfs time =>
    cases task with
    | saving save =>
      refine .inl ?_
      rw [editorAct, serveCall, serveCheck]
      split <;> rfl
    | admitted check =>
      rw [editorAct, serveCall, serveWrite.eq_def]
      split
      · exact .inl rfl
      · exact .inl rfl
      · exact .inr ⟨_, _, rfl⟩
    | _ => exact .inl rfl

theorem editorChange_fits {e : Change} (h : EditorFits locate g) :
    EditorFits locate (editorChange g e) := by
  cases e with
  | modify i file => exact h.changed i file true
  | edit text =>
    rw [editorChange]
    split_ifs
    · exact ⟨h.panel, h.checks, h.writes⟩
    · exact h
  | cancelOpen | keepEditing => exact ⟨h.panel, h.checks, h.writes⟩

theorem editorChange_taskFits {e : Change} (h : TaskFits locate g.slots task) :
    TaskFits locate (editorChange g e).slots task := by
  cases e with
  | modify i file => exact h.changed i file true
  | edit text =>
    rw [editorChange]
    split_ifs <;> exact h
  | cancelOpen | keepEditing => exact h

theorem editorRun_fits (locate : String → List String → ℕ) (lossy : List UInt8 → Text)
    (slots : ℕ → Slot) (evs : List (Event Input Change)) :
    EditorFits locate (editorRun locate lossy slots evs) := by
  have hhl : Holds (EditorFits locate) (fun g => TaskFits locate g.slots)
      (Runs.run (step (editorAct locate lossy) editorChange) (openedPanel slots) evs) := by
    refine holds_run ?_ ?_ ?_ ?_ evs ?_
    · intro g task input h hts
      exact editorAct_fits h hts input
    · intro g task input other h hts hot
      rcases editorAct_slots with heq | ⟨i, file, hdf⟩
      · rw [heq]
        exact hot
      · rw [hdf]
        exact hot.changed i file false
    · intro g e h
      exact editorChange_fits h
    · intro g e task _ hts
      exact editorChange_taskFits hts
    · refine ⟨⟨?_, ?_, ?_⟩, fun _ => trivial⟩
      · intro shown bl hfile
        cases hfile
      · exact fun c hc => absurd hc not_mem_nil
      · exact fun c hc => absurd hc not_mem_nil
  exact hhl.1

theorem EditorFits.conflict_iff (h : EditorFits locate g) {c : Check} (hc : c ∈ g.checks)
    (hfr : c.save.force = false) : c.result = .error .conflict ↔ c.Compared ∧ c.Noticed := by
  obtain ⟨hft, hres⟩ := h.checks c hc
  rw [hres]
  unfold Check.Compared Check.Noticed
  cases href : c.refusal with
  | some refused =>
    constructor
    · intro hconf
      exact absurd (Except.error.inj hconf) refused.other
    · intro hcm
      cases hcm.1.1
  | none =>
    rw [decideSave, hfr, checkWrite_conflict_iff]
    constructor
    · intro hconf
      obtain ⟨hco, hst⟩ := hconf
      refine ⟨⟨rfl, hco⟩, ?_, hst⟩
      -- the stat saw another version, since this one is not as recorded
      refine Nat.lt_of_le_of_ne hft.version ?_
      intro heq
      obtain ⟨f, hfile, hsame⟩ := hft.current heq
      exact hst f hfile hsame
    · intro hnote
      exact ⟨hnote.1.2, hnote.2.2⟩

/-- A save of a file changed by others is refused with a conflict exactly when nothing else
stands against it and the file has changed since the stat behind its baseline, and not back
to the recorded size and time. -/
theorem guarded_iff (locate : String → List String → ℕ) (lossy : List UInt8 → Text)
    (slots : ℕ → Slot) (events : List (Event Input Change)) :
    Guarded (editorRun locate lossy slots events) ↔
      ∀ c ∈ (editorRun locate lossy slots events).checks, c.Overtaken → c.Compared ∧ c.Noticed := by
  have hft := editorRun_fits locate lossy slots events
  constructor
  · intro hgr c hc hov
    exact (hft.conflict_iff hc hov.1).mp (hgr c hc hov).1
  · intro hco c hc hov
    have hconflict := (hft.conflict_iff hc hov.1).mpr (hco c hc hov)
    refine ⟨hconflict, ?_⟩
    intro hwr
    rw [hft.writes c hwr] at hconflict
    cases hconflict

def letterFile (byte : UInt8) (time : ℕ) : FsFile := ⟨[byte], some time, true⟩

def gapEvents : List (Event Input Change) :=
  [.act 0 (.start (.openFile "repo" "notes.txt")), .act 0 (.serve none none),
    .surroundings (.modify 0 (some (letterFile 0x62 6))), .act 0 (.serve none none),
    .act 0 (.serve none none), .surroundings (.edit ⟨[0x63], by decide⟩),
    .act 1 (.start (.save false)), .act 1 (.serve none none), .act 1 (.serve none (some 7))]

def gapRun : Editor :=
  editorRun (fun _ _ => 0) (fun _ => Text.empty) (fun _ => ⟨some (letterFile 0x61 5), 0, 0⟩)
    gapEvents

/-- The save of the text edited from the old content is accepted, and the other change is
lost. -/
theorem change_in_gap_overwritten :
    (∃ c ∈ gapRun.checks, c.Overtaken ∧ c.slot.file = some (letterFile 0x62 6) ∧
      c.result = .ok () ∧ c ∈ gapRun.writes) ∧
      (gapRun.slots 0).file = some (letterFile 0x63 7) ∧ ¬ Guarded gapRun := by
  have hch : ∃ c ∈ gapRun.checks, c.Overtaken ∧ c.slot.file = some (letterFile 0x62 6) ∧
      c.result = .ok () ∧ c ∈ gapRun.writes := by
    decide +kernel
  refine ⟨hch, by decide +kernel, ?_⟩
  intro hgr
  obtain ⟨c, hc, hov, -, -, hwr⟩ := hch
  exact (hgr c hc hov).2 hwr

end DshDesktop.Shell
