import DshDesktop.Shell.FileWrite

/-!
# What the requests of the file manager reach

Listing, reading and stat reach only what lies in the canonical root. A write opens the
temporary file beside its target by name, and `File::create` follows a link that stands
there, so a write stays in the root exactly when no such link leads out of it.
-/

namespace DshDesktop.Shell
open List
open FileTree Utf8

inductive FsRequest
  | list (relative : String) (showHidden : Bool)
  | read (relative : String)
  | stat (relative : String)
  | write (relative : String) (content : Text) (expected : Option WriteBaseline) (force : Bool)

/-- What a request touches, each location beside the file system its path was found in. -/
def touchedBy (h : Host) (pid : ℕ) (faults : WriteFaults) (root : Path) (rootId : String) :
    FsRequest → List (Host × Location)
  | .list relative showHidden => (readDirIn h root rootId relative showHidden).touched.map (h, ·)
  | .read relative => (readFileIn h root rootId relative).touched.map (h, ·)
  | .stat relative => (statIn h root rootId relative).touched.map (h, ·)
  | .write relative content expected force =>
    (writeFileTraced h pid faults root rootId relative content expected force).1

def Inside (root : Path) (touch : Host × Location) : Prop :=
  ∃ canonicalRoot, touch.1.canonicalize root = .ok canonicalRoot ∧ canonicalRoot <+: touch.2

/-- A link stands at the temporary name, and `File::create` opens or makes a file outside the
root through it. -/
def LeadsOut (h : Host) (root : Path) (temp : Location) : Prop :=
  ∃ target handle, h.tree.node temp = some (.link target) ∧
    resolve h.tree true h.limit h.cwd (locationPath temp) = .ok handle ∧
    h.tree.node handle ≠ some .directory ∧ ¬ Inside root (h, handle)

section
variable {h left : Host} {root : Path} {rootId relative name : String} {content : Text}
  {expected : Option WriteBaseline} {force : Bool} {faults : WriteFaults} {pid : ℕ} {f : FsFile}
  {canonicalRoot path above handle : Location}

theorem resolveIn_inside (hres : resolveIn h root relative = .ok (canonicalRoot, path)) :
    h.tree.Real path ∧ Inside root (h, path) ∧ ∀ name, Inside root (h, path ++ [name]) := by
  obtain ⟨hrt, hbl, hreal, -⟩ := resolveIn_ok hres
  exact ⟨hreal, ⟨canonicalRoot, hrt, hbl⟩,
    fun name => ⟨canonicalRoot, hrt, hbl.trans (prefix_append path [name])⟩⟩

theorem touched_inside {α : Type} {m : Traced FsError Location α}
    (hm : m.Within fun loc => Inside root (h, loc)) :
    ∀ touch ∈ m.touched.map (h, ·), Inside root touch := by
  intro touch ht
  obtain ⟨loc, hloc, rfl⟩ := mem_map.mp ht
  exact hm loc hloc

theorem entries_inside (hdir : left.tree.node above = some .directory)
    (hin : ∀ name, Inside root (h, above ++ [name])) (names : List String) :
    ∀ loc ∈ left.entries (names.map (above ++ [·])), Inside root (h, loc) := by
  intro loc hloc
  obtain ⟨_, hnm, hen⟩ := mem_filterMap.mp hloc
  obtain ⟨name, -, rfl⟩ := mem_map.mp hnm
  rw [entryOf_concat hdir] at hen
  cases hen
  exact hin name

section
variable (htarget : Target h root relative canonicalRoot above name f)
include htarget

theorem Target.sibling_inside (other : String) : Inside root (h, above ++ [other]) :=
  ⟨canonicalRoot, htarget.canonical, htarget.inside.trans (prefix_append above [other])⟩

theorem Target.created_inside {other : String} {time : Option ℕ} {created : Host}
    (hout : ¬ LeadsOut h root (above ++ [other]))
    (hnew : h.createFile time (above ++ [other]) = .ok (handle, created)) :
    Inside root (h, handle) := by
  obtain ⟨hres, hdir⟩ := createFile_ok hnew
  cases hnode : h.tree.node (above ++ [other]) with
  | none =>
    rw [resolve_free htarget.directory hnode] at hres
    cases hres
    exact htarget.sibling_inside other
  | some n =>
    by_cases hlink : ∃ target, n = .link target
    · obtain ⟨target, rfl⟩ := hlink
      by_contra hin
      exact hout ⟨target, handle, hnode, hres, hdir, hin⟩
    · have hreal : h.tree.Real (above ++ [other]) := by
        cases n with
        | link target => exact absurd ⟨target, rfl⟩ hlink
        | directory | file g => exact ⟨_, hnode, rfl⟩
      rw [resolve_locationPath h.tree true h.limit h.cwd hreal] at hres
      cases hres
      exact htarget.sibling_inside other

theorem Target.steps_inside
    (hout : faults.create = none → ¬ LeadsOut h root (above ++ [tempName name pid]))
    (content : Text) {touched : List Location} {failure : Option IoError}
    (hsteps : writeThenRenameTraced h faults (above ++ [tempName name pid]) (above ++ [name])
      content = (touched, failure, left)) :
    (∀ loc ∈ touched, Inside root (h, loc)) ∧
      (failure.isSome → left.tree.node above = some .directory) := by
  rw [writeThenRenameTraced] at hsteps
  cases hcreate : faults.create with
  | some e =>
    simp only [hcreate] at hsteps
    cases hsteps
    exact ⟨forall_mem_nil _, fun _ => htarget.directory⟩
  | none =>
    cases hnew : h.createFile faults.time (above ++ [tempName name pid]) with
    | error e =>
      simp only [hcreate, hnew] at hsteps
      cases hsteps
      exact ⟨forall_mem_nil _, fun _ => htarget.directory⟩
    | ok opened =>
      obtain ⟨handle, created⟩ := opened
      have hin := htarget.created_inside (hout hcreate) hnew
      have hstored : ∀ bytes,
          (created.store faults.time handle bytes).tree.node above = some .directory := by
        intro bytes
        obtain ⟨hres, hdir⟩ := createFile_ok hnew
        have hne : above ≠ handle := fun heq => hdir (heq ▸ htarget.directory)
        obtain ⟨created', g, hnew', hnode⟩ := createFile_opens faults.time hres hdir
        rw [hnew] at hnew'
        cases hnew'
        rw [store_node_of_ne hne, hnode, Function.update_of_ne hne]
        exact htarget.directory
      have hentries := entries_inside (hstored content.bytes) htarget.sibling_inside
        [tempName name pid, name]
      have hone : ∀ loc ∈ [handle], Inside root (h, loc) := by
        simpa using hin
      simp only [hcreate, hnew] at hsteps
      split at hsteps
      · cases hsteps
        exact ⟨hone, fun _ => hstored _⟩
      split at hsteps
      · cases hsteps
        exact ⟨hone, fun _ => hstored _⟩
      split at hsteps
      · cases hsteps
        exact ⟨hone, fun _ => hstored _⟩
      split at hsteps
      · cases hsteps
        exact ⟨forall_mem_cons.mpr ⟨hin, hentries⟩, fun _ => hstored _⟩
      · cases hsteps
        exact ⟨forall_mem_cons.mpr ⟨hin, hentries⟩, fun hsome => by cases hsome⟩

end

theorem statIn_touched_inside (h : Host) (root : Path) (rootId relative : String) :
    ∀ touch ∈ (statIn h root rootId relative).touched.map (h, ·), Inside root touch :=
  touched_inside (statIn_within fun _ _ hres => resolveIn_inside hres)

theorem writeFileTraced_inside
    (hout : ∀ path, (admitWrite h root relative content expected force).result = .ok path →
      faults.create = none → ¬ LeadsOut h root (tempSibling path "dsh-write" pid)) :
    ∀ touch ∈ (writeFileTraced h pid faults root rootId relative content expected force).1,
      Inside root touch := by
  have hchecks : ∀ touch ∈ (admitWrite h root relative content expected force).touched.map (h, ·),
      Inside root touch :=
    touched_inside
      (admitWrite_within (fun _ _ hres => resolveIn_inside hres) content expected force)
  rw [writeFileTraced]
  cases hac : (admitWrite h root relative content expected force).result with
  | error e => exact hchecks
  | ok path =>
    obtain ⟨canonicalRoot, above, name, f, rfl, htarget⟩ := (Editable.of_admitted hac).target
    have hlead := hout _ hac
    simp only [tempSibling_concat] at hlead ⊢
    rcases hsteps : writeThenRenameTraced h faults (above ++ [tempName name pid])
      (above ++ [name]) content with ⟨touched, failure, left⟩
    obtain ⟨hin, hdir⟩ := htarget.steps_inside hlead content hsteps
    have hmap : ∀ locs : List Location, (∀ loc ∈ locs, Inside root (h, loc)) →
        ∀ touch ∈ locs.map (h, ·), Inside root touch := by
      intro locs hlocs
      simpa using hlocs
    cases failure with
    | some e =>
      have hremoved : ∀ loc ∈ if faults.remove.isSome then []
          else left.entries [above ++ [tempName name pid]], Inside root (h, loc) := by
        split_ifs
        · exact forall_mem_nil _
        · exact entries_inside (hdir rfl) htarget.sibling_inside [tempName name pid]
      simp only [map_append, forall_mem_append]
      exact ⟨⟨hchecks, hmap _ hin⟩, hmap _ hremoved⟩
    | none =>
      simp only [map_append, forall_mem_append]
      exact ⟨⟨hchecks, hmap _ hin⟩, statIn_touched_inside _ root rootId relative⟩

theorem handle_touched {created : Host}
    (hac : (admitWrite h root relative content expected force).result = .ok path)
    (hcreate : faults.create = none)
    (hnew : h.createFile faults.time (tempSibling path "dsh-write" pid) = .ok (handle, created)) :
    (h, handle) ∈
      (writeFileTraced h pid faults root rootId relative content expected force).1 := by
  rcases hsteps : writeThenRenameTraced h faults (tempSibling path "dsh-write" pid) path
    content with ⟨touched, failure, left⟩
  have hmem : handle ∈ touched := by
    rw [writeThenRenameTraced] at hsteps
    simp only [hcreate, hnew] at hsteps
    repeat' split at hsteps
    all_goals
      cases hsteps
      exact mem_cons_self
  rw [writeFileTraced]
  simp only [hac, hsteps]
  cases failure <;> simp [hmem]

end

/-- The names of an accepted path and the path that `resolve_in` returns are contained, and a
request stays in the root unless it is a write that opens its temporary file through a link
that leads out. -/
theorem requests_contained_iff (h : Host) (pid : ℕ) (faults : WriteFaults) (root : Path)
    (rootId : String) :
    (∀ relative names, validateRelative relative = .ok names → ∀ name ∈ names, Normal name) ∧
      (∀ relative canonicalRoot path, resolveIn h root relative = .ok (canonicalRoot, path) →
        h.canonicalize root = .ok canonicalRoot ∧ canonicalRoot <+: path ∧ h.tree.Real path) ∧
      ∀ request, (∀ touch ∈ touchedBy h pid faults root rootId request, Inside root touch) ↔
        ∀ relative content expected force path, request = .write relative content expected force →
          (admitWrite h root relative content expected force).result = .ok path →
            faults.create = none → ¬ LeadsOut h root (tempSibling path "dsh-write" pid) := by
  refine ⟨fun _ _ => validateRelative_normal, ?_, ?_⟩
  · intro relative canonicalRoot path hres
    obtain ⟨hrt, hbl, hreal, -⟩ := resolveIn_ok hres
    exact ⟨hrt, hbl, hreal⟩
  intro request
  constructor
  · rintro hin relative content expected force path rfl hac hcreate
    rintro ⟨target, handle, -, hres, hdir, hout⟩
    obtain ⟨created, f, hnew, -⟩ := createFile_opens faults.time hres hdir
    exact hout (hin _ (handle_touched hac hcreate hnew))
  · intro hout
    cases request with
    | list relative showHidden =>
      exact touched_inside (readDirIn_within (fun _ _ hres => resolveIn_inside hres) showHidden)
    | read relative =>
      exact touched_inside (readFileIn_within fun _ _ hres => resolveIn_inside hres)
    | stat relative => exact statIn_touched_inside h root rootId relative
    | write relative content expected force =>
      exact writeFileTraced_inside fun path => hout relative content expected force path rfl

/-- The write to `/srv/notes.txt` opens `/etc/motd`, which lies outside the root, and stores
its content there. -/
theorem planted_link_followed_outside :
    plantedHost.canonicalize ⟨true, [.name "srv"]⟩ = .ok ["srv"] ∧
      (∃ touch ∈ touchedBy plantedHost 7 steadyFaults ⟨true, [.name "srv"]⟩ "repo"
        (.write "notes.txt" letter (some ⟨1, 5⟩) false),
        touch.2 = ["etc", "motd"] ∧ ¬ Inside ⟨true, [.name "srv"]⟩ touch) ∧
      plantedWrite.2.contentAt ["etc", "motd"] = some [0x61] := by
  have hroot : plantedHost.canonicalize ⟨true, [.name "srv"]⟩ = .ok ["srv"] := by decide +kernel
  have hac : (admitWrite plantedHost ⟨true, [.name "srv"]⟩ "notes.txt" letter (some ⟨1, 5⟩)
      false).result = .ok ["srv", "notes.txt"] := by decide +kernel
  have hopen : ∃ created, plantedHost.createFile none
      (tempSibling ["srv", "notes.txt"] "dsh-write" 7) = .ok (["etc", "motd"], created) := ⟨_, rfl⟩
  obtain ⟨created, hnew⟩ := hopen
  refine ⟨hroot, ⟨(plantedHost, ["etc", "motd"]), ?_, rfl, ?_⟩, by decide +kernel⟩
  · exact handle_touched hac rfl hnew
  · rintro ⟨canonicalRoot, hrt, hpre⟩
    rw [hroot] at hrt
    cases hrt
    revert hpre
    decide

end DshDesktop.Shell
