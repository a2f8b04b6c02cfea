import DshDesktop.Shell.FileReports

/-!
# The write of the file manager

`write_file_in` writes to a file beside the target, under a name made from the target's and
the process id, and renames it onto the target. Each system call may fail. `File::create`
follows a link at the temporary name, while rename and removal act on the link. A write
through a free temporary name changes the target and nothing else; a name that is taken by
a file or by a link that can be opened for writing breaks the frame.
-/

namespace DshDesktop.Shell
open FileTree Utf8

namespace Host

def put (h : Host) (loc : Location) (n : Option (Node FsFile)) : Host :=
  { h with
    tree := h.tree.set loc n
    cwdDirectory := Tree.set_directory n h.cwdDirectory }

def contentAt (h : Host) (loc : Location) : Option (List UInt8) :=
  match h.tree.node loc with
  | some (.file f) => some f.bytes
  | _ => none

def createFile (h : Host) (time : Option ℕ) (loc : Location) : Except IoError (Location × Host) :=
  match resolve h.tree true h.limit h.cwd (locationPath loc) with
  | .error e => .error ⟨decide (e = .missing), h.describe e⟩
  | .ok handle =>
    match h.tree.node handle with
    | some .directory => .error h.isDirectory
    | some (.file f) =>
      .ok (handle, h.put handle (some (.file { f with bytes := [], modified := time })))
    | _ => .ok (handle, h.put handle (some (.file ⟨[], time, true⟩)))

def store (h : Host) (time : Option ℕ) (handle : Location) (bytes : List UInt8) : Host :=
  match h.tree.node handle with
  | some (.file f) => h.put handle (some (.file { f with bytes := bytes, modified := time }))
  | _ => h

def renameEntry (h : Host) (source destination : Location) : Except IoError Host :=
  match h.entryOf source, h.entryOf destination with
  | .error e, _ => .error e
  | _, .error e => .error e
  | .ok old, .ok new =>
    match h.tree.node old with
    | none => .error ⟨true, h.describe .missing⟩
    | some .directory => .error h.isDirectory
    | some n =>
      if h.tree.node new = some .directory then .error h.isDirectory
      else .ok ((h.put new (some n)).put old none)

def entries (h : Host) (locs : List Location) : List Location :=
  locs.filterMap fun loc => (h.entryOf loc).toOption

def removeFile (h : Host) (loc : Location) : Host :=
  match h.entryOf loc with
  | .error _ => h
  | .ok entry => if h.tree.node entry = some .directory then h else h.put entry none

end Host

/-- How the system calls of one write end. A failed write leaves any bytes behind, and the
accesses of the stat at the end may be refused. -/
structure WriteFaults where
  time : Option ℕ
  create : Option IoError
  write : Option (List UInt8 × IoError)
  sync : Option IoError
  rename : Option IoError
  remove : Option IoError
  later : Access → Path → Option IoError

def WriteFaults.strike (faults : WriteFaults) : Bool :=
  faults.create.isSome || faults.write.isSome || faults.sync.isSome || faults.rename.isSome

def tempSibling (path : Location) (tag : String) (pid : ℕ) : Location :=
  path.dropLast ++ ["." ++ path.getLast?.getD "file" ++ "." ++ tag ++ "." ++ toString pid]

/-- The write up to the rename, with the locations it touches: the file behind the handle,
and the entries that rename resolves. -/
def writeThenRenameTraced (h : Host) (faults : WriteFaults) (temp path : Location)
    (content : Text) : List Location × Option IoError × Host :=
  match faults.create with
  | some e => ([], some e, h)
  | none =>
    match h.createFile faults.time temp with
    | .error e => ([], some e, h)
    | .ok (handle, created) =>
      match faults.write with
      | some (left, e) => ([handle], some e, created.store faults.time handle left)
      | none =>
        let written := created.store faults.time handle content.bytes
        match faults.sync with
        | some e => ([handle], some e, written)
        | none =>
          match faults.rename with
          | some e => ([handle], some e, written)
          | none =>
            let touched := handle :: written.entries [temp, path]
            match written.renameEntry temp path with
            | .error e => (touched, some e, written)
            | .ok renamed => (touched, none, renamed)

def writeThenRename (h : Host) (faults : WriteFaults) (temp path : Location) (content : Text) :
    Option IoError × Host :=
  (writeThenRenameTraced h faults temp path content).2

/-- `write_file_in`, with the locations it touches, each beside the file system in which
`resolve_in` found the path: the one of the call, or the one the stat at the end sees. -/
def writeFileTraced (h : Host) (pid : ℕ) (faults : WriteFaults) (root : Path)
    (rootId relative : String) (content : Text) (expected : Option WriteBaseline)
    (force : Bool) : List (Host × Location) × Except FsError FsStatReport × Host :=
  let admitted := admitWrite h root relative content expected force
  match admitted.result with
  | .error e => (admitted.touched.map (h, ·), .error e, h)
  | .ok path =>
    let temp := tempSibling path "dsh-write" pid
    match writeThenRenameTraced h faults temp path content with
    | (touched, some e, left) =>
      let removed := if faults.remove.isSome then [] else left.entries [temp]
      ((admitted.touched ++ touched ++ removed).map (h, ·),
        .error (.io ("cannot write the file: " ++ e.text)),
        if faults.remove.isSome then left else left.removeFile temp)
    | (touched, none, written) =>
      let later := { written with refusal := faults.later }
      let report := statIn later root rootId relative
      ((admitted.touched ++ touched).map (h, ·) ++ report.touched.map (later, ·),
        report.result, written)

def writeFileIn (h : Host) (pid : ℕ) (faults : WriteFaults) (root : Path)
    (rootId relative : String) (content : Text) (expected : Option WriteBaseline)
    (force : Bool) : Except FsError FsStatReport × Host :=
  (writeFileTraced h pid faults root rootId relative content expected force).2

def OwnName (h : Host) (root : Path) (relative : String) (pid : ℕ) (loc : Location) : Prop :=
  ∃ canonicalRoot path, resolveIn h root relative = .ok (canonicalRoot, path) ∧
    loc = tempSibling path "dsh-write" pid ∧ h.tree.node loc = none

/-- No file but the target has changed and nothing outside the root, and after an error the
target has not changed either. -/
structure WriteKept (h : Host) (root : Path) (relative : String) (pid : ℕ)
    (result : Except FsError FsStatReport) (after : Host) : Prop where
  others : ∀ loc, (∀ canonicalRoot, resolveIn h root relative ≠ .ok (canonicalRoot, loc)) →
    ¬ OwnName h root relative pid loc → after.contentAt loc = h.contentAt loc
  outside : ∀ canonicalRoot, h.canonicalize root = .ok canonicalRoot →
    ∀ loc, ¬ canonicalRoot <+: loc → after.tree.node loc = h.tree.node loc
  failed : ∀ e, result = .error e → ∀ canonicalRoot path,
    resolveIn h root relative = .ok (canonicalRoot, path) → after.contentAt path = h.contentAt path

def Editable (h : Host) (root : Path) (relative : String) (path : Location) : Prop :=
  ∃ canonicalRoot metadata reason, resolveIn h root relative = .ok (canonicalRoot, path) ∧
    (h.metadata path).result = .ok metadata ∧ metadata.isFile = true ∧
    (editability h path metadata.size).result = .ok (true, reason)

/-- What stands at the temporary name is no file, and cannot be opened for writing. -/
def Blocked (h : Host) (temp : Location) : Prop :=
  h.tree.node temp = some .directory ∨ (∃ target, h.tree.node temp = some (.link target)) ∧
      ∀ handle, resolve h.tree true h.limit h.cwd (locationPath temp) = .ok handle →
        h.tree.node handle = some .directory

section
variable {h : Host} {root : Path} {rid rel name : String} {loc above : Location}
  {f : FsFile} (time : Option ℕ)

theorem writeFileIn_rejected {pid : ℕ} {faults : WriteFaults} {content : Text}
    {expected : Option WriteBaseline} {force : Bool} {e : FsError}
    (hac : (admitWrite h root rel content expected force).result = .error e) :
    writeFileIn h pid faults root rid rel content expected force = (.error e, h) := by
  rw [writeFileIn, writeFileTraced]
  simp [hac]

theorem writeFileIn_admitted {pid : ℕ} {faults : WriteFaults} {content : Text}
    {expected : Option WriteBaseline} {force : Bool} {path : Location}
    (hac : (admitWrite h root rel content expected force).result = .ok path) :
    writeFileIn h pid faults root rid rel content expected force =
      match writeThenRename h faults (tempSibling path "dsh-write" pid) path content with
      | (some e, left) =>
        (.error (.io ("cannot write the file: " ++ e.text)),
          if faults.remove.isSome then left
          else left.removeFile (tempSibling path "dsh-write" pid))
      | (none, written) =>
        ((statIn { written with refusal := faults.later } root rid rel).result, written) := by
  rw [writeFileIn, writeFileTraced, writeThenRename]
  simp only [hac]
  rcases writeThenRenameTraced h faults _ path content with ⟨touched, failure, left⟩
  cases failure <;> rfl

theorem put_node {n : Option (Node FsFile)} (hold : h.tree.mayHold loc = true) :
    (h.put loc n).tree.node = Function.update h.tree.node loc n := by
  rw [Host.put, Tree.node_set hold]

theorem contentAt_congr {h h' : Host} (hnode : h'.tree.node loc = h.tree.node loc) :
    h'.contentAt loc = h.contentAt loc := by
  rw [Host.contentAt, Host.contentAt, hnode]

theorem contentAt_file (hnode : h.tree.node loc = some (.file f)) :
    h.contentAt loc = some f.bytes := by
  rw [Host.contentAt, hnode]

theorem store_node (hnode : h.tree.node loc = some (.file f)) (time : Option ℕ)
    (bytes : List UInt8) :
    (h.store time loc bytes).tree.node = Function.update h.tree.node loc
      (some (.file { f with bytes := bytes, modified := time })) := by
  rw [Host.store, hnode]
  exact put_node (Tree.mayHold_of_node hnode (by simp))

theorem createFile_ok {time : Option ℕ} {temp handle : Location} {created : Host}
    (hnew : h.createFile time temp = .ok (handle, created)) :
    resolve h.tree true h.limit h.cwd (locationPath temp) = .ok handle ∧
      h.tree.node handle ≠ some .directory := by
  rw [Host.createFile] at hnew
  cases hres : resolve h.tree true h.limit h.cwd (locationPath temp) with
  | error e => simp [hres] at hnew
  | ok reached =>
    simp only [hres] at hnew
    cases hnode : h.tree.node reached with
    | none =>
      simp only [hnode, Except.ok.injEq, Prod.mk.injEq] at hnew
      rw [← hnew.1, hnode]
      exact ⟨rfl, by simp⟩
    | some n =>
      cases n with
      | directory => simp [hnode] at hnew
      | file f | link target =>
        simp only [hnode, Except.ok.injEq, Prod.mk.injEq] at hnew
        rw [← hnew.1, hnode]
        exact ⟨rfl, by simp⟩

theorem createFile_opens {temp handle : Location}
    (hres : resolve h.tree true h.limit h.cwd (locationPath temp) = .ok handle)
    (hdir : h.tree.node handle ≠ some .directory) :
    ∃ created f, h.createFile time temp = .ok (handle, created) ∧
      created.tree.node = Function.update h.tree.node handle (some (.file f)) := by
  have hreach := resolve_reached h.cwdDirectory hres
  have hold := hreach.mayHold hdir
  rw [Host.createFile, hres]
  dsimp only
  cases hnode : h.tree.node handle with
  | none => exact ⟨_, _, rfl, put_node hold⟩
  | some n =>
    cases n with
    | directory => exact absurd hnode hdir
    | file f => exact ⟨_, _, rfl, put_node hold⟩
    | link target => exact absurd hnode (hreach.not_link target)

theorem resolve_free (hdir : h.tree.node above = some .directory)
    (hfr : h.tree.node (above ++ [name]) = none) :
    resolve h.tree true h.limit h.cwd (locationPath (above ++ [name])) = .ok (above ++ [name]) := by
  have hwl := walk_free h.limit hdir hfr
  rw [resolve, locationPath, if_neg (by simp)]
  simpa using hwl

theorem createFile_free (hdir : h.tree.node above = some .directory)
    (hfr : h.tree.node (above ++ [name]) = none) :
    h.createFile time (above ++ [name]) =
      .ok (above ++ [name], h.put (above ++ [name]) (some (.file ⟨[], time, true⟩))) := by
  rw [Host.createFile, resolve_free hdir hfr]
  simp [hfr]

end

open List
open Function
variable {path canonicalRoot top handle changed above dir temp base' : Location} {content : Text}
  {expected want : Option WriteBaseline} {force : Bool}
  {after written later : Host} {faults : WriteFaults} {new : FsFile} (time : Option ℕ)
  (bytes : List UInt8)

section
variable {h : Host} {root : Path} {rootId rid relative rel : String} {loc : Location}

theorem put_node_of_ne {n : Option (Node FsFile)} (hne : loc ≠ changed) :
    (h.put changed n).tree.node loc = h.tree.node loc :=
  Tree.node_set_of_ne hne n

theorem store_node_of_ne (hne : loc ≠ handle) {time : Option ℕ} {bytes : List UInt8} :
    (h.store time handle bytes).tree.node loc = h.tree.node loc := by
  rw [Host.store]
  split
  · exact put_node_of_ne hne
  · rfl

theorem removeFile_node_of_ne {name : String} (hdir : h.tree.node dir = some .directory)
    (hne : loc ≠ dir ++ [name]) :
    (h.removeFile (dir ++ [name])).tree.node loc = h.tree.node loc := by
  rw [Host.removeFile, entryOf_concat hdir]
  dsimp only
  split_ifs
  · rfl
  · exact put_node_of_ne hne

structure Target (h : Host) (root : Path) (relative : String) (canonicalRoot above : Location)
    (name : String) (f : FsFile) : Prop where
  resolved : resolveIn h root relative = .ok (canonicalRoot, above ++ [name])
  inside : canonicalRoot <+: above
  directory : h.tree.node above = some .directory
  file : h.tree.node (above ++ [name]) = some (.file f)

theorem metadata_file {found : Metadata} (hreal : h.tree.Real loc)
    (hmt : (h.metadata loc).result = .ok found) (hfile : found.isFile) :
    ∃ f, h.tree.node loc = some (.file f) := by
  obtain ⟨reached, hreach, hpure⟩ := Traced.bind_result_ok hmt
  rw [reach_ok hreal hreach] at hpure
  cases hpure
  cases hnode : h.tree.node loc with
  | none => simp [Host.metadataAt, hnode] at hfile
  | some n =>
    cases n with
    | file f => exact ⟨f, rfl⟩
    | directory | link tgt => simp [Host.metadataAt, hnode] at hfile

section
variable (hres : resolveIn h root rel = .ok (top, path))
include hres

theorem resolveIn_root_directory : h.tree.node top = some .directory := by
  obtain ⟨hrt, -, -, names, -, hpt⟩ := resolveIn_ok hres
  have hreal : h.tree.Real top := find_real hrt
  have hwl := find_ok hpt
  rw [resolve] at hwl
  split_ifs at hwl with hem habs
  · have hsk : walk h.tree false h.limit [] (joined top names).segments =
        walk h.tree false h.limit top
          (if names = [] then [.here] else names.map .name) := walk_names_append h.limit hreal _
    rw [hsk] at hwl
    refine walk_directory h.limit ?_ hwl
    split_ifs with hnm
    · exact cons_ne_nil _ _
    · simpa using hnm
  · exact absurd rfl habs

theorem target_of_file {f : FsFile} (hfile : h.tree.node path = some (.file f)) :
    ∃ above name, path = above ++ [name] ∧ Target h root rel top above name f := by
  have hrt := resolveIn_root_directory hres
  obtain ⟨-, hin, -⟩ := resolveIn_ok hres
  rcases eq_nil_or_concat path with rfl | ⟨above, name, rfl⟩
  · rw [h.tree.root] at hfile
    cases hfile
  rw [concat_eq_append] at hres hfile hin ⊢
  refine ⟨above, name, rfl, hres, ?_, h.tree.parent above name _ hfile, hfile⟩
  rcases prefix_concat_iff.mp hin with heq | hbelow
  · rw [heq, hfile] at hrt
    cases hrt
  · exact hbelow

end

theorem Editable.target (heditable : Editable h root rel path) :
    ∃ canonicalRoot above name f, path = above ++ [name] ∧
      Target h root rel canonicalRoot above name f := by
  obtain ⟨canonicalRoot, md, rsn, hresolve, hmt, hiF, -⟩ := heditable
  obtain ⟨-, -, hreal, -⟩ := resolveIn_ok hresolve
  obtain ⟨f, hfile⟩ := metadata_file hreal hmt hiF
  obtain ⟨above, name, hpt, htarget⟩ := target_of_file hresolve hfile
  exact ⟨canonicalRoot, above, name, f, hpt, htarget⟩

theorem Editable.of_admitted
    (hok : (admitWrite h root rel content want force).result = .ok path) :
    Editable h root rel path := by
  obtain ⟨-, canonicalRoot, md, rsn, hresolve, hmt, hfile, hed, -⟩ := admitWrite_ok hok
  exact ⟨canonicalRoot, md, rsn, hresolve, hmt, hfile, hed⟩

theorem Editable.admitted (heditable : Editable h root rel path)
    (hsz : content.bytes.length ≤ maxEditableBytes) :
    (admitWrite h root rel content none true).result = .ok path := by
  obtain ⟨canonicalRoot, md, rsn, hresolve, hmt, hfile, hed⟩ := heditable
  rw [admitWrite, if_neg (by omega)]
  simp [hresolve, hmt, hfile, hed, Except.bind]

def tempName (name : String) (pid : ℕ) : String :=
  "." ++ name ++ "." ++ "dsh-write" ++ "." ++ toString pid

theorem tempSibling_concat {name : String} {pid : ℕ} :
    tempSibling (above ++ [name]) "dsh-write" pid = above ++ [tempName name pid] := by
  rw [tempSibling, dropLast_concat, getLast?_concat]
  rfl

theorem tempName_ne {name : String} {pid : ℕ} : tempName name pid ≠ name := by
  intro heq
  have hlen := congrArg String.length heq
  simp only [tempName, String.length_append] at hlen
  have hdot : ".".length = 1 := rfl
  omega

inductive Wrote (h : Host) (faults : WriteFaults) (temp path : Location) (content : Text) :
    Option IoError × Host → Prop
  | failed (e : IoError) (left : Host) (fault : faults.strike = true)
      (only : ∀ loc, loc ≠ temp → left.tree.node loc = h.tree.node loc) :
      Wrote h faults temp path content (some e, left)
  | replaced (after : Host) (time : Option ℕ)
      (target : after.tree.node path = some (.file ⟨content.bytes, time, true⟩))
      (own : after.tree.node temp = none)
      (only : ∀ loc, loc ≠ temp → loc ≠ path → after.tree.node loc = h.tree.node loc)
      (limit : after.limit = h.limit) (cwd : after.cwd = h.cwd) :
      Wrote h faults temp path content (none, after)

section
variable {name temp : String} {f : FsFile}

theorem store_system :
    (h.store time loc bytes).limit = h.limit ∧ (h.store time loc bytes).cwd = h.cwd := by
  rw [Host.store]
  split <;> exact ⟨rfl, rfl⟩

theorem renameEntry_replaced (hdir : written.tree.node dir = some .directory)
    (htm : written.tree.node (dir ++ [temp]) = some (.file new))
    (hpt : written.tree.node (dir ++ [name]) = some (.file f)) (hne : temp ≠ name) :
    written.renameEntry (dir ++ [temp]) (dir ++ [name]) =
        .ok ((written.put (dir ++ [name]) (some (.file new))).put (dir ++ [temp]) none) ∧
      ((written.put (dir ++ [name]) (some (.file new))).put (dir ++ [temp]) none).tree.node =
        update (update written.tree.node (dir ++ [name]) (some (.file new)))
          (dir ++ [temp]) none := by
  have hloc : dir ++ [temp] ≠ dir ++ [name] := by simpa using hne
  have hold : written.tree.mayHold (dir ++ [name]) := Tree.mayHold_of_node hpt (by simp)
  have htm' : (written.put (dir ++ [name]) (some (.file new))).tree.node (dir ++ [temp]) =
      some (.file new) := by
    rw [put_node_of_ne hloc]
    exact htm
  constructor
  · rw [Host.renameEntry, entryOf_concat hdir, entryOf_concat hdir]
    simp [htm, hpt]
  · rw [put_node (Tree.mayHold_of_node htm' (by simp)), put_node hold]

structure Created (h : Host) (loc : Location) (f : FsFile) (created : Host) : Prop where
  node : created.tree.node = Function.update h.tree.node loc (some (.file f))
  limit : created.limit = h.limit
  cwd : created.cwd = h.cwd

theorem created_store (hdir : h.tree.node dir = some .directory)
    (hfree : h.tree.node (dir ++ [temp]) = none) :
    Created h (dir ++ [temp]) ⟨bytes, time, true⟩
      ((h.put (dir ++ [temp]) (some (.file ⟨[], time, true⟩))).store time (dir ++ [temp])
        bytes) := by
  have hmd := put_node (n := some (.file ⟨[], time, true⟩))
    (Tree.mayHold_of_free hdir hfree)
  have htm : (h.put (dir ++ [temp]) (some (.file ⟨[], time, true⟩))).tree.node
      (dir ++ [temp]) = some (.file ⟨[], time, true⟩) := by
    rw [hmd, update_self]
  obtain ⟨hlm, hcwd⟩ := store_system time bytes
  refine ⟨?_, hlm, hcwd⟩
  rw [store_node htm, hmd, update_idem]

section
variable (hdir : h.tree.node dir = some .directory)
  (hpt : h.tree.node (dir ++ [name]) = some (.file f)) (hne : temp ≠ name)
include hdir hpt hne

theorem Created.renamed {time : Option ℕ}
    (hwr : Created h (dir ++ [temp]) ⟨content.bytes, time, true⟩ written) (faults : WriteFaults) :
    ∃ renamed, written.renameEntry (dir ++ [temp]) (dir ++ [name]) = .ok renamed ∧
      Wrote h faults (dir ++ [temp]) (dir ++ [name]) content (none, renamed) := by
  have hloc : dir ++ [name] ≠ dir ++ [temp] := by simpa using Ne.symm hne
  have hab : dir ≠ dir ++ [temp] := by simp
  have hdr' : written.tree.node dir = some .directory := by
    rw [hwr.node, update_of_ne hab]
    exact hdir
  have hpt' : written.tree.node (dir ++ [name]) = some (.file f) := by
    rw [hwr.node, update_of_ne hloc]
    exact hpt
  have htm' : written.tree.node (dir ++ [temp]) = some (.file ⟨content.bytes, time, true⟩) := by
    rw [hwr.node, update_self]
  obtain ⟨hrn, haf⟩ := renameEntry_replaced hdr' htm' hpt' hne
  refine ⟨_, hrn, .replaced _ time ?_ ?_ ?_ hwr.limit hwr.cwd⟩
  · rw [haf, update_of_ne hloc, update_self]
  · rw [haf, update_self]
  · intro loc hnT hnP
    rw [haf, update_of_ne hnT, update_of_ne hnP, hwr.node, update_of_ne hnT]

theorem writeThenRename_wrote (faults : WriteFaults) (content : Text)
    (hfree : h.tree.node (dir ++ [temp]) = none) :
    Wrote h faults (dir ++ [temp]) (dir ++ [name]) content
      (writeThenRename h faults (dir ++ [temp]) (dir ++ [name]) content) := by
  have hst := fun bytes => created_store faults.time bytes hdir hfree
  rw [writeThenRename, writeThenRenameTraced, createFile_free faults.time hdir hfree]
  cases hnew : faults.create with
  | some e => exact .failed e h (by simp [WriteFaults.strike, hnew]) fun loc _ => rfl
  | none =>
    generalize h.put (dir ++ [temp]) (some (.file ⟨[], faults.time, true⟩)) = created
      at hst ⊢
    have hon : ∀ bytes, ∀ loc, loc ≠ dir ++ [temp] →
        (created.store faults.time (dir ++ [temp]) bytes).tree.node loc = h.tree.node loc := by
      intro bytes loc hnT
      rw [(hst bytes).node, update_of_ne hnT]
    cases hwr : faults.write with
    | some failure =>
      exact .failed failure.2 _ (by simp [WriteFaults.strike, hwr]) (hon failure.1)
    | none =>
      cases hsy : faults.sync with
      | some e => exact .failed e _ (by simp [WriteFaults.strike, hsy]) (hon content.bytes)
      | none =>
        cases hren : faults.rename with
        | some e =>
          exact .failed e _ (by simp [WriteFaults.strike, hren]) (hon content.bytes)
        | none =>
          obtain ⟨renamed, hrn, hwo⟩ := (hst content.bytes).renamed hdir hpt hne faults
          dsimp only
          rw [hrn]
          exact hwo

end

end

theorem writeThenRename_blocked (hblock : Blocked h temp) :
    ∃ e, writeThenRename h faults temp path content = (some e, h) := by
  rw [writeThenRename, writeThenRenameTraced]
  cases faults.create with
  | some e => exact ⟨e, rfl⟩
  | none =>
    cases hnew : h.createFile faults.time temp with
    | error e => exact ⟨e, rfl⟩
    | ok opened =>
      obtain ⟨hresolve, hoe⟩ := createFile_ok hnew
      rcases hblock with hdir | ⟨-, hlink⟩
      · rw [resolve_locationPath h.tree true h.limit h.cwd (Tree.real_directory hdir)] at hresolve
        cases hresolve
        exact absurd hdir hoe
      · exact absurd (hlink _ hresolve) hoe

def Framed (h : Host) (pid : ℕ) (faults : WriteFaults) (root : Path) (rootId relative : String)
    (content : Text) (expected : Option WriteBaseline) (force : Bool) : Prop :=
  WriteKept h root relative pid
    (writeFileIn h pid faults root rootId relative content expected force).1
    (writeFileIn h pid faults root rootId relative content expected force).2

structure Later (h later : Host) : Prop where
  quiet : later.refusal = fun _ _ => none
  alike : Alike h.tree later.tree
  limit : later.limit = h.limit
  cwd : later.cwd = h.cwd

theorem Later.find (hlt : Later h later) {accs : Access} {path : Path}
    (hfn : h.find accs path = .ok loc) : later.find accs path = .ok loc := by
  have hresolve := find_ok hfn
  rw [resolve_alike hlt.alike, ← hlt.limit, ← hlt.cwd] at hresolve
  rw [Host.find, hlt.quiet, hresolve]

theorem Later.resolveIn (hlt : Later h later)
    (hresolve : resolveIn h root rel = .ok (top, path)) :
    resolveIn later root rel = .ok (top, path) := by
  obtain ⟨hrt, hin, -, names, hnm, hpt⟩ := resolveIn_ok hresolve
  have hrt' : later.canonicalize root = .ok top := hlt.find hrt
  have hpt' : later.canonicalize (joined top names) = .ok path := hlt.find hpt
  simp [DshDesktop.Shell.resolveIn, hrt', hnm, hpt', if_pos hin]

section
variable {name : String} {f : FsFile} {pid : ℕ}
  (htg : Target h root rel top dir name f)
include htg

theorem Target.unique (hresolve : resolveIn h root rel = .ok (base', path)) :
    path = dir ++ [name] := by
  rw [htg.resolved] at hresolve
  cases hresolve
  rfl

theorem Target.canonical : h.canonicalize root = .ok top :=
  (resolveIn_ok htg.resolved).1

theorem Target.kept {res : Except FsError FsStatReport}
    (hon : ∀ loc, loc ≠ dir ++ [tempName name pid] → loc ≠ dir ++ [name] →
      after.tree.node loc = h.tree.node loc)
    (htm : h.tree.node (dir ++ [tempName name pid]) = none ∨
      after.contentAt (dir ++ [tempName name pid]) = h.contentAt (dir ++ [tempName name pid]))
    (hfl : ∀ e, res = .error e → after.contentAt (dir ++ [name]) = h.contentAt (dir ++ [name])) :
    WriteKept h root rel pid res after := by
  constructor
  · intro loc hot hown
    by_cases hloc : loc = dir ++ [tempName name pid]
    · subst hloc
      rcases htm with hfree | heq
      · refine absurd ⟨top, dir ++ [name], htg.resolved, ?_, hfree⟩ hown
        rw [tempSibling_concat]
      · exact heq
    · exact contentAt_congr (hon loc hloc fun heq => hot top (heq ▸ htg.resolved))
  · intro canonicalRoot' hrt loc hloc
    rw [htg.canonical] at hrt
    cases hrt
    have hin : ∀ n, loc ≠ dir ++ [n] := by
      intro n heq
      rw [heq] at hloc
      exact hloc (htg.inside.trans (prefix_append _ _))
    exact hon loc (hin _) (hin _)
  · intro e he canonicalRoot' path hresolve
    rw [htg.unique hresolve]
    exact hfl e he

theorem Target.kept_of_only
    (hon : ∀ loc, loc ≠ dir ++ [tempName name pid] → after.tree.node loc = h.tree.node loc)
    (htm : h.tree.node (dir ++ [tempName name pid]) = none ∨
      after.contentAt (dir ++ [tempName name pid]) = h.contentAt (dir ++ [tempName name pid]))
    (res : Except FsError FsStatReport) : WriteKept h root rel pid res after := by
  have hne : dir ++ [name] ≠ dir ++ [tempName name pid] := by
    simpa using Ne.symm tempName_ne
  exact htg.kept (fun loc hloc _ => hon loc hloc) htm fun _ _ => contentAt_congr (hon _ hne)

section
variable (hfree : h.tree.node (dir ++ [tempName name pid]) = none)
include hfree

theorem Target.later_of_replaced (hnew : after.tree.node (dir ++ [name]) = some (.file new))
    (hown : after.tree.node (dir ++ [tempName name pid]) = none)
    (hon : ∀ loc, loc ≠ dir ++ [tempName name pid] → loc ≠ dir ++ [name] →
      after.tree.node loc = h.tree.node loc)
    (hlm : after.limit = h.limit) (hcwd : after.cwd = h.cwd) :
    Later h { after with refusal := fun _ _ => none } := by
  refine ⟨rfl, ?_, hlm, hcwd⟩
  intro loc
  by_cases htm : loc = dir ++ [tempName name pid]
  · rw [htm, hfree, hown]
  · by_cases hpt : loc = dir ++ [name]
    · rw [hpt, htg.file, hnew]
      rfl
    · rw [hon loc htm hpt]

section
variable (hlt : faults.later = fun _ _ => none)
  (hacc : (admitWrite h root rel content want force).result = .ok (dir ++ [name]))
include hlt hacc

theorem Target.wrote :
    (∃ e left, writeFileIn h pid faults root rid rel content want force =
        (.error e, left) ∧ faults.strike ∧
      ∀ loc, loc ≠ dir ++ [tempName name pid] → left.tree.node loc = h.tree.node loc) ∨
    ∃ after time, writeFileIn h pid faults root rid rel content want force =
        (fileStat rid rel ⟨content.bytes, time, true⟩, after) ∧
      after.tree.node (dir ++ [name]) = some (.file ⟨content.bytes, time, true⟩) ∧
      (∀ loc, loc ≠ dir ++ [tempName name pid] → loc ≠ dir ++ [name] →
        after.tree.node loc = h.tree.node loc) ∧
      Later h { after with refusal := fun _ _ => none } := by
  have hwr := writeThenRename_wrote htg.directory htg.file tempName_ne faults content hfree
  rw [writeFileIn_admitted hacc, tempSibling_concat]
  generalize writeThenRename h faults (dir ++ [tempName name pid]) (dir ++ [name]) content =
    outcome at hwr ⊢
  cases hwr with
  | failed e left fault only =>
    refine .inl ⟨_, _, rfl, fault, ?_⟩
    intro loc hloc
    split_ifs
    · exact only loc hloc
    have hdir : left.tree.node dir = some .directory := by
      rw [only dir (by simp)]
      exact htg.directory
    rw [removeFile_node_of_ne hdir hloc]
    exact only loc hloc
  | replaced after time tgt own only limit cwd =>
    have hhs := htg.later_of_replaced hfree tgt own only limit cwd
    refine .inr ⟨after, time, ?_, tgt, only, hhs⟩
    dsimp only
    rw [hlt, statIn_file hhs.quiet tgt (hhs.resolveIn htg.resolved)]

theorem Target.kept_of_free : Framed h pid faults root rid rel content want force := by
  unfold Framed
  rcases htg.wrote hfree hlt hacc with ⟨e, left, hwr, -, hon⟩ | ⟨after, time, hwr, -, hon, -⟩
  · rw [hwr]
    exact htg.kept_of_only hon (.inl hfree) _
  · rw [hwr]
    exact htg.kept hon (.inl hfree) nofun

theorem Target.succeeds (hst : faults.strike = false) : ∃ report after,
    writeFileIn h pid faults root rid rel content want force = (.ok report, after) := by
  rcases htg.wrote hfree hlt hacc with ⟨_, _, -, hfl, -⟩ | ⟨after, time, hwr, -⟩
  · rw [hst] at hfl
    cases hfl
  · exact ⟨_, _, hwr⟩

theorem Target.saved {report : FsStatReport}
    (hok : writeFileIn h pid faults root rid rel content want force = (.ok report, after)) :
    after.contentAt (dir ++ [name]) = some content.bytes ∧
      ∀ next : Text, next.bytes.length ≤ maxEditableBytes →
        (admitWrite { after with refusal := fun _ _ => none } root rel next
          (some ⟨report.size, report.modifiedUnixMs⟩) false).result = .ok (dir ++ [name]) := by
  rcases htg.wrote hfree hlt hacc with ⟨_, _, hwr, -⟩ | ⟨after', time, hwr, hnew, -, hhs⟩
  · rw [hwr] at hok
    cases hok
  rw [hwr] at hok
  cases hok
  refine ⟨contentAt_file hnew, ?_⟩
  intro next hnx
  rw [admitWrite_file hhs.quiet hnew (hhs.resolveIn htg.resolved)]
  exact congrArg (Except.map fun _ => dir ++ [name])
    (checkWrite_saved rfl rfl (admitWrite_ok hacc).1 hnx false)

end

end

theorem Target.kept_of_blocked (hblock : Blocked h (dir ++ [tempName name pid]))
    (faults : WriteFaults)
    (hacc : (admitWrite h root rel content want force).result = .ok (dir ++ [name])) :
    Framed h pid faults root rid rel content want force := by
  obtain ⟨e, hwr⟩ := writeThenRename_blocked hblock
  rw [Framed, writeFileIn_admitted hacc, tempSibling_concat, hwr]
  split_ifs with hrm
  · exact htg.kept_of_only (fun _ _ => rfl) (.inr rfl) _
  refine htg.kept_of_only (fun loc hloc => removeFile_node_of_ne htg.directory hloc)
    (.inr ?_) _
  rw [Host.removeFile, entryOf_concat htg.directory]
  dsimp only
  split_ifs with hdir
  · rfl
  -- only a link can be removed, and it has no content
  rcases hblock with hdr' | ⟨⟨link, hlink⟩, -⟩
  · exact absurd hdr' hdir
  · rw [Host.contentAt, Host.contentAt, hlink,
      put_node (Tree.mayHold_of_node hlink (by simp)), update_self]

end

def steadyFaults : WriteFaults := ⟨none, none, none, none, none, none, fun _ _ => none⟩

def ioFailure : IoError := ⟨false, "Input/output error (os error 5)"⟩

def letter : Text := ⟨[0x61], by decide⟩

def otherText : Text := if bytes = [] then letter else Text.empty

theorem otherText_ne : (otherText bytes).bytes ≠ bytes := by
  rw [otherText]
  split_ifs with hby
  · rw [hby]
    decide
  · exact Ne.symm hby

theorem otherText_length : (otherText bytes).bytes.length ≤ maxEditableBytes := by
  rw [otherText]
  split_ifs <;> decide

section
variable {name : String} {f : FsFile} {pid : ℕ}
  (htg : Target h root rel top dir name f)
  (heditable : Editable h root rel (dir ++ [name]))
include htg heditable

omit heditable in
theorem Target.kept_content {e : FsError} (hkp : WriteKept h root rel pid (.error e) after)
    (hown : loc ≠ dir ++ [tempName name pid] ∨ h.tree.node loc ≠ none) :
    after.contentAt loc = h.contentAt loc := by
  by_cases hpt : loc = dir ++ [name]
  · rw [hpt]
    exact hkp.failed e rfl top (dir ++ [name]) htg.resolved
  refine hkp.others loc ?_ ?_
  · intro canonicalRoot' hresolve
    exact hpt (htg.unique hresolve)
  · intro how
    obtain ⟨canonicalRoot', path, hresolve, hloc, hnn⟩ := how
    rw [htg.unique hresolve, tempSibling_concat] at hloc
    rcases hown with hne | hnode
    · exact hne hloc
    · exact hnode hnn

theorem Target.broken_of_file {g : FsFile}
    (htm : h.tree.node (dir ++ [tempName name pid]) = some (.file g)) :
    ¬ ∀ content expected force,
      Framed h pid { steadyFaults with create := some ioFailure } root rid rel content expected
        force := by
  intro hkp
  have hwr := hkp letter none true
  rw [Framed, writeFileIn_admitted (heditable.admitted (by decide)), tempSibling_concat] at hwr
  simp only [writeThenRename, writeThenRenameTraced, steadyFaults, Option.isSome_none,
    Bool.false_eq_true, if_false, Host.removeFile, entryOf_concat htg.directory, htm] at hwr
  have heq := htg.kept_content hwr (.inr (by rw [htm]; simp))
  rw [if_neg (by simp), contentAt_file htm, Host.contentAt,
    put_node (Tree.mayHold_of_node htm (by simp)), update_self] at heq
  cases heq

theorem Target.broken_of_link {link : Path}
    (htm : h.tree.node (dir ++ [tempName name pid]) = some (.link link))
    (hresolve : resolve h.tree true h.limit h.cwd (locationPath (dir ++ [tempName name pid])) =
      .ok handle) (hoe : h.tree.node handle ≠ some .directory) :
    ∃ failure, ¬ ∀ content expected force,
      Framed h pid { steadyFaults with write := some failure } root rid rel content expected
        force := by
  have hnT : handle ≠ dir ++ [tempName name pid] := by
    intro heq
    exact (resolve_reached h.cwdDirectory hresolve).not_link link (heq ▸ htm)
  have hnA : dir ≠ handle := by
    intro heq
    exact hoe (heq ▸ htg.directory)
  obtain ⟨created, g, hnew, hmd⟩ := createFile_opens none hresolve hoe
  have hhn : created.tree.node handle = some (.file g) := by
    rw [hmd, update_self]
  refine ⟨((otherText ((h.contentAt handle).getD [])).bytes, ioFailure), ?_⟩
  intro hkp
  have hwr := hkp letter none true
  rw [Framed, writeFileIn_admitted (heditable.admitted (by decide)), tempSibling_concat] at hwr
  simp only [writeThenRename, writeThenRenameTraced, steadyFaults, hnew, Option.isSome_none,
    Bool.false_eq_true, if_false] at hwr
  generalize hlf : (otherText ((h.contentAt handle).getD [])).bytes = left at hwr
  have hdir : (created.store none handle left).tree.node dir = some .directory := by
    rw [store_node_of_ne hnA, hmd, update_of_ne hnA]
    exact htg.directory
  have haf : ((created.store none handle left).removeFile
      (dir ++ [tempName name pid])).contentAt handle = some left := by
    rw [contentAt_congr (removeFile_node_of_ne hdir hnT), Host.contentAt,
      store_node hhn, update_self]
  have hdf : some left ≠ h.contentAt handle := by
    intro heq
    have hot := otherText_ne ((h.contentAt handle).getD [])
    rw [hlf, ← heq] at hot
    exact hot rfl
  have hsame := htg.kept_content hwr (.inl hnT)
  rw [haf] at hsame
  exact hdf hsame

theorem Target.broken_of_stat (htm : h.tree.node (dir ++ [tempName name pid]) = none) :
    ¬ ∀ content expected force,
      Framed h pid { steadyFaults with later := fun _ _ => some ioFailure } root rid rel
        content expected force := by
  intro hkp
  have hwr := hkp (otherText f.bytes) none true
  have hwo := writeThenRename_wrote htg.directory htg.file tempName_ne
    { steadyFaults with later := fun _ _ => some ioFailure } (otherText f.bytes) htm
  rw [Framed, writeFileIn_admitted (heditable.admitted (otherText_length f.bytes)),
    tempSibling_concat] at hwr
  generalize writeThenRename h { steadyFaults with later := fun _ _ => some ioFailure }
    (dir ++ [tempName name pid]) (dir ++ [name]) (otherText f.bytes) = outcome
    at hwo hwr
  cases hwo with
  | failed e left fault only => cases fault
  | replaced after time tgt own only limit cwd =>
    dsimp only at hwr
    have hst : (statIn { after with refusal := fun _ _ => some ioFailure } root rid
        rel).result = .error (.unavailable "the root directory does not exist") := rfl
    have heq := hwr.failed _ hst top (dir ++ [name]) htg.resolved
    rw [contentAt_file tgt, contentAt_file htg.file] at heq
    exact otherText_ne f.bytes (Option.some.inj heq)

end

/-- The write keeps its frame, whatever call fails, exactly when the temporary name of
every file it is admitted to is free and no fault can strike the stat at the end, or is
taken by what is no file and cannot be opened for writing. -/
theorem write_kept_iff (h : Host) (pid : ℕ) (root : Path) (rootId relative : String)
    (statMayFail : Bool) :
    (∀ faults : WriteFaults, (statMayFail = false → faults.later = fun _ _ => none) →
      ∀ content expected force, WriteKept h root relative pid
        (writeFileIn h pid faults root rootId relative content expected force).1
        (writeFileIn h pid faults root rootId relative content expected force).2) ↔
    ∀ path, Editable h root relative path →
      (h.tree.node (tempSibling path "dsh-write" pid) = none ∧ statMayFail = false) ∨
        Blocked h (tempSibling path "dsh-write" pid) := by
  constructor
  · intro hkp path heditable
    obtain ⟨canonicalRoot, above, name, f, rfl, htarget⟩ := heditable.target
    rw [tempSibling_concat]
    cases htm : h.tree.node (above ++ [tempName name pid]) with
    | none =>
      cases statMayFail with
      | false => exact .inl ⟨rfl, rfl⟩
      | true =>
        exact absurd (hkp _ fun hfalse => by cases hfalse)
          (htarget.broken_of_stat heditable htm)
    | some n =>
      refine .inr ?_
      cases n with
      | directory => exact .inl htm
      | file g =>
        exact absurd (hkp _ fun _ => rfl) (htarget.broken_of_file heditable htm)
      | link link =>
        refine .inr ⟨⟨link, htm⟩, ?_⟩
        intro handle hresolve
        by_contra hoe
        obtain ⟨failure, hbr⟩ := htarget.broken_of_link heditable htm hresolve hoe
        exact hbr (hkp _ fun _ => rfl)
  · intro hcondition faults hlt content expected force
    cases hac : (admitWrite h root relative content expected force).result with
    | error e =>
      rw [writeFileIn_rejected hac]
      exact ⟨fun _ _ _ => rfl, fun _ _ _ _ => rfl, fun _ _ _ _ _ => rfl⟩
    | ok path =>
      have heditable := Editable.of_admitted hac
      obtain ⟨canonicalRoot, above, name, f, rfl, htarget⟩ := heditable.target
      have htm := hcondition _ heditable
      rw [tempSibling_concat] at htm
      rcases htm with ⟨hfree, hst⟩ | hblocked
      · exact htarget.kept_of_free hfree (hlt hst) hac
      · exact htarget.kept_of_blocked hblocked faults hac

end

/-- At the temporary name of `/srv/notes.txt` for process 7 stands a link to `/etc/motd`. -/
def plantedHost : Host :=
  { notesHost [0x63] with
    tree := Tree.ofList
      [(["srv"], .directory), (["srv", "notes.txt"], .file ⟨[0x63], some 5, true⟩),
        (["srv", ".notes.txt.dsh-write.7"], .link ⟨true, [.name "etc", .name "motd"]⟩),
        (["etc"], .directory), (["etc", "motd"], .file ⟨[0x62], some 5, true⟩)]
      (by decide)
    cwdDirectory := rfl }

def plantedWrite : Except FsError FsStatReport × Host :=
  writeFileIn plantedHost 7 steadyFaults ⟨true, [.name "srv"]⟩ "repo" "notes.txt" letter
    (some ⟨1, 5⟩) false

/-- An unforced write to `/srv/notes.txt` overwrites `/etc/motd`, replaces the target by the
link, and returns an error. -/
theorem file_outside_overwritten :
    resolveIn plantedHost ⟨true, [.name "srv"]⟩ "notes.txt" = .ok (["srv"], ["srv", "notes.txt"]) ∧
      plantedHost.contentAt ["etc", "motd"] = some [0x62] ∧
      plantedWrite.1 = .error (.malformed "the requested path escapes the root") ∧
      plantedWrite.2.contentAt ["etc", "motd"] = some [0x61] ∧
      plantedWrite.2.tree.node ["srv", "notes.txt"] =
        some (.link ⟨true, [.name "etc", .name "motd"]⟩) ∧
      ¬ WriteKept plantedHost ⟨true, [.name "srv"]⟩ "notes.txt" 7 plantedWrite.1
        plantedWrite.2 := by
  have hrt : plantedHost.canonicalize ⟨true, [.name "srv"]⟩ = .ok ["srv"] := by decide +kernel
  have hbf : plantedHost.tree.node ["etc", "motd"] =
      some (.file ⟨[0x62], some 5, true⟩) := by decide +kernel
  have haf : plantedWrite.2.contentAt ["etc", "motd"] = some [0x61] := by decide +kernel
  refine ⟨by decide +kernel, by decide +kernel, by decide +kernel, haf, by decide +kernel, ?_⟩
  intro hkp
  have heq := hkp.outside ["srv"] hrt ["etc", "motd"] (by decide)
  rw [contentAt_file heq] at haf
  cases haf

theorem stripBom_eq_self {bytes : List UInt8} :
    stripBom bytes = bytes ↔ ¬ byteOrderMark <+: bytes := by
  rw [stripBom]
  split_ifs with hbom
  · refine iff_of_false ?_ (not_not_intro hbom)
    obtain ⟨rest, rfl⟩ := hbom
    intro heq
    have hlen := congrArg length heq
    simp [byteOrderMark] at hlen
    omega
  · exact iff_of_true rfl hbom

/-- Where no call fails, a file that is read and saved unedited is replaced by what was
read, which leaves it as it was exactly when it has no byte order mark. -/
theorem unedited_save_iff (h : Host) (pid : ℕ) (faults : WriteFaults) (root : Path)
    (rootId relative : String) (canonicalRoot path : Location) (f : FsFile)
    (report : FsFileReport) (expected : Option WriteBaseline) (force : Bool)
    (hquiet : h.refusal = fun _ _ => none) (hstrike : faults.strike = false)
    (hlater : faults.later = fun _ _ => none)
    (hresolve : resolveIn h root relative = .ok (canonicalRoot, path))
    (hfile : h.tree.node path = some (.file f))
    (hfree : h.tree.node (tempSibling path "dsh-write" pid) = none)
    (hread : (readFileIn h root rootId relative).result = .ok report)
    (hwritable : report.readOnly = false) (hbase : ∀ base ∈ expected, base = f.stamp) :
    ∃ stat after, writeFileIn h pid faults root rootId relative report.content expected force =
          (.ok stat, after) ∧
        (after.contentAt path = some f.bytes ↔ ¬ byteOrderMark <+: f.bytes) := by
  obtain ⟨hreg, hro, htx⟩ := fileReport_writable (readFileIn_ok hfile hresolve hread)
  obtain ⟨hsz, hvl⟩ := hro.mp hwritable
  have hco := htx hwritable
  have hle : report.content.bytes.length ≤ maxEditableBytes := by
    rw [hco, stripBom]
    split_ifs
    · rw [length_drop]
      omega
    · exact hsz
  have hed := @fileEditability_text ⟨f.bytes, hvl⟩ f rfl hsz
  have hck : checkWrite report.content (some f) expected force = .ok () := by
    rw [checkWrite, if_neg (by omega)]
    cases expected with
    | none => simp [hreg, hed]
    | some base => simp [hreg, hed, hbase base rfl]
  have hacc := admitWrite_file hquiet hfile hresolve report.content expected force
  rw [hck] at hacc
  obtain ⟨above, name, rfl, htarget⟩ := target_of_file hresolve hfile
  rw [tempSibling_concat] at hfree
  obtain ⟨stat, after, hok⟩ := htarget.succeeds hfree hlater hacc hstrike
  obtain ⟨hcn, -⟩ := htarget.saved hfree hlater hacc hok
  refine ⟨stat, after, hok, ?_⟩
  rw [hcn, Option.some_inj, hco, stripBom_eq_self]

theorem unedited_save_letter :
    ∃ stat after, writeFileIn (notesHost [0x61]) 7 steadyFaults ⟨true, [.name "srv"]⟩ "repo"
        "notes.txt" letter (some ⟨1, 5⟩) false = (.ok stat, after) ∧
      after.contentAt ["srv", "notes.txt"] = some [0x61] := by
  obtain ⟨stat, after, hok, hkept⟩ := unedited_save_iff (notesHost [0x61]) 7 steadyFaults
    ⟨true, [.name "srv"]⟩ "repo" "notes.txt" ["srv"] ["srv", "notes.txt"] ⟨[0x61], some 5, true⟩
    ⟨1, "repo", "notes.txt", 1, .utf8, false, none, letter⟩ (some ⟨1, 5⟩) false rfl rfl rfl
    (by decide +kernel) (by decide +kernel) (by decide +kernel) (by decide +kernel) rfl
    (by simp; rfl)
  exact ⟨stat, after, hok, hkept.mpr (by decide)⟩

theorem mark_lost_by_unedited_save :
    let host := notesHost [0xEF, 0xBB, 0xBF, 0x61]
    let written := writeFileIn host 7 steadyFaults ⟨true, [.name "srv"]⟩ "repo" "notes.txt" letter
      (some ⟨4, 5⟩) false
    (readFileIn host ⟨true, [.name "srv"]⟩ "repo" "notes.txt").result =
        .ok ⟨1, "repo", "notes.txt", 4, .utf8Bom, false, none, letter⟩ ∧
      written.1 = .ok ⟨1, "repo", "notes.txt", 1, 0, true, none⟩ ∧
      written.2.contentAt ["srv", "notes.txt"] = some [0x61] := by
  decide +kernel

end DshDesktop.Shell
