import DshDesktop.Library.FileTree
import DshDesktop.Library.Traced
import DshDesktop.Library.Utf8
import Mathlib.Algebra.Order.Group.Nat
import Mathlib.Data.List.Sort

/-!
# The file manager

`file_manager.rs`: the relative path of a request is checked as a text, joined to the
canonical root, canonicalized and compared with the root; the system resolves the
canonical path anew at every access, which it may refuse. The path that `resolve_in`
returns is free of links, so that it is resolved to itself at every later access.
-/

namespace DshDesktop.Shell
open FileTree Utf8 Traced

def fsSchemaVersion : ℕ := 1
def maxDirEntries : ℕ := 2000
def maxEditableBytes : ℕ := 2 * 1024 * 1024

inductive FsError
  | malformed (reason : String)
  | unavailable (reason : String)
  | conflict
  | io (message : String)
  deriving DecidableEq

namespace FsError

def code : FsError → String
  | malformed _ => "MALFORMED_MESSAGE"
  | unavailable _ => "UNAVAILABLE"
  | conflict => "CONFLICT"
  | io _ => "UNAVAILABLE"

def message : FsError → String
  | malformed reason => reason
  | unavailable reason => reason
  | conflict => "the file changed on disk since it was opened"
  | io message => message

end FsError

structure FsFile where
  bytes : List UInt8
  modified : Option ℕ
  regular : Bool
  deriving DecidableEq

def modifiedMillis (f : FsFile) : ℕ := (f.modified.map (· % 2 ^ 64)).getD 0

structure IoError where
  notFound : Bool
  text : String
  deriving DecidableEq

inductive Access
  | canonicalize
  | metadata
  | openFile
  | list
  | entry
  | entryType
  | entryMetadata

/-- The file system, with what the library leaves open: the names of a listing, the size of what
is no file, refusals, error texts, lower case and the preview of bytes that are no text. -/
structure Host where
  tree : FileTree.Tree FsFile
  limit : ℕ
  cwd : Location
  cwdDirectory : tree.node cwd = some .directory
  order : Location → List String
  extent : Location → ℕ
  refusal : Access → Path → Option IoError
  describe : ResolveError → String
  isDirectory : IoError
  lowercase : String → String
  lossy : List UInt8 → Text

structure Metadata where
  isDir : Bool
  isFile : Bool
  size : ℕ
  modifiedUnixMs : ℕ

def locationPath (loc : Location) : Path :=
  ⟨true, if loc = [] then [.here] else loc.map .name⟩

namespace Host

variable (h : Host)

def find (access : Access) (path : Path) : Except IoError Location :=
  match h.refusal access path with
  | some e => .error e
  | none =>
    match resolve h.tree false h.limit h.cwd path with
    | .error e => .error ⟨decide (e = .missing), h.describe e⟩
    | .ok loc => .ok loc

def canonicalize (path : Path) : Except IoError Location := h.find .canonicalize path

def metadataAt (loc : Location) : Metadata :=
  match h.tree.node loc with
  | some (.file f) => ⟨false, f.regular, f.bytes.length, modifiedMillis f⟩
  | some .directory => ⟨true, false, h.extent loc, 0⟩
  | _ => ⟨false, false, h.extent loc, 0⟩

def bytesAt (loc : Location) : List UInt8 :=
  match h.tree.node loc with
  | some (.file f) => f.bytes
  | _ => []

def names (loc : Location) : List String :=
  (h.order loc).filter fun name => (h.tree.node (loc ++ [name])).isSome

def entryOf (loc : Location) : Except IoError Location :=
  match loc.getLast? with
  | none => .error h.isDirectory
  | some name =>
    match resolve h.tree false h.limit h.cwd (locationPath loc.dropLast) with
    | .error e => .error ⟨decide (e = .missing), h.describe e⟩
    | .ok parent => .ok (parent ++ [name])

def reach (access : Access) (path : Path) (message : String → String) :
    Traced FsError Location Location :=
  match h.find access path with
  | .error e => .fail (.io (message e.text))
  | .ok loc => do
    touch loc
    return loc

def metadata (loc : Location) : Traced FsError Location Metadata := do
  let reached ← h.reach .metadata (locationPath loc) id
  return h.metadataAt reached

def read (loc : Location) (message : String → String) (limit : ℕ) :
    Traced FsError Location (List UInt8) := do
  let reached ← h.reach .openFile (locationPath loc) message
  return (h.bytesAt reached).take limit

def readPrefix (loc : Location) (limit : ℕ) : Traced FsError Location (List UInt8) :=
  h.read loc id limit

end Host

def acceptSegments : List (List Char) → List String → Except FsError (List String)
  | [], path => .ok path
  | segment :: rest, path =>
    if segment = [] ∨ segment = ['.'] then acceptSegments rest path
    else if segment = ['.', '.'] then .error (.malformed "parent segments are not accepted")
    else if '\\' ∈ segment ∨ ':' ∈ segment then
      .error (.malformed "the path component is not accepted")
    -- the first component of the segment is a root
    else if segment.head? = some '/' then .error (.malformed "the path component is not accepted")
    else acceptSegments rest (path ++ [String.ofList segment])

def normalizeSeparators (relative : String) : List Char :=
  relative.toList.map fun c => if c = '\\' then '/' else c

def validateRelative (relative : String) : Except FsError (List String) :=
  if relative = "" ∨ relative = "." then .ok []
  else if 4096 < relative.utf8ByteSize then .error (.malformed "the path is too long")
  else if (normalizeSeparators relative).head? = some '/' then
    .error (.malformed "absolute paths are not accepted")
  else if ':' ∈ normalizeSeparators relative ∨ ['/', '/'] <+: normalizeSeparators relative then
    .error (.malformed "absolute, UNC and device paths are not accepted")
  else acceptSegments (splitAt '/' (normalizeSeparators relative)) []

/-- `PathBuf::join`; an empty path adds a slash. -/
def joined (root : Location) (names : List String) : Path :=
  ⟨true, root.map .name ++ if names = [] then [.here] else names.map .name⟩

variable (h : Host)

def resolveIn (root : Path) (relative : String) : Except FsError (Location × Location) :=
  match h.canonicalize root with
  | .error _ => .error (.unavailable "the root directory does not exist")
  | .ok canonicalRoot =>
    match validateRelative relative with
    | .error e => .error e
    | .ok names =>
      match h.canonicalize (joined canonicalRoot names) with
      | .error e =>
        .error (if e.notFound then .unavailable "the path does not exist"
          else .io ("cannot resolve the path: " ++ e.text))
      | .ok canonical =>
        if canonicalRoot <+: canonical then .ok (canonicalRoot, canonical)
        else .error (.malformed "the requested path escapes the root")

inductive EntryKind
  | link
  | dir
  | file
  deriving DecidableEq

structure FsEntryReport where
  name : String
  kind : EntryKind
  size : ℕ
  hidden : Bool

structure FsDirReport where
  schemaVersion : ℕ
  rootId : String
  path : String
  entries : List FsEntryReport
  truncated : Bool

/-- `relative_path_string`, which does not look at the absolute path. -/
def relativePathString (relative : String) : String :=
  let normalized := normalizeSeparators relative
  if normalized = [] ∨ normalized = ['.'] then "."
  else String.ofList (normalized.dropWhile (· == '/'))

def entryKind (loc : Location) : EntryKind :=
  match h.tree.node loc with
  | some (.link _) => .link
  | some .directory => .dir
  | _ => .file

def refuse (access : Access) (loc : Location) : Traced FsError Location Unit :=
  match h.refusal access (locationPath loc) with
  | some e => .fail (.io e.text)
  | none => pure ()

def entryReport (loc : Location) (name : String) (hidden : Bool) :
    Traced FsError Location FsEntryReport := do
  refuse h .entryType loc
  touch loc
  let size := if (h.refusal .entryMetadata (locationPath loc)).isSome then 0
    else (h.metadataAt loc).size
  return ⟨name, entryKind h loc, size, hidden⟩

def listEntries (h : Host) (directory : Location) (showHidden : Bool) :
    List String → List FsEntryReport → Traced FsError Location (List FsEntryReport × Bool)
  | [], entries => pure (entries, false)
  | name :: rest, entries => do
    refuse h .entry (directory ++ [name])
    let hidden := name.toList.head? == some '.'
    if hidden && !showHidden then listEntries h directory showHidden rest entries
    else if maxDirEntries ≤ entries.length then return (entries, true)
    else
      let entry ← entryReport h (directory ++ [name]) name hidden
      listEntries h directory showHidden rest (entries ++ [entry])

def entryLe (lowercase : String → String) (left right : FsEntryReport) : Bool :=
  if (left.kind == .dir) != (right.kind == .dir) then left.kind == .dir
  else if lowercase left.name ≠ lowercase right.name then
    decide (lowercase left.name < lowercase right.name)
  else decide (left.name ≤ right.name)

def readDirIn (root : Path) (rootId relative : String) (showHidden : Bool) :
    Traced FsError Location FsDirReport := do
  let (_, directory) ← ofExcept (resolveIn h root relative)
  let metadata ← h.metadata directory
  if !metadata.isDir then fail (.unavailable "the path is not a directory")
  else
    let reached ← h.reach .list (locationPath directory) id
    let (entries, truncated) ← listEntries h reached showHidden (h.names reached) []
    return ⟨fsSchemaVersion, rootId, relativePathString relative,
      entries.mergeSort (entryLe h.lowercase), truncated⟩

inductive Encoding
  | utf8
  | utf8Bom
  | binary
  deriving DecidableEq

structure FsFileReport where
  schemaVersion : ℕ
  rootId : String
  path : String
  size : ℕ
  encoding : Encoding
  readOnly : Bool
  reason : Option String
  content : Text
  deriving DecidableEq

def decodeFile (lossy : List UInt8 → Text) (bytes : List UInt8) : Encoding × Text :=
  if hvalid : scan [] (stripBom bytes) = .valid then
    (if byteOrderMark <+: bytes then .utf8Bom else .utf8, ⟨stripBom bytes, hvalid⟩)
  else (.binary, lossy (stripBom bytes))

def readBytes (path : Location) (size : ℕ) : Traced FsError Location (List UInt8) :=
  if maxEditableBytes < size then h.readPrefix path maxEditableBytes
  else h.read path ("cannot read the file: " ++ ·) size

def readFileIn (root : Path) (rootId relative : String) :
    Traced FsError Location FsFileReport := do
  let (_, path) ← ofExcept (resolveIn h root relative)
  let metadata ← h.metadata path
  if metadata.isDir then fail (.unavailable "the path is a directory")
  else if !metadata.isFile then fail (.unavailable "the path is not a regular file")
  else
    let bytes ← readBytes h path metadata.size
    let oversize := decide (maxEditableBytes < metadata.size)
    let (encoding, text) := decodeFile h.lossy bytes
    let reason :=
      if oversize then some "the file is larger than the 2 MiB editing limit"
      else if encoding = .binary then some "the file is not valid UTF-8"
      else none
    return ⟨fsSchemaVersion, rootId, relativePathString relative, metadata.size, encoding,
      oversize || encoding == .binary, reason, text⟩

structure FsStatReport where
  schemaVersion : ℕ
  rootId : String
  path : String
  size : ℕ
  modifiedUnixMs : ℕ
  editable : Bool
  reason : Option String
  deriving DecidableEq

def editability (path : Location) (size : ℕ) : Traced FsError Location (Bool × Option String) :=
  if maxEditableBytes < size then
    pure (false, some "the file is larger than the 2 MiB editing limit")
  else do
    let probe ← h.readPrefix path (8 * 1024)
    match scan [] (stripBom probe) with
    | .valid => return (true, none)
    | .truncated => return (true, none)
    | .invalid => return (false, some "the file is not valid UTF-8")

def statIn (root : Path) (rootId relative : String) :
    Traced FsError Location FsStatReport := do
  let (_, path) ← ofExcept (resolveIn h root relative)
  let metadata ← h.metadata path
  if !metadata.isFile then fail (.unavailable "the path is not a regular file")
  else
    let (editable, reason) ← editability h path metadata.size
    return ⟨fsSchemaVersion, rootId, relativePathString relative, metadata.size,
      metadata.modifiedUnixMs, editable, reason⟩

structure WriteBaseline where
  size : ℕ
  modifiedUnixMs : ℕ
  deriving DecidableEq

def admitWrite (root : Path) (relative : String) (content : Text)
    (expected : Option WriteBaseline) (force : Bool) : Traced FsError Location Location :=
  if maxEditableBytes < content.bytes.length then
    fail (.malformed "the content is larger than the 2 MiB editing limit")
  else do
    let (_, path) ← ofExcept (resolveIn h root relative)
    let metadata ← h.metadata path
    if !metadata.isFile then fail (.unavailable "the path is not a regular file")
    else
      let (editable, reason) ← editability h path metadata.size
      if !editable then
        fail
          (.malformed (reason.getD "the file is not editable through this surface"))
      else if !force && expected.any (· ≠ ⟨metadata.size, metadata.modifiedUnixMs⟩) then
        fail .conflict
      else return path

open List
variable {path reached above entry base dir : Location} {accs : Access}
  {want : Option WriteBaseline} {cont : Text}
  {force : Bool}

/-- The system reads the text as one name, and so does a system with backslashes and
drives. -/
structure Normal (name : String) : Prop where
  segment : Segment.ofText name.toList = .name name
  slash : '/' ∉ name.toList
  backslash : '\\' ∉ name.toList
  drive : ':' ∉ name.toList

theorem acceptSegments_normal {segs : List (List Char)} {path names : List String}
    (hslash : ∀ seg ∈ segs, '/' ∉ seg) (hpt : ∀ name ∈ path, Normal name)
    (h : acceptSegments segs path = .ok names) : ∀ name ∈ names, Normal name := by
  induction segs generalizing path with
  | nil =>
    cases h
    exact hpt
  | cons seg rest ih =>
    have hrs := fun s hs => hslash s (mem_cons_of_mem seg hs)
    rw [acceptSegments] at h
    split_ifs at h with hst hup hcm hrt
    · exact ih hrs hpt h
    refine ih hrs ?_ h
    intro name hnm
    rcases mem_append.mp hnm with hnm | hnm
    · exact hpt name hnm
    rw [mem_singleton] at hnm
    subst hnm
    rw [not_or] at hcm
    constructor
    · rw [String.toList_ofList, Segment.ofText, if_neg hst, if_neg hup]
    · rw [String.toList_ofList]
      exact hslash seg mem_cons_self
    · rw [String.toList_ofList]
      exact hcm.1
    · rw [String.toList_ofList]
      exact hcm.2

theorem validateRelative_normal {relative : String} {names : List String}
    (h : validateRelative relative = .ok names) : ∀ name ∈ names, Normal name := by
  rw [validateRelative] at h
  split_ifs at h
  · cases h
    exact fun _ hnm => absurd hnm not_mem_nil
  · exact acceptSegments_normal (fun seg hsg => (mem_splitAt hsg).1)
      (fun _ hnm => absurd hnm not_mem_nil) h

variable {h : Host} {root : Path} {relative rel : String} {loc : Location}

theorem find_ok {path : Path} (hfn : h.find accs path = .ok loc) :
    resolve h.tree false h.limit h.cwd path = .ok loc := by
  rw [Host.find] at hfn
  cases href : h.refusal accs path with
  | some e => simp [href] at hfn
  | none =>
    cases hres : resolve h.tree false h.limit h.cwd path with
    | error e => simp [href, hres] at hfn
    | ok loc' =>
      simp only [href, hres] at hfn
      cases hfn
      rfl

theorem find_real {path : Path} (hfn : h.find accs path = .ok loc) : h.tree.Real loc :=
  resolve_real h.cwdDirectory (find_ok hfn)

theorem resolve_locationPath (t : FileTree.Tree FsFile) (create : Bool) (limit : ℕ) (cwd : Location)
    (hreal : t.Real loc) : resolve t create limit cwd (locationPath loc) = .ok loc := by
  by_cases hnil : loc = []
  · subst hnil
    have hst : walk t create limit [] [.here] = .ok [] := by
      cases limit <;> exact walkWith_here t.root
    simpa [resolve, locationPath] using hst
  · have hwl : walk t create limit [] (loc.map .name) = .ok loc := walk_names limit hreal
    rw [resolve, locationPath, if_neg hnil]
    simpa [hnil] using hwl

theorem find_locationPath (hreal : h.tree.Real loc)
    (hfn : h.find accs (locationPath loc) = .ok reached) : reached = loc := by
  have hres := find_ok hfn
  rw [resolve_locationPath h.tree false h.limit h.cwd hreal] at hres
  cases hres
  rfl

theorem entryOf_concat (hdir : h.tree.node above = some .directory) (name : String) :
    h.entryOf (above ++ [name]) = .ok (above ++ [name]) := by
  rw [Host.entryOf, getLast?_concat, dropLast_concat]
  simp [resolve_locationPath h.tree false h.limit h.cwd (Tree.real_directory hdir)]

theorem resolveIn_ok (hres : resolveIn h root rel = .ok (base, path)) :
    h.canonicalize root = .ok base ∧ base <+: path ∧ h.tree.Real path ∧
      ∃ names, validateRelative rel = .ok names ∧
        h.canonicalize (joined base names) = .ok path := by
  rw [resolveIn] at hres
  cases hrt : h.canonicalize root with
  | error e => simp [hrt] at hres
  | ok canonicalRoot' =>
    simp only [hrt] at hres
    cases hnm : validateRelative rel with
    | error e => simp [hnm] at hres
    | ok names =>
      simp only [hnm] at hres
      cases hpt : h.canonicalize (joined canonicalRoot' names) with
      | error e => simp [hpt] at hres
      | ok path' =>
        simp only [hpt] at hres
        split_ifs at hres with hin
        cases hres
        exact ⟨rfl, hin, find_real hpt, names, rfl, hpt⟩

section
variable (hok : (admitWrite h root rel cont want force).result = .ok path)
include hok

theorem admitWrite_ok : cont.bytes.length ≤ maxEditableBytes ∧
      ∃ canonicalRoot metadata rsn, resolveIn h root rel = .ok (canonicalRoot, path) ∧
        (h.metadata path).result = .ok metadata ∧ metadata.isFile ∧
        (editability h path metadata.size).result = .ok (true, rsn) ∧
        (force ∨ ∀ bl ∈ want, bl = ⟨metadata.size, metadata.modifiedUnixMs⟩) := by
  rw [admitWrite] at hok
  by_cases hsz : maxEditableBytes < cont.bytes.length
  · rw [if_pos hsz] at hok
    cases hok
  rw [if_neg hsz] at hok
  obtain ⟨⟨canonicalRoot, rslv⟩, hres, hok⟩ := bind_result_ok hok
  obtain ⟨metadata, hmt, hok⟩ := bind_result_ok hok
  by_cases hfile : (!metadata.isFile)
  · rw [if_pos hfile] at hok
    cases hok
  rw [if_neg hfile] at hok
  obtain ⟨⟨editable, rsn⟩, heditable, hok⟩ := bind_result_ok hok
  dsimp only at heditable hok
  split_ifs at hok with hed hconf
  · cases hok
  · cases hok
  cases hok
  rw [Bool.not_eq_true', Bool.not_eq_false] at hfile hed
  subst hed
  refine ⟨by omega, canonicalRoot, metadata, rsn, hres, hmt, hfile, heditable, ?_⟩
  cases force with
  | true => exact .inl rfl
  | false =>
    refine .inr ?_
    intro bl hbs
    subst hbs
    simpa using hconf

end

section
variable {P : Location → Prop}

section
variable (hreal : h.tree.Real loc)
include hreal

theorem reach_within (hloc : P loc) (accs : Access) (message : String → String) :
    (h.reach accs (locationPath loc) message).Within P := by
  rw [Host.reach]
  cases hfn : h.find accs (locationPath loc) with
  | error e => exact within_fail _
  | ok reached =>
    rw [find_locationPath hreal hfn]
    exact (within_touch hloc).bind fun _ _ => within_pure _

theorem reach_ok {message : String → String}
    (hok : (h.reach accs (locationPath loc) message).result = .ok reached) : reached = loc := by
  rw [Host.reach] at hok
  cases hfn : h.find accs (locationPath loc) with
  | error e => simp [hfn] at hok
  | ok reached' =>
    simp only [hfn, bind_result, touch_result, Except.bind, pure_result, Except.ok.injEq] at hok
    exact hok.symm.trans (find_locationPath hreal hfn)

variable (hloc : P loc)
include hloc

theorem metadata_within : (h.metadata loc).Within P :=
  (reach_within hreal hloc .metadata id).bind fun _ _ => within_pure _

theorem read_within (message : String → String) (limit : ℕ) : (h.read loc message limit).Within P :=
  (reach_within hreal hloc .openFile message).bind fun _ _ => within_pure _

theorem readBytes_within (size : ℕ) : (readBytes h loc size).Within P := by
  rw [readBytes]
  split_ifs
  · exact read_within hreal hloc _ _
  · exact read_within hreal hloc _ _

theorem editability_within (size : ℕ) : (editability h loc size).Within P := by
  rw [editability]
  split_ifs
  · exact within_pure _
  · refine (read_within hreal hloc id _).bind ?_
    intro probe _
    cases scan [] (stripBom probe) <;> exact within_pure _

end

theorem refuse_within : (refuse h accs entry).Within P := by
  rw [refuse]
  cases h.refusal accs (locationPath entry) with
  | none => exact within_pure _
  | some e => exact within_fail _

theorem listEntries_within (hen : ∀ name, P (dir ++ [name])) (showHidden : Bool)
    (names : List String) (ents : List FsEntryReport) :
    (listEntries h dir showHidden names ents).Within P := by
  induction names generalizing ents with
  | nil => exact within_pure _
  | cons name rest ih =>
    refine refuse_within.bind ?_
    intro _ _
    dsimp only
    split_ifs
    · exact ih ents
    · exact within_pure _
    · refine Traced.Within.bind ?_ fun entry _ => ih _
      refine refuse_within.bind ?_
      intro _ _
      exact (within_touch (hen name)).bind fun _ _ => within_pure _

end

section
variable {P : Location → Prop} {rid : String}

  (hP : ∀ canonicalRoot path, resolveIn h root rel = .ok (canonicalRoot, path) →
    h.tree.Real path ∧ P path ∧ ∀ name, P (path ++ [name]))
include hP

theorem readDirIn_within (showHidden : Bool) : (readDirIn h root rid rel showHidden).Within P := by
  refine (within_ofExcept _).bind ?_
  intro rslv hres
  obtain ⟨hreal, hpt, hen⟩ := hP rslv.1 rslv.2 hres
  refine (metadata_within hreal hpt).bind ?_
  intro metadata _
  split_ifs
  · exact within_fail _
  · refine (reach_within hreal hpt .list id).bind ?_
    intro reached hreach
    rw [reach_ok hreal hreach]
    exact (listEntries_within hen showHidden _ []).bind fun _ _ => within_pure _

theorem readFileIn_within : (readFileIn h root rid rel).Within P := by
  refine (within_ofExcept _).bind ?_
  intro rslv hres
  obtain ⟨hreal, hpt, -⟩ := hP rslv.1 rslv.2 hres
  refine (metadata_within hreal hpt).bind ?_
  intro metadata _
  split_ifs
  · exact within_fail _
  · exact within_fail _
  · exact (readBytes_within hreal hpt _).bind fun _ _ => within_pure _

theorem statIn_within : (statIn h root rid rel).Within P := by
  refine (within_ofExcept _).bind ?_
  intro rslv hres
  obtain ⟨hreal, hpt, -⟩ := hP rslv.1 rslv.2 hres
  refine (metadata_within hreal hpt).bind ?_
  intro metadata _
  split_ifs
  · exact within_fail _
  · exact (editability_within hreal hpt _).bind fun _ _ => within_pure _

theorem admitWrite_within (cont : Text) (want : Option WriteBaseline) (force : Bool) :
    (admitWrite h root rel cont want force).Within P := by
  rw [admitWrite]
  split_ifs
  · exact within_fail _
  refine (within_ofExcept _).bind ?_
  intro rslv hres
  obtain ⟨hreal, hpt, -⟩ := hP rslv.1 rslv.2 hres
  refine (metadata_within hreal hpt).bind ?_
  intro metadata _
  by_cases hfile : (!metadata.isFile)
  · rw [if_pos hfile]
    exact within_fail _
  rw [if_neg hfile]
  refine (editability_within hreal hpt _).bind ?_
  intro decision _
  dsimp only
  split_ifs
  · exact within_fail _
  · exact within_fail _
  · exact within_pure _

end

end DshDesktop.Shell
