import DshDesktop.Shell.FileManager
import Mathlib.Data.String.Basic

/-!
# What the file manager says of one file

The answers to a read, to a stat and to the checks of a write as functions of the file at
the resolved path. Where the system refuses nothing, the requests give these answers.
-/

namespace DshDesktop.Shell
open List String
open FileTree Utf8 Traced

def FsFile.stamp (f : FsFile) : WriteBaseline := ⟨f.bytes.length, modifiedMillis f⟩

def fileEditability (f : FsFile) : Bool × Option String :=
  if maxEditableBytes < f.bytes.length then
    (false, some "the file is larger than the 2 MiB editing limit")
  else
    match scan [] (stripBom (f.bytes.take (8 * 1024))) with
    | .invalid => (false, some "the file is not valid UTF-8")
    | _ => (true, none)

def fileStat (rootId relative : String) (f : FsFile) : Except FsError FsStatReport :=
  if !f.regular then .error (.unavailable "the path is not a regular file")
  else .ok ⟨fsSchemaVersion, rootId, relativePathString relative, f.bytes.length,
    modifiedMillis f, (fileEditability f).1, (fileEditability f).2⟩

def fileReport (lossy : List UInt8 → Text) (rootId relative : String) (f : FsFile) :
    Except FsError FsFileReport :=
  if !f.regular then .error (.unavailable "the path is not a regular file")
  else
    let oversize := decide (maxEditableBytes < f.bytes.length)
    let decoded := decodeFile lossy (f.bytes.take maxEditableBytes)
    .ok ⟨fsSchemaVersion, rootId, relativePathString relative, f.bytes.length, decoded.1,
      oversize || decoded.1 == .binary,
      if oversize then some "the file is larger than the 2 MiB editing limit"
      else if decoded.1 = .binary then some "the file is not valid UTF-8"
      else none,
      decoded.2⟩

def checkWrite (content : Text) (file : Option FsFile) (expected : Option WriteBaseline)
    (force : Bool) : Except FsError Unit :=
  if maxEditableBytes < content.bytes.length then
    .error (.malformed "the content is larger than the 2 MiB editing limit")
  else
    match file with
    | none => .error (.unavailable "the path does not exist")
    | some f =>
      if !f.regular then .error (.unavailable "the path is not a regular file")
      else if !(fileEditability f).1 then
        .error (.malformed
          ((fileEditability f).2.getD "the file is not editable through this surface"))
      else if !force && expected.any (· ≠ f.stamp) then .error .conflict
      else .ok ()

def Comparable (content : Text) (file : Option FsFile) : Prop :=
  content.bytes.length ≤ maxEditableBytes ∧
    ∃ f, file = some f ∧ f.regular = true ∧ (fileEditability f).1 = true

variable {content : Text} {f : FsFile}

theorem checkWrite_conflict_iff {file : Option FsFile} {base : WriteBaseline} :
    checkWrite content file (some base) false = .error .conflict ↔
      Comparable content file ∧ ∀ f, file = some f → f.stamp ≠ base := by
  unfold checkWrite Comparable
  by_cases hsz : maxEditableBytes < content.bytes.length
  · rw [if_pos hsz]
    simp only [Except.error.injEq, reduceCtorEq, false_iff, not_and]
    intro hcm
    omega
  rw [if_neg hsz]
  cases file with
  | none => simp
  | some f =>
    dsimp only
    by_cases hreg : f.regular
    · by_cases hed : (fileEditability f).1
      · by_cases heq : base = f.stamp
        · simp [hreg, hed, heq]
        have hconf : (!false && (some base).any (· ≠ f.stamp)) := by
          simp [heq]
        rw [if_neg (by simp [hreg]), if_neg (by simp [hed]), if_pos hconf]
        refine ⟨fun _ => ⟨⟨by omega, f, rfl, hreg, hed⟩, ?_⟩, fun _ => rfl⟩
        intro g hg
        cases hg
        exact Ne.symm heq
      · simp [hreg, hed]
    · simp [hreg]

theorem fileEditability_text (hby : f.bytes = content.bytes)
    (hsz : content.bytes.length ≤ maxEditableBytes) : fileEditability f = (true, none) := by
  have hscan := scan_stripBom_take content (8 * 1024)
  rw [fileEditability, hby, if_neg (by omega)]
  cases hres : scan [] (stripBom (content.bytes.take (8 * 1024))) with
  | invalid => exact absurd hres hscan
  | valid | truncated => rfl

theorem checkWrite_saved {saved : Text} (hreg : f.regular) (hby : f.bytes = saved.bytes)
    (hsv : saved.bytes.length ≤ maxEditableBytes)
    (hsz : content.bytes.length ≤ maxEditableBytes) (force : Bool) :
    checkWrite content (some f) (some f.stamp) force = .ok () := by
  have hed := fileEditability_text hby hsv
  rw [checkWrite, if_neg (by omega)]
  simp [hreg, hed]

section
variable {h : Host} {root : Path} {rootId relative rel : String} {loc : Location}

theorem reach_quiet {accs : Access} (hquiet : h.refusal = fun _ _ => none) (hreal : h.tree.Real loc)
    (msg : String → String) :
    (h.reach accs (locationPath loc) msg).result = .ok loc := by
  have hfn : h.find accs (locationPath loc) = .ok loc := by
    rw [Host.find, hquiet, resolve_locationPath h.tree false h.limit h.cwd hreal]
  rw [Host.reach, hfn]
  rfl

section
variable {base path : Location} (hfile : h.tree.node path = some (.file f))
include hfile

theorem metadata_ok {found : Metadata} (hok : (h.metadata path).result = .ok found) :
    found = ⟨false, f.regular, f.bytes.length, modifiedMillis f⟩ := by
  obtain ⟨reached, hrc, hpr⟩ := bind_result_ok hok
  rw [reach_ok ⟨_, hfile, rfl⟩ hrc] at hpr
  cases hpr
  rw [Host.metadataAt, hfile]

theorem read_ok {msg : String → String} {limit : ℕ} {bytes : List UInt8}
    (hok : (h.read path msg limit).result = .ok bytes) : bytes = f.bytes.take limit := by
  obtain ⟨reached, hrc, hpr⟩ := bind_result_ok hok
  rw [reach_ok ⟨_, hfile, rfl⟩ hrc] at hpr
  cases hpr
  rw [Host.bytesAt, hfile]

theorem editability_ok {answer : Bool × Option String}
    (hok : (editability h path f.bytes.length).result = .ok answer) :
    answer = fileEditability f := by
  rw [editability] at hok
  rw [fileEditability]
  split_ifs at hok ⊢
  · cases hok
    rfl
  obtain ⟨probe, hpr, hok⟩ := bind_result_ok hok
  rw [read_ok hfile hpr] at hok
  cases hsc : scan [] (stripBom (f.bytes.take (8 * 1024)))
  all_goals
    rw [hsc] at hok
    cases hok
    rfl

theorem readBytes_ok {bytes : List UInt8}
    (hok : (readBytes h path f.bytes.length).result = .ok bytes) :
    bytes = f.bytes.take maxEditableBytes := by
  rw [readBytes] at hok
  split_ifs at hok with hsz
  · exact read_ok hfile hok
  · rw [read_ok hfile hok, take_length, take_of_length_le (by omega)]

variable (hres : resolveIn h root rel = .ok (base, path))
include hres

theorem statIn_ok {stat : FsStatReport} (hok : (statIn h root rootId rel).result = .ok stat) :
    fileStat rootId rel f = .ok stat := by
  obtain ⟨_, hrs, hok⟩ := bind_result_ok hok
  rw [ofExcept_result, hres] at hrs
  cases hrs
  obtain ⟨found, hmt, hok⟩ := bind_result_ok hok
  rw [metadata_ok hfile hmt] at hok
  rw [fileStat]
  split_ifs at hok ⊢
  · cases hok
  · obtain ⟨answer, han, hok⟩ := bind_result_ok hok
    rw [editability_ok hfile han] at hok
    exact hok

theorem readFileIn_ok {report : FsFileReport}
    (hok : (readFileIn h root rootId rel).result = .ok report) :
    fileReport h.lossy rootId rel f = .ok report := by
  obtain ⟨_, hrs, hok⟩ := bind_result_ok hok
  rw [ofExcept_result, hres] at hrs
  cases hrs
  obtain ⟨found, hmt, hok⟩ := bind_result_ok hok
  rw [metadata_ok hfile hmt, if_neg Bool.false_ne_true] at hok
  rw [fileReport]
  split_ifs at hok ⊢
  · cases hok
  · obtain ⟨bytes, hby, hok⟩ := bind_result_ok hok
    rw [readBytes_ok hfile hby] at hok
    exact hok

end

theorem fileReport_writable {lossy : List UInt8 → Text} {report : FsFileReport}
    (hok : fileReport lossy rootId rel f = .ok report) :
    f.regular ∧ (report.readOnly = false ↔
      f.bytes.length ≤ maxEditableBytes ∧ scan [] f.bytes = .valid) ∧
      (report.readOnly = false → report.content.bytes = stripBom f.bytes) := by
  rw [fileReport] at hok
  split_ifs at hok with hreg
  cases hok
  rw [Bool.not_eq_true, Bool.not_eq_false'] at hreg
  rw [Bool.or_eq_false_iff, decide_eq_false_iff_not, Nat.not_lt]
  refine ⟨hreg, and_congr_right fun hsz => ?_, ?_⟩
  · rw [take_of_length_le hsz, decodeFile, ← scan_stripBom f.bytes]
    split_ifs <;> simp [*]
  · rintro ⟨hsz, hbn⟩
    rw [take_of_length_le hsz, decodeFile] at hbn ⊢
    split_ifs at hbn ⊢
    all_goals first | rfl | cases hbn

/-- Where both give an answer, they differ exactly on a file within the limit that is no
text but does not show it in its first 8 KiB. -/
theorem editability_agrees_iff {canonicalRoot path : Location} {stat : FsStatReport}
    {report : FsFileReport} (hresolve : resolveIn h root relative = .ok (canonicalRoot, path))
    (hfile : h.tree.node path = some (.file f))
    (hstat : (statIn h root rootId relative).result = .ok stat)
    (hread : (readFileIn h root rootId relative).result = .ok report) :
    (stat.editable = true ↔ report.readOnly = false) ↔
      (f.bytes.length ≤ maxEditableBytes → scan [] (f.bytes.take (8 * 1024)) ≠ .invalid →
        scan [] f.bytes = .valid) := by
  obtain ⟨hreg, hro, -⟩ := fileReport_writable (readFileIn_ok hfile hresolve hread)
  have hst := statIn_ok hfile hresolve hstat
  have hed : stat.editable = (fileEditability f).1 := by
    rw [fileStat, if_neg (by simp [hreg])] at hst
    cases hst
    rfl
  rw [hed, hro, fileEditability, scan_stripBom]
  split_ifs with hsz
  · simp [hsz]
  rw [and_iff_right (Nat.not_lt.mp hsz), imp_iff_right (Nat.not_lt.mp hsz)]
  have hpb : scan [] f.bytes = .valid → scan [] (f.bytes.take (8 * 1024)) ≠ .invalid := by
    intro hvl
    rw [← take_append_drop (8 * 1024) f.bytes] at hvl
    exact scan_append hvl
  cases hsc : scan [] (f.bytes.take (8 * 1024)) with
  | invalid => simpa [hsc] using hpb
  | valid | truncated => simp

def notesHost (bytes : List UInt8) : Host where
  tree := Tree.ofList
    [(["srv"], .directory), (["srv", "notes.txt"], .file ⟨bytes, some 5, true⟩)] rfl
  limit := 40
  cwd := []
  cwdDirectory := rfl
  order := fun _ => []
  extent := fun _ => 4096
  refusal := fun _ _ => none
  describe := fun _ => "No such file or directory (os error 2)"
  isDirectory := ⟨false, "Is a directory (os error 21)"⟩
  lowercase := id
  lossy := fun _ => Text.empty

theorem editability_agrees_letter : ∃ stat report,
    (statIn (notesHost [0x61]) ⟨true, [.name "srv"]⟩ "repo" "notes.txt").result = .ok stat ∧
      (readFileIn (notesHost [0x61]) ⟨true, [.name "srv"]⟩ "repo" "notes.txt").result = .ok report ∧
      (stat.editable = true ↔ report.readOnly = false) := by
  have hstat : (statIn (notesHost [0x61]) ⟨true, [.name "srv"]⟩ "repo" "notes.txt").result =
      .ok ⟨1, "repo", "notes.txt", 1, 5, true, none⟩ := by decide +kernel
  have hread : (readFileIn (notesHost [0x61]) ⟨true, [.name "srv"]⟩ "repo" "notes.txt").result =
      .ok ⟨1, "repo", "notes.txt", 1, .utf8, false, none, ⟨[0x61], rfl⟩⟩ := by decide +kernel
  exact ⟨_, _, hstat, hread, (@editability_agrees_iff ⟨[0x61], some 5, true⟩ _ _ _ _ ["srv"]
    ["srv", "notes.txt"] _ _ (by decide +kernel) (by decide +kernel) hstat hread).mpr (by decide)⟩

theorem editable_but_read_only :
    (statIn (notesHost [0x61, 0xC3]) ⟨true, [.name "srv"]⟩ "repo" "notes.txt").result =
        .ok ⟨1, "repo", "notes.txt", 2, 5, true, none⟩ ∧
      (readFileIn (notesHost [0x61, 0xC3]) ⟨true, [.name "srv"]⟩ "repo" "notes.txt").result =
        .ok ⟨1, "repo", "notes.txt", 2, .binary, true, some "the file is not valid UTF-8",
          Text.empty⟩ := by
  decide +kernel

section
variable (hqt : h.refusal = fun _ _ => none) {base path : Location}
  (hfile : h.tree.node path = some (.file f))
include hqt hfile

theorem metadata_quiet :
    (h.metadata path).result = .ok ⟨false, f.regular, f.bytes.length, modifiedMillis f⟩ := by
  rw [Host.metadata, bind_result, reach_quiet hqt ⟨_, hfile, rfl⟩]
  simp [Except.bind, Host.metadataAt, hfile]

theorem read_quiet (msg : String → String) (limit : ℕ) :
    (h.read path msg limit).result = .ok (f.bytes.take limit) := by
  rw [Host.read, bind_result, reach_quiet hqt ⟨_, hfile, rfl⟩]
  simp [Except.bind, Host.bytesAt, hfile]

theorem editability_quiet :
    (editability h path f.bytes.length).result = .ok (fileEditability f) := by
  rw [editability, fileEditability]
  by_cases hsz : maxEditableBytes < f.bytes.length
  · rw [if_pos hsz, if_pos hsz]
    rfl
  · rw [if_neg hsz, if_neg hsz, bind_result, Host.readPrefix, read_quiet hqt hfile]
    simp only [Except.bind]
    cases scan [] (stripBom (f.bytes.take (8 * 1024))) <;> rfl

variable (hres : resolveIn h root rel = .ok (base, path))
include hres

theorem statIn_file : (statIn h root rootId rel).result = fileStat rootId rel f := by
  rw [statIn, fileStat]
  simp only [bind_result, ofExcept_result, hres, Except.bind, metadata_quiet hqt hfile]
  by_cases hreg : (!f.regular)
  · rw [if_pos hreg, if_pos hreg]
    rfl
  · rw [if_neg hreg, if_neg hreg, bind_result, editability_quiet hqt hfile]
    rfl

theorem admitWrite_file (cont : Text) (want : Option WriteBaseline) (force : Bool) :
    (admitWrite h root rel cont want force).result =
      (checkWrite cont (some f) want force).map fun _ => path := by
  rw [admitWrite, checkWrite]
  by_cases hsz : maxEditableBytes < cont.bytes.length
  · rw [if_pos hsz, if_pos hsz]
    rfl
  rw [if_neg hsz, if_neg hsz]
  simp only [bind_result, ofExcept_result, hres, Except.bind, metadata_quiet hqt hfile]
  by_cases hreg : (!f.regular)
  · rw [if_pos hreg, if_pos hreg]
    rfl
  rw [if_neg hreg, if_neg hreg, bind_result, editability_quiet hqt hfile]
  change (result (if (!(fileEditability f).1) then _ else _)) =
    Except.map _ (if (!(fileEditability f).1) then _ else _)
  by_cases hed : (!(fileEditability f).1)
  · rw [if_pos hed, if_pos hed]
    rfl
  rw [if_neg hed, if_neg hed]
  by_cases hconf : (!force && want.any (· ≠ f.stamp))
  · rw [if_pos hconf]
    exact congrArg result (if_pos hconf)
  · rw [if_neg hconf]
    exact congrArg result (if_neg hconf)

end
end

variable {rel : String} {cs : List Char}

theorem mem_normalizeSeparators {c : Char} (h : c ∈ normalizeSeparators rel) : c ≠ '\\' := by
  obtain ⟨d, -, rfl⟩ := mem_map.mp h
  split_ifs with hd
  · decide
  · exact hd

theorem normalizeSeparators_ofList (h : ∀ c ∈ cs, c ≠ '\\') :
    normalizeSeparators (ofList cs) = cs := by
  rw [normalizeSeparators, toList_ofList]
  calc cs.map (fun c => if c = '\\' then '/' else c) = cs.map id :=
        map_congr_left fun c hc => if_neg (h c hc)
    _ = cs := map_id cs

theorem utf8ByteSize_normalized (relative : String) :
    (ofList (normalizeSeparators relative)).utf8ByteSize = relative.utf8ByteSize := by
  have hlist : ∀ cs : List Char,
      utf8Len (cs.map fun c => if c = '\\' then '/' else c) = utf8Len cs := by
    intro cs
    induction cs with
    | nil => rfl
    | cons c cs ih =>
      have hsz : (if c = '\\' then '/' else c).utf8Size = c.utf8Size := by
        split_ifs with hc
        · rw [hc]
          rfl
        · rfl
      rw [map_cons, utf8Len_cons, utf8Len_cons, ih, hsz]
  have hof : relative = ofList relative.toList := (ofList_toList).symm
  rw [utf8ByteSize_ofList, normalizeSeparators, hlist, ← utf8ByteSize_ofList, ← hof]

theorem normalizeSeparators_eq_nil (h : normalizeSeparators rel = []) : rel = "" := by
  rw [← ofList_toList (s := rel), map_eq_nil_iff.mp h]

theorem normalizeSeparators_eq_dot (h : normalizeSeparators rel = ['.']) : rel = "." := by
  obtain ⟨c, hlist, hc⟩ := map_eq_singleton_iff.mp h
  split_ifs at hc with hslash
  · exact absurd hc (by decide)
  · rw [← ofList_toList (s := rel), hlist, hc]

theorem validateRelative_relativePathString {names : List String}
    (h : validateRelative rel = .ok names) :
    validateRelative (relativePathString rel) = .ok names := by
  by_cases hrt : rel = "" ∨ rel = "."
  · rw [validateRelative, if_pos hrt] at h
    cases h
    rcases hrt with rfl | rfl
    · rfl
    · rfl
  have hem : normalizeSeparators rel ≠ [] :=
    fun hnil => hrt (.inl (normalizeSeparators_eq_nil hnil))
  have hdot : normalizeSeparators rel ≠ ['.'] :=
    fun hdot => hrt (.inr (normalizeSeparators_eq_dot hdot))
  rw [validateRelative, if_neg hrt] at h
  by_cases hsz : 4096 < rel.utf8ByteSize
  · rw [if_pos hsz] at h
    cases h
  by_cases hhd : (normalizeSeparators rel).head? = some '/'
  · rw [if_neg hsz, if_pos hhd] at h
    cases h
  have hrep : relativePathString rel = ofList (normalizeSeparators rel) := by
    rw [relativePathString, if_neg (not_or.mpr ⟨hem, hdot⟩),
      dropWhile_beq_eq_self_of_head?_ne hhd]
  have hnr : normalizeSeparators (ofList (normalizeSeparators rel)) =
      normalizeSeparators rel :=
    normalizeSeparators_ofList fun c hc => mem_normalizeSeparators hc
  have hpl : ¬ (ofList (normalizeSeparators rel) = "" ∨
      ofList (normalizeSeparators rel) = ".") := by
    intro htx
    rcases htx with htx | htx
    · rw [htx] at hnr
      exact hem hnr.symm
    · rw [htx] at hnr
      exact hdot hnr.symm
  rw [hrep, validateRelative, if_neg hpl, utf8ByteSize_normalized, hnr]
  exact h

end DshDesktop.Shell
