import DshDesktop.Library.FileTree
import DshDesktop.Shell.EnvironmentCheck

/-!
# The launch target

`validate_launch_target` of `commands.rs` looks at the trimmed and normalized launch path;
`build_launch_spec` of the daemon hands the stored path to the system. Both are read over
one file tree and compared.
-/

namespace DshDesktop.Shell
open DshDesktop.Runtime FileTree List
variable {above dir : List Segment} {name : String} {p : Path}

structure ProgramFile where
  executable : Bool

/-- `Path::components` without the root, for an absolute path. -/
def components (p : Path) : List Segment := p.segments.filter (· ≠ .here)

def normalizeStep (normalized : List Segment) : Segment → List Segment
  | .here => normalized
  | .up =>
    match normalized.getLast? with
    | some (.name _) => normalized.dropLast
    | _ => normalized ++ [.up]
  | .name text => normalized ++ [.name text]

/-- `normalize_path`; the root alone is written as a single slash. -/
def normalizePath (p : Path) : Path :=
  let normalized := (components p).foldl normalizeStep []
  ⟨p.absolute, if normalized.isEmpty then [.here] else normalized⟩

section
variable (t : FileTree.Tree ProgramFile) (limit : ℕ)

def nodeAt (p : Path) : Option (Node ProgramFile) :=
  (resolve t false limit [] p).toOption.bind t.node

def isFileAt (p : Path) : Bool :=
  match nodeAt t limit p with
  | some (.file _) => true
  | _ => false

def isExecutableFile (p : Path) : Bool :=
  match nodeAt t limit p with
  | some (.file file) => file.executable
  | _ => false

def isDirectoryAt (p : Path) : Bool := (nodeAt t limit p).any Node.isDirectory

def isSafeCommandName (value : String) : Bool :=
  value.toList.head?.any Char.isAlphanum &&
    value.toList.all fun c => c.isAlphanum || c == '.' || c == '_' || c == '-' || c == '+'

def validateLaunchTarget (e : DshEnvironment) : Except String Unit :=
  let raw := trim e.harness.path
  if e.ownership = .attached then .ok ()
  else if raw.isEmpty then .error "The launch source is empty."
  else
    let candidate := Path.parse raw
    match e.harness.mode with
    | .command =>
      if candidate.absolute && isFileAt t limit (normalizePath candidate) &&
          isExecutableFile t limit (normalizePath candidate) then .ok ()
      else if isSafeCommandName raw then .ok ()
      else .error "A command source must be a program name or an absolute executable path."
    | .repository =>
      if !candidate.absolute then .error "The launch source must be an absolute path."
      else if !isDirectoryAt t limit (normalizePath candidate) then
        .error "The repository source must point at an existing checkout directory."
      else .ok ()
    | .executable =>
      if !candidate.absolute then .error "The launch source must be an absolute path."
      else if !isFileAt t limit (normalizePath candidate) then
        .error "The executable source must point at an existing file."
      else if !isExecutableFile t limit (normalizePath candidate) then
        .error "The executable source is not an executable file."
      else .ok ()

def checkedLocation (e : DshEnvironment) : Except ResolveError Location :=
  resolve t false limit [] (normalizePath (Path.parse (trim e.harness.path)))

def LaunchesChecked (cwd : Location) (e : DshEnvironment) (program : String) : Prop :=
  isSafeCommandName program = true ∨
    ∃ loc, resolve t false limit cwd (Path.parse program) = .ok loc ∧
      checkedLocation t limit e = .ok loc ∧ t.node loc = some (.file ⟨true⟩)

/-- Every parent segment takes back a name that is, where the normalized segments before it
lead, a directory and no link; those above the root take back nothing. -/
def TakesBack : List Segment → List Segment → Prop
  | _, [] => True
  | normalized, segment :: rest =>
    (segment = .up → ∀ above name, normalized = above ++ [.name name] →
      ∃ loc, walk t false limit [] above = .ok loc ∧ t.node (loc ++ [name]) = some .directory) ∧
    TakesBack (normalizeStep normalized segment) rest

/-- The path has no white space around it and is a safe command name, or ends in a name and
takes back only such directories. -/
def PlainLaunchPath (path : String) : Prop :=
  trim path = path ∧ (isSafeCommandName path = true ∨
    ∃ above name, (Path.parse path).segments = above ++ [.name name] ∧
      TakesBack t limit [] above)

end

section
variable {t : FileTree.Tree ProgramFile} {limit : ℕ}

theorem components_concat (h : p.segments = dir ++ [.name name]) :
    components p = dir.filter (· ≠ .here) ++ [.name name] := by
  rw [components, h, filter_append]
  simp

theorem foldl_filter_here (segs nrm : List Segment) :
    (segs.filter (· ≠ .here)).foldl normalizeStep nrm = segs.foldl normalizeStep nrm := by
  induction segs generalizing nrm with
  | nil => rfl
  | cons seg segs ih =>
    cases seg with
    | here => simpa [normalizeStep] using ih nrm
    | up | name text => simpa using ih _

theorem normalizePath_segments (h : p.segments = dir ++ [.name name]) :
    (normalizePath p).segments = dir.foldl normalizeStep [] ++ [.name name] := by
  rw [normalizePath, components_concat h, foldl_append, foldl_filter_here]
  simp [normalizeStep]

theorem walk_normalized {segs nrm rest : List Segment} (h : TakesBack t limit nrm segs)
    (hrest : rest ≠ []) :
    walk t false limit [] (segs.foldl normalizeStep nrm ++ rest) =
      walk t false limit [] (nrm ++ (segs ++ rest)) := by
  induction segs generalizing nrm with
  | nil => rfl
  | cons seg segs ih =>
    rw [foldl_cons, ih h.2]
    cases seg with
    | here =>
      exact (walk_thinned limit (thinned_here nrm (append_ne_nil_of_right_ne_nil _ hrest)) []).symm
    | name text => simp [normalizeStep]
    | up =>
      rcases eq_nil_or_concat nrm with rfl | ⟨above, last, rfl⟩
      · rfl
      cases last with
      | name text =>
        obtain ⟨loc, hloc, hdir⟩ := h.1 rfl above text (concat_eq_append ..)
        simpa [normalizeStep] using (walk_back limit hloc hdir).symm
      | here | up => simp [normalizeStep]

theorem resolve_normalized {cwd : Location} {path : String} (habs : (Path.parse path).absolute)
    (hsg : (Path.parse path).segments = dir ++ [.name name]) (hback : TakesBack t limit [] dir) :
    resolve t false limit cwd (Path.parse path) =
      resolve t false limit [] (normalizePath (Path.parse path)) := by
  have hnr : (normalizePath (Path.parse path)).absolute := habs
  rw [resolve, resolve, normalizePath_segments hsg, hsg, hnr, habs]
  simp [walk_normalized hback (cons_ne_nil (.name name) [])]

theorem isExecutableFile_ok (h : isExecutableFile t limit p) :
    ∃ loc, resolve t false limit [] p = .ok loc ∧ t.node loc = some (.file ⟨true⟩) := by
  rw [isExecutableFile] at h
  cases hnode : nodeAt t limit p with
  | none => simp [hnode] at h
  | some n =>
    simp only [hnode] at h
    cases n with
    | directory | link tgt => cases h
    | file file =>
      rw [nodeAt] at hnode
      obtain ⟨executable⟩ := file
      cases h
      cases hloc : resolve t false limit [] p with
      | error e => simp [hloc, Except.toOption] at hnode
      | ok loc =>
        rw [hloc] at hnode
        exact ⟨loc, rfl, hnode⟩

theorem validateLaunchTarget_ok {e : DshEnvironment} (hmanaged : e.ownership = .managed)
    (hmd : e.harness.mode ≠ .repository) (h : validateLaunchTarget t limit e = .ok ()) :
    isSafeCommandName (trim e.harness.path) ∨ (Path.parse (trim e.harness.path)).absolute ∧
        ∃ loc, checkedLocation t limit e = .ok loc ∧ t.node loc = some (.file ⟨true⟩) := by
  rw [validateLaunchTarget, if_neg (by rw [hmanaged]; decide)] at h
  by_cases hem : (trim e.harness.path).isEmpty
  · rw [if_pos hem] at h
    cases h
  cases hm : e.harness.mode with
  | repository => exact absurd hm hmd
  | executable =>
    simp only [hm] at h
    split_ifs at h with habs hfile hexe
    simp only [Bool.not_eq_true', Bool.not_eq_false] at habs hexe
    exact .inr ⟨habs, isExecutableFile_ok hexe⟩
  | command =>
    simp only [hm] at h
    split_ifs at h with hpt hsf
    · rw [Bool.and_eq_true, Bool.and_eq_true] at hpt
      exact .inr ⟨hpt.1.1, isExecutableFile_ok hpt.2⟩
    · exact .inl hsf

theorem launches_checked (t : FileTree.Tree ProgramFile) (limit : ℕ) (cwd : Location) (m : Machine)
    (e : DshEnvironment) (spec : LaunchSpec) (hmanaged : e.ownership = .managed)
    (hmode : e.harness.mode ≠ .repository) (haccepted : validateLaunchTarget t limit e = .ok ())
    (hspec : buildLaunchSpec m e.onDaemon = .ok spec)
    (hplain : PlainLaunchPath t limit e.harness.path) :
    LaunchesChecked t limit cwd e spec.executable := by
  have hprogram : spec.executable = e.harness.path := buildLaunchSpec_executable hmode hspec
  obtain ⟨htrim, hsh⟩ := hplain
  have hch := validateLaunchTarget_ok hmanaged hmode haccepted
  rw [htrim] at hch
  rw [hprogram]
  rcases hsh with hsf | ⟨above, name, hsg, hup⟩
  · exact .inl hsf
  rcases hch with hsf | ⟨hab, loc, hloc, hfile⟩
  · exact .inl hsf
  · refine .inr ⟨loc, ?_, hloc, hfile⟩
    rw [resolve_normalized hab hsg hup]
    rw [checkedLocation, htrim] at hloc
    exact hloc

end

/-- The link `/opt/current` leads to `/srv/dsh/bin`, and there are programs `dsh` both in
`/opt` and in `/srv/dsh`. -/
def linkedTree : FileTree.Tree ProgramFile :=
  Tree.ofList
    [(["opt"], .directory), (["opt", "dsh"], .file ⟨true⟩),
      (["opt", "current"], .link ⟨true, [.name "srv", .name "dsh", .name "bin"]⟩),
      (["srv"], .directory), (["srv", "dsh"], .directory), (["srv", "dsh", "bin"], .directory),
      (["srv", "dsh", "dsh"], .file ⟨true⟩)]
    (by decide)

def programEnvironment (path : String) : DshEnvironment :=
  { brokenPathEnvironment with harness := ⟨.executable, path, none, []⟩ }

def programSpec (path : String) : LaunchSpec where
  executable := path
  args := ["web", "--host", "127.0.0.1", "--port", "0", "--no-open"]
  cwd := none
  environment := [("DSH_HOME", "/home/user/.dsh")]
  expectedPort := none

theorem launches_checked_parent_directory :
    PlainLaunchPath linkedTree 40 "/srv/dsh/bin/../dsh" ∧
      LaunchesChecked linkedTree 40 [] (programEnvironment "/srv/dsh/bin/../dsh")
        "/srv/dsh/bin/../dsh" := by
  have hback : TakesBack linkedTree 40 [] [.name "srv", .name "dsh", .name "bin", .up] := by
    refine ⟨nofun, nofun, nofun, fun _ above name h => ?_, trivial⟩
    change [Segment.name "srv", .name "dsh"] ++ [.name "bin"] = _ at h
    obtain ⟨rfl, hname⟩ := append_inj' h rfl
    cases hname
    exact ⟨["srv", "dsh"], by decide +kernel, rfl⟩
  have hplain : PlainLaunchPath linkedTree 40 "/srv/dsh/bin/../dsh" :=
    ⟨by decide +kernel, .inr ⟨_, "dsh", by decide +kernel, hback⟩⟩
  exact ⟨hplain, launches_checked linkedTree 40 [] emptyMachine
    (programEnvironment "/srv/dsh/bin/../dsh") (programSpec "/srv/dsh/bin/../dsh") rfl (by decide)
    (by decide +kernel) (by decide +kernel) hplain⟩

/-- The path is accepted for `/opt/dsh`, and the system starts `/srv/dsh/dsh`. -/
theorem other_program_launched :
    validateLaunchTarget linkedTree 40 (programEnvironment "/opt/current/../dsh") = .ok () ∧
      buildLaunchSpec emptyMachine (programEnvironment "/opt/current/../dsh").onDaemon =
        .ok (programSpec "/opt/current/../dsh") ∧
      checkedLocation linkedTree 40 (programEnvironment "/opt/current/../dsh") =
        .ok ["opt", "dsh"] ∧
      resolve linkedTree false 40 [] (Path.parse "/opt/current/../dsh") =
        .ok ["srv", "dsh", "dsh"] ∧
      ¬ LaunchesChecked linkedTree 40 [] (programEnvironment "/opt/current/../dsh")
        "/opt/current/../dsh" := by
  have hch : checkedLocation linkedTree 40 (programEnvironment "/opt/current/../dsh") =
      .ok ["opt", "dsh"] := by decide +kernel
  have hlaunched : resolve linkedTree false 40 [] (Path.parse "/opt/current/../dsh") =
      .ok ["srv", "dsh", "dsh"] := by decide +kernel
  refine ⟨by decide +kernel, by decide +kernel, hch, hlaunched, ?_⟩
  intro heq
  rcases heq with hsf | ⟨loc, hrs, hloc, -⟩
  · exact absurd hsf (by decide +kernel)
  · rw [hlaunched] at hrs
    rw [hch, ← hrs] at hloc
    exact absurd hloc (by decide)

end DshDesktop.Shell
