import DshDesktop.Contracts.EcmaScript
import DshDesktop.Library.JoinedFields
import DshDesktop.Shell.EnvironmentCheck
import Mathlib.Data.List.DropRight

/-!
# The settings form of an environment

`environment-draft.ts` turns an environment into the texts of a form and the texts
back into an environment. The arguments are one text with a line for each.
-/

namespace DshDesktop.Shell
open DshDesktop.Runtime Contracts ShellPolicy JoinedFields List Nat
variable {cs line : List Char} {text : String} {arg : List String}

def isSpace (c : Char) : Bool := (isWhiteSpace c && c.toNat != 0x85) || c.toNat == 0xFEFF

def strip (cs : List Char) : List Char :=
  ((cs.dropWhile isSpace).reverse.dropWhile isSpace).reverse

def formTrim (text : String) : String := String.ofList (strip text.toList)

def Trimmed (cs : List Char) : Prop :=
  (∀ c ∈ cs.head?, isSpace c = false) ∧ ∀ c ∈ cs.getLast?, isSpace c = false

theorem head_dropWhile : ∀ c ∈ (cs.dropWhile isSpace).head?, isSpace c = false := by
  intro c hc
  have h := head?_dropWhile_not isSpace cs
  rw [Option.mem_def.mp hc] at h
  exact h

theorem dropWhile_of_head (h : ∀ c ∈ cs.head?, isSpace c = false) : cs.dropWhile isSpace = cs := by
  cases cs with
  | nil => rfl
  | cons c cs => rw [dropWhile_cons_of_neg (by simp [h c rfl])]

theorem strip_trimmed : Trimmed (strip cs) := by
  constructor
  · intro c hc
    have hprefix : strip cs <+: cs.dropWhile isSpace := by
      have h := (dropWhile_suffix (l := (cs.dropWhile isSpace).reverse) isSpace)
      simpa [strip] using reverse_prefix.mpr h
    obtain ⟨rest, hrs⟩ := hprefix
    have hhd : c ∈ (cs.dropWhile isSpace).head? := by
      rw [← hrs, Option.mem_def, head?_append, Option.mem_def.mp hc, Option.some_or]
    exact head_dropWhile c hhd
  · intro c hc
    rw [strip, getLast?_reverse] at hc
    exact head_dropWhile c hc

theorem strip_of_trimmed (h : Trimmed cs) : strip cs = cs := by
  rw [strip, dropWhile_of_head h.1, dropWhile_of_head, reverse_reverse]
  rw [head?_reverse]
  exact h.2

theorem mem_strip {c : Char} (h : c ∈ strip cs) : c ∈ cs := by
  rw [strip, mem_reverse] at h
  exact (dropWhile_suffix _).subset (mem_reverse.mp ((dropWhile_suffix _).subset h))

/-- The line break `\r?\n` takes a carriage return in front of it away from the line. -/
def withoutReturn (line : List Char) : List Char :=
  if line.getLast? = some '\r' then line.dropLast else line

def splitLines (text : List Char) : List (List Char) :=
  let pieces := pieces '\n' text
  pieces.dropLast.map withoutReturn ++ pieces.getLast?.toList

def joinLines (lines : List String) : String :=
  String.ofList (joined '\n' (lines.map String.toList))

def formArguments (text : String) : List String :=
  (((splitLines text.toList).map strip).filter fun line => !line.isEmpty).map String.ofList

def IsLine (argument : String) : Prop :=
  argument ≠ "" ∧ Trimmed argument.toList ∧ '\n' ∉ argument.toList

theorem notMem_of_mem_splitLines {text : List Char} (h : line ∈ splitLines text) : '\n' ∉ line := by
  rcases mem_append.mp h with h | h
  · obtain ⟨piece, hpc, rfl⟩ := mem_map.mp h
    have hnot := notMem_of_mem_pieces ((dropLast_sublist _).subset hpc)
    rw [withoutReturn]
    split_ifs
    · exact fun hmem => hnot ((dropLast_sublist _).subset hmem)
    · exact hnot
  · exact notMem_of_mem_pieces (mem_of_getLast? (Option.mem_toList.mp h))

theorem isLine_of_mem {argument : String} (h : argument ∈ formArguments text) :
    IsLine argument := by
  simp only [formArguments, mem_map, mem_filter] at h
  obtain ⟨_, ⟨⟨line, hline, rfl⟩, hem⟩, rfl⟩ := h
  refine ⟨?_, by simpa using strip_trimmed, ?_⟩
  · intro hnil
    simp [String.ofList_eq_empty_iff.mp hnil] at hem
  · rw [String.toList_ofList]
    exact fun hmem => notMem_of_mem_splitLines hline (mem_strip hmem)

theorem withoutReturn_of_trimmed (h : Trimmed line) : withoutReturn line = line := by
  rw [withoutReturn, if_neg]
  intro hlast
  exact absurd (h.2 '\r' hlast) (by decide)

theorem splitLines_joined {lines : List (List Char)} (hne : lines ≠ [])
    (h : ∀ line ∈ lines, Trimmed line ∧ '\n' ∉ line) :
    splitLines (joined '\n' lines) = lines := by
  have hparts : pieces '\n' (joined '\n' lines) = lines :=
    splitOn_intercalate '\n' (fun line hline => (h line hline).2) hne
  have hrt : lines.dropLast.map withoutReturn = lines.dropLast := by
    refine map_congr_left (g := id) ?_ |>.trans (map_id _)
    intro line hline
    exact withoutReturn_of_trimmed (h line ((dropLast_sublist _).subset hline)).1
  rw [splitLines, hparts, hrt, getLast?_eq_some_getLast hne]
  exact dropLast_append_getLast hne

theorem formArguments_joinLines (h : ∀ a ∈ arg, IsLine a) :
    formArguments (joinLines arg) = arg := by
  by_cases hnil : arg = []
  · subst hnil
    decide
  have hlines : ∀ line ∈ arg.map String.toList, Trimmed line ∧ '\n' ∉ line := by
    simp only [forall_mem_map]
    exact fun a ha => (h a ha).2
  have hst : (arg.map String.toList).map strip = arg.map String.toList := by
    simp only [map_map, map_inj_left, Function.comp_apply]
    exact fun a ha => strip_of_trimmed (h a ha).2.1
  have hfilt : (arg.map String.toList).filter (fun line => !line.isEmpty) =
      arg.map String.toList := by
    rw [filter_eq_self, forall_mem_map]
    intro a ha
    simpa using (h a ha).1
  rw [formArguments, joinLines, String.toList_ofList,
    splitLines_joined (by simpa using hnil) hlines, hst, hfilt]
  simp [Function.comp_def]

theorem formArguments_joinLines_iff :
    formArguments (joinLines arg) = arg ↔ ∀ a ∈ arg, IsLine a := by
  constructor
  · intro h a ha
    rw [← h] at ha
    exact isLine_of_mem ha
  · exact formArguments_joinLines

structure EnvironmentDraft where
  id : String
  label : String
  harnessMode : HarnessMode
  harnessPath : String
  cwd : String
  extraArguments : String
  dshHome : String
  profile : String
  nodePath : String
  port : String
  ownership : Ownership
  autoRestartOnCrash : Bool
  allowNativeAdapter : Bool

def portText : EndpointPort → String
  | .named value => value
  | .fixed value => toString value

def environmentToDraft (e : DshEnvironment) : EnvironmentDraft where
  id := e.id
  label := e.label
  harnessMode := e.harness.mode
  harnessPath := e.harness.path
  cwd := e.harness.cwd.getD ""
  extraArguments := joinLines e.harness.args
  dshHome := e.dshHome
  profile := e.profile
  nodePath := e.nodePath.getD ""
  port := portText e.endpoint.port
  ownership := e.ownership
  autoRestartOnCrash := (e.policy.bind autoRestartOnCrash).getD true
  allowNativeAdapter := (e.policy.bind allowNativeAdapter).getD false

def parsePort (value : String) : Option EndpointPort :=
  if value = "auto" then some (.named "auto")
  else if value.toList = [] ∨ ¬ value.toList.all Char.isDigit then none
  else
    let parsed := ofDigitChars 10 value.toList 0
    if 1024 ≤ parsed ∧ parsed ≤ 65535 then some (.fixed parsed) else none

structure DraftConversion where
  environment : Option DshEnvironment
  issues : List ValidationIssue

def isFilled (text : String) : Bool := !(formTrim text).isEmpty

variable (draft : EnvironmentDraft)

def draftIssues : List ValidationIssue :=
  let extraArguments := formArguments draft.extraArguments
  issueIf (!isValidId draft.id) "id" "MALFORMED_VALUE"
    "Use 2-64 lowercase letters, digits, or hyphens." ++
  issueIf (!isFilled draft.label || 128 < unitLength (formTrim draft.label)) "label"
    "MALFORMED_VALUE" "Label must contain 1-128 characters." ++
  issueIf (!isFilled draft.harnessPath) "harness.path" "UNAVAILABLE"
    "Select an existing DSH launch source." ++
  issueIf (!isFilled draft.dshHome) "dshHome" "MALFORMED_VALUE" "DSH_HOME is required." ++
  issueIf (!isFilled draft.profile) "profile" "MALFORMED_VALUE" "Profile is required." ++
  issueIf (64 < extraArguments.length) "harness.args" "MALFORMED_VALUE"
    "At most 64 extra arguments are allowed." ++
  issueIf (extraArguments.any isReservedArgument) "harness.args" "UNAUTHORIZED"
    "Host, port, trusted-host, and browser-open policy are Supervisor-owned." ++
  issueIf (parsePort draft.port).isNone "endpoint.port" "MALFORMED_VALUE"
    "Use auto or a port from 1024 to 65535."

def filled (text : String) : Option String := if isFilled text then some (formTrim text) else none

def draftEnvironment (port : EndpointPort) : DshEnvironment where
  schemaVersion := 1
  id := draft.id
  label := formTrim draft.label
  harness :=
    { mode := draft.harnessMode
      path := formTrim draft.harnessPath
      cwd := (filled draft.cwd).or
        (if draft.harnessMode = .repository then filled draft.harnessPath else none)
      args := formArguments draft.extraArguments }
  dshHome := formTrim draft.dshHome
  profile := formTrim draft.profile
  nodePath := filled draft.nodePath
  endpoint := ⟨"127.0.0.1", port⟩
  ownership := draft.ownership
  policy := some ⟨some draft.autoRestartOnCrash, some draft.allowNativeAdapter⟩

def convertEnvironmentDraft : DraftConversion :=
  match draftIssues draft, parsePort draft.port with
  | [], some port => ⟨some (draftEnvironment draft port), []⟩
  | issues, _ => ⟨none, issues⟩

/-- An environment that the Shell accepts, with trimmed texts. A port is a `u16`. -/
structure Accepted (m : Machine) where
  env : DshEnvironment
  accepted : (validateEnvironmentValue m env).valid = true
  port : ∀ n, env.endpoint.port = .fixed n → n < 2 ^ 16
  trimmed : ∀ text ∈ [env.label, env.harness.path, env.harness.cwd.getD "", env.dshHome,
    env.profile, env.nodePath.getD ""], Trimmed text.toList

/-- The flags that the backend goes by; it takes an absent one for false. -/
def effectivePolicy (e : DshEnvironment) : Bool × Bool :=
  ((e.policy.bind autoRestartOnCrash).getD false,
    (e.policy.bind allowNativeAdapter).getD false)

structure SameMeaning (e e' : DshEnvironment) : Prop where
  id : e'.id = e.id
  label : e'.label = e.label
  harness : e'.harness = e.harness
  dshHome : e'.dshHome = e.dshHome
  profile : e'.profile = e.profile
  nodePath : e'.nodePath = e.nodePath
  endpoint : e'.endpoint = e.endpoint
  ownership : e'.ownership = e.ownership
  policy : effectivePolicy e' = effectivePolicy e

structure FitsForm (e : DshEnvironment) : Prop where
  label : unitLength e.label ≤ 128
  args : ∀ a ∈ e.harness.args, IsLine a
  cwd : e.harness.cwd ≠ some ""
  repositoryCwd : e.harness.mode = .repository → e.harness.cwd ≠ none
  policy : e.policy.bind autoRestartOnCrash ≠ none

section
variable {m : Machine} (a : Accepted m)

theorem formTrim_of_trimmed (h : Trimmed text.toList) : formTrim text = text := by
  rw [formTrim, strip_of_trimmed h, String.ofList_toList]

theorem isFilled_of_trimmed (h : Trimmed text.toList) : isFilled text = !text.isEmpty := by
  rw [isFilled, formTrim_of_trimmed h]

theorem filled_of_trimmed (h : Trimmed text.toList) :
    filled text = if text = "" then none else some text := by
  rw [filled, isFilled_of_trimmed h, formTrim_of_trimmed h]
  by_cases hem : text = "" <;> simp [hem]

theorem filled_getD {o : Option String} (h : Trimmed (o.getD "").toList) (hne : o ≠ some "") :
    filled (o.getD "") = o := by
  rw [filled_of_trimmed h]
  cases o with
  | none => rfl
  | some text => simpa using hne

theorem parsePort_portText {port : EndpointPort} (hvalid : isValidPort port)
    (hport : ∀ n, port = .fixed n → n < 2 ^ 16) : parsePort (portText port) = some port := by
  cases port with
  | named value => simp [parsePort, portText, eq_of_beq hvalid]
  | fixed n =>
    have hlt := hport n rfl
    have hle : 1024 ≤ n := by simpa [isValidPort] using hvalid
    have hdg : (toString n).toList = toDigits 10 n := by
      rw [toString_eq_ofList_toDigits, String.toList_ofList]
    have hat : toString n ≠ "auto" := by
      intro h
      have hnot := Text.notMem_toString (c := 'a') rfl n
      rw [h] at hnot
      exact hnot (by decide)
    have hall : (toDigits 10 n).all Char.isDigit :=
      all_eq_true.mpr fun c hc => isDigit_of_mem_toDigits (by omega) (by omega) hc
    have hvl : ofDigitChars 10 (toDigits 10 n) 0 = n := ofDigitChars_ten_toDigits
    rw [portText, parsePort, if_neg hat, hdg, hvl,
      if_neg (by simp [hall]), if_pos ⟨hle, by omega⟩]

theorem Accepted.fields : isValidId a.env.id ∧
    (∀ text ∈ [a.env.label, a.env.harness.path, a.env.dshHome, a.env.profile], text ≠ "") ∧
    a.env.endpoint.host = "127.0.0.1" ∧ isValidPort a.env.endpoint.port ∧
    a.env.harness.args.length ≤ 64 ∧ a.env.harness.args.any isReservedArgument = false ∧
    a.env.nodePath ≠ some "" := by
  have h := a.accepted
  rw [validateEnvironmentValue_valid, Bool.and_eq_true] at h
  have hvalid := h.1
  simp only [ManagedEnvironment.isValid, DshEnvironment.onDaemon, Bool.and_eq_true,
    Bool.not_eq_true', Bool.or_eq_false_iff, beq_iff_eq] at hvalid
  obtain ⟨⟨⟨⟨⟨⟨⟨⟨-, hid⟩, hlb, -⟩, hpt⟩, hhm, hprof⟩, hhs⟩, hpo⟩, hcount, hrs⟩,
    hnode⟩ := hvalid
  have hblank : ∀ text : String, isBlank text = false → text ≠ "" := by
    rintro _ hfalse rfl
    cases hfalse
  refine ⟨hid, ?_, hhs, hpo, not_lt.mp (of_decide_eq_false hcount), hrs, ?_⟩
  · simp only [forall_mem_cons]
    exact ⟨hblank _ hlb, hblank _ hpt, hblank _ hhm, hblank _ hprof, by simp⟩
  · intro hnn
    simp [hnn, isBlank] at hnode

theorem draftIssues_eq_nil :
    draftIssues (environmentToDraft a.env) = [] ↔ unitLength a.env.label ≤ 128 ∧
      (formArguments (joinLines a.env.harness.args)).length ≤ 64 ∧
      (formArguments (joinLines a.env.harness.args)).any isReservedArgument = false := by
  obtain ⟨hid, htx, -, hport, -⟩ := a.fields
  have htrim := a.trimmed
  simp only [List.forall_mem_cons] at htx htrim
  obtain ⟨hlb, hpt, hhm, hpo, -⟩ := htx
  obtain ⟨hlb', hpt', -, hhm', hpr', -⟩ := htrim
  rw [← List.isEmpty_iff, draftIssues]
  simp only [environmentToDraft, isEmpty_append, issueIf_isEmpty, hid,
    parsePort_portText hport a.port, isFilled_of_trimmed hlb', isFilled_of_trimmed hpt',
    isFilled_of_trimmed hhm', isFilled_of_trimmed hpr', formTrim_of_trimmed hlb']
  simp [hlb, hpt, hhm, hpo, and_assoc]
  intro _ _
  exact ⟨fun h => not_lt.mp (of_decide_eq_false h), fun h => decide_eq_false (not_lt.mpr h)⟩

def Accepted.saved : DshEnvironment :=
  draftEnvironment (environmentToDraft a.env) a.env.endpoint.port

theorem converted_iff {e : DshEnvironment} :
    (convertEnvironmentDraft (environmentToDraft a.env)).environment = some e ↔
      draftIssues (environmentToDraft a.env) = [] ∧ a.saved = e := by
  obtain ⟨-, -, -, hport, -⟩ := a.fields
  have hpa : parsePort (environmentToDraft a.env).port = some a.env.endpoint.port :=
    parsePort_portText hport a.port
  rw [convertEnvironmentDraft, hpa]
  cases draftIssues (environmentToDraft a.env) <;> simp [Accepted.saved]

theorem saved_cwd_iff : a.saved.harness.cwd = a.env.harness.cwd ↔ a.env.harness.cwd ≠ some "" ∧
    (a.env.harness.mode = .repository → a.env.harness.cwd ≠ none) := by
  have hpt : a.env.harness.path ≠ "" := a.fields.2.1 _ (by simp)
  have hfilled := filled_of_trimmed (a.trimmed a.env.harness.path (by simp))
  have hcwd := filled_of_trimmed (a.trimmed (a.env.harness.cwd.getD "") (by simp))
  simp only [Accepted.saved, draftEnvironment, environmentToDraft, hcwd, hfilled, if_neg hpt]
  cases a.env.harness.cwd with
  | none => by_cases hmd : a.env.harness.mode = .repository <;> simp [hmd]
  | some cwd =>
    by_cases hem : cwd = ""
    · by_cases hmd : a.env.harness.mode = .repository <;> simp [hem, hmd, hpt]
    · simp [hem]

theorem saved_policy_iff : effectivePolicy a.saved = effectivePolicy a.env ↔
    a.env.policy.bind autoRestartOnCrash ≠ none := by
  simp only [effectivePolicy, Accepted.saved, draftEnvironment, environmentToDraft,
    Option.bind_some, Option.getD_some]
  cases a.env.policy.bind autoRestartOnCrash <;> simp

theorem saved_nodePath : a.saved.nodePath = a.env.nodePath := by
  simp only [Accepted.saved, draftEnvironment, environmentToDraft]
  exact filled_getD (a.trimmed _ (by simp)) a.fields.2.2.2.2.2.2

theorem saved_args : a.saved.harness.args = formArguments (joinLines a.env.harness.args) := by
  simp [Accepted.saved, draftEnvironment, environmentToDraft]

theorem sameMeaning_iff : SameMeaning a.env a.saved ↔
    formArguments (joinLines a.env.harness.args) = a.env.harness.args ∧
      (a.env.harness.cwd ≠ some "" ∧
        (a.env.harness.mode = .repository → a.env.harness.cwd ≠ none)) ∧
      a.env.policy.bind autoRestartOnCrash ≠ none := by
  rw [← saved_cwd_iff, ← saved_policy_iff, ← saved_args]
  constructor
  · intro h
    exact ⟨congrArg HarnessSource.args h.harness, congrArg HarnessSource.cwd h.harness, h.policy⟩
  · intro h
    obtain ⟨har, hcwd, hpl⟩ := h
    have htrim := a.trimmed
    simp only [forall_mem_cons] at htrim
    obtain ⟨hlb, hpt, -, hhm, hprof, -⟩ := htrim
    have hfields : a.saved.id = a.env.id ∧ a.saved.label = a.env.label ∧
        a.saved.harness.mode = a.env.harness.mode ∧ a.saved.harness.path = a.env.harness.path ∧
        a.saved.dshHome = a.env.dshHome ∧ a.saved.profile = a.env.profile ∧
        a.saved.endpoint = a.env.endpoint ∧ a.saved.ownership = a.env.ownership := by
      simp [Accepted.saved, draftEnvironment, environmentToDraft, formTrim_of_trimmed hlb,
        formTrim_of_trimmed hpt, formTrim_of_trimmed hhm, formTrim_of_trimmed hprof,
        ← a.fields.2.2.1]
    obtain ⟨hid, hlb, hmd, hpt, hhm, hprof, hen, how⟩ := hfields
    have hhr : a.saved.harness = a.env.harness := by
      cases hsv : a.saved.harness
      cases henv : a.env.harness
      simp_all
    exact ⟨hid, hlb, hhr, hhm, hprof, saved_nodePath a, hen, how, hpl⟩

/-- Opening an environment in the form and saving it keeps what it means exactly when the form
can hold it. -/
theorem saved_unedited_iff :
    (∃ e, (convertEnvironmentDraft (environmentToDraft a.env)).environment = some e ∧
      SameMeaning a.env e) ↔ FitsForm a.env := by
  obtain ⟨-, -, -, -, hcount, hrs, -⟩ := a.fields
  simp only [converted_iff, draftIssues_eq_nil]
  constructor
  · intro h
    obtain ⟨_, ⟨⟨hlb, -⟩, rfl⟩, heq⟩ := h
    obtain ⟨har, ⟨hcwd, hrp⟩, hpl⟩ := (sameMeaning_iff a).mp heq
    exact ⟨hlb, formArguments_joinLines_iff.mp har, hcwd, hrp, hpl⟩
  · intro h
    have har := formArguments_joinLines h.args
    exact ⟨_, ⟨⟨h.label, by rwa [har], by rwa [har]⟩, rfl⟩,
      (sameMeaning_iff a).mpr ⟨har, ⟨h.cwd, h.repositoryCwd⟩, h.policy⟩⟩

end

def plainEnvironment : DshEnvironment where
  schemaVersion := 1
  id := "local-dsh"
  label := "Local DSH"
  harness := ⟨.executable, "/usr/bin/dsh", none, []⟩
  dshHome := "/home/user/.dsh"
  profile := "default"
  nodePath := none
  endpoint := ⟨"127.0.0.1", .named "auto"⟩
  ownership := .managed
  policy := none

theorem saved_restarts_on_crash :
    (validateEnvironmentValue emptyMachine plainEnvironment).valid = true ∧
      effectivePolicy plainEnvironment = (false, false) ∧
      (convertEnvironmentDraft (environmentToDraft plainEnvironment)).environment.map
        effectivePolicy = some (true, false) := by
  decide +kernel

/-! ## The id that the setup wizard derives from a label -/

def isIdChar (c : Char) : Bool := c.isLower || c.isDigit

/-- `replace(/[^a-z0-9]+/g, "-")`, inside a run of other characters or not. -/
def dashRuns (inRun : Bool) : List Char → List Char
  | [] => []
  | c :: cs =>
    if isIdChar c then c :: dashRuns false cs
    else if inRun then dashRuns true cs
    else '-' :: dashRuns true cs

/-- `replace(/^-+|-+$/g, "")`. -/
def trimDashes (cs : List Char) : List Char := (cs.dropWhile (· = '-')).rdropWhile (· = '-')

def deriveId (toLowerCase : List Char → List Char) (label : String) : String :=
  let derived := trimDashes (dashRuns false (toLowerCase label.toList))
  let derived :=
    if derived.head?.any Char.isLower then derived else ['e', 'n', 'v', '-'] ++ derived
  let derived := if 64 < derived.length then derived.take 64 else derived
  if derived.head?.any Char.isLower then String.ofList derived else "env-dsh"

theorem mem_dashRuns {c : Char} {r : Bool} (h : c ∈ dashRuns r cs) : isIdChar c ∨ c = '-' := by
  induction cs generalizing r with
  | nil => cases h
  | cons x xs ih => grind [dashRuns]

theorem filter_dashRuns (r : Bool) (cs : List Char) :
    (dashRuns r cs).filter isIdChar = cs.filter isIdChar := by
  induction cs generalizing r with
  | nil => rfl
  | cons x xs ih =>
    rw [dashRuns]
    by_cases hx : isIdChar x
    · rw [if_pos hx, filter_cons_of_pos hx, filter_cons_of_pos hx, ih]
    · have hds : ¬ isIdChar '-' := by decide
      rw [if_neg hx, filter_cons_of_neg hx]
      split_ifs
      · exact ih true
      · rw [filter_cons_of_neg hds, ih]

theorem filter_dropWhile_dash : (cs.dropWhile (· = '-')).filter isIdChar = cs.filter isIdChar := by
  induction cs with
  | nil => rfl
  | cons x xs ih =>
    by_cases hx : x = '-'
    · subst hx
      exact ih
    · rw [dropWhile_cons_of_neg (by simpa using hx)]

theorem filter_trimDashes : (trimDashes cs).filter isIdChar = cs.filter isIdChar := by
  rw [trimDashes, rdropWhile, filter_reverse, filter_dropWhile_dash, ← filter_reverse,
    reverse_reverse, filter_dropWhile_dash]

theorem mem_trimDashes {c : Char} (h : c ∈ trimDashes cs) : c ∈ cs :=
  (dropWhile_suffix _).subset (List.IsPrefix.subset ( rdropWhile_prefix _ _) h)

theorem trimDashes_head {x : Char} {xs : List Char} (h : trimDashes cs = x :: xs) : x ≠ '-' := by
  obtain ⟨rest, hrs⟩ := rdropWhile_prefix (· = '-') (cs.dropWhile (· = '-'))
  have hhd := head?_dropWhile_not (· = '-') cs
  rw [← hrs, ← trimDashes, h] at hhd
  simpa using hhd

theorem trimDashes_getLast {x : Char} (h : (trimDashes cs).getLast? = some x) : x ≠ '-' := by
  have hne : trimDashes cs ≠ [] := by
    intro hnl
    rw [hnl] at h
    cases h
  have hlast : ¬ decide ((trimDashes cs).getLast hne = '-') :=
    rdropWhile_last_not (· = '-') (cs.dropWhile (· = '-')) hne
  rw [getLast?_eq_some_getLast hne, Option.some_inj] at h
  rw [← h]
  simpa using hlast

theorem trimDashes_singleton {c : Char} (hcs : ∀ x ∈ cs, isIdChar x ∨ x = '-') :
    trimDashes cs = [c] ↔ (trimDashes cs).filter isIdChar = [c] := by
  have hid : ∀ x ∈ trimDashes cs, x ≠ '-' → isIdChar x :=
    fun x hx hne => (hcs x (mem_trimDashes hx)).resolve_right hne
  constructor
  · intro h
    have hc := hid c (by rw [h]; simp) (trimDashes_head h)
    rw [h, filter_cons_of_pos hc, filter_nil]
  · intro h
    cases htr : trimDashes cs with
    | nil =>
      rw [htr] at h
      cases h
    | cons x xs =>
      have hx := hid x (by rw [htr]; simp) (trimDashes_head htr)
      rw [htr, filter_cons_of_pos hx, cons.injEq] at h
      obtain ⟨rfl, hnl⟩ := h
      rcases eq_nil_or_concat xs with rfl | ⟨ys, y, rfl⟩
      · rfl
      · have hlast : (trimDashes cs).getLast? = some y := by
          rw [htr, concat_eq_append, ← cons_append, getLast?_concat]
        have hy := hid y (mem_of_getLast? hlast) (trimDashes_getLast hlast)
        simp [hy] at hnl

theorem isValidId_cut {ds : List Char} (hds : ∀ x ∈ ds, isIdChar x ∨ x = '-')
    (hhd : ds.head?.any Char.isLower) :
    isValidId (String.ofList (ds.take 64)) ↔ 2 ≤ ds.length := by
  have hal : (ds.take 64).all fun c => c.isLower || c.isDigit || c == '-' := by
    rw [all_eq_true]
    intro x hx
    simpa [isIdChar] using hds x (mem_of_mem_take hx)
  have hfr : (ds.take 64).head? = ds.head? := head?_take
  simp only [isValidId, String.toList_ofList, hal, hfr, hhd, length_take, Bool.and_true,
    Bool.and_eq_true, decide_eq_true_eq]
  omega

theorem deriveId_eq {label : String} (toLowerCase : List Char → List Char) :
    let derived := trimDashes (dashRuns false (toLowerCase label.toList))
    deriveId toLowerCase label = String.ofList
      ((if derived.head?.any Char.isLower then derived else ['e', 'n', 'v', '-'] ++ derived).take
        64) := by
  intro derived
  have hcut : ∀ ds : List Char, (if 64 < ds.length then ds.take 64 else ds) = ds.take 64 := by
    intro ds
    split_ifs with hlt
    · rfl
    · rw [take_of_length_le (not_lt.mp hlt)]
  have hfr : ∀ ds : List Char, (ds.take 64).head? = ds.head? := fun _ => head?_take
  unfold deriveId
  simp only [hcut, hfr]
  change (if (if derived.head?.any Char.isLower then derived else _).head?.any Char.isLower then
    _ else _) = _
  rw [if_pos]
  split_ifs with hhd
  · exact hhd
  · rfl

/-- The wizard proposes a valid id, unless a single letter is all it can take from the label. -/
theorem derived_id_valid_iff (toLowerCase : List Char → List Char) (label : String) :
    isValidId (deriveId toLowerCase label) = true ↔
      ¬ ∃ c : Char, c.isLower = true ∧ (toLowerCase label.toList).filter isIdChar = [c] := by
  have hmem : ∀ x ∈ dashRuns false (toLowerCase label.toList), isIdChar x ∨ x = '-' :=
    fun _ => mem_dashRuns
  have hone : ∀ c, trimDashes (dashRuns false (toLowerCase label.toList)) = [c] ↔
      (toLowerCase label.toList).filter isIdChar = [c] := by
    intro c
    rw [trimDashes_singleton hmem, filter_trimDashes, filter_dashRuns]
  have hmt := fun x hx => hmem x (mem_trimDashes hx)
  rw [deriveId_eq]
  simp only [← hone]
  generalize trimDashes (dashRuns false (toLowerCase label.toList)) = derived at hmt
  split_ifs with hhd
  · rw [isValidId_cut hmt hhd]
    match derived, hhd with
    | [c], hc => exact iff_of_false (by simp) (not_not_intro ⟨c, hc, rfl⟩)
    | c :: d :: _, _ => simp
  · rw [isValidId_cut ?_ rfl]
    · refine iff_of_true (by simp) ?_
      rintro ⟨c, hc, rfl⟩
      exact hhd hc
    · exact forall_mem_append.mpr ⟨by simp [isIdChar], hmt⟩

theorem derived_id_too_short :
    deriveId (map Char.toLower) "A" = "a" ∧ isValidId "a" = false := by
  decide +kernel

end DshDesktop.Shell
