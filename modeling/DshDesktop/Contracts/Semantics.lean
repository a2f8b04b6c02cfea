import DshDesktop.Contracts.NegotiationPort
import DshDesktop.Library.Table

/-!
# Validation of message sequences

`SemanticValidator` of `packages/capability-contracts/src/semantics.ts`. `Frame.message` is
what the validator reads of a document that passes the envelope validation.
-/

namespace DshDesktop.Contracts.Semantics
open Daemon

/-- What the numbers of a document are: the natural number that an integral literal
is as a double, and its text in a template. -/
structure Numbers where
  value : JsonNumber → ℕ
  text : ℕ → String
  text_injective : Function.Injective text

structure Agreement where
  replyTo : String
  activationId : String
  granted : List ProtocolCoordinate
  /-- The coordinates of the `unavailable` entries. -/
  unavailable : List ProtocolCoordinate

inductive Body
  | hello (supports : List ProtocolCoordinate)
  | agreement (a : Agreement)
  | invocation (capability : ProtocolCoordinate)
  | result (replyTo : String) (correlationId : Option String)
  | event (replyTo : Option String)

structure Message where
  id : String
  participant : Participant
  generation : ℕ
  body : Body

def Body.kind : Body → EnvelopeKind
  | hello _ => .hello
  | agreement _ => .agreement
  | invocation _ => .invocation
  | result _ _ => .result
  | event _ => .event

/-- `msg.replyTo`; a Hello and an Invocation cannot carry one. -/
def Body.replyTo : Body → Option String
  | hello _ | invocation _ => none
  | agreement a => some a.replyTo
  | result replyTo _ => some replyTo
  | event replyTo => replyTo

def member (v : Json) (key : String) : Json := (property v key).getD .null

def text (v : Json) (key : String) : String := (textProperty v key).getD ""

def coordinate (v : Json) : ProtocolCoordinate := ⟨text v "apiVersion", text v "kind"⟩

def items (v : Json) (key : String) : List Json :=
  match property v key with
  | some (.array items) => items
  | _ => []

def body (v : Json) : Body :=
  let payload := member v "payload"
  match text v "kind" with
  | "Hello" => .hello ((items payload "supports").map coordinate)
  | "Agreement" => .agreement
      { replyTo := text v "replyTo"
        activationId := text payload "activationId"
        granted := (items payload "granted").map coordinate
        unavailable := (items payload "unavailable").map fun u =>
          coordinate (member u "coordinate") }
  | "Invocation" => .invocation (coordinate (member v "capability"))
  | "Result" => .result (text v "replyTo")
      ((property v "error").map fun error => text error "correlationId")
  | _ => .event (textProperty v "replyTo")

def Frame (ecma : Ecma) : Type := { v : Json // ∃ value, validateEnvelope ecma v = .ok value }

def Frame.message {ecma : Ecma} (numbers : Numbers) (f : Frame ecma) : Message where
  id := text f.1 "id"
  participant :=
    let p := member f.1 "participant"
    ⟨text p "component", text p "facet", textProperty p "activationId"⟩
  generation := match member f.1 "generation" with
    | .number n => numbers.value n
    | _ => 0
  body := body f.1

inductive Rule
  | replyDangling
  | resultTarget
  | correlationMatch
  | agreementTarget
  | grantWithinSupports
  | grantUnavailableDisjoint
  | invocationGranted
  | generationMonotonic
  | idReplay
  deriving DecidableEq

structure SemanticIssue where
  rule : Rule
  messageId : String
  message : String
  deriving DecidableEq

structure SemanticResult where
  ok : Bool
  issues : List SemanticIssue

def participantKey (p : Participant) : String :=
  "|".intercalate [p.component, p.facet, p.activationId.getD ""]

def coordinateText (c : ProtocolCoordinate) : String := c.apiVersion ++ "/" ++ c.kind

structure SemanticValidator where
  seenIds : List String := []
  byId : Table String Message := ∅
  maxGeneration : Table String ℕ := ∅
  agreements : List (String × Agreement) := []
  issues : List SemanticIssue := []

namespace SemanticValidator
variable (numbers : Numbers) (s : SemanticValidator) (msg : Message)

def checkIdReplay : List SemanticIssue :=
  if msg.id ∈ s.seenIds then
    [⟨.idReplay, msg.id, "message id \"" ++ msg.id ++ "\" already used in this sequence"⟩]
  else []

def staleText (key : String) (max : ℕ) : String :=
  "stale generation " ++ numbers.text msg.generation ++ " for stream \"" ++ key ++
    "\" (max seen " ++ numbers.text max ++ ")"

def checkGeneration : List SemanticIssue × Table String ℕ :=
  let key := participantKey msg.participant
  match s.maxGeneration.lookup key with
  | some max =>
    if msg.generation < max then
      ([⟨.generationMonotonic, msg.id, staleText numbers msg key max⟩], s.maxGeneration)
    else if msg.generation > max then ([], s.maxGeneration.insert key msg.generation)
    else ([], s.maxGeneration)
  | none => ([], s.maxGeneration.insert key msg.generation)

def checkReply : List SemanticIssue :=
  match msg.body.replyTo with
  | none => []
  | some replyTo =>
    match s.byId.lookup replyTo with
    | none => [⟨.replyDangling, msg.id,
        "replyTo \"" ++ replyTo ++ "\" does not reference an earlier message"⟩]
    | some target =>
      let got := kindName target.body.kind
      (if msg.body.kind = .agreement ∧ target.body.kind ≠ .hello then
        [⟨.agreementTarget, msg.id, "Agreement replyTo must reference a Hello, got " ++ got⟩]
      else []) ++
      if msg.body.kind = .result ∧ target.body.kind ≠ .invocation then
        [⟨.resultTarget, msg.id, "Result replyTo must reference an Invocation, got " ++ got⟩]
      else []

def checkAgreement : List SemanticIssue :=
  match msg.body with
  | .agreement a =>
    match (s.byId.lookup a.replyTo).map Message.body with
    | some (.hello supports) =>
      ((a.granted.filter (· ∉ supports)).map fun c => ⟨.grantWithinSupports, msg.id,
        "granted " ++ coordinateText c ++ " is not in Hello.supports"⟩) ++
      (a.unavailable.filter (· ∈ a.granted)).map fun c => ⟨.grantUnavailableDisjoint, msg.id,
        coordinateText c ++ " is both granted and unavailable"⟩
    | _ => []
  | _ => []

def agreementFor (activationId : Option String) : Option (String × Agreement) :=
  (s.agreements.filter fun a => activationId.all (· == a.2.activationId)).getLast?

def checkInvocation : List SemanticIssue :=
  match msg.body with
  | .invocation capability =>
    match s.agreementFor msg.participant.activationId with
    | none =>
      let activation := match msg.participant.activationId with
        | none => ""
        | some id => " for activation \"" ++ id ++ "\""
      [⟨.invocationGranted, msg.id,
        "no prior Agreement" ++ activation ++ " grants " ++ coordinateText capability⟩]
    | some (id, agreement) =>
      if capability ∈ agreement.granted then []
      else [⟨.invocationGranted, msg.id,
        "capability " ++ coordinateText capability ++ " not granted by Agreement " ++ id⟩]
  | _ => []

def checkResult : List SemanticIssue :=
  match msg.body with
  | .result replyTo (some correlationId) =>
    match s.byId.lookup replyTo with
    | none => []
    | some target =>
      if target.body.kind = .invocation ∧ correlationId ≠ target.id then
        [⟨.correlationMatch, msg.id, "error.correlationId \"" ++ correlationId ++
          "\" does not match referenced Invocation id \"" ++ target.id ++ "\""⟩]
      else []
  | _ => []

def findings : List SemanticIssue :=
  s.checkIdReplay msg ++ (s.checkGeneration numbers msg).1 ++ s.checkReply msg ++
    s.checkAgreement msg ++ s.checkInvocation msg ++ s.checkResult msg

def push : SemanticValidator where
  seenIds := msg.id :: s.seenIds
  byId := s.byId.insert msg.id msg
  maxGeneration := (s.checkGeneration numbers msg).2
  agreements := match msg.body with
    | .agreement a => s.agreements ++ [(msg.id, a)]
    | _ => s.agreements
  issues := s.issues ++ s.findings numbers msg

def result : SemanticResult := ⟨s.issues.isEmpty, s.issues⟩

def after (messages : List Message) : SemanticValidator := messages.foldl (push numbers) {}

def validateSequence (messages : List Message) : SemanticResult := (after numbers messages).result

def results : SemanticValidator → List Message → List SemanticResult
  | _, [] => []
  | s, m :: ms => (s.push numbers m).result :: results (s.push numbers m) ms

/-- The issues, each with the message whose `push` reported it. -/
def attributed : SemanticValidator → List Message → List (Message × SemanticIssue)
  | _, [] => []
  | s, m :: ms => (s.findings numbers m).map (m, ·) ++ attributed (s.push numbers m) ms

end SemanticValidator

def Refers (before : List Message) (id : String) (P : Message → Prop) : Prop :=
  ∃ t ∈ before, t.id = id ∧ P t

def Message.Agrees (m : Message) (activationId : Option String) (a : Agreement) : Prop :=
  m.body = .agreement a ∧ ∀ id, activationId = some id → id = a.activationId

def Rule.Holds (before : List Message) (m : Message) : Rule → Prop
  | replyDangling => ∀ r, m.body.replyTo = some r → Refers before r fun _ => True
  | resultTarget => ∀ r c, m.body = .result r c → Refers before r (·.body.kind = .invocation)
  | correlationMatch => ∀ r c, m.body = .result r (some c) →
      Refers before r fun t => t.body.kind = .invocation ∧ c = t.id
  | agreementTarget => ∀ a, m.body = .agreement a → Refers before a.replyTo (·.body.kind = .hello)
  | grantWithinSupports => ∀ a, m.body = .agreement a →
      Refers before a.replyTo fun t => ∃ supports, t.body = .hello supports ∧
        ∀ c ∈ a.granted, c ∈ supports
  | grantUnavailableDisjoint => ∀ a, m.body = .agreement a → ∀ c ∈ a.unavailable, c ∉ a.granted
  | invocationGranted => ∀ c, m.body = .invocation c → ∃ earlier t later a,
      before = earlier ++ t :: later ∧ t.Agrees m.participant.activationId a ∧ c ∈ a.granted ∧
        ∀ t' ∈ later, ∀ a', ¬ t'.Agrees m.participant.activationId a'
  | generationMonotonic => ∀ t ∈ before,
      participantKey t.participant = participantKey m.participant → t.generation ≤ m.generation
  | idReplay => ∀ t ∈ before, t.id ≠ m.id

def Obeys (messages : List Message) : Prop :=
  ∀ before m after, messages = before ++ m :: after → ∀ rule : Rule, rule.Holds before m

theorem forall_split_concat {α : Type} {P : List α → α → Prop} {xs : List α} {x : α} :
    (∀ before y after, xs ++ [x] = before ++ y :: after → P before y) ↔
      (∀ before y after, xs = before ++ y :: after → P before y) ∧ P xs x := by
  constructor
  · intro h
    refine ⟨?_, h xs x [] rfl⟩
    intro before y after hsp
    exact h before y (after ++ [x]) (by simp [hsp])
  · intro h before y after hsp
    obtain ⟨hpre, hx⟩ := h
    rcases List.eq_nil_or_concat after with rfl | ⟨after, z, rfl⟩
    · obtain ⟨rfl, heq⟩ := List.append_inj' hsp rfl
      cases heq
      exact hx
    · rw [List.concat_eq_append, ← List.cons_append, ← List.append_assoc] at hsp
      exact hpre before y after (List.append_inj' hsp rfl).1

def newest (key : String) (messages : List Message) : Option ℕ :=
  ((messages.filter fun t => participantKey t.participant = key).map Message.generation).max?

def Message.agreement? (m : Message) : Option (String × Agreement) :=
  match m.body with
  | .agreement a => some (m.id, a)
  | _ => none

structure Tracks (before : List Message) (s : SemanticValidator) : Prop where
  seen : ∀ id, id ∈ s.seenIds ↔ ∃ t ∈ before, t.id = id
  named : ∀ id t, s.byId.lookup id = some t → t ∈ before ∧ t.id = id
  unnamed : ∀ id, s.byId.lookup id = none → ∀ t ∈ before, t.id ≠ id
  newest : ∀ key, s.maxGeneration.lookup key = newest key before
  agreements : s.agreements = before.filterMap Message.agreement?

variable {key : String} {g : ℕ} {actId : Option String} {ms : List Message}
  {p : Participant}
  {x : String × Agreement} {t : Message}

theorem max?_concat (xs : List ℕ) (x : ℕ) : (xs ++ [x]).max? = some (xs.max?.elim x (max · x)) := by
  cases xs with
  | nil => rfl
  | cons y ys => simp [List.max?]

theorem newest_concat {before : List Message} {m : Message} : newest key (before ++ [m])
    = if key = participantKey m.participant then
      some ((newest key before).elim m.generation (max · m.generation)) else newest key before := by
  by_cases hkey : key = participantKey m.participant
  · rw [if_pos hkey, newest, List.filter_append, List.map_append]
    simp [hkey, max?_concat, newest]
  · simp [newest, hkey, Ne.symm hkey]

theorem newest_eq_some_iff : newest key ms = some g ↔
      (∃ t ∈ ms, participantKey t.participant = key ∧ t.generation = g) ∧
        ∀ t ∈ ms, participantKey t.participant = key → t.generation ≤ g := by
  simp only [newest, List.max?_eq_some_iff, List.mem_map, List.mem_filter, decide_eq_true_eq,
    and_assoc, forall_exists_index, and_imp]
  exact and_congr_right fun _ => ⟨fun h t ht hkey => h _ t ht hkey rfl,
    fun h _ t ht hkey hg => hg ▸ h t ht hkey⟩

theorem newest_isSome (ht : t ∈ ms) (hkey : participantKey t.participant = key) :
    ∃ g, newest key ms = some g := by
  rw [← Option.ne_none_iff_exists', newest, Ne, List.max?_eq_none_iff, List.map_eq_nil_iff]
  exact List.ne_nil_of_mem (List.mem_filter.mpr ⟨ht, by simpa using hkey⟩)

variable {numbers : Numbers} {s : SemanticValidator} {before pre : List Message} {m : Message}
open SemanticValidator

theorem lookup_checkGeneration :
    (s.checkGeneration numbers m).2.lookup key = if key = participantKey m.participant then
      some ((s.maxGeneration.lookup key).elim m.generation (max · m.generation))
        else s.maxGeneration.lookup key := by
  by_cases hkey : key = participantKey m.participant
  · subst hkey
    rw [if_pos rfl, checkGeneration]
    cases hmax : s.maxGeneration.lookup (participantKey m.participant) with
    | none => simp
    | some max =>
      by_cases hlt : m.generation < max
      · simp [hlt, hmax, hlt.le]
      · by_cases hgt : max < m.generation
        · simp [hlt, hgt, hgt.le]
        · simp [hlt, hgt, hmax, not_lt.mp hgt]
  · rw [if_neg hkey, checkGeneration]
    split
    · split_ifs <;> simp [hkey]
    · simp [hkey]

theorem Tracks.push (h : Tracks pre s) : Tracks (pre ++ [m]) (s.push numbers m) where
  seen id := by simp [SemanticValidator.push, h.seen, or_comm, eq_comm]
  named id t ht := by
    rw [SemanticValidator.push, Table.lookup_insert_ite] at ht
    split_ifs at ht with hid
    · cases ht
      exact ⟨by simp, hid.symm⟩
    · obtain ⟨hmem, heq⟩ := h.named id t ht
      exact ⟨List.mem_append_left _ hmem, heq⟩
  unnamed id hnn t ht := by
    rw [SemanticValidator.push, Table.lookup_insert_ite] at hnn
    split_ifs at hnn with hid
    rcases List.mem_append.mp ht with ht | ht
    · exact h.unnamed id hnn t ht
    · rw [List.mem_singleton.mp ht]
      exact Ne.symm hid
  newest key := by
    rw [SemanticValidator.push, lookup_checkGeneration, newest_concat, h.newest]
  agreements := by
    rw [SemanticValidator.push, List.filterMap_append, h.agreements]
    cases hbd : m.body <;> simp [Message.agreement?, hbd]

theorem after_concat : after numbers (ms ++ [m]) = (after numbers ms).push numbers m :=
  List.foldl_append

theorem tracks_after (numbers : Numbers) (ms : List Message) : Tracks ms (after numbers ms) := by
  induction ms using List.reverseRecOn with
  | nil => exact ⟨by simp [after], by simp [after], by simp, fun _ => rfl, rfl⟩
  | append_singleton ms m ih =>
    rw [after_concat]
    exact ih.push

theorem checkIdReplay_eq_nil (h : Tracks pre s) :
    s.checkIdReplay m = [] ↔ Rule.Holds pre m .idReplay := by
  simp [checkIdReplay, h.seen, Rule.Holds]

def generationIssues (numbers : Numbers) (m : Message) : Option ℕ → List SemanticIssue
  | none => []
  | some max => if m.generation < max then [⟨.generationMonotonic, m.id,
      staleText numbers m (participantKey m.participant) max⟩] else []

theorem checkGeneration_issues (h : Tracks pre s) : (s.checkGeneration numbers m).1 =
      generationIssues numbers m (newest (participantKey m.participant) pre) := by
  rw [checkGeneration, h.newest]
  cases newest (participantKey m.participant) pre with
  | none => rfl
  | some max =>
    by_cases hlt : m.generation < max
    · simp [generationIssues, if_pos hlt]
    · by_cases hgt : max < m.generation <;> simp only [generationIssues, if_neg hlt, gt_iff_lt, hgt,
        if_true, if_false]

theorem checkGeneration_eq_nil (h : Tracks pre s) :
    (s.checkGeneration numbers m).1 = [] ↔ Rule.Holds pre m .generationMonotonic := by
  rw [checkGeneration_issues h, Rule.Holds]
  constructor
  · intro hnil t ht hkey
    obtain ⟨g, hg⟩ := newest_isSome ht hkey
    have hle : g ≤ m.generation := by simpa [hg, generationIssues] using hnil
    exact ((newest_eq_some_iff.mp hg).2 t ht hkey).trans hle
  · intro hle
    cases hg : newest (participantKey m.participant) pre with
    | none => rfl
    | some g =>
      obtain ⟨⟨t, ht, hkey, rfl⟩, _⟩ := newest_eq_some_iff.mp hg
      simp [generationIssues, hle t ht hkey]

theorem agreement?_filter :
    t.agreement?.filter (fun a => actId.all (· == a.2.activationId)) = some x ↔
      t.id = x.1 ∧ t.Agrees actId x.2 := by
  obtain ⟨id, a⟩ := x
  cases hbd : t.body with
  | agreement b =>
    cases actId <;>
      simp [Message.agreement?, Message.Agrees, hbd, and_assoc]
  | _ => simp [Message.agreement?, Message.Agrees, hbd]

section
variable (h : Tracks pre s)
include h

theorem agreementFor_eq_some :
    s.agreementFor actId = some x ↔ ∃ earl t later, pre = earl ++ t :: later ∧
      (t.id = x.1 ∧ t.Agrees actId x.2) ∧ ∀ t' ∈ later, ∀ a, ¬ t'.Agrees actId a := by
  have hnn : ∀ t : Message, t.agreement?.filter
      (fun a => actId.all (· == a.2.activationId)) = none ↔ ∀ a, ¬ t.Agrees actId a := by
    intro t
    rw [Option.eq_none_iff_forall_ne_some]
    simp only [Ne, agreement?_filter, Prod.forall, not_and]
    exact ⟨fun hall a => hall t.id a rfl, fun hall id a _ => hall a⟩
  rw [agreementFor, h.agreements, List.filter_filterMap, List.getLast?_filterMap,
    List.findSome?_eq_some_iff]
  simp only [agreement?_filter, hnn]
  constructor
  · intro hsp
    obtain ⟨later, t, earl, hpre, ht, hlt⟩ := hsp
    refine ⟨earl.reverse, t, later.reverse, ?_, ht, by simpa using hlt⟩
    rw [← List.reverse_reverse pre, hpre]
    simp
  · intro hsp
    obtain ⟨earl, t, later, hpre, ht, hlt⟩ := hsp
    exact ⟨later.reverse, t, earl.reverse, by simp [hpre], ht, by simpa using hlt⟩

theorem lastGranted_iff {c : ProtocolCoordinate} :
    (∃ earl t later a, pre = earl ++ t :: later ∧ t.Agrees actId a ∧
      c ∈ a.granted ∧ ∀ t' ∈ later, ∀ a', ¬ t'.Agrees actId a') ↔
        ∃ x, s.agreementFor actId = some x ∧ c ∈ x.2.granted := by
  simp only [agreementFor_eq_some h]
  constructor
  · intro hlast
    obtain ⟨earl, t, later, a, hpre, ht, hc, hlt⟩ := hlast
    exact ⟨(t.id, a), ⟨earl, t, later, hpre, ⟨rfl, ht⟩, hlt⟩, hc⟩
  · intro hlast
    obtain ⟨x, ⟨earl, t, later, hpre, ⟨_, ht⟩, hlt⟩, hc⟩ := hlast
    exact ⟨earl, t, later, x.2, hpre, ht, hc, hlt⟩

theorem checkInvocation_eq_nil :
    s.checkInvocation m = [] ↔ Rule.Holds pre m .invocationGranted := by
  simp only [checkInvocation, Rule.Holds, lastGranted_iff h]
  cases m.body with
  | invocation c => cases s.agreementFor m.participant.activationId <;> simp
  | _ => simp

theorem refers_iff (hids : (pre.map Message.id).Nodup) {id : String} {P : Message → Prop} :
    Refers pre id P ↔ ∃ t, s.byId.lookup id = some t ∧ P t := by
  constructor
  · intro hrf
    obtain ⟨t, ht, hid, hP⟩ := hrf
    cases hget : s.byId.lookup id with
    | none => exact absurd hid (h.unnamed id hget t ht)
    | some t' =>
      obtain ⟨ht', hid'⟩ := h.named id t' hget
      rw [List.inj_on_of_nodup_map hids ht' ht (hid'.trans hid.symm)]
      exact ⟨t, rfl, hP⟩
  · intro hfn
    obtain ⟨t, hget, hP⟩ := hfn
    obtain ⟨ht, hid⟩ := h.named id t hget
    exact ⟨t, ht, hid, hP⟩

end

def Rule.references : List Rule :=
  [replyDangling, resultTarget, correlationMatch, agreementTarget, grantWithinSupports,
    grantUnavailableDisjoint]

theorem checkReferences_eq_nil (h : Tracks pre s) (hids : (pre.map Message.id).Nodup) :
    (s.checkReply m = [] ∧ s.checkAgreement m = [] ∧ s.checkResult m = []) ↔
      ∀ rule ∈ Rule.references, rule.Holds pre m := by
  simp only [Rule.references, List.forall_mem_cons]
  simp only [Rule.Holds, refers_iff h hids, checkReply, checkAgreement, checkResult]
  cases hbd : m.body with
  | hello _ | invocation _ => simp [Body.replyTo]
  | event replyTo =>
    cases replyTo with
    | none => simp [Body.replyTo]
    | some r => cases hget : s.byId.lookup r <;> simp [Body.replyTo, Body.kind, hget]
  | result r c =>
    cases hget : s.byId.lookup r with
    | none => simp [Body.replyTo, hget]
    | some t =>
      cases c <;> cases hgl : t.body <;> simp [Body.replyTo, Body.kind, hget, hgl]
  | agreement a =>
    cases hget : s.byId.lookup a.replyTo with
    | none => simp [Body.replyTo, hget]
    | some t => cases hgl : t.body <;> simp [Body.replyTo, Body.kind, hget, hgl]

theorem findings_eq_nil (h : Tracks pre s) (hids : (pre.map Message.id).Nodup) :
    s.findings numbers m = [] ↔ ∀ rule : Rule, rule.Holds pre m := by
  have hrules : (∀ rule : Rule, rule.Holds pre m) ↔ Rule.Holds pre m .idReplay ∧
      Rule.Holds pre m .generationMonotonic ∧ Rule.Holds pre m .invocationGranted ∧
      ∀ rule ∈ Rule.references, rule.Holds pre m := by
    constructor
    · intro hall
      exact ⟨hall _, hall _, hall _, fun rule _ => hall rule⟩
    · intro hall rule
      obtain ⟨hrp, hgen, hinv, hrf⟩ := hall
      cases rule <;> first | assumption | exact hrf _ (by decide)
  rw [hrules, ← checkReferences_eq_nil h hids, ← checkIdReplay_eq_nil h,
    ← checkGeneration_eq_nil h, ← checkInvocation_eq_nil h, findings]
  simp only [List.append_eq_nil_iff]
  tauto

theorem ids_nodup (h : Obeys ms) : (ms.map Message.id).Nodup := by
  induction ms using List.reverseRecOn with
  | nil => exact List.nodup_nil
  | append_singleton ms m ih =>
    obtain ⟨hms, hm⟩ := forall_split_concat.mp h
    rw [List.map_append, List.map_singleton, ← List.concat_eq_append, List.nodup_concat]
    refine ⟨?_, ih hms⟩
    intro hid
    obtain ⟨t, ht, hid⟩ := List.mem_map.mp hid
    exact hm .idReplay t ht hid

/-- The induction is on the last message, whose references are unambiguous when the
earlier messages obey the rules. -/
theorem after_issues_eq_nil : (after numbers ms).issues = [] ↔ Obeys ms := by
  induction ms using List.reverseRecOn with
  | nil => simp [after, Obeys]
  | append_singleton ms m ih =>
    rw [after_concat, SemanticValidator.push, Obeys, forall_split_concat, List.append_eq_nil_iff,
      ih]
    exact and_congr_right fun hms => findings_eq_nil (tracks_after numbers ms) (ids_nodup hms)

theorem results_eq (ms : List Message) (s : SemanticValidator) (i : ℕ) (hi : i < ms.length) :
    (s.results numbers ms)[i]? = some ((ms.take (i + 1)).foldl (push numbers) s).result := by
  induction ms generalizing s i with
  | nil => cases hi
  | cons m ms ih =>
    cases i with
    | zero => rfl
    | succ i => exact ih (s.push numbers m) i (Nat.lt_of_succ_lt_succ hi)

/-- A sequence of frames is free of issues exactly when it obeys the rules, and the results of
single pushes are those of the prefixes. -/
theorem validateSequence_sound {ecma : Ecma} (numbers : Numbers) (frames : List (Frame ecma)) :
    let ms := frames.map (Frame.message numbers)
    ((validateSequence numbers ms).issues = [] ↔ Obeys ms) ∧
      ((validateSequence numbers ms).ok = true ↔ Obeys ms) ∧
      ∀ i : Fin ms.length, (results numbers {} ms)[i.1]? =
        some (validateSequence numbers (ms.take (i + 1))) := by
  intro ms
  refine ⟨after_issues_eq_nil, ?_, fun i => results_eq ms {} i i.2⟩
  rw [← after_issues_eq_nil, validateSequence, result, List.isEmpty_iff]

theorem attributed_concat : s.attributed numbers (ms ++ [m]) = s.attributed numbers ms ++
      ((ms.foldl (push numbers) s).findings numbers m).map (m, ·) := by
  induction ms generalizing s with
  | nil => simp [attributed]
  | cons x ms ih => simp [attributed, ih]

def staleIssues (numbers : Numbers) (p : Participant) (ms : List Message) : List SemanticIssue :=
  ((attributed numbers {} ms).filter fun x =>
    x.1.participant = p ∧ x.2.rule = .generationMonotonic).map Prod.snd

theorem findings_filter_generation : (s.findings numbers m).filter (·.rule = .generationMonotonic) =
      (s.checkGeneration numbers m).1 := by
  have hrp : ∀ x ∈ s.checkIdReplay m, x.rule ≠ .generationMonotonic := by
    grind [checkIdReplay]
  have hgen : ∀ x ∈ (s.checkGeneration numbers m).1, x.rule = .generationMonotonic := by
    grind [checkGeneration]
  have hre : ∀ x ∈ s.checkReply m, x.rule ≠ .generationMonotonic := by grind [checkReply]
  have hag : ∀ x ∈ s.checkAgreement m, x.rule ≠ .generationMonotonic := by
    grind [checkAgreement]
  have hinv : ∀ x ∈ s.checkInvocation m, x.rule ≠ .generationMonotonic := by
    grind [checkInvocation]
  have hres : ∀ x ∈ s.checkResult m, x.rule ≠ .generationMonotonic := by grind [checkResult]
  have hnn : ∀ {issues : List SemanticIssue}, (∀ x ∈ issues, x.rule ≠ .generationMonotonic) →
      issues.filter (·.rule = .generationMonotonic) = [] := by simp
  rw [findings]
  simp only [List.filter_append, hnn hrp, hnn hre, hnn hag, hnn hinv,
    hnn hres, List.nil_append, List.append_nil]
  exact List.filter_eq_self.mpr (by simpa using hgen)

theorem staleIssues_concat :
    staleIssues numbers p (ms ++ [m]) = staleIssues numbers p ms ++ if m.participant = p then
      generationIssues numbers m (newest (participantKey p) ms) else [] := by
  rw [staleIssues, attributed_concat, List.filter_append, List.map_append, ← staleIssues,
    List.filter_map, List.map_map]
  congr 1
  split_ifs with hp
  · subst hp
    rw [← checkGeneration_issues (tracks_after numbers ms), ← findings_filter_generation]
    simp [Function.comp_def, after]
  · simp [Function.comp_def, hp]

theorem staleText_inj {g' : ℕ} :
    staleText numbers m key g = staleText numbers m key g' ↔ g = g' := by
  unfold staleText
  rw [String.append_left_inj, String.append_right_inj]
  exact numbers.text_injective.eq_iff

/-- Where an earlier message of the stream is newer than `m`, the participant itself
has sent one that is as new. -/
def Undisturbed (p : Participant) (before : List Message) (m : Message) : Prop :=
  ∀ t ∈ before, participantKey t.participant = participantKey p → m.generation < t.generation →
    ∃ t' ∈ before, t'.participant = p ∧ t.generation ≤ t'.generation

def ofParticipant (p : Participant) (ms : List Message) : List Message :=
  ms.filter fun t => t.participant = p

theorem ofParticipant_concat : ofParticipant p (ms ++ [m]) =
      if m.participant = p then ofParticipant p ms ++ [m] else ofParticipant p ms := by
  split_ifs with hp <;> simp [ofParticipant, hp]

theorem newest_ofParticipant : newest (participantKey p) (ofParticipant p ms) = some g ↔
      (∃ t ∈ ms, t.participant = p ∧ t.generation = g) ∧
        ∀ t ∈ ms, t.participant = p → t.generation ≤ g := by
  rw [newest_eq_some_iff]
  simp only [ofParticipant, List.mem_filter, decide_eq_true_eq]
  grind

theorem newest_le (h : newest (participantKey p) (ofParticipant p ms) = some g) :
    ∃ g', newest (participantKey p) ms = some g' ∧ g ≤ g' := by
  obtain ⟨⟨t, ht, hp, rfl⟩, _⟩ := newest_ofParticipant.mp h
  have hkey := congrArg participantKey hp
  obtain ⟨g', hg'⟩ := newest_isSome ht hkey
  exact ⟨g', hg', (newest_eq_some_iff.mp hg').2 t ht hkey⟩

theorem undisturbed_iff :
    Undisturbed p pre m ↔ ∀ g, newest (participantKey p) pre = some g → m.generation < g →
      newest (participantKey p) (ofParticipant p pre) = some g := by
  constructor
  · intro h g hg hlt
    obtain ⟨⟨t, ht, hkey, rfl⟩, hmax⟩ := newest_eq_some_iff.mp hg
    obtain ⟨t', ht', hp, hle⟩ := h t ht hkey hlt
    have heq := le_antisymm (hmax t' ht' (congrArg participantKey hp)) hle
    exact newest_ofParticipant.mpr ⟨⟨t', ht', hp, heq⟩, fun x hx hxp =>
      hmax x hx (congrArg participantKey hxp)⟩
  · intro h t ht hkey hlt
    obtain ⟨g, hg⟩ := newest_isSome ht hkey
    have hle := (newest_eq_some_iff.mp hg).2 t ht hkey
    obtain ⟨⟨t', ht', hp, rfl⟩, _⟩ := newest_ofParticipant.mp (h g hg (hlt.trans_le hle))
    exact ⟨t', ht', hp, hle⟩

theorem generationIssues_length_le (numbers : Numbers) (p : Participant) (before : List Message)
    (m : Message) :
    (generationIssues numbers m (newest (participantKey p) (ofParticipant p before))).length ≤
      (generationIssues numbers m (newest (participantKey p) before)).length := by
  cases hown : newest (participantKey p) (ofParticipant p before) with
  | none => exact Nat.zero_le _
  | some g =>
    obtain ⟨g', hg', hle⟩ := newest_le hown
    simp only [hg', generationIssues]
    split_ifs <;> simp; omega

theorem generationIssues_eq_iff (numbers : Numbers) :
    generationIssues numbers m (newest (participantKey p) pre) =
        generationIssues numbers m (newest (participantKey p) (ofParticipant p pre)) ↔
      Undisturbed p pre m := by
  rw [undisturbed_iff]
  cases hown : newest (participantKey p) (ofParticipant p pre) with
  | none =>
    cases hall : newest (participantKey p) pre with
    | none => simp
    | some g => simp [generationIssues]
  | some g =>
    obtain ⟨g', hg', hle⟩ := newest_le hown
    simp only [hg', generationIssues, Option.some.injEq, forall_eq']
    split_ifs <;> simp [staleText_inj, *] <;> omega

theorem staleIssues_length_le (numbers : Numbers) (p : Participant) (ms : List Message) :
    (staleIssues numbers p (ofParticipant p ms)).length ≤ (staleIssues numbers p ms).length := by
  induction ms using List.reverseRecOn with
  | nil => exact le_rfl
  | append_singleton ms m ih =>
    rw [ofParticipant_concat]
    split_ifs with hp
    · simp only [staleIssues_concat, hp, if_true, List.length_append]
      exact Nat.add_le_add ih (generationIssues_length_le numbers p ms m)
    · rw [staleIssues_concat, if_neg hp, List.append_nil]
      exact ih

/-- The lists have equal parts when they are equal, since neither gets ahead of the other. -/
theorem staleIssues_eq_iff : staleIssues numbers p ms = staleIssues numbers p (ofParticipant p ms) ↔
      ∀ before m after, ms = before ++ m :: after → m.participant = p → Undisturbed p before m := by
  induction ms using List.reverseRecOn with
  | nil => simp [ofParticipant]
  | append_singleton ms m ih =>
    rw [forall_split_concat, ← ih, ofParticipant_concat, staleIssues_concat]
    split_ifs with hp
    · rw [staleIssues_concat, if_pos hp]
      simp only [hp, true_imp_iff, ← generationIssues_eq_iff numbers]
      constructor
      · intro h
        have hlen := congrArg List.length h
        have hle := staleIssues_length_le numbers p ms
        have hle' := generationIssues_length_le numbers p ms m
        simp only [List.length_append] at hlen
        exact List.append_inj h (by omega)
      · intro h
        rw [h.1, h.2]
    · simp [hp]

/-- Removing the frames of all other participants leaves the generation-monotonic issues of
one exactly when its stream is undisturbed by those whose key is the same text. -/
theorem staleIssues_alone_iff {ecma : Ecma} (numbers : Numbers) (frames : List (Frame ecma))
    (p : Participant) :
    staleIssues numbers p (frames.map (Frame.message numbers)) =
        staleIssues numbers p ((frames.filter fun f => (f.message numbers).participant = p).map
          (Frame.message numbers)) ↔
      ∀ before m after, frames.map (Frame.message numbers) = before ++ m :: after →
        m.participant = p → Undisturbed p before m := by
  rw [← staleIssues_eq_iff, ofParticipant, List.filter_map]
  rfl

def decimalNumbers : Numbers where
  value n := match n with
    | .posInt n => n
    | _ => 0
  text n := toString n
  text_injective _ _ h := Text.toString_toList_inj (congrArg String.toList h)

def helloDocument (id component facet : String) (generation : ℕ) : Json :=
  .object [("protocol", .string protocol), ("id", .string id), ("kind", .string "Hello"),
    ("participant", .object [("component", .string component), ("facet", .string facet)]),
    ("timestamp", .string "2026-01-01T00:00:00Z"), ("generation", .nat generation),
    ("payload", .object [("instanceId", .string "instance-0001"), ("supports", .array []),
      ("requires", .array [])])]

def sameKeyFrames : List (Frame default) :=
  [⟨helloDocument "hello-0001" "a|b" "c" 5, ⟨_, rfl⟩⟩,
    ⟨helloDocument "hello-0002" "a" "b|c" 3, ⟨_, rfl⟩⟩]

theorem stream_disturbed : staleIssues decimalNumbers ⟨"a", "b|c", none⟩
        (sameKeyFrames.map (Frame.message decimalNumbers)) =
      [⟨.generationMonotonic, "hello-0002",
        "stale generation 3 for stream \"a|b|c|\" (max seen 5)"⟩] ∧
    staleIssues decimalNumbers ⟨"a", "b|c", none⟩
      ((sameKeyFrames.filter fun f => (f.message decimalNumbers).participant =
        ⟨"a", "b|c", none⟩).map (Frame.message decimalNumbers)) = [] := by
  decide +kernel

end DshDesktop.Contracts.Semantics
