import DshDesktop.Adapter.TextParsers
import DshDesktop.Library.Json
import DshDesktop.Shell.Notifications

/-!
# Notifications of the DSH adapter

`events.rs` reads the messages of the `$events` stream and `notify.rs` turns some of them
into notifications.
-/

namespace DshDesktop.Adapter.Notify
open Shell.Notifications Option String

structure ClientIdentity where
  clientId : String
  hostHome : Option String

inductive EventMessage
  | ready (identity : ClientIdentity)
  | emit (event : String) (args : Json)
  | waterfall (event : String) (eventId agentId : Option String) (request : Json)
  | cancel (eventId reason : Option String)
  | unknown (kind : String)

inductive AllowedEvent
  | apiSession (kind : String)
  | approvalRequest
  | userQuestionRequest
  | settingsDocumentUpdated
  | cordisDynamicPackage
  | cordisDynamicRetract

def getStr (value : Json) (keys : List String) : Option String :=
  (keys.findSome? fun key => value.get key).bind Json.readString

section
variable (fromStr : String → Except String Json)

def normalizeObject : Json → Json
  | .object members => .object members
  | .string text => (fromStr text).toOption.getD .null
  | _ => .null

def parseMessageValue (value : Json) : Except AdapterError EventMessage :=
  if value.isObject = false then .error (.protocol "events: non-object message")
  else match getStr value ["type"] with
    | none => .error (.protocol "events: missing type")
    | some "ready" =>
      match getStr value ["clientId"] with
      | none => .error (.protocol "events: ready without clientId")
      | some clientId =>
        .ok (.ready ⟨clientId, (value.get "host").bind fun host => getStr host ["home"]⟩)
    | some "event" =>
      match getStr value ["event"] with
      | none => .error (.protocol "events: event without event name")
      | some event => .ok (.emit event ((value.get "args").getD .null))
    | some "waterfall" =>
      match getStr value ["event"] with
      | none => .error (.protocol "events: waterfall without event name")
      | some event =>
        .ok (.waterfall event (getStr value ["eventId"]) (getStr value ["agentId"])
          (((value.get "request").map (normalizeObject fromStr)).getD .null))
    | some "cancel" =>
      .ok (.cancel (getStr value ["eventId", "event_id"]) (getStr value ["reason"]))
    | some other => .ok (.unknown other)

end

namespace EventMessage

def event? : EventMessage → Option String
  | emit event _ | waterfall event _ _ _ => some event
  | _ => none

def allowlist (message : EventMessage) : Option AllowedEvent :=
  message.event?.bind fun name =>
    if "api-session/".toList <+: name.toList then
      some (.apiSession (ofList (name.toList.drop "api-session/".length)))
    else if name = "approval/request" then some .approvalRequest
    else if name = "user-questions/request" then some .userQuestionRequest
    else if name = "settings/document-updated" then some .settingsDocumentUpdated
    else if name = "cordis/dynamic-package" then some .cordisDynamicPackage
    else if name = "cordis/dynamic-retract" then some .cordisDynamicRetract
    else none

def payloadOf : EventMessage → Json
  | emit _ (.array items) => items.head?.getD .null
  | emit _ args => args
  | waterfall _ _ _ request => request
  | _ => .null

end EventMessage

/-- The desktop enum of the service has no `configChanged`. -/
inductive NotificationEventKind
  | turnCompleted
  | approvalRequired
  | questionRequired
  | runtimeChanged
  | scheduleResult
  | configChanged

structure AdapterNotification where
  schemaVersion : ℕ
  event : NotificationEventKind
  title : String
  body : Option String
  contentPolicy : ContentPolicy
  dedupeKey : Option String

def notificationSchemaVersion : ℕ := 1
def titleBound : ℕ := 128
def dedupeKeyBound : ℕ := 128
def configChangedDedupeKey : String := "config-changed"

def truncateChars (text : String) (max : ℕ) : String :=
  let out := ofList (text.toList.take max)
  if out.length < text.length then out.push '…' else out

def notification (event : NotificationEventKind) (title : String) (dedupeKey : Option String) :
    AdapterNotification where
  schemaVersion := notificationSchemaVersion
  event := event
  title := truncateChars title titleBound
  body := none
  contentPolicy := .titleOnly
  dedupeKey := (dedupeKey.map fun key => truncateChars key dedupeKeyBound).filter (!·.isEmpty)

def toolName (payload : Json) : Option String := getStr payload ["toolName", "tool_name"]

def firstQuestion (payload : Json) : Option String :=
  match payload.get "questions" with
  | some (.array (item :: _)) => getStr item ["question", "text", "title"]
  | _ => none

def approvalTitle : Option String → String
  | some name => "审批请求：" ++ name
  | none => "审批请求"

def map (message : EventMessage) : Option AdapterNotification :=
  message.allowlist.bind fun allowed =>
    let payload := message.payloadOf
    match allowed with
    | .approvalRequest =>
      some (notification .approvalRequired (approvalTitle (toolName payload)) none)
    | .userQuestionRequest =>
      some (notification .questionRequired ((firstQuestion payload).getD "收到提问") none)
    | .apiSession kind =>
      if kind = "removed" then some (notification .turnCompleted "DSH 会话已结束" none) else none
    | .settingsDocumentUpdated =>
      some (notification .configChanged "配置已变化" (some configChangedDedupeKey))
    | .cordisDynamicPackage =>
      some (notification .configChanged "配置已变化（动态插件更新）" (some configChangedDedupeKey))
    | .cordisDynamicRetract =>
      some (notification .configChanged "配置已变化（插件已撤回）" (some configChangedDedupeKey))

def AdapterNotification.request (n : AdapterNotification) (event : NotificationEvent) :
    NotificationRequest :=
  ⟨n.schemaVersion, event, n.title, n.body, n.contentPolicy, n.dedupeKey⟩

section
variable {kind : NotificationEventKind} {title : String} {key : Option String}

theorem length_truncateChars {text : String} {max : ℕ} : (truncateChars text max).length =
      if max < text.length then max + 1 else text.length := by
  simp only [truncateChars, String.length_ofList, List.length_take, String.length_toList]
  by_cases h : max < text.length
  · rw [if_pos (by omega), if_pos h, String.length_push, String.length_ofList, List.length_take,
      String.length_toList, Nat.min_eq_left h.le]
  · rw [if_neg (by omega), if_neg h, String.length_ofList, List.length_take,
      String.length_toList, Nat.min_eq_right (Nat.le_of_not_lt h)]

theorem configChangedDedupeKey_kept :
    (notification kind title (some configChangedDedupeKey)).dedupeKey =
      some configChangedDedupeKey := by
  have hcut : truncateChars configChangedDedupeKey dedupeKeyBound = configChangedDedupeKey := by
    decide
  have hne : (!configChangedDedupeKey.isEmpty) := by decide
  rw [notification, map_some, hcut, filter_some, if_pos hne]

theorem validateRequest_titleOnly {ev : NotificationEvent}
    (hkey : ∀ k, key = some k → k = configChangedDedupeKey) :
    validateRequest ⟨notificationSchemaVersion, ev, title, none, .titleOnly, key⟩ ↔
      0 < title.length ∧ title.length ≤ titleBound := by
  have hdd : key.any (fun k => k.length = 0 ∨ maxDedupeKeyChars < k.length) = false := by
    cases key with
    | none => rfl
    | some k =>
      rw [hkey k rfl]
      decide
  have hbn : maxTitleChars = titleBound := rfl
  simp only [validateRequest, hdd, Bool.false_eq_true, if_false, hbn]
  rw [if_neg (by decide)]
  split_ifs with h
  · simp only [false_iff]
    omega
  · simp only [isNone_none, true_iff]
    omega

theorem validateRequest_notification (hkey : key = none ∨ key = some configChangedDedupeKey)
    (ev : NotificationEvent) :
    validateRequest ((notification kind title key).request ev) ↔
      0 < title.length ∧ title.length ≤ titleBound := by
  have hkp : ∀ k, (notification kind title key).dedupeKey = some k →
      k = configChangedDedupeKey := by
    intro k hk
    rcases hkey with rfl | rfl
    · cases hk
    · rw [configChangedDedupeKey_kept] at hk
      exact (some.inj hk).symm
  refine (validateRequest_titleOnly hkp).trans ?_
  rw [show (notification kind title key).title.length = _ from
    length_truncateChars]
  split_ifs
  · omega
  · rfl

/-- What an event must hold for its title to have 1 to 128 characters: the fixed text in
front of a tool name has five. -/
def TitleFits (message : EventMessage) : Prop :=
  match message.allowlist with
  | some .approvalRequest => ∀ name, toolName message.payloadOf = some name → name.length ≤ 123
  | some .userQuestionRequest =>
    ∀ question, firstQuestion message.payloadOf = some question →
      0 < question.length ∧ question.length ≤ 128
  | _ => True

theorem deliverable_of_map {message : EventMessage}
    (h : map message = some (notification kind title key))
    (hkey : key = none ∨ key = some configChangedDedupeKey) :
    (∀ n, map message = some n → ∀ ev, validateRequest (n.request ev)) ↔
      0 < title.length ∧ title.length ≤ titleBound := by
  rw [h]
  constructor
  · intro hall
    exact (validateRequest_notification hkey .turnCompleted).mp (hall _ rfl _)
  · intro hlen n hn ev
    cases hn
    exact (validateRequest_notification hkey ev).mpr hlen

end

/-- Every notification of a message passes the check of the desktop exactly when the text
that its title is made from fits. -/
theorem map_deliverable_iff (message : EventMessage) :
    (∀ n, map message = some n → ∀ event, validateRequest (n.request event) = true) ↔
      TitleFits message := by
  cases hal : message.allowlist with
  | none => simp [map, hal, TitleFits]
  | some allowed =>
    cases allowed with
    | approvalRequest =>
      rw [deliverable_of_map (by simp only [map, hal, bind_some]; rfl) (Or.inl rfl),
        TitleFits, hal]
      cases toolName message.payloadOf with
      | none => exact iff_of_true (by decide) (by simp)
      | some name =>
        have hlength : (approvalTitle (some name)).length = 5 + name.length := length_append _ _
        simp only [hlength, titleBound, some.injEq, forall_eq']
        omega
    | userQuestionRequest =>
      rw [deliverable_of_map (by simp only [map, hal, bind_some]; rfl) (Or.inl rfl),
        TitleFits, hal]
      cases firstQuestion message.payloadOf with
      | none => exact iff_of_true (by decide) (by simp)
      | some question => simp [titleBound]
    | apiSession kind =>
      by_cases hkn : kind = "removed"
      · rw [deliverable_of_map (by simp only [map, hal, bind_some, if_pos hkn]; rfl)
          (Or.inl rfl), TitleFits, hal]
        exact iff_of_true (by decide) trivial
      · simp [map, hal, TitleFits, hkn]
    | settingsDocumentUpdated | cordisDynamicPackage | cordisDynamicRetract =>
      rw [deliverable_of_map (by simp only [map, hal, bind_some]; rfl) (Or.inr rfl),
        TitleFits, hal]
      exact iff_of_true (by decide) trivial

def waterfallFrame (event : String) (request : List (String × Json)) : Json :=
  .object [("type", .string "waterfall"), ("event", .string event), ("request", .object request)]

/-- A tool name of 124 characters and an empty question both give a title that is refused. -/
theorem map_undeliverable :
    let fromStr : String → Except String Json := fun _ => .error ""
    let refused := fun frame => ∃ message n, parseMessageValue fromStr frame = .ok message ∧
      map message = some n ∧ ∀ event, validateRequest (n.request event) = false
    refused (waterfallFrame "approval/request"
      [("toolName", .string (ofList (List.replicate 124 'x')))]) ∧
    refused (waterfallFrame "user-questions/request"
      [("questions", .array [.object [("question", .string "")]])]) := by
  have hrf : ∀ {kind : NotificationEventKind} {title : String},
      ¬ (0 < title.length ∧ title.length ≤ titleBound) → ∀ event,
        validateRequest ((notification kind title none).request event) = false := by
    intro kind title hlength event
    exact Bool.eq_false_iff.mpr (mt (validateRequest_notification (Or.inl rfl) event).mp hlength)
  exact ⟨⟨.waterfall "approval/request" none none _, _, rfl, rfl, hrf (by decide +kernel)⟩,
    ⟨.waterfall "user-questions/request" none none _, _, rfl, rfl, hrf (by decide +kernel)⟩⟩

end DshDesktop.Adapter.Notify
