import DshDesktop.Shell.Notifications
import Mathlib.Data.List.Induction
import DshDesktop.Library.Text
import Mathlib.Data.Prod.Lex

/-!
# What is folded, reported and listed

The window of a dedupe key opens when an append is attempted, not when it succeeds, and the
last runtime state of an environment is replaced before its report is written. The list is
sorted by time and, within one millisecond, by the decimal numeral of a counter as a text.
-/

namespace DshDesktop.Shell.Notifications
open List Option

section
variable {now floor : ℕ} {s : Service} {environmentId env key rs : String} {call : Call}
  {calls : List Call}
  {clock : Option ℕ} {report : NotificationReport}

theorem unixMs_ok (h : unixMs clock = .ok now) : clock = some now ∧ now ≤ u64Max := by
  cases clock with
  | none => cases h
  | some ms =>
    rw [unixMs] at h
    split_ifs at h with hms
    cases h
    exact ⟨rfl, hms⟩

theorem notify_cases {req : NotificationRequest} {src : String} {out : Append} :
    (∃ e, s.notify req src clock out = (.error e, s)) ∨
      ∃ now, validateRequest req ∧ unixMs clock = .ok now ∧
        ((∃ report seq, (s.foldCheck req.dedupeKey now).1 ∧ s.notify req src clock out =
              (.ok report, { (s.foldCheck req.dedupeKey now).2 with sequence := seq }) ∧
            report.dedupeKey = req.dedupeKey ∧ report.createdAtUnixMs = now) ∨
          ∃ rcd answer seq, (s.foldCheck req.dedupeKey now).1 = false ∧ s.notify req src clock out =
              (answer, { (s.foldCheck req.dedupeKey now).2 with
                sequence := seq
                attempts := (s.foldCheck req.dedupeKey now).2.attempts ++ [⟨rcd, out⟩] }) ∧
            rcd.dedupeKey = req.dedupeKey ∧ rcd.createdAtUnixMs = now ∧
            ∀ report, answer = .ok report → report.deduplicated = false) := by
  rw [Service.notify]
  by_cases hvalid : validateRequest req
  · rw [if_neg (by simp [hvalid])]
    cases hclock : unixMs clock with
    | error e => exact .inl ⟨e, rfl⟩
    | ok now =>
      refine .inr ⟨now, hvalid, rfl, ?_⟩
      dsimp only
      cases hfold : s.foldCheck req.dedupeKey now with
      | mk folded s' =>
        cases folded with
        | true => exact .inl ⟨_, _, rfl, rfl, rfl, rfl⟩
        | false =>
          right
          cases out with
          | done => exact ⟨_, _, _, rfl, rfl, rfl, rfl, fun report h => by cases h; rfl⟩
          | refused | late => exact ⟨_, _, _, rfl, rfl, rfl, rfl, fun report h => by cases h⟩
  · rw [if_pos (eq_false_of_ne_true hvalid)]
    exact .inl ⟨_, rfl⟩

theorem reading_step (s : Service) (environmentId rs : String) (clock : Option ℕ) (out : Append) :
    ∃ seq added, (s.runtimeChangeReport environmentId rs clock out).2 =
        { s with
          sequence := seq
          lastRuntimeState := if rs ∈ runtimeChangeStates then
            s.lastRuntimeState.insert environmentId rs else s.lastRuntimeState
          attempts := s.attempts ++ added } ∧
      (∀ a ∈ added, a.record.dedupeKey = none) ∧
      added.map (·.record.createdAtUnixMs) <+ clock.toList := by
  rw [Service.runtimeChangeReport]
  by_cases hst : rs ∈ runtimeChangeStates
  · rw [if_neg (not_not_intro hst), if_pos hst]
    dsimp only
    split_ifs with heq
    · exact ⟨s.sequence, [], by simp⟩
    cases hclock : unixMs clock with
    | error e => exact ⟨s.sequence, [], by simp⟩
    | ok now =>
      rw [(unixMs_ok hclock).1]
      cases out with
      | done | refused | late => exact ⟨_, [_], rfl, by simp⟩
  · rw [if_pos hst, if_neg hst]
    exact ⟨s.sequence, [], by simp⟩

theorem mem_trail {a : Attempt} (ha : a ∈ s.attempts) (hwr : a.outcome.writes) :
    a.record ∈ s.trail :=
  mem_map_of_mem (mem_filter.mpr ⟨ha, hwr⟩)

theorem trail_append (s : Service) (added : List Attempt) (s' : Service)
    (h : s'.attempts = s.attempts ++ added) :
    s'.trail = s.trail ++ (added.filter fun a => a.outcome.writes).map Attempt.record := by
  rw [Service.trail, h, filter_append, map_append, ← Service.trail]

theorem reading_report {out : Append}
    (h : (s.runtimeChangeReport env rs clock out).1 = .ok (some report)) :
    (rs ∈ runtimeChangeStates ∧ s.lastRuntimeState.lookup env ≠ some rs ∧
        (∃ now, unixMs clock = .ok now) ∧ out = .done) ∧
      report.deduplicated = false ∧
      ∃ rcd, (s.runtimeChangeReport env rs clock out).2.trail = s.trail ++ [rcd] ∧
        rcd.id = report.id ∧ rcd.event = report.event ∧ rcd.title = report.title := by
  rw [Service.runtimeChangeReport] at h ⊢
  by_cases hst : rs ∈ runtimeChangeStates
  · rw [if_neg (not_not_intro hst)] at h ⊢
    by_cases heq : s.lastRuntimeState.lookup env = some rs
    · rw [if_pos heq] at h
      cases h
    rw [if_neg heq] at h ⊢
    cases hclock : unixMs clock with
    | error e =>
      rw [hclock] at h
      cases h
    | ok now =>
      rw [hclock] at h
      cases out with
      | done =>
        cases h
        exact ⟨⟨hst, heq, ⟨now, rfl⟩, rfl⟩, rfl, _, trail_append s [⟨_, .done⟩] _ rfl,
          rfl, rfl, rfl⟩
      | refused | late => cases h
  · rw [if_pos hst] at h
    cases h

theorem reading_reports (hst : rs ∈ runtimeChangeStates)
    (hnew : s.lastRuntimeState.lookup env ≠ some rs) (hclock : unixMs clock = .ok now) :
    ∃ report, (s.runtimeChangeReport env rs clock .done).1 = .ok (some report) := by
  rw [Service.runtimeChangeReport, if_neg (not_not_intro hst)]
  rw [if_neg hnew, hclock]
  exact ⟨_, rfl⟩

def opened (attempts : List Attempt) : List (String × ℕ) :=
  attempts.filterMap fun a => a.record.dedupeKey.map fun key => (key, a.record.createdAtUnixMs)

theorem mem_opened {tries : List Attempt} {since : ℕ} : (key, since) ∈ opened tries ↔
      ∃ a ∈ tries, a.record.dedupeKey = some key ∧ a.record.createdAtUnixMs = since := by
  simp [opened]

theorem opened_append {xs ys : List Attempt} : opened (xs ++ ys) = opened xs ++ opened ys :=
  filterMap_append

def Tracked (s : Service) (floor : ℕ) : Prop :=
  Windows.Tracks dedupeTtlMs u64Max s.dedupeUntil (opened s.attempts) floor

theorem tracked_default : Tracked Service.default 0 := Windows.tracks_empty

theorem foldCheck_attempts (s : Service) (key : Option String) (now : ℕ) :
    (s.foldCheck key now).2.attempts = s.attempts := by
  cases key with
  | none | some key => rfl

theorem isOpen_of_folded {key : Option String} (h : (s.foldCheck key now).1) :
    ∃ k, key = some k ∧ Windows.isOpen s.dedupeUntil k now := by
  cases key with
  | none => cases h
  | some k =>
    refine ⟨k, rfl, ?_⟩
    rw [← Windows.check_fst dedupeMapLimit dedupeTtlMs u64Max]
    exact h

theorem isOpen_of_passed (h : (s.foldCheck (some key) now).1 = false) :
    Windows.isOpen s.dedupeUntil key now = false := by
  rw [← Windows.check_fst dedupeMapLimit dedupeTtlMs u64Max]
  exact h

theorem foldCheck_folded {key : Option String} (h : (s.foldCheck key now).1) :
    (s.foldCheck key now).2.dedupeUntil = s.dedupeUntil := by
  obtain ⟨k, rfl, hoe⟩ := isOpen_of_folded h
  exact Windows.check_open dedupeMapLimit dedupeTtlMs u64Max hoe

theorem tracked_notify {req : NotificationRequest} {src : String} {out : Append}
    (hs : Tracked s floor) (hnow : floor ≤ now) :
    Tracked (s.notify req src (some now) out).2 now := by
  rcases notify_cases with ⟨e, hcall⟩ | ⟨t, _, hclock, h⟩
  · rw [hcall]
    exact hs.later hnow
  obtain ⟨ht, -⟩ := unixMs_ok hclock
  cases ht
  rcases h with ⟨report, seq, hfold, hcall, -, -⟩ |
      ⟨rcd, answer, seq, hfold, hcall, hkey, hmd, -⟩
  · rw [hcall, Tracked]
    rw [foldCheck_attempts, foldCheck_folded hfold]
    exact hs.later hnow
  rw [hcall, Tracked]
  rw [foldCheck_attempts, opened_append]
  cases hreq : req.dedupeKey with
  | none =>
    rw [hreq] at hkey
    have hnn : opened [⟨rcd, out⟩] = [] := by simp [opened, hkey]
    rw [hnn, append_nil]
    exact hs.later hnow
  | some key =>
    rw [hreq] at hkey hfold
    have hoe : opened [⟨rcd, out⟩] = [(key, now)] := by
      simp [opened, hkey, hmd]
    rw [hoe]
    exact hs.check_closed hnow (isOpen_of_passed hfold)

theorem tracked_reading (hs : Tracked s floor) (environmentId rs : String)
    (clock : Option ℕ) (out : Append) :
    Tracked (s.runtimeChangeReport environmentId rs clock out).2 floor := by
  obtain ⟨seq, added, hcall, hkeys, -⟩ := reading_step s environmentId rs clock out
  have had : opened added = [] := by
    rw [opened, filterMap_eq_nil_iff]
    intro a ha
    rw [hkeys a ha, map_none]
  rw [hcall, Tracked]
  rw [opened_append, had, append_nil]
  exact hs

theorem tracked_step (hs : Tracked s floor) (hclock : ∀ now, call.clock = some now → floor ≤ now) :
    Tracked (step s call) (call.clock.getD floor) := by
  cases call with
  | notify req src clock out =>
    cases clock with
    | none =>
      have hcall : (s.notify req src none out).2 = s := by
        rw [Service.notify]
        split_ifs <;> rfl
      rw [step, hcall]
      exact hs
    | some now => exact tracked_notify hs (hclock now rfl)
  | reading environmentId rst clock out =>
    have hrd := tracked_reading hs environmentId rst clock out
    cases clock with
    | none => exact hrd
    | some now => exact hrd.later (hclock now rfl)

/-- A call that reports a fold has an audited record of its key from less than the
window's length before. -/
def FoldsIntoDelivered (s : Service) (call : Call) : Prop :=
  ∀ report, reply s call = .ok (some report) → report.deduplicated = true →
    ∃ key, report.dedupeKey = some key ∧ ∃ record ∈ s.trail, record.dedupeKey = some key ∧
      record.createdAtUnixMs ≤ report.createdAtUnixMs ∧
      report.createdAtUnixMs < record.createdAtUnixMs + dedupeTtlMs

def Apart (trail : List NotificationRecord) : Prop :=
  trail.Pairwise fun a b => ∀ key, a.dedupeKey = some key → b.dedupeKey = some key →
    a.createdAtUnixMs + dedupeTtlMs ≤ b.createdAtUnixMs

/-- The appends of the last window's length with this key all reached the file, and the
clock is not at the end of its type. -/
def MeetsDelivered (s : Service) : Call → Prop
  | .notify request _ clock _ =>
    validateRequest request = true → ∀ key, request.dedupeKey = some key →
      ∀ now, clock = some now → now < u64Max ∧ ∀ a ∈ s.attempts, a.record.dedupeKey = some key →
          now < a.record.createdAtUnixMs + dedupeTtlMs → a.outcome.writes = true
  | .reading _ _ _ _ => True

theorem foldsIntoDelivered (hs : Tracked s floor)
    (hclock : ∀ now, call.clock = some now → floor ≤ now) (hmt : MeetsDelivered s call) :
    FoldsIntoDelivered s call := by
  intro report hrp hdd
  cases call with
  | reading environmentId rst clock out =>
    have hfalse := (reading_report hrp).2.1
    rw [hdd] at hfalse
    cases hfalse
  | notify req src clock out =>
    rw [reply] at hrp
    rcases notify_cases with ⟨e, hcall⟩ | ⟨now, hvl, hnow, h⟩
    · rw [hcall] at hrp
      cases hrp
    obtain ⟨rfl, -⟩ := unixMs_ok hnow
    rcases h with ⟨report', seq, hfo, hcall, hkey, hmd⟩ |
        ⟨rcd, answer, seq, hfo, hcall, hkey, hmd, hans⟩
    · rw [hcall] at hrp
      cases hrp
      obtain ⟨key, hreq, hoe⟩ := isOpen_of_folded hfo
      rw [hreq] at hkey
      have hfr := hclock now rfl
      obtain ⟨-, since, hmem, hlen⟩ := (hs.open_iff key now hfr).mp hoe
      have hps := hs.past key since hmem
      obtain ⟨a, ha, hak, rfl⟩ := mem_opened.mp hmem
      have hwr := (hmt hvl key hreq now rfl).2 a ha hak hlen
      refine ⟨key, hkey, a.record, mem_trail ha hwr, hak, ?_, ?_⟩
      · omega
      · omega
    rw [hcall] at hrp
    cases answer with
    | error e => cases hrp
    | ok report' =>
      cases hrp
      rw [hans report rfl] at hdd
      cases hdd

theorem apart_append {trail : List NotificationRecord} (h : Apart trail)
    {added : List NotificationRecord} (had : ∀ b ∈ added, b.dedupeKey = none) :
    Apart (trail ++ added) := by
  refine pairwise_append.mpr ⟨h, ?_, ?_⟩
  · refine List.Pairwise.imp_of_mem (fun _ hb _ key _ hkey => ?_) (pairwise_of_forall
      (R := fun _ _ => True) fun _ _ => trivial)
    rw [had _ hb] at hkey
    cases hkey
  · intro a _ b hb key _ hkey
    rw [had b hb] at hkey
    cases hkey

theorem apart_step (hs : Tracked s floor) (hap : Apart s.trail)
    (hclock : ∀ now, call.clock = some now → floor ≤ now) (hmt : MeetsDelivered s call) :
      Apart (step s call).trail := by
  cases call with
  | reading environmentId rst clock out =>
    obtain ⟨seq, added, hcall, hkeys, -⟩ := reading_step s environmentId rst clock out
    rw [step, hcall, trail_append s added _ rfl]
    refine apart_append hap fun b hb => ?_
    obtain ⟨a, ha, rfl⟩ := mem_map.mp hb
    exact hkeys a (mem_of_mem_filter ha)
  | notify req src clock out =>
    rw [step]
    rcases notify_cases with ⟨e, hcall⟩ | ⟨now, hvl, hnow, h⟩
    · rw [hcall]
      exact hap
    obtain ⟨rfl, -⟩ := unixMs_ok hnow
    rcases h with ⟨report, seq, hfold, hcall, -, -⟩ |
        ⟨rcd, answer, seq, hfold, hcall, hkey, hmd, -⟩
    · rw [hcall, trail_append s [] _ (by simp [foldCheck_attempts])]
      simpa using hap
    rw [hcall, trail_append s [⟨rcd, out⟩] _ (by simp [foldCheck_attempts])]
    refine pairwise_append.mpr ⟨hap, ?_, ?_⟩
    · cases out <;> simp [Append.writes]
    · intro a ha b hb key hak hbk
      have hb' : b = rcd := by
        cases out <;> simp_all [Append.writes]
      subst hb'
      rw [hkey] at hbk
      rw [hbk] at hfold
      have hsh : ¬ Windows.isOpen s.dedupeUntil key now :=
        ne_true_of_eq_false (isOpen_of_passed hfold)
      obtain ⟨attempt, htry, rfl⟩ := mem_map.mp ha
      have hmem : (key, attempt.record.createdAtUnixMs) ∈ opened s.attempts :=
        mem_opened.mpr ⟨attempt, mem_of_mem_filter htry, hak, rfl⟩
      -- the window of an earlier record would still be open
      by_contra hnr
      refine hsh ((hs.open_iff key now (hclock now rfl)).mpr ?_)
      exact ⟨(hmt hvl key hbk now rfl).1, _, hmem, by omega⟩

theorem delivered_from (hs : Tracked s floor) (hap : Apart s.trail)
    (hfloor : ∀ now ∈ calls.filterMap Call.clock, floor ≤ now)
    (hclock : (calls.filterMap Call.clock).Pairwise (· ≤ ·))
    (hmt : Runs.Along step MeetsDelivered s calls) :
    Runs.Along step FoldsIntoDelivered s calls ∧ Apart (Runs.run step s calls).trail := by
  induction calls generalizing s floor with
  | nil => exact ⟨trivial, hap⟩
  | cons call calls ih =>
    have hnow : ∀ now, call.clock = some now → floor ≤ now := by
      intro now hcall
      refine hfloor now ?_
      rw [filterMap_cons_some hcall]
      exact mem_cons_self
    have hrs : ∀ now ∈ calls.filterMap Call.clock, call.clock.getD floor ≤ now := by
      intro now hmem
      cases hcall : call.clock with
      | none =>
        rw [filterMap_cons_none hcall] at hfloor
        exact hfloor now hmem
      | some t =>
        rw [filterMap_cons_some hcall] at hclock
        exact rel_of_pairwise_cons hclock hmem
    have htl : (calls.filterMap Call.clock).Pairwise (· ≤ ·) := by
      cases hcall : call.clock with
      | none =>
        rw [filterMap_cons_none hcall] at hclock
        exact hclock
      | some t =>
        rw [filterMap_cons_some hcall] at hclock
        exact hclock.of_cons
    have hst := ih (tracked_step hs hnow) (apart_step hs hap hnow hmt.1) hrs htl
      hmt.2
    exact ⟨⟨foldsIntoDelivered hs hnow hmt.1, hst.1⟩, hst.2⟩

theorem notify_folds_into_delivered (calls : List Call)
    (hclock : (calls.filterMap Call.clock).Pairwise (· ≤ ·))
    (hmeets : Runs.Along step MeetsDelivered Service.default calls) :
    Runs.Along step FoldsIntoDelivered Service.default calls ∧ Apart (run calls).trail :=
  delivered_from tracked_default List.Pairwise.nil (fun _ _ => Nat.zero_le _) hclock hmeets

def turnRequest : NotificationRequest :=
  { schemaVersion := 1, event := .turnCompleted, title := "Turn completed", body := none,
    contentPolicy := .titleOnly, dedupeKey := some "turn-7" }

def turnCalls : List Call :=
  [.notify turnRequest "shell" (some 1000) .done, .notify turnRequest "shell" (some 2000) .refused,
    .notify turnRequest "shell" (some 70000) .done]

theorem turnCalls_fold_into_delivered : (turnCalls.filterMap Call.clock).Pairwise (· ≤ ·) ∧
      Runs.Along step MeetsDelivered Service.default turnCalls ∧
      Runs.Along step FoldsIntoDelivered Service.default turnCalls ∧
      Apart (run turnCalls).trail := by
  have hclock : (turnCalls.filterMap Call.clock).Pairwise (· ≤ ·) := by decide
  have hmt : Runs.Along step MeetsDelivered Service.default turnCalls := by
    refine ⟨?_, ?_, ?_, trivial⟩
    · intro _ key hkey now hnow
      cases hkey
      cases hnow
      decide
    · intro _ key hkey now hnow
      cases hkey
      cases hnow
      decide
    · intro _ key hkey now hnow
      cases hkey
      cases hnow
      decide
  exact ⟨hclock, hmt, notify_folds_into_delivered turnCalls hclock hmt⟩

/-- The first append fails, and the second call is folded although nothing was ever
written. -/
theorem notify_folds_into_failed_append : ([Call.notify turnRequest "shell" (some 1000) .refused,
        .notify turnRequest "shell" (some 2000) .done].filterMap Call.clock).Pairwise (· ≤ ·) ∧
      (run [.notify turnRequest "shell" (some 1000) .refused]).trail = [] ∧
      ¬ FoldsIntoDelivered (run [.notify turnRequest "shell" (some 1000) .refused])
        (.notify turnRequest "shell" (some 2000) .done) := by
  refine ⟨by decide, rfl, ?_⟩
  intro hfolds
  obtain ⟨key, -, record, hrecord, -⟩ := hfolds _ rfl rfl
  cases hrecord

def Call.state (environmentId : String) : Call → Option String
  | .notify _ _ _ _ => none
  | .reading e state _ _ => if e = environmentId then some state else none

def Call.succeeds : Call → Bool
  | .notify _ _ clock outcome => (unixMs clock).isOk && decide (outcome = .done)
  | .reading _ _ clock outcome => (unixMs clock).isOk && decide (outcome = .done)

def states (environmentId : String) (calls : List Call) : List String :=
  calls.filterMap (Call.state environmentId)

def lastStable (environmentId : String) (calls : List Call) : Option String :=
  ((states environmentId calls).filter fun state => decide (state ∈ runtimeChangeStates)).getLast?

def firstReading (environmentId : String) (calls : List Call) : Option Call :=
  calls.find? fun call => (call.state environmentId).isSome

def reportOf (environmentId : String) (s : Service) (call : Call) : Option NotificationReport :=
  if (call.state environmentId).isSome then (reply s call).toOption.join else none

def reports (environmentId : String) : Service → List Call → List NotificationReport
  | _, [] => []
  | s, call :: calls =>
    (reportOf environmentId s call).toList ++ reports environmentId (step s call) calls

def ReportedOnce (environmentId : String) (s : Service) (calls : List Call) : Prop :=
  ∃ report, reports environmentId s calls = [report] ∧ ∃ record ∈ (Runs.run step s calls).trail,
      record.id = report.id ∧ record.event = report.event ∧ record.title = report.title

/-- `block` is a maximal run of one stable state in the readings of the environment. -/
structure MaximalRun (environmentId state : String) (before block after : List Call) : Prop where
  stable : state ∈ runtimeChangeStates
  nonempty : states environmentId block ≠ []
  equal : ∀ other ∈ states environmentId block, other = state
  starts : (states environmentId before).getLast? ≠ some state
  ends : (states environmentId after).head? ≠ some state

variable {state : String}

theorem step_attempts (s : Service) (call : Call) :
    ∃ added, (step s call).attempts = s.attempts ++ added ∧
      added.map (·.record.createdAtUnixMs) <+ call.clock.toList := by
  cases call with
  | reading environmentId rst clock out =>
    obtain ⟨seq, added, hcall, -, htime⟩ := reading_step s environmentId rst clock out
    exact ⟨added, by rw [step, hcall], htime⟩
  | notify req src clock out =>
    rw [step]
    rcases notify_cases with ⟨e, hcall⟩ |
        ⟨now, -, hcl, ⟨report, seq, -, hcall, -⟩ | ⟨rcd, answer, seq, -, hcall, -, rfl, -⟩⟩
    · exact ⟨[], by rw [hcall, append_nil], nil_sublist _⟩
    · exact ⟨[], by rw [hcall, append_nil, ← foldCheck_attempts s req.dedupeKey now],
        nil_sublist _⟩
    · refine ⟨[⟨rcd, out⟩], by rw [hcall, ← foldCheck_attempts s req.dedupeKey _], ?_⟩
      rw [Call.clock, (unixMs_ok hcl).1]
      exact Sublist.refl _

theorem mem_trail_run {rcd : NotificationRecord} (h : rcd ∈ s.trail) {calls : List Call} :
    rcd ∈ (Runs.run step s calls).trail := by
  refine Runs.run_invariant (fun s : Service => rcd ∈ s.trail) (fun s call hs => ?_) calls h
  obtain ⟨added, had, -⟩ := step_attempts s call
  rw [trail_append s added _ had]
  exact mem_append_left _ hs

theorem lookup_step : (step s call).lastRuntimeState.lookup environmentId =
      match call.state environmentId with
      | none => s.lastRuntimeState.lookup environmentId
      | some state => if state ∈ runtimeChangeStates then some state
        else s.lastRuntimeState.lookup environmentId := by
  cases call with
  | notify req src clock out =>
    have hfold : ∀ now,
        (s.foldCheck req.dedupeKey now).2.lastRuntimeState = s.lastRuntimeState := by
      intro now
      cases req.dedupeKey with
      | none | some key => rfl
    rw [step, Call.state]
    rcases notify_cases with ⟨e, hcall⟩ |
        ⟨now, -, -, ⟨report, seq, -, hcall, -⟩ | ⟨rcd, answer, seq, -, hcall, -⟩⟩
    · rw [hcall]
    · rw [hcall, ← hfold now]
    · rw [hcall, ← hfold now]
  | reading e state clock out =>
    obtain ⟨seq, added, hcall, -⟩ := reading_step s e state clock out
    rw [step, hcall, Call.state]
    by_cases he : e = environmentId
    · subst he
      rw [if_pos rfl]
      dsimp only
      split_ifs with hst
      · exact AList.lookup_insert _
      · rfl
    · rw [if_neg he]
      split_ifs with hst
      · exact AList.lookup_insert_ne (Ne.symm he)
      · rfl

theorem lookup_run :
    (run calls).lastRuntimeState.lookup environmentId = lastStable environmentId calls := by
  induction calls using List.reverseRecOn with
  | nil => rfl
  | append_singleton calls call ih =>
    rw [run, Runs.run_append, Runs.run_cons, Runs.run_nil, lookup_step, ← run, ih, lastStable,
      lastStable, states, states, filterMap_append, filter_append]
    cases hst : call.state environmentId with
    | none => simp [hst]
    | some state =>
      by_cases hsa : state ∈ runtimeChangeStates
      · simp [hst, hsa]
      · simp [hst, hsa]

theorem states_cons {P : String → Prop} : (∀ state ∈ states env (call :: calls), P state) ↔
      (∀ state, call.state env = some state → P state) ∧ ∀ state ∈ states env calls, P state := by
  cases hst : call.state env with
  | none => simp [filterMap_cons_none hst, states]
  | some state => simp [filterMap_cons_some hst, states]

theorem reportOf_some (h : reportOf env s call = some report) :
    ∃ state clock out, call = .reading env state clock out ∧
      (s.runtimeChangeReport env state clock out).1 = .ok (some report) := by
  cases call with
  | notify req src clock out => cases h
  | reading e state clock out =>
    by_cases he : e = env
    · subst he
      refine ⟨state, clock, out, rfl, ?_⟩
      rw [reportOf, Call.state, if_pos rfl, isSome_some, if_pos rfl, reply] at h
      cases hcall : (s.runtimeChangeReport e state clock out).1 with
      | error _ =>
        rw [hcall] at h
        cases h
      | ok answer =>
        rw [hcall] at h
        exact congrArg Except.ok h
    · rw [reportOf, Call.state, if_neg he] at h
      cases h

theorem reportOf_isSome (hst : call.state env = some state) (hsa : state ∈ runtimeChangeStates) :
    (reportOf env s call).isSome ↔ s.lastRuntimeState.lookup env ≠ some state ∧ call.succeeds := by
  constructor
  · intro hsome
    obtain ⟨report, hrep⟩ := isSome_iff_exists.mp hsome
    obtain ⟨other, clock, out, rfl, hok⟩ := reportOf_some hrep
    rw [Call.state, if_pos rfl] at hst
    cases hst
    obtain ⟨⟨-, hnew, ⟨now, hnow⟩, rfl⟩, -⟩ := reading_report hok
    exact ⟨hnew, by rw [Call.succeeds, hnow]; rfl⟩
  · intro h
    obtain ⟨hnew, hsucc⟩ := h
    cases call with
    | notify req src clock out => cases hst
    | reading e st clock out =>
      rw [Call.succeeds, Bool.and_eq_true, decide_eq_true_iff] at hsucc
      obtain ⟨hclock, rfl⟩ := hsucc
      rw [reportOf, hst, isSome_some, if_pos rfl, reply]
      rw [Call.state] at hst
      split_ifs at hst with he
      subst he
      cases hst
      cases hnow : unixMs clock with
      | error _ =>
        rw [hnow] at hclock
        cases hclock
      | ok now =>
        obtain ⟨report, hok⟩ := reading_reports hsa hnew hnow
        rw [hok]
        rfl

theorem reportOf_none (hst : call.state env = none) : reportOf env s call = none := by
  rw [reportOf, hst, isSome_none, if_neg Bool.false_ne_true]

theorem reports_audited (h : report ∈ reports env s calls) : ∃ rcd ∈ (Runs.run step s calls).trail,
      rcd.id = report.id ∧ rcd.event = report.event ∧ rcd.title = report.title := by
  induction calls generalizing s with
  | nil => cases h
  | cons call calls ih =>
    rw [reports, mem_append, mem_toList] at h
    rcases h with hfirst | hrs
    · obtain ⟨state, clock, out, rfl, hok⟩ := reportOf_some hfirst
      obtain ⟨-, -, rcd, htrail, heq⟩ := reading_report hok
      have hmem : rcd ∈ (step s (.reading env state clock out)).trail := by
        rw [step, htrail]
        exact mem_append_right _ mem_cons_self
      exact ⟨rcd, mem_trail_run hmem, heq⟩
    · exact ih hrs

theorem lookup_reading (hst : call.state env = some state) (hsa : state ∈ runtimeChangeStates) :
    (step s call).lastRuntimeState.lookup env = some state := by
  rw [lookup_step, hst]
  exact if_pos hsa

theorem lookup_other (hst : call.state env = none) :
    (step s call).lastRuntimeState.lookup env = s.lastRuntimeState.lookup env := by
  rw [lookup_step, hst]

theorem reports_of_remembered (hsa : state ∈ runtimeChangeStates)
    (hs : s.lastRuntimeState.lookup env = some state)
    (heu : ∀ other ∈ states env calls, other = state) : reports env s calls = [] := by
  induction calls generalizing s with
  | nil => rfl
  | cons call calls ih =>
    obtain ⟨hcall, hrs⟩ := states_cons.mp heu
    rw [reports, append_eq_nil_iff]
    cases hst : call.state env with
    | none =>
      rw [reportOf_none hst]
      exact ⟨rfl, ih ((lookup_other hst).trans hs) hrs⟩
    | some other =>
      cases hcall other hst
      have hnn : reportOf env s call = none := by
        rw [← not_isSome_iff_eq_none, reportOf_isSome hst hsa]
        exact fun h => h.1 hs
      rw [hnn]
      exact ⟨rfl, ih (lookup_reading hst hsa) hrs⟩

theorem reports_of_new (hsa : state ∈ runtimeChangeStates)
    (hs : s.lastRuntimeState.lookup env ≠ some state)
    (heu : ∀ other ∈ states env calls, other = state) :
    (reports env s calls).length = 1 ↔
      ∃ call, firstReading env calls = some call ∧ call.succeeds := by
  induction calls generalizing s with
  | nil => simp [reports, firstReading]
  | cons call calls ih =>
    obtain ⟨hcall, hrs⟩ := states_cons.mp heu
    rw [reports, firstReading]
    cases hst : call.state env with
    | none =>
      rw [reportOf_none hst, List.find?_cons_of_neg (by simp [hst])]
      exact ih (by rwa [lookup_other hst]) hrs
    | some other =>
      cases hcall other hst
      have hsome := reportOf_isSome (s := s) hst hsa
      rw [List.find?_cons_of_pos (by simp [hst]),
        reports_of_remembered hsa (lookup_reading hst hsa) hrs, append_nil]
      cases hrep : reportOf env s call with
      | none =>
        rw [hrep] at hsome
        have hfails : ¬ call.succeeds := fun h => Bool.false_ne_true (hsome.mpr ⟨hs, h⟩)
        simp [hfails]
      | some report =>
        rw [hrep] at hsome
        have hsucc := (hsome.mp rfl).2
        simp [hsucc]

theorem runtime_change_reported_once_iff {environmentId state : String}
    {before block after : List Call} (hrun : MaximalRun environmentId state before block after) :
    ReportedOnce environmentId (run before) block ↔ lastStable environmentId before ≠ some state ∧
        ∃ call, firstReading environmentId block = some call ∧ call.succeeds = true := by
  have hon : ReportedOnce environmentId (run before) block ↔
      (reports environmentId (run before) block).length = 1 := by
    rw [List.length_eq_one_iff]
    constructor
    · intro h
      obtain ⟨report, hrp, -⟩ := h
      exact ⟨report, hrp⟩
    · intro h
      obtain ⟨report, hrp⟩ := h
      have hmem : report ∈ reports environmentId (run before) block := by
        rw [hrp]
        exact List.mem_cons_self
      exact ⟨report, hrp, reports_audited hmem⟩
  rw [hon, ← lookup_run]
  by_cases hlast : (run before).lastRuntimeState.lookup environmentId = some state
  · rw [reports_of_remembered hrun.stable hlast hrun.equal]
    simp [hlast]
  · rw [reports_of_new hrun.stable hlast hrun.equal]
    simp [hlast]

theorem healthy_after_crash_reported_once :
    MaximalRun "managed-local" "healthy" [.reading "managed-local" "crashed" (some 1000) .done]
        [.reading "managed-local" "healthy" (some 2000) .done,
          .reading "managed-local" "healthy" none .refused] [] ∧
      ReportedOnce "managed-local" (run [.reading "managed-local" "crashed" (some 1000) .done])
        [.reading "managed-local" "healthy" (some 2000) .done,
          .reading "managed-local" "healthy" none .refused] := by
  have hrun : MaximalRun "managed-local" "healthy"
      [.reading "managed-local" "crashed" (some 1000) .done]
      [.reading "managed-local" "healthy" (some 2000) .done,
        .reading "managed-local" "healthy" none .refused] [] :=
    ⟨by decide, by decide, by decide, by decide, by decide⟩
  exact ⟨hrun, (runtime_change_reported_once_iff hrun).mpr ⟨by decide, _, rfl, by decide⟩⟩

/-- The append of the first reading fails; the second reading would be written but finds
the state already remembered. -/
theorem healthy_never_reported : MaximalRun "managed-local" "healthy" []
        [.reading "managed-local" "healthy" (some 1000) .refused,
          .reading "managed-local" "healthy" (some 2000) .done] [] ∧
      (Call.reading "managed-local" "healthy" (some 2000) .done).succeeds = true ∧
      ¬ ReportedOnce "managed-local" (run [])
        [.reading "managed-local" "healthy" (some 1000) .refused,
          .reading "managed-local" "healthy" (some 2000) .done] := by
  refine ⟨⟨by decide, by decide, by decide, by decide, by decide⟩, by decide, ?_⟩
  intro hon
  obtain ⟨report, hrp, -⟩ := hon
  cases hrp

end

def NotificationRecord.report (r : NotificationRecord) : NotificationReport where
  schemaVersion := Notifications.schemaVersion
  id := r.id
  event := r.event
  title := r.title
  contentPolicy := r.contentPolicy
  deliveredBody := r.body
  createdAtUnixMs := r.createdAtUnixMs
  dedupeKey := r.dedupeKey
  deduplicated := false

def NotificationReport.key (r : NotificationReport) : ℕ ×ₗ String :=
  toLex (r.createdAtUnixMs, r.id)

def shown (records : List NotificationRecord) (dismissed : List String) :
    List NotificationReport :=
  (records.filter fun r => r.id ∉ dismissed).map NotificationRecord.report

/-- The sort is stable, and compares times and ids the other way round. -/
def list (records : List NotificationRecord) (dismissed : List String) :
    List NotificationReport :=
  (shown records dismissed).mergeSort fun left right => right.key ≤ left.key

def drew : Except NotificationError (Option NotificationReport) → Bool
  | .ok (some _) | .error .auditUnavailable => true
  | .ok none | .error .malformedRequest | .error .clockUnavailable => false

/-- The records of a run, each with the number of ids drawn until its own. -/
def deliveries (s : Service) (drawn : ℕ) : List Call → List (NotificationRecord × ℕ)
  | [] => []
  | call :: calls =>
    let drawn := if drew (reply s call) then drawn + 1 else drawn
    ((step s call).trail.drop s.trail.length).map (·, drawn) ++
      deliveries (step s call) drawn calls

def numbered (held : List (NotificationRecord × ℕ)) (dismissed : List String) :
    List (NotificationReport × ℕ) :=
  (held.filter fun d => d.1.id ∉ dismissed).map fun d => (d.1.report, d.2)

def listed (held : List (NotificationRecord × ℕ)) (dismissed : List String) :
    List (NotificationReport × ℕ) :=
  (numbered held dismissed).mergeSort fun left right => right.1.key ≤ left.1.key

def idText (time sequence : ℕ) : String := s!"notif-{time}-{sequence}"

inductive Delivers (s : Service) :
    Except NotificationError (Option NotificationReport) × Service → Prop
  | quiet {answer : Except NotificationError (Option NotificationReport)} {s' : Service}
      (idle : drew answer = false) (counter : s'.sequence = s.sequence)
      (kept : s'.attempts = s.attempts) : Delivers s (answer, s')
  | folded {answer : Except NotificationError (Option NotificationReport)} {s' : Service}
      (drew : drew answer) (counter : s'.sequence = (s.sequence + 1) % 2 ^ 64)
      (kept : s'.attempts = s.attempts) : Delivers s (answer, s')
  | appended {answer : Except NotificationError (Option NotificationReport)} {s' : Service}
      {r : NotificationRecord} {out : Append} (drew : drew answer)
      (counter : s'.sequence = (s.sequence + 1) % 2 ^ 64)
      (written : s'.attempts = s.attempts ++ [⟨r, out⟩])
      (named : r.id = idText r.createdAtUnixMs s'.sequence) : Delivers s (answer, s')

theorem unixMs_error {clock : Option ℕ} {e : NotificationError} (h : unixMs clock = .error e) :
    e = .clockUnavailable := by
  cases clock with
  | none => cases h; rfl
  | some ms =>
    rw [unixMs] at h
    split_ifs at h
    cases h
    rfl

theorem foldCheck_sequence (s : Service) (key : Option String) (now : ℕ) :
    (s.foldCheck key now).2.sequence = s.sequence := by
  cases key with
  | none | some key => rfl

theorem reading_delivers (s : Service) (environmentId rs : String) (clock : Option ℕ)
    (out : Append) : Delivers s (s.runtimeChangeReport environmentId rs clock out) := by
  rw [Service.runtimeChangeReport]
  by_cases hst : rs ∈ runtimeChangeStates
  swap
  · rw [if_pos hst]
    exact .quiet rfl rfl rfl
  rw [if_neg (not_not_intro hst)]
  dsimp only
  split_ifs
  · exact .quiet rfl rfl rfl
  cases hclock : unixMs clock with
  | error e =>
    obtain rfl := unixMs_error hclock
    exact .quiet rfl rfl rfl
  | ok now =>
    cases out with
    | done | refused | late => exact .appended rfl rfl rfl rfl

theorem notify_delivers (s : Service) (req : NotificationRequest) (src : String)
    (clock : Option ℕ) (out : Append) :
    Delivers s ((s.notify req src clock out).map (·.map some) id) := by
  rw [Service.notify]
  by_cases hvalid : validateRequest req = false
  · rw [if_pos hvalid]
    exact .quiet rfl rfl rfl
  rw [if_neg hvalid]
  cases hclock : unixMs clock with
  | error e =>
    obtain rfl := unixMs_error hclock
    exact .quiet rfl rfl rfl
  | ok now =>
    have hat := foldCheck_attempts s req.dedupeKey now
    have hseq := foldCheck_sequence s req.dedupeKey now
    dsimp only
    rcases hfold : s.foldCheck req.dedupeKey now with ⟨folded, s'⟩
    rw [hfold] at hat hseq
    cases folded with
    | true => exact .folded rfl (by rw [← hseq]; rfl) hat
    | false =>
      cases out with
      | done | refused | late =>
        exact .appended rfl (by rw [← hseq]; rfl) (congrArg (· ++ [_]) hat) rfl

theorem step_delivers (s : Service) (call : Call) : Delivers s (reply s call, step s call) := by
  cases call with
  | notify req src clock out => exact notify_delivers s req src clock out
  | reading environmentId rs clock out => exact reading_delivers s environmentId rs clock out

theorem deliveries_fst (s : Service) (drawn : ℕ) (calls : List Call) :
    s.trail ++ (deliveries s drawn calls).map Prod.fst = (Runs.run step s calls).trail := by
  induction calls generalizing s drawn with
  | nil => exact append_nil _
  | cons call calls ih =>
    obtain ⟨added, had, -⟩ := step_attempts s call
    have htrail := trail_append s added _ had
    rw [Runs.run_cons, ← ih (step s call) (if drew (reply s call) then drawn + 1 else drawn),
      deliveries, map_append, ← append_assoc]
    simp [htrail, Function.comp_def]

theorem deliveries_numbered (s : Service) (drawn : ℕ) (hs : s.sequence = drawn % 2 ^ 64)
    (calls : List Call) :
    (deliveries s drawn calls).Pairwise (fun a b => a.2 < b.2) ∧
      ∀ d ∈ deliveries s drawn calls,
        drawn < d.2 ∧ d.1.id = idText d.1.createdAtUnixMs (d.2 % 2 ^ 64) := by
  induction calls generalizing s drawn with
  | nil => exact ⟨.nil, nofun⟩
  | cons call calls ih =>
    have hdel := step_delivers s call
    rw [deliveries]
    generalize reply s call = answer, step s call = s' at hdel ⊢
    cases hdel with
    | quiet idle counter kept =>
      have htrail := trail_append s [] s' (by rw [kept, append_nil])
      simpa [htrail, idle] using ih s' drawn (counter.trans hs)
    | folded drew counter kept =>
      have htrail := trail_append s [] s' (by rw [kept, append_nil])
      obtain ⟨hgrow, hall⟩ := ih s' (drawn + 1) (by rw [counter, hs, Nat.mod_add_mod])
      have hall' := fun d hd => And.imp_left Nat.lt_of_succ_lt (hall d hd)
      simpa [htrail, drew] using And.intro hgrow hall'
    | @appended _ _ r out drew counter written named =>
      have hs' : s'.sequence = (drawn + 1) % 2 ^ 64 := by rw [counter, hs, Nat.mod_add_mod]
      obtain ⟨hgrow, hall⟩ := ih s' (drawn + 1) hs'
      have hall' := fun d hd => And.imp_left Nat.lt_of_succ_lt (hall d hd)
      rw [trail_append s _ s' written, drop_left, drew, if_pos rfl]
      cases out with
      | refused => exact ⟨hgrow, hall'⟩
      | done | late =>
        refine ⟨pairwise_cons.mpr ⟨fun d hd => (hall d hd).1, hgrow⟩,
          forall_mem_cons.mpr ⟨?_, hall'⟩⟩
        exact ⟨Nat.lt_succ_self _, by rw [named, hs']⟩

theorem trail_times {calls : List Call} : (run calls).trail.map (·.createdAtUnixMs)
    <+ calls.filterMap Call.clock := by
  induction calls using reverseRecOn with
  | nil => exact Sublist.refl _
  | append_singleton calls call ih =>
    obtain ⟨added, had, htime⟩ := step_attempts (run calls) call
    have hrun : run (calls ++ [call]) = step (run calls) call := Runs.run_append calls [call]
    rw [hrun, trail_append _ added _ had, map_append, List.map_map, filterMap_append]
    refine ih.append ((filter_sublist.map _).trans ?_)
    cases hcl : call.clock with
    | none | some now => simpa [hcl] using htime

theorem idText_lt_iff (time m n : ℕ) : idText time m < idText time n ↔ Text.NumeralBefore m n := by
  rw [← Text.toString_lt_iff, String.lt_iff_toList_lt]
  simp [idText, Text.append_lt_append_iff]

theorem key_lt_iff {a b : NotificationReport} (h : a.createdAtUnixMs ≤ b.createdAtUnixMs) :
    a.key < b.key ↔ (a.createdAtUnixMs = b.createdAtUnixMs → a.id < b.id) := by
  rw [NotificationReport.key, NotificationReport.key, Prod.Lex.toLex_lt_toLex]
  grind

theorem mergeSort_eq_reverse_iff {α κ : Type} [LinearOrder κ] (key : α → κ) {l : List α}
    {R : α → α → Prop} (hord : l.Pairwise R) (hasym : ∀ a b, R a b → ¬ R b a) :
    l.mergeSort (fun a b => key b ≤ key a) = l.reverse ↔ l.Pairwise fun a b => key a < key b := by
  have htr : ∀ a b c : α, decide (key b ≤ key a) → decide (key c ≤ key b) →
      decide (key c ≤ key a) := by
    simpa using fun a b c hab hbc => le_trans hbc hab
  have htot : ∀ a b : α, (decide (key b ≤ key a) || decide (key a ≤ key b)) := by
    simpa using fun a b => le_total (key b) (key a)
  constructor
  · intro h
    refine pairwise_iff_forall_sublist.mpr fun {a b} hab => lt_of_not_ge fun hle => ?_
    -- otherwise the sort keeps the two in their order
    have hsub := pair_sublist_mergeSort htr htot (decide_eq_true hle) hab
    rw [h, ← reverse_sublist, reverse_reverse] at hsub
    exact hasym a b (pairwise_iff_forall_sublist.mp hord hab)
      (pairwise_iff_forall_sublist.mp hord hsub)
  · intro h
    have hnd : (l.map key).Nodup := pairwise_map.mpr (h.imp ne_of_lt)
    have hperm := mergeSort_perm l fun a b => key b ≤ key a
    refine Perm.eq_of_pairwise ?_ (pairwise_mergeSort htr htot l)
      (pairwise_reverse.mpr (h.imp fun hlt => decide_eq_true hlt.le))
      (hperm.trans (reverse_perm l).symm)
    intro a b ha hb hab hba
    exact inj_on_of_nodup_map hnd (hperm.mem_iff.mp ha) (mem_reverse.mp hb)
      (le_antisymm (of_decide_eq_true hba) (of_decide_eq_true hab))

/-- With a clock that does not go back, the records that the trail holds are listed in the
reverse of their delivery exactly when within each millisecond the counters of earlier
records have the smaller numerals. -/
theorem list_newest_first_iff {calls : List Call} {held : List (NotificationRecord × ℕ)}
    (hclock : (calls.filterMap Call.clock).Pairwise (· ≤ ·))
    (hheld : held <+ deliveries Service.default 0 calls) (dismissed : List String) :
    list (held.map Prod.fst) dismissed = (listed held dismissed).map Prod.fst ∧
    (listed held dismissed = (numbered held dismissed).reverse ↔
      (numbered held dismissed).Pairwise fun a b =>
        a.1.createdAtUnixMs = b.1.createdAtUnixMs →
          Text.NumeralBefore (a.2 % 2 ^ 64) (b.2 % 2 ^ 64)) := by
  obtain ⟨hgrow, hid⟩ := deliveries_numbered Service.default 0 rfl calls
  have hsub : (held.filter fun d => d.1.id ∉ dismissed) <+ deliveries Service.default 0 calls :=
    filter_sublist.trans hheld
  have htrail : (deliveries Service.default 0 calls).map Prod.fst = (run calls).trail :=
    deliveries_fst Service.default 0 calls
  have htime : (numbered held dismissed).Pairwise fun a b =>
      a.1.createdAtUnixMs ≤ b.1.createdAtUnixMs := by
    have hle := hclock.sublist trail_times
    rw [← htrail, pairwise_map, pairwise_map] at hle
    exact pairwise_map.mpr (hle.sublist hsub)
  have hgrow : (numbered held dismissed).Pairwise fun a b => a.2 < b.2 :=
    pairwise_map.mpr (hgrow.sublist hsub)
  have hid : ∀ d ∈ numbered held dismissed, d.1.id = idText d.1.createdAtUnixMs (d.2 % 2 ^ 64) := by
    intro d hd
    obtain ⟨r, hr, rfl⟩ := mem_map.mp hd
    exact (hid r (hsub.subset hr)).2
  refine ⟨?_, ?_⟩
  · rw [list, listed, map_mergeSort (s := fun a b : NotificationReport => b.key ≤ a.key)
      fun _ _ _ _ => rfl]
    simp [shown, numbered, List.filter_map, Function.comp_def]
  rw [listed, mergeSort_eq_reverse_iff (fun e : NotificationReport × ℕ => e.1.key) hgrow
    fun _ _ => lt_asymm]
  have hnum : ∀ a ∈ numbered held dismissed, ∀ b ∈ numbered held dismissed,
      a.1.createdAtUnixMs ≤ b.1.createdAtUnixMs → (a.1.key < b.1.key ↔
        (a.1.createdAtUnixMs = b.1.createdAtUnixMs →
          Text.NumeralBefore (a.2 % 2 ^ 64) (b.2 % 2 ^ 64))) := by
    intro a ha b hb hle
    rw [key_lt_iff hle]
    refine forall_congr' fun heq => ?_
    rw [hid a ha, hid b hb, heq, idText_lt_iff]
  exact ⟨fun h => (h.and htime).imp_of_mem fun ha hb hp => (hnum _ ha _ hb hp.2).mp hp.1,
    fun h => (h.and htime).imp_of_mem fun ha hb hp => (hnum _ ha _ hb hp.2).mpr hp.1⟩

theorem turnCalls_listed : (turnCalls.filterMap Call.clock).Pairwise (· ≤ ·) ∧
    listed (deliveries Service.default 0 turnCalls) [] =
      (numbered (deliveries Service.default 0 turnCalls) []).reverse := by
  have hclock : (turnCalls.filterMap Call.clock).Pairwise (· ≤ ·) := by decide
  exact ⟨hclock, (list_newest_first_iff hclock (Sublist.refl _) []).2.mpr (by decide +kernel)⟩

def burst : List Call :=
  replicate 10 (.notify { turnRequest with dedupeKey := none } "shell" (some 1000) .done)

/-- The tenth is listed behind the ninth, as the text `notif-1000-10` is the smaller one. -/
theorem tenth_listed_behind_ninth : (burst.filterMap Call.clock).Pairwise (· ≤ ·) ∧
    listed (deliveries Service.default 0 burst) [] ≠
      (numbered (deliveries Service.default 0 burst) []).reverse := by
  have hgrow : (numbered (deliveries Service.default 0 burst) []).Pairwise
      fun a b => a.2 < b.2 := by
    decide +kernel
  have hiff := mergeSort_eq_reverse_iff (fun e : NotificationReport × ℕ => e.1.key) hgrow
    fun _ _ => lt_asymm
  exact ⟨by decide, fun h => absurd (hiff.mp h) (by decide +kernel)⟩

end DshDesktop.Shell.Notifications
