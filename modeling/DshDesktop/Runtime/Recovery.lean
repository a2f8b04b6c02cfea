import Mathlib.Data.List.Infix
import DshDesktop.Runtime.Supervisor

/-!
# Safe Stop and bursts of crashes

`record_crash` counts the crashes of one recovery window. The windows are consecutive pieces
of the crash history: a window is opened by each crash more than `RECOVERY_WINDOW` after the
one that opened the last.
-/

namespace DshDesktop.Runtime
open List

variable (times : List ℕ)

def recoveryAfter : Option RecoveryState :=
  times.foldl (fun recovery now => some (recordCrash now recovery)) none

def currentWindow : List ℕ :=
  times.foldl (fun window now =>
    match window with
    | [] => [now]
    | start :: _ => if now - start > recoveryWindowMs then [now] else window ++ [now]) []

def BurstFrom (a : ℕ) (times : List ℕ) : Prop :=
  recoveryBudget ≤ times.countP fun t => a ≤ t && t ≤ a + recoveryWindowMs

def Latched (recovery : Option RecoveryState) : Prop :=
  (∃ r, recovery = some r ∧ r.safeStop = true) ∧
    ∀ s : Supervisor, s.recovery = recovery → s.autoRestartEligible = false

theorem currentWindow_snoc {now : ℕ} : currentWindow (times ++ [now])
    = match currentWindow times with
      | [] => [now]
      | start :: rest =>
        if now - start > recoveryWindowMs then [now] else start :: rest ++ [now] := by
  unfold currentWindow
  rw [foldl_append]
  cases times.foldl _ [] with
  | nil | cons start rest => rfl

theorem recoveryAfter_snoc {now : ℕ} :
    recoveryAfter (times ++ [now]) = some (recordCrash now (recoveryAfter times)) := by
  unfold recoveryAfter
  rw [foldl_append]
  rfl

def Describes (recovery : Option RecoveryState) : List ℕ → Prop
  | [] => recovery = none
  | start :: rest => ∃ r, recovery = some r ∧ r.windowStartUnixMs = start ∧
      r.crashCount = rest.length + 1 ∧ r.safeStop = decide (recoveryBudget ≤ rest.length + 1)

theorem describes_recoveryAfter : Describes (recoveryAfter times) (currentWindow times) := by
  induction times using List.reverseRecOn with
  | nil => rfl
  | append_singleton times now ih =>
    rw [currentWindow_snoc, recoveryAfter_snoc]
    cases hw : currentWindow times with
    | nil =>
      rw [hw] at ih
      have hnn : recoveryAfter times = none := ih
      rw [hnn]
      exact ⟨_, rfl, by simp [recordCrash, recoveryBudget]⟩
    | cons start rest =>
      rw [hw] at ih
      obtain ⟨r, hr, hst, hcount, hsf⟩ := ih
      rw [hr]
      by_cases hlt : now - start > recoveryWindowMs
      · simp only [hlt, if_true]
        refine ⟨_, rfl, ?_⟩
        simp [recordCrash, hst, hlt, recoveryBudget]
      simp only [hlt, if_false, cons_append]
      refine ⟨_, rfl, ?_⟩
      simp only [recordCrash, Option.getD_some, hst, hlt, if_false, hcount,
        length_append, length_singleton]
      by_cases hfull : rest.length + 1 + 1 ≥ recoveryBudget
      · simp [hfull]
      · have hoe : ¬ recoveryBudget ≤ rest.length + 1 := by omega
        simp [hfull, hsf, hoe]

theorem latched_iff :
    Latched (recoveryAfter times) ↔ recoveryBudget ≤ (currentWindow times).length := by
  have hd := describes_recoveryAfter times
  cases hw : currentWindow times with
  | nil =>
    rw [hw] at hd
    have hnn : recoveryAfter times = none := hd
    simp [Latched, hnn, recoveryBudget]
  | cons start rest =>
    rw [hw] at hd
    obtain ⟨r, hr, -, -, hsf⟩ := hd
    rw [length_cons, hr]
    constructor
    · intro h
      obtain ⟨⟨r', hr', hsf'⟩, -⟩ := h
      have he := Option.some.inj hr'
      subst he
      rw [hsf] at hsf'
      exact of_decide_eq_true hsf'
    · intro h
      have hlt : r.safeStop := by rw [hsf]; exact decide_eq_true h
      refine ⟨⟨r, rfl, hlt⟩, ?_⟩
      intro s hs
      simp [Supervisor.autoRestartEligible, hs, hlt]

theorem currentWindow_suffix : currentWindow times <:+ times := by
  induction times using List.reverseRecOn with
  | nil => exact suffix_rfl
  | append_singleton times now ih =>
    rw [currentWindow_snoc]
    cases hw : currentWindow times with
    | nil => exact suffix_append times [now]
    | cons start rest =>
      rw [hw] at ih
      by_cases hlt : now - start > recoveryWindowMs
      · simp only [hlt, if_true]
        exact suffix_append times [now]
      · simp only [hlt, if_false]
        obtain ⟨bef, hb⟩ := ih
        exact ⟨bef, by simp [← hb]⟩

theorem currentWindow_extended {times : List ℕ} {now : ℕ}
    (h : recoveryBudget ≤ (currentWindow (times ++ [now])).length) :
    currentWindow (times ++ [now]) = currentWindow times ++ [now] := by
  rw [currentWindow_snoc] at h ⊢
  cases hw : currentWindow times with
  | nil => rfl
  | cons start rest =>
    rw [hw] at h
    simp only at h ⊢
    split
    · rename_i hlt
      simp [hlt, recoveryBudget] at h
    · rfl

section
variable {times : List ℕ} (hs : times.Pairwise (· ≤ ·))
include hs

theorem filter_ge_suffix (a : ℕ) : times.filter (fun t => a ≤ t) <:+ times := by
  induction times with
  | nil => exact suffix_rfl
  | cons t times ih =>
    obtain ⟨hle, hs⟩ := pairwise_cons.mp hs
    by_cases ha : a ≤ t
    · have hall : ∀ u ∈ t :: times, (decide (a ≤ u)) := by
        intro u hu
        rcases mem_cons.mp hu with he | hm
        · simpa [he] using ha
        · simpa using le_trans ha (hle u hm)
      rw [filter_eq_self.mpr hall]
    · rw [filter_cons_of_neg (by simpa using ha)]
      exact (ih hs).trans (suffix_cons t times)

theorem countP_le_of_suffix {window : List ℕ} {a n : ℕ} (hw : window <:+ times)
    (hlen : n ≤ window.length) (hn : n ≤ times.countP fun t => a ≤ t) :
    n ≤ window.countP fun t => a ≤ t := by
  have hf := filter_ge_suffix hs a
  rw [countP_eq_length_filter] at hn
  rcases suffix_or_suffix_of_suffix hf hw with hin | hin
  · have hsub := hin.sublist.countP_le (p := fun t => decide (a ≤ t))
    have hself : (times.filter fun t => a ≤ t).countP (fun t => a ≤ t) =
        (times.filter fun t => a ≤ t).length := by
      rw [countP_eq_length]
      intro t ht
      exact (mem_filter.mp ht).2
    omega
  have hself : window.countP (fun t => a ≤ t) = window.length := by
    rw [countP_eq_length]
    intro t ht
    exact (mem_filter.mp (hin.subset ht)).2
  omega

/-- A burst whose history latches at every burst lies in the current window: its
third crash found the window full, and no later crash opened another one. -/
theorem burst_in_currentWindow
    (hlt : ∀ past, past <+: times → (∃ a, BurstFrom a past) → Latched (recoveryAfter past))
    {a : ℕ} (ha : BurstFrom a times) : BurstFrom a (currentWindow times) := by
  induction times using List.reverseRecOn with
  | nil => exact ha
  | append_singleton times now ih =>
    have hfull := (latched_iff _).mp (hlt _ prefix_rfl ⟨a, ha⟩)
    have hext := currentWindow_extended hfull
    rw [hext] at hfull ⊢
    have hps := (pairwise_append.mp hs).1
    unfold BurstFrom at ha ⊢
    rw [countP_append] at ha ⊢
    by_cases hb : BurstFrom a times
    · have hw := ih hps (fun past hp => hlt past (hp.trans (prefix_append _ _))) hb
      unfold BurstFrom at hw
      omega
    -- this crash completes the burst, so all of it lies at the end of the history
    unfold BurstFrom at hb
    have hone : [now].countP (fun t => a ≤ t && t ≤ a + recoveryWindowMs) = 1 := by
      have hle := countP_le_length (l := [now])
        (p := fun t => a ≤ t && t ≤ a + recoveryWindowMs)
      simp only [length_singleton] at hle
      omega
    have hnow : now ≤ a + recoveryWindowMs := by
      have hpos : 0 < [now].countP (fun t => a ≤ t && t ≤ a + recoveryWindowMs) := by omega
      obtain ⟨t, ht, hsp⟩ := countP_pos_iff.mp hpos
      rw [mem_singleton.mp ht] at hsp
      simp only [Bool.and_eq_true, decide_eq_true_eq] at hsp
      exact hsp.2
    have hsp : ∀ {l : List ℕ}, (∀ t ∈ l, t ∈ times) →
        l.countP (fun t => a ≤ t && t ≤ a + recoveryWindowMs) = l.countP fun t => a ≤ t := by
      intro l hl
      refine countP_congr ?_
      intro t ht
      have hle := (pairwise_append.mp hs).2.2 t (hl t ht) now (mem_singleton.mpr rfl)
      simp only [Bool.and_eq_true, decide_eq_true_eq, and_iff_left_iff_imp]
      omega
    have hsf := currentWindow_suffix times
    rw [hsp (fun t ht => ht)] at ha
    rw [hsp (fun t ht => hsf.subset ht)]
    rw [length_append, length_singleton] at hfull
    have hw := countP_le_of_suffix (n := recoveryBudget - 1) hps hsf (a := a)
      (by omega) (by omega)
    omega

end

/-- A burst is latched from its last crash on in exactly the histories where, at
every moment, each burst so far lies in the window then current. -/
theorem latched_on_burst_iff (times : List ℕ) (hs : times.Pairwise (· ≤ ·)) :
    (∀ past, past <+: times → (∃ a, BurstFrom a past) → Latched (recoveryAfter past)) ↔
      ∀ past, past <+: times → ∀ a, BurstFrom a past → BurstFrom a (currentWindow past) := by
  constructor
  · intro h past hp a ha
    exact burst_in_currentWindow (hs.sublist hp.sublist)
      (fun earlier he => h earlier (he.trans hp)) ha
  · intro h past hp hbr
    obtain ⟨a, ha⟩ := hbr
    have hw := h past hp a ha
    have hle := List.countP_le_length (l := currentWindow past)
      (p := fun t => a ≤ t && t ≤ a + recoveryWindowMs)
    exact (latched_iff past).mpr (le_trans hw hle)

theorem latched_on_burst_iff_close :
    BurstFrom 0 [0, 10, 20] ∧ Latched (recoveryAfter [0, 10, 20]) := by
  have hburst : BurstFrom 0 [0, 10, 20] := by unfold BurstFrom; decide
  refine ⟨hburst, (latched_on_burst_iff _ (by decide)).mpr ?_ _ prefix_rfl ⟨0, hburst⟩⟩
  intro past hp a ha
  rcases (by simpa using (mem_inits _ _).mpr hp : past = [] ∨ past = [0] ∨ past = [0, 10] ∨
    past = [0, 10, 20]) with rfl | rfl | rfl | rfl <;> exact ha

/-- Three crashes in twelve seconds, over the edge of a window: the record still
allows an automatic restart. -/
theorem burst_over_window_edge_not_latched : [0, 50000, 61000, 62000].Pairwise (· ≤ ·) ∧
      BurstFrom 50000 [0, 50000, 61000, 62000] ∧
      ¬ Latched (recoveryAfter [0, 50000, 61000, 62000]) ∧
      ∃ s : Supervisor, s.recovery = recoveryAfter [0, 50000, 61000, 62000] ∧
        s.autoRestartEligible = true := by
  refine ⟨by decide, by unfold BurstFrom; decide, ?_, ?_⟩
  · rw [latched_iff]
    decide
  · refine ⟨{ Supervisor.initial with
      state := some .crashed, autoRestartOnCrash := true,
      retainedSpec := some ⟨"dsh", [], none, [], none⟩,
      recovery := recoveryAfter [0, 50000, 61000, 62000] }, rfl, ?_⟩
    decide

end DshDesktop.Runtime
