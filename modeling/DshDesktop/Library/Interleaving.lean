import DshDesktop.Library.Runs
import Mathlib.Algebra.GroupWithZero.Nat
import Mathlib.Algebra.Order.BigOperators.Group.List

/-!
# Interleavings of threads over one shared state

The invariant rule asks that a thread's own step keeps the shared invariant and the thread's
assertion, and leaves the assertions of the others intact. The threads of a crew join one
after the other; the census rule proves that a shared counter is the sum of their shares.
-/

namespace Interleaving
variable {σ τ ι ε : Type*}

structure Pool (σ τ : Type*) where
  shared : σ
  thread : ℕ → τ

inductive Event (ι ε : Type*)
  | act (t : ℕ) (input : ι)
  | surroundings (change : ε)

section
variable (act : σ → τ → ι → σ × τ) (change : σ → ε → σ)

def step (p : Pool σ τ) : Event ι ε → Pool σ τ
  | .act t i =>
    let r := act p.shared (p.thread t) i
    ⟨r.1, Function.update p.thread t r.2⟩
  | .surroundings e => ⟨change p.shared e, p.thread⟩

variable {act change} {p : Pool σ τ}

@[simp] theorem step_act_self (t : ℕ) (i : ι) :
    (step act change p (.act t i)).thread t = (act p.shared (p.thread t) i).2 :=
  Function.update_self ..

theorem step_act_other {t u : ℕ} (h : u ≠ t) (i : ι) :
    (step act change p (.act t i)).thread u = p.thread u :=
  Function.update_of_ne h ..

end

def Holds (S : σ → Prop) (T : σ → τ → Prop) (p : Pool σ τ) : Prop :=
  S p.shared ∧ ∀ t, T p.shared (p.thread t)

variable {act : σ → τ → ι → σ × τ} {change : σ → ε → σ} {S : σ → Prop} {T : σ → τ → Prop}
  {p : Pool σ τ}

/-- A relation between any two different threads, such as that their claims do not
overlap. -/
def Apart (D : τ → τ → Prop) (p : Pool σ τ) : Prop :=
  ∀ t u, t ≠ u → D (p.thread t) (p.thread u)

section
variable {D : τ → τ → Prop}
  (own : ∀ g l i, S g → T g l → S (act g l i).1 ∧ T (act g l i).1 (act g l i).2)
  (stable : ∀ g l i m, S g → T g l → T g m → D l m → D m l → T (act g l i).1 m)
  (apart : ∀ g l i m, S g → T g l → T g m → D l m → D m l → D (act g l i).2 m ∧ D m (act g l i).2)
  (changed : ∀ g e, S g → S (change g e))
  (changedStable : ∀ g e m, S g → T g m → T (change g e) m)
include own stable apart changed changedStable

/-- The rule with a relation between different threads: the assertions of the others
only have to survive steps of threads they are apart from. -/
theorem holds_apart_step (p : Pool σ τ) (e : Event ι ε) (h : Holds S T p ∧ Apart D p) :
    Holds S T (step act change p e) ∧ Apart D (step act change p e) := by
  obtain ⟨⟨hs, ht⟩, hd⟩ := h
  cases e with
  | act t i =>
    have hown := own p.shared (p.thread t) i hs (ht t)
    have hel : ∀ u, u ≠ t → D (act p.shared (p.thread t) i).2 (p.thread u) ∧
        D (p.thread u) (act p.shared (p.thread t) i).2 := fun u hu =>
      apart p.shared (p.thread t) i (p.thread u) hs (ht t) (ht u) (hd t u hu.symm) (hd u t hu)
    refine ⟨⟨hown.1, ?_⟩, ?_⟩
    · intro u
      by_cases hu : u = t
      · subst hu
        rw [step_act_self]
        exact hown.2
      · rw [step_act_other hu]
        exact stable p.shared (p.thread t) i (p.thread u) hs (ht t) (ht u) (hd t u (Ne.symm hu))
          (hd u t hu)
    · intro u v huv
      by_cases hu : u = t
      · subst hu
        rw [step_act_self, step_act_other huv.symm]
        exact (hel v huv.symm).1
      by_cases hv : v = t
      · subst hv
        rw [step_act_self, step_act_other hu]
        exact (hel u hu).2
      · rw [step_act_other hu, step_act_other hv]
        exact hd u v huv
  | surroundings e =>
    exact ⟨⟨changed p.shared e hs, fun u => changedStable p.shared e (p.thread u) hs (ht u)⟩, hd⟩

theorem holds_apart_run (evs : List (Event ι ε)) (h : Holds S T p) (hd : Apart D p) :
    Holds S T (Runs.run (step act change) p evs) ∧ Apart D (Runs.run (step act change) p evs) :=
  Runs.run_invariant (fun p => Holds S T p ∧ Apart D p)
    (holds_apart_step own stable apart changed changedStable) evs ⟨h, hd⟩

end

theorem holds_run (own : ∀ g l i, S g → T g l → S (act g l i).1 ∧ T (act g l i).1 (act g l i).2)
    (stable : ∀ g l i m, S g → T g l → T g m → T (act g l i).1 m)
    (changed : ∀ g e, S g → S (change g e))
    (changedStable : ∀ g e m, S g → T g m → T (change g e) m) (evs : List (Event ι ε))
    (h : Holds S T p) : Holds S T (Runs.run (step act change) p evs) :=
  (holds_apart_run (D := fun _ _ => True) own (fun g l i m hg hl hm _ _ => stable g l i m hg hl hm)
    (fun _ _ _ _ _ _ _ _ _ => ⟨trivial, trivial⟩) changed changedStable evs h
    fun _ _ _ => trivial).1

end Interleaving

structure Crew (σ τ : Type*) where
  shared : σ
  members : List τ

namespace Crew
open List Runs
variable {σ τ ι : Type*} {f : τ → ℕ}

inductive Event (ι : Type*)
  | joins
  | acts (i : ℕ) (input : ι)

section
variable (start : τ) (act : σ → τ → ι → σ × τ)

def step (c : Crew σ τ) : Event ι → Crew σ τ
  | .joins => { c with members := c.members ++ [start] }
  | .acts i input =>
    match c.members[i]? with
    | none => c
    | some m =>
      let r := act c.shared m input
      ⟨r.1, c.members.set i r.2⟩

end

def census (f : τ → ℕ) (c : Crew σ τ) : ℕ := (c.members.map f).sum

theorem sum_map_set {l : List τ} {i : ℕ} {m : τ} (h : l[i]? = some m) (m' : τ) :
    ((l.set i m').map f).sum + f m = (l.map f).sum + f m' := by
  induction l generalizing i with
  | nil => cases h
  | cons x l ih =>
    cases i with
    | zero =>
      have hx : x = m := Option.some.inj h
      subst hx
      simp only [set_cons_zero, map_cons, sum_cons]
      omega
    | succ i =>
      have hl := ih (i := i) h
      simp only [set_cons_succ, map_cons, sum_cons]
      omega

theorem le_census {c : Crew σ τ} {i : ℕ} {m : τ} (h : c.members[i]? = some m) : f m ≤ c.census f :=
  single_le_sum (fun _ _ => Nat.zero_le _) _
    (mem_map_of_mem (mem_of_getElem? h))

variable {start : τ} {act : σ → τ → ι → σ × τ} {g : σ}

section
variable {q : σ → ℕ} (hstart : f start = 0)
  (hact : ∀ g m i, f m ≤ q g → q (act g m i).1 + f m = q g + f (act g m i).2)
include hstart hact

theorem census_step (c : Crew σ τ) (e : Event ι) (h : q c.shared = c.census f) :
    q (c.step start act e).shared = (c.step start act e).census f := by
  cases e with
  | joins =>
    simp only [step, census, map_append, map_cons, map_nil, sum_append, sum_cons, sum_nil, hstart]
    exact h
  | acts i input =>
    unfold step
    dsimp only
    cases hm : c.members[i]? with
    | none => exact h
    | some m =>
      have hle := le_census (f := f) hm
      have hsh := hact c.shared m input (h ▸ hle)
      have hsum := sum_map_set (f := f) hm (act c.shared m input).2
      unfold census at *
      dsimp only
      omega

/-- A counter whose changes are those of the acting thread's share is the sum of
all shares, in every run. -/
theorem census_run (hg : q g = 0) (evs : List (Event ι)) :
    q (run (step start act) ⟨g, []⟩ evs).shared =
      (run (step start act) ⟨g, []⟩ evs).census f :=
  run_invariant (fun c : Crew σ τ => q c.shared = c.census f) (census_step hstart hact)
    evs hg

theorem census_run_le {b : ℕ} (hbn : ∀ g m i, f m ≤ q g → q g ≤ b → q (act g m i).1 ≤ b)
    (hg : q g = 0) (evs : List (Event ι)) :
    q (run (step start act) ⟨g, []⟩ evs).shared ≤ b := by
  refine (run_invariant (fun c : Crew σ τ => q c.shared = c.census f ∧ q c.shared ≤ b) ?_
    evs ⟨hg, hg ▸ Nat.zero_le b⟩).2
  intro c e h
  refine ⟨census_step hstart hact c e h.1, ?_⟩
  cases e with
  | joins => exact h.2
  | acts i input =>
    unfold step
    dsimp only
    cases hm : c.members[i]? with
    | none => exact h.2
    | some m => exact hbn c.shared m input (h.1 ▸ le_census hm) h.2

end

theorem members_run {T : τ → Prop} (hstart : T start) (hact : ∀ g m i, T m → T (act g m i).2)
    (evs : List (Event ι)) : ∀ m ∈ (run (step start act) ⟨g, []⟩ evs).members, T m := by
  refine run_invariant (fun c : Crew σ τ => ∀ m ∈ c.members, T m) ?_ evs nofun
  intro c e h
  cases e with
  | joins =>
    intro m hm
    rcases mem_append.mp hm with hold | hnew
    · exact h m hold
    · rw [mem_singleton.mp hnew]
      exact hstart
  | acts i input =>
    unfold step
    dsimp only
    cases hi : c.members[i]? with
    | none => exact h
    | some m =>
      intro m' hm'
      rcases mem_or_eq_of_mem_set hm' with hold | hnew
      · exact h m' hold
      · rw [hnew]
        exact hact c.shared m input (h m (mem_of_getElem? hi))

end Crew
