import Mathlib.Tactic.Common

/-!
# Readers that make remarks

A tolerant reader returns what it read together with remarks on what a stricter reader would
have refused. `Passes bad` says that it got through without a bad remark.
-/

def Noted (ρ α : Type) := Option (List ρ × α)

namespace Noted
open List Option
variable {ρ α β : Type}

def bind (x : Noted ρ α) (f : α → Noted ρ β) : Noted ρ β :=
  match x with
  | none => none
  | some (remarks, a) =>
    match f a with
    | none => none
    | some (more, b) => some (remarks ++ more, b)

instance : Monad (Noted ρ) where
  pure a := some ([], a)
  bind := bind

def refuse : Noted ρ α := none

def ensure (condition : Bool) : Noted ρ Unit := if condition then some ([], ()) else none

def note (remark : ρ) : Noted ρ Unit := some ([remark], ())

def noteIf (condition : Bool) (remark : ρ) : Noted ρ Unit :=
  if condition then note remark else some ([], ())

def each (read : α → Noted ρ β) : List α → Noted ρ (List β)
  | [] => pure []
  | x :: xs => do
    let y ← read x
    let ys ← each read xs
    return y :: ys

def Passes (bad : ρ → Bool) (x : Noted ρ α) (a : α) : Prop :=
  ∃ remarks, x = some (remarks, a) ∧ ∀ r ∈ remarks, bad r = false

variable {bad : ρ → Bool} {a : α} {b : β} {f read : α → Noted ρ β} {x : Noted ρ α}
  {y : Unit → Noted ρ β}
  {u : Noted ρ Unit} {g : α → Option β} {cond : Bool} {remark : ρ}

@[simp] theorem passes_pure {a' : α} : Passes bad (pure a' : Noted ρ α) a ↔ a' = a := by
  constructor
  · intro h
    obtain ⟨rmks, heq, _⟩ := h
    cases heq
    rfl
  · intro h
    subst h
    exact ⟨[], rfl, nofun⟩

@[simp] theorem passes_refuse : ¬ Passes bad (refuse : Noted ρ α) a := by
  intro h
  obtain ⟨_, heq, _⟩ := h
  cases heq

theorem passes_bind : Passes bad (x >>= f) b ↔ ∃ a, Passes bad x a ∧ Passes bad (f a) b := by
  constructor
  · intro h
    obtain ⟨rmks, heq, hgd⟩ := h
    change bind x f = some (rmks, b) at heq
    unfold bind at heq
    split at heq
    · cases heq
    next first a =>
    split at heq
    · cases heq
    next more c hf =>
    cases heq
    refine ⟨a, ⟨first, rfl, ?_⟩, more, hf, ?_⟩
    · exact fun r hr => hgd r (mem_append_left _ hr)
    · exact fun r hr => hgd r (mem_append_right _ hr)
  · intro h
    obtain ⟨a, ⟨first, hx, hfr⟩, more, hf, hmr⟩ := h
    refine ⟨first ++ more, ?_, ?_⟩
    · show bind x f = _
      subst hx
      simp only [bind, hf]
      rfl
    · intro r hr
      rcases mem_append.mp hr with h | h
      · exact hfr r h
      · exact hmr r h

@[simp] theorem passes_ensure {u : Unit} : Passes bad (ensure cond) u ↔ cond := by
  cases cond with
  | true => exact ⟨fun _ => rfl, fun _ => ⟨[], rfl, nofun⟩⟩
  | false => exact ⟨fun h => absurd h passes_refuse, nofun⟩

@[simp] theorem passes_note {u : Unit} : Passes bad (note remark) u ↔ bad remark = false := by
  constructor
  · intro h
    obtain ⟨rmks, heq, hgd⟩ := h
    cases heq
    exact hgd remark mem_cons_self
  · intro h
    refine ⟨[remark], rfl, ?_⟩
    intro r hr
    rw [mem_singleton.mp hr]
    exact h

@[simp] theorem passes_noteIf {u : Unit} :
    Passes bad (noteIf cond remark) u ↔ (cond → bad remark = false) := by
  cases cond with
  | true => exact passes_note.trans ⟨fun h _ => h, fun h => h rfl⟩
  | false => exact ⟨fun _ h => (by cases h), fun _ => ⟨[], rfl, nofun⟩⟩

def Agrees (bad : ρ → Bool) (C : Prop) (x : Noted ρ α) (o : Option α) (R : α → Prop) : Prop :=
  ∀ a, C ∧ Passes bad x a ↔ o = some a ∧ R a

section
variable {C : Prop} {o : Option α} {P : α → Prop} {R : β → Prop}

theorem Agrees.pure {b : β} (h : C ↔ R b) : Agrees bad C (Pure.pure b) (some b) R := by
  intro b'
  rw [passes_pure, some_inj]
  constructor
  · intro hb
    obtain ⟨hc, rfl⟩ := hb
    exact ⟨rfl, h.mp hc⟩
  · intro hb
    obtain ⟨rfl, hr⟩ := hb
    exact ⟨h.mpr hr, rfl⟩

theorem Agrees.refuse : Agrees bad C (refuse : Noted ρ α) none P := by
  intro a
  exact ⟨fun h => absurd h.2 passes_refuse, fun h => nomatch h.1⟩

theorem Agrees.bind (hx : Agrees bad True x o P) (hf : ∀ a, Agrees bad (C ∧ P a) (f a) (g a) R) :
    Agrees bad C (x >>= f) (o >>= g) R := by
  intro b
  rw [passes_bind, bind_eq_bind, bind_eq_some_iff]
  constructor
  · intro h
    obtain ⟨hc, a, ha, hb⟩ := h
    obtain ⟨ho, hp⟩ := (hx a).mp ⟨trivial, ha⟩
    obtain ⟨hg, hr⟩ := (hf a b).mp ⟨⟨hc, hp⟩, hb⟩
    exact ⟨⟨a, ho, hg⟩, hr⟩
  · intro h
    obtain ⟨⟨a, ho, hg⟩, hr⟩ := h
    obtain ⟨⟨hc, hp⟩, hb⟩ := (hf a b).mpr ⟨hg, hr⟩
    exact ⟨hc, a, ((hx a).mpr ⟨ho, hp⟩).2, hb⟩

theorem Agrees.check (hx : Agrees bad True x o P) {f : α → Noted ρ α} {R : α → Prop}
    (hf : ∀ a, Agrees bad (C ∧ P a) (f a) (some a) R) : Agrees bad C (x >>= f) o R := by
  have h := hx.bind hf
  rwa [bind_eq_bind, bind_fun_some] at h

theorem Agrees.step {c : Prop} (hu : Passes bad u () ↔ c) {o : Option β}
    (hy : Agrees bad (C ∧ c) (y ()) o R) : Agrees bad C (u >>= y) o R := by
  intro b
  rw [← hy b, passes_bind, ← hu]
  constructor
  · intro h
    obtain ⟨hc, _, hu, hb⟩ := h
    exact ⟨⟨hc, hu⟩, hb⟩
  · intro h
    obtain ⟨⟨hc, hu⟩, hb⟩ := h
    exact ⟨hc, (), hu, hb⟩

theorem Agrees.skip (hu : Passes bad u ()) {o : Option β} (hy : Agrees bad C (y ()) o R) :
    Agrees bad C (u >>= y) o R :=
  .step (iff_true_intro hu) (by rwa [and_true])

theorem Agrees.each (h : ∀ x, Agrees bad True (read x) (g x) R) (xs : List α) :
    Agrees bad True (each read xs) (xs.mapM g) fun ys => ∀ y ∈ ys, R y := by
  induction xs with
  | nil => exact .pure (by simp)
  | cons x xs ih =>
    rw [mapM_cons]
    exact (h x).bind fun y => ih.bind fun ys => .pure (by simp)

end

def Ok (bad : ρ → Bool) (x : Noted ρ α) : Prop := ∃ a, Passes bad x a

theorem ok_bind : Ok bad (x >>= f) ↔ ∃ a, Passes bad x a ∧ Ok bad (f a) := by
  simp only [Ok, passes_bind]
  exact ⟨fun ⟨b, a, hx, hf⟩ => ⟨a, hx, b, hf⟩, fun ⟨a, hx, b, hf⟩ => ⟨b, a, hx, hf⟩⟩

theorem ok_and {A B : Prop} (hx : Ok bad x ↔ A) (hf : ∀ a, Ok bad (f a) ↔ B) :
    Ok bad (x >>= f) ↔ A ∧ B := by
  rw [ok_bind, ← hx]
  simp only [hf, exists_and_right]
  rfl

@[simp] theorem ok_pure {a : α} : Ok bad (pure a : Noted ρ α) := ⟨a, passes_pure.mpr rfl⟩

@[simp] theorem not_ok_refuse : ¬ Ok bad (refuse : Noted ρ α) := fun ⟨_, h⟩ => passes_refuse h

theorem ok_last {g : α → β} {A : Prop} (hx : Ok bad x ↔ A) :
    Ok bad (x >>= fun a => pure (g a)) ↔ A :=
  (ok_and hx fun _ => iff_true_intro ok_pure).trans (and_iff_left trivial)

theorem ok_unit {x : Noted ρ Unit} : Ok bad x ↔ Passes bad x () :=
  ⟨fun ⟨(), h⟩ => h, fun h => ⟨(), h⟩⟩

theorem ok_skip (hu : Passes bad u ()) {B : Prop} (hy : Ok bad (y ()) ↔ B) : Ok bad (u >>= y) ↔ B :=
  (ok_and (ok_unit.trans (iff_true_intro hu)) fun () => hy).trans (and_iff_right trivial)

theorem ok_each {P : α → Prop} (h : ∀ x, Ok bad (read x) ↔ P x) (xs : List α) :
    Ok bad (each read xs) ↔ ∀ x ∈ xs, P x := by
  induction xs with
  | nil => exact ⟨fun _ => nofun, fun _ => ok_pure⟩
  | cons x xs ih =>
    rw [forall_mem_cons]
    exact ok_and (h x) fun _ => ok_last ih

theorem passes_iff_passes_iff {x : Noted ρ Unit} {bad bad' : ρ → Bool} :
    (Passes bad x () ↔ Passes bad' x ()) ↔ ∀ rmks, x = some (rmks, ()) →
        ((∃ r ∈ rmks, bad r) ↔ ∃ r ∈ rmks, bad' r) := by
  cases x with
  | none =>
    have hnn : ∀ bad : ρ → Bool, ¬ Passes bad (none : Noted ρ Unit) () := fun _ => passes_refuse
    refine ⟨fun _ _ h => (by cases h), fun _ => ?_⟩
    exact ⟨fun h => absurd h (hnn bad), fun h => absurd h (hnn bad')⟩
  | some result =>
    obtain ⟨rmks, u⟩ := result
    have hps : ∀ bad : ρ → Bool, Passes bad (some (rmks, u)) () ↔ ¬ ∃ r ∈ rmks, bad r := by
      intro bad
      constructor
      · intro h hex
        obtain ⟨remarks', heq, hgd⟩ := h
        obtain ⟨r, hr, hbad⟩ := hex
        cases heq
        rw [hgd r hr] at hbad
        cases hbad
      · intro h
        refine ⟨rmks, rfl, ?_⟩
        intro r hr
        by_contra hbad
        exact h ⟨r, hr, by simpa using hbad⟩
    rw [hps, hps, not_iff_not]
    constructor
    · intro h remarks' heq
      cases heq
      exact h
    · intro h
      exact h rmks rfl

end Noted
