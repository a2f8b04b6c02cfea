import DshDesktop.Daemon.Scheduler
import DshDesktop.Library.Runs

/-!
# Runs of the scheduler

A registration is followed by its sequence number: it is pending with as many fires left as
it has not had, or was cancelled before its last fire, or has had them all. A worker that
makes a round after every due time fires a bounded repeat to its end.
-/

namespace DshDesktop.Daemon.Scheduler
open Occurrence List Entry

structure Distinct (inner : Inner) (history : List Occurrence) : Prop where
  ids : (inner.entries.map wakeId).Nodup
  seqs : (inner.entries.map seq).Nodup
  sound : ∀ e ∈ inner.entries, e.Sound
  below : ∀ e ∈ inner.entries, e.seq < inner.nextSeq
  past : ∀ o ∈ history, o.entry.seq < inner.nextSeq

theorem forall_mem_concat {α : Type} {P : α → Prop} {xs : List α} {x : α}
    (hxs : ∀ y ∈ xs, P y) (hx : P x) : ∀ y ∈ xs ++ [x], P y :=
  forall_mem_append.mpr ⟨hxs, forall_mem_singleton.mpr hx⟩

section
variable {rdg : FireReading} {inner : Inner} {l₁ l₂ : List Entry} {e : Entry}

theorem mem_refire {x : Entry}
    (hx : x ∈ (fire rdg { inner with entries := l₁ ++ l₂ } e).entries) (hs : e.Sound) :
    x ∈ l₁ ++ l₂ ∨ e.Again x rdg.instant := by
  rw [fire, mem_append, Option.mem_toList] at hx
  exact hx.imp_right fun hag => rescheduled_some hag hs

theorem nodup_refire {β : Type} (f : Entry → β) (hf : ∀ x, e.Same x → f x = f e) (hs : e.Sound)
    (h : ((l₁ ++ e :: l₂).map f).Nodup) :
    ((fire rdg { inner with entries := l₁ ++ l₂ } e).entries.map f).Nodup := by
  rw [map_append, map_cons] at h
  have hmv := perm_middle.nodup_iff.mp h
  rw [fire, map_append, map_append]
  cases hag : e.rescheduled rdg.instant with
  | none => simpa using hmv.of_cons
  | some x =>
    have heq := hf x (rescheduled_some hag hs).same
    rw [Option.toList_some, map_singleton, heq]
    exact (perm_append_singleton _ _).nodup_iff.mpr hmv

end

variable {e p : Entry} (es : List Entry)

section
variable {i : Inner} {h os : List Occurrence} (hd : Distinct i h)
include hd

theorem Distinct.accepted (hseq : e.seq = i.nextSeq) (hnew : ∀ p ∈ i.entries, p.wakeId ≠ e.wakeId)
    (hsn : e.Sound) : Distinct (i.push e) (h ++ [.accepted e]) := by
  have hnx : e.seq < i.nextSeq + 1 := by omega
  refine ⟨?_, ?_, ?_, ?_, ?_⟩
  · rw [Inner.push, map_append, map_singleton]
    refine hd.ids.append (nodup_singleton _) ?_
    simpa using hnew
  · rw [Inner.push, map_append, map_singleton]
    refine hd.seqs.append (nodup_singleton _) ?_
    rw [disjoint_singleton, hseq, mem_map]
    intro hmem
    obtain ⟨p, hp, heq⟩ := hmem
    have hlt := hd.below p hp
    omega
  · exact forall_mem_concat hd.sound hsn
  · exact forall_mem_concat (fun x hx => Nat.lt_succ_of_lt (hd.below x hx)) hnx
  · exact forall_mem_concat (fun o ho => Nat.lt_succ_of_lt (hd.past o ho)) hnx

theorem Distinct.cancelled (wakeId : String) :
    Distinct (i.withdraw wakeId).2 (h ++ (i.withdraw wakeId).1.removed.map .cancelled) := by
  have hsub : ((i.withdraw wakeId).2.entries).Sublist i.entries := filter_sublist
  refine ⟨hd.ids.sublist (hsub.map _), hd.seqs.sublist (hsub.map _),
    fun x hx => hd.sound x (hsub.subset hx), fun x hx => hd.below x (hsub.subset hx), ?_⟩
  intro o ho
  rcases mem_append.mp ho with hold | hrem
  · exact hd.past o hold
  · obtain ⟨e, he, rfl⟩ := mem_map.mp hrem
    exact hd.below e (mem_of_mem_filter he)

theorem Distinct.fired (reading : FireReading) {l₁ l₂ : List Entry}
    (hrw : i.entries = l₁ ++ e :: l₂) :
    Distinct (fire reading { i with entries := l₁ ++ l₂ } e) (h ++ [.fired e]) := by
  have hmem : ∀ x ∈ l₁ ++ e :: l₂, x ∈ i.entries := fun x hx => hrw ▸ hx
  have he : e ∈ i.entries := hmem e (by simp)
  have hrs : ∀ x ∈ l₁ ++ l₂, x ∈ i.entries := by
    intro x hx
    apply hmem
    rw [mem_append] at hx ⊢
    exact hx.imp_right (mem_cons_of_mem e)
  refine ⟨?_, ?_, ?_, ?_, ?_⟩
  · exact nodup_refire wakeId (fun x hx => hx.wakeId) (hd.sound e he) (hrw ▸ hd.ids)
  · exact nodup_refire seq (fun x hx => hx.seq) (hd.sound e he) (hrw ▸ hd.seqs)
  · exact sound_fire reading i fun x hx => hd.sound x (hmem x hx)
  · intro x hx
    rcases mem_refire hx (hd.sound e he) with hold | hag
    · exact hd.below x (hrs x hold)
    · rw [hag.same.seq]
      exact hd.below e he
  · exact forall_mem_concat hd.past (hd.below e he)

theorem Distinct.tick {j : Inner} (ht : Tick i os j) : Distinct j (h ++ os) := by
  cases ht with
  | idle hrw hseq =>
    rw [append_nil]
    exact ⟨hrw ▸ hd.ids, hrw ▸ hd.seqs, hrw ▸ hd.sound, hrw ▸ hseq ▸ hd.below, hseq ▸ hd.past⟩
  | accepted e hseq hnew hsn => exact hd.accepted hseq hnew hsn
  | cancelled wakeId => exact hd.cancelled wakeId
  | fired reading l₁ e l₂ hrw => exact hd.fired reading hrw

end

section
variable {h : List Occurrence} {seq : ℕ}

@[simp] theorem fires_append (h h' : List Occurrence) (seq : ℕ) :
    fires (h ++ h') seq = fires h seq + fires h' seq :=
  countP_append

@[simp] theorem fires_accepted : fires [.accepted e] seq = 0 := rfl

@[simp] theorem fires_cancelled : fires (es.map .cancelled) seq = 0 := by
  induction es with
  | nil => rfl
  | cons e es ih =>
    exact ih

@[simp] theorem fires_fired_self : fires [.fired e] e.seq = 1 := by
  simp [fires, isFireOf]

theorem fires_fired_other (hne : e.seq ≠ seq) : fires [.fired e] seq = 0 := by
  simp [fires, isFireOf, hne]

theorem fires_of_forall_ne (hne : ∀ o ∈ h, o.entry.seq ≠ seq) : fires h seq = 0 := by
  rw [fires, countP_eq_zero]
  intro o ho hfr
  cases o with
  | accepted e | cancelled e => cases hfr
  | fired e => exact hne _ ho (beq_iff_eq.mp hfr)

end

inductive Fate (inner : Inner) (history : List Occurrence) (a : Entry) : Prop
  | pending (e : Entry) : e ∈ inner.entries → a.Same e →
      a.left = e.left.map (· + fires history a.seq) → Fate inner history a
  | cancelled (e : Entry) : .cancelled e ∈ history → e.seq = a.seq →
      (∀ p ∈ inner.entries, p.seq ≠ a.seq) →
      (∀ n, a.left = some n → fires history a.seq < n) → Fate inner history a
  | completed : (∀ p ∈ inner.entries, p.seq ≠ a.seq) → a.left = some (fires history a.seq) →
      Fate inner history a

structure Followed (inner : Inner) (history : List Occurrence) : Prop where
  distinct : Distinct inner history
  single : (acceptedSeqs history).Nodup
  fresh : ∀ a, .accepted a ∈ history → a.firesLeft = a.repeating.bind WakeRepeat.count
  fate : ∀ a, .accepted a ∈ history → Fate inner history a
  counted : ∀ e, .fired e ∈ history → e.firesLeft ≠ some 0

section
variable {i j : Inner} {h os : List Occurrence} {a : Entry} {rdg : FireReading}

theorem Distinct.eq_of_seq (hd : Distinct i h) (hp : p ∈ i.entries) (he : e ∈ i.entries)
    (hseq : p.seq = e.seq) : p = e :=
  inj_on_of_nodup_map hd.seqs hp he hseq

theorem Fate.others (hf : Fate i h a) (hkp : ∀ p ∈ i.entries, p.seq = a.seq → p ∈ j.entries)
    (hnn : (∀ p ∈ i.entries, p.seq ≠ a.seq) → ∀ p ∈ j.entries, p.seq ≠ a.seq)
    (hfr : fires os a.seq = 0) : Fate j (h ++ os) a := by
  have heq : fires (h ++ os) a.seq = fires h a.seq := by
    rw [fires_append, hfr, Nat.add_zero]
  cases hf with
  | pending e he hag hlf =>
    exact .pending e (hkp e he hag.seq) hag (heq.symm ▸ hlf)
  | cancelled e hcanc hseq hgn hlt =>
    exact .cancelled e (mem_append_left _ hcanc) hseq (hnn hgn) (heq.symm ▸ hlt)
  | completed hgn hlf => exact .completed (hnn hgn) (heq.symm ▸ hlf)

theorem Fate.withdraw (hd : Distinct i h) (hf : Fate i h a) (wakeId : String) :
    Fate (i.withdraw wakeId).2 (h ++ (i.withdraw wakeId).1.removed.map .cancelled) a := by
  have hsub : ∀ p ∈ (i.withdraw wakeId).2.entries, p ∈ i.entries := fun p hp =>
    mem_of_mem_filter hp
  have heq : fires (h ++ (i.withdraw wakeId).1.removed.map .cancelled) a.seq = fires h a.seq := by
    simp
  cases hf with
  | pending e he hag hlf =>
    by_cases hid : e.wakeId = wakeId
    · have hrem : e ∈ (i.withdraw wakeId).1.removed := mem_filter.mpr ⟨he, beq_iff_eq.mpr hid⟩
      refine .cancelled e (mem_append_right _ (mem_map_of_mem hrem)) hag.seq ?_ ?_
      · intro p hp hseq
        obtain rfl := hd.eq_of_seq (hsub p hp) he (hseq.trans hag.seq.symm)
        have hkp := (mem_filter.mp hp).2
        simp [hid] at hkp
      · intro n hn
        rw [hlf, Option.map_eq_some_iff] at hn
        obtain ⟨k, hk, rfl⟩ := hn
        have hpos := (hd.sound e he).left_pos hk
        omega
    · have hkp : e ∈ (i.withdraw wakeId).2.entries := mem_filter.mpr ⟨he, bne_iff_ne.mpr hid⟩
      exact .pending e hkp hag (heq.symm ▸ hlf)
  | cancelled e hcanc hseq hgn hlt =>
    exact .cancelled e (mem_append_left _ hcanc) hseq (fun p hp => hgn p (hsub p hp))
      (heq.symm ▸ hlt)
  | completed hgn hlf =>
    exact .completed (fun p hp => hgn p (hsub p hp)) (heq.symm ▸ hlf)

theorem Fate.fire_self {l₁ l₂ : List Entry} (hd : Distinct i h) (hrw : i.entries = l₁ ++ e :: l₂)
    (hag : a.Same e) (hlf : a.left = e.left.map (· + fires h a.seq)) :
    Fate (fire rdg { i with entries := l₁ ++ l₂ } e) (h ++ [.fired e]) a := by
  have hone : fires (h ++ [.fired e]) a.seq = fires h a.seq + 1 := by
    rw [fires_append, ← hag.seq, fires_fired_self]
  have hsn : e.Sound := hd.sound e (by simp [hrw])
  have hel : ∀ p ∈ l₁ ++ l₂, p.seq ≠ a.seq := by
    have hnd := hd.seqs
    rw [hrw, map_append, map_cons] at hnd
    have hnotin := (nodup_cons.mp (perm_middle.nodup_iff.mp hnd)).1
    rw [← map_append] at hnotin
    intro p hp hseq
    have hown : p.seq = e.seq := hseq.trans hag.seq.symm
    exact hnotin (hown ▸ mem_map_of_mem hp)
  cases haa : e.rescheduled rdg.instant with
  | none =>
    have hlast := (rescheduled_none haa hsn).1
    refine .completed ?_ ?_
    · intro p hp
      rw [fire, haa] at hp
      exact hel p (by simpa using hp)
    · rw [hlf, hlast, hone, Option.map_some, Nat.add_comm]
  | some e' =>
    have hnx := rescheduled_some haa hsn
    refine .pending e' ?_ ?_ ?_
    · rw [fire, haa]
      simp
    · exact ⟨hnx.same.seq.trans hag.seq, hnx.same.wakeId.trans hag.wakeId,
        hnx.same.repeating.trans hag.repeating⟩
    · rw [hlf, hnx.left, hone, Option.map_map]
      congr 1
      funext k
      show k + 1 + fires h a.seq = k + (fires h a.seq + 1)
      omega

theorem mem_refire_of_ne {l₁ l₂ : List Entry} (hp : p ∈ l₁ ++ e :: l₂) (hne : p ≠ e) :
    p ∈ (fire rdg { i with entries := l₁ ++ l₂ } e).entries := by
  rw [fire, mem_append]
  left
  rw [mem_append, mem_cons] at hp
  rw [mem_append]
  exact hp.imp_right fun hor => hor.resolve_left hne

theorem Fate.fire {l₁ l₂ : List Entry} (hd : Distinct i h) (hrw : i.entries = l₁ ++ e :: l₂)
    (hf : Fate i h a) : Fate (fire rdg { i with entries := l₁ ++ l₂ } e) (h ++ [.fired e]) a := by
  have he : e ∈ i.entries := by simp [hrw]
  by_cases hseq : e.seq = a.seq
  · cases hf with
    | pending p hp hag hlf =>
      obtain rfl := hd.eq_of_seq hp he (hag.seq.trans hseq.symm)
      exact .fire_self hd hrw hag hlf
    | cancelled p hcanc hps hgn hlt | completed hgn hlf =>
      exact absurd hseq (hgn e he)
  refine hf.others ?_ ?_ (fires_fired_other hseq)
  · intro p hp hps
    refine mem_refire_of_ne (hrw ▸ hp) ?_
    intro heq
    exact hseq (heq ▸ hps)
  · intro hgn p hp
    rcases mem_refire hp (hd.sound e he) with hold | haa
    · apply hgn
      rw [hrw, mem_append, mem_cons]
      exact (mem_append.mp hold).imp_right Or.inr
    · rw [haa.same.seq]
      exact hseq

theorem Fate.accepted (hseq : e.seq = i.nextSeq) (ha : a.seq < i.nextSeq)
    (hf : Fate i h a) : Fate (i.push e) (h ++ [.accepted e]) a := by
  refine hf.others ?_ ?_ fires_accepted
  · intro p hp _
    exact mem_append_left _ hp
  · intro hgn
    exact forall_mem_concat hgn (by omega)

theorem Fate.opened (hd : Distinct i h) (hseq : e.seq = i.nextSeq) :
    Fate (i.push e) (h ++ [.accepted e]) e := by
  refine .pending e (by simp [Inner.push]) ⟨rfl, rfl, rfl⟩ ?_
  have hzr : fires h e.seq = 0 := by
    apply fires_of_forall_ne
    intro o ho heq
    have hlt := hd.past o ho
    omega
  rw [fires_append, hzr, fires_accepted]
  exact Option.map_id'.symm

theorem acceptedSeqs_append (h h' : List Occurrence) :
    acceptedSeqs (h ++ h') = acceptedSeqs h ++ acceptedSeqs h' := by
  rw [acceptedSeqs, filter_append, map_append]
  rfl

theorem acceptedSeqs_cancelled : acceptedSeqs (es.map .cancelled) = [] := by
  induction es with
  | nil => rfl
  | cons e es ih => exact ih

theorem Distinct.acceptedSeqs_lt (hd : Distinct i h) : ∀ seq ∈ acceptedSeqs h, seq < i.nextSeq := by
  intro seq hseq
  obtain ⟨o, ho, rfl⟩ := mem_map.mp hseq
  exact hd.past o (mem_of_mem_filter ho)

theorem Followed.tick_single (hk : Followed i h) (ht : Tick i os j) :
    (acceptedSeqs (h ++ os)).Nodup := by
  rw [acceptedSeqs_append]
  cases ht with
  | idle => simpa [acceptedSeqs] using hk.single
  | accepted e hseq =>
    have hone : acceptedSeqs [.accepted e] = [e.seq] := rfl
    rw [hone]
    refine hk.single.append (nodup_singleton e.seq) ?_
    rw [disjoint_singleton]
    intro hmem
    have hlt := hk.distinct.acceptedSeqs_lt _ hmem
    omega
  | cancelled wakeId =>
    rw [acceptedSeqs_cancelled, append_nil]
    exact hk.single
  | fired rdg l₁ e l₂ hrw =>
    have hnn : acceptedSeqs [.fired e] = [] := rfl
    rw [hnn, append_nil]
    exact hk.single

theorem Followed.tick (hk : Followed i h) (ht : Tick i os j) : Followed j (h ++ os) := by
  have hds := hk.distinct.tick ht
  have hone := hk.tick_single ht
  cases ht with
  | idle hrw =>
    rw [append_nil] at hds hone ⊢
    refine ⟨hds, hone, hk.fresh, ?_, hk.counted⟩
    intro a ha
    have hf : Fate j (h ++ []) a := (hk.fate a ha).others (fun p hp _ => hrw.symm ▸ hp)
      (fun hgn => hrw.symm ▸ hgn) rfl
    rwa [append_nil] at hf
  | accepted e hseq hnew hsn hfr =>
    refine ⟨hds, hone, ?_, ?_, ?_⟩
    · intro a ha
      rcases mem_append.mp ha with hold | hlast
      · exact hk.fresh a hold
      · cases mem_singleton.mp hlast
        exact hfr
    · intro a ha
      rcases mem_append.mp ha with hold | hlast
      · exact (hk.fate a hold).accepted hseq (hk.distinct.past _ hold)
      · cases mem_singleton.mp hlast
        exact .opened hk.distinct hseq
    · intro x hx
      exact hk.counted x (by simpa using hx)
  | cancelled wakeId =>
    refine ⟨hds, hone, ?_, ?_, ?_⟩
    · intro a ha
      exact hk.fresh a (by simpa using ha)
    · intro a ha
      exact (hk.fate a (by simpa using ha)).withdraw hk.distinct wakeId
    · intro x hx
      exact hk.counted x (by simpa using hx)
  | fired rdg l₁ e l₂ hrw =>
    refine ⟨hds, hone, ?_, ?_, ?_⟩
    · intro a ha
      exact hk.fresh a (by simpa using ha)
    · intro a ha
      exact (hk.fate a (by simpa using ha)).fire hk.distinct hrw
    · intro x hx
      rcases mem_append.mp hx with hold | hlast
      · exact hk.counted x hold
      · cases mem_singleton.mp hlast
        exact (hk.distinct.sound e (by simp [hrw])).left

end

structure Balanced (inner : Inner) (history : List Occurrence) : Prop where
  registered : inner.registered = history.countP isAccepted
  fired : inner.fired = history.countP isFired
  total : inner.registered = inner.entries.length + inner.cancelled + history.countP isCompletion

theorem length_le_one_of_ids {es : List Entry} (hids : (es.map wakeId).Nodup)
    (wakeId : String) : (es.filter fun e => e.wakeId == wakeId).length ≤ 1 := by
  have hcount := nodup_iff_count_le_one.mp hids wakeId
  rw [List.count, countP_map, countP_eq_length_filter] at hcount
  exact hcount

theorem withdraw_balance {i : Inner} (hids : (i.entries.map wakeId).Nodup) (wakeId : String) :
    (i.withdraw wakeId).2.entries.length + (i.withdraw wakeId).2.cancelled =
      i.entries.length + i.cancelled := by
  have hone := length_le_one_of_ids hids wakeId
  have hsp := length_eq_length_filter_add (l := i.entries) fun e => e.wakeId == wakeId
  have hkp : (i.entries.filter fun e => e.wakeId != wakeId) =
      i.entries.filter fun e => !(e.wakeId == wakeId) := rfl
  simp only [Inner.withdraw, hkp]
  split_ifs <;> omega

theorem Balanced.tick {i j : Inner} {h os : List Occurrence} (hd : Distinct i h)
    (hb : Balanced i h) (ht : Tick i os j) : Balanced j (h ++ os) := by
  have hrg := hb.registered
  have htt := hb.total
  cases ht with
  | idle hrw hseq hreg hcan hfr =>
    rw [append_nil]
    exact ⟨hreg.trans hrg, hfr.trans hb.fired, by rw [hreg, hrw, hcan]; exact htt⟩
  | accepted e =>
    refine ⟨?_, ?_, ?_⟩
    · simp [Inner.push, isAccepted, hrg]
    · simp [Inner.push, isFired, hb.fired]
    · simp [Inner.push, isCompletion, htt]
      omega
  | cancelled wakeId =>
    have hbalance := withdraw_balance hd.ids wakeId
    have hnone : ∀ p, (∀ e, p (cancelled e) = false) → ∀ es : List Entry,
        (h ++ es.map cancelled).countP p = h.countP p := by
      intro p hp es
      simp [Function.comp_def, hp]
    refine ⟨?_, ?_, ?_⟩
    · rwa [hnone isAccepted fun _ => rfl]
    · rw [hnone isFired fun _ => rfl]
      exact hb.fired
    · rwa [hnone isCompletion fun _ => rfl, hbalance]
  | fired reading l₁ e l₂ hrw =>
    have hlen : i.entries.length = l₁.length + l₂.length + 1 := by
      rw [hrw, length_append, length_cons]
      omega
    refine ⟨?_, ?_, ?_⟩
    · rwa [countP_append]
    · rw [countP_append, ← hb.fired]
      rfl
    · rw [countP_append]
      cases hag : e.rescheduled reading.instant with
      | none =>
        have hlast := (rescheduled_none hag (hd.sound e (by simp [hrw]))).2
        simp [fire, hag, isCompletion, hlast]
        omega
      | some e' =>
        have hmr := (rescheduled_some hag (hd.sound e (by simp [hrw]))).more
        simp [fire, hag, isCompletion, hmr]
        omega

def NotPending (inner : Inner) (wakeId : String) : Prop := ∀ p ∈ inner.entries, p.wakeId ≠ wakeId

variable {i j : Inner} {os : List Occurrence} {wid : String}

theorem Tick.quiet (ht : Tick i os j) (hi : NotPending i wid)
    (hos : ∀ a, .accepted a ∈ os → a.wakeId ≠ wid) :
    NotPending j wid ∧ ∀ f, .fired f ∈ os → f.wakeId ≠ wid := by
  cases ht with
  | idle hrw =>
    refine ⟨?_, by simp⟩
    intro p hp
    exact hi p (hrw ▸ hp)
  | accepted e =>
    exact ⟨forall_mem_concat hi (hos e (by simp)), by simp⟩
  | cancelled id => exact ⟨fun p hp => hi p (mem_of_mem_filter hp), by simp⟩
  | fired reading l₁ e l₂ hrw =>
    have he : e ∈ i.entries := by simp [hrw]
    refine ⟨?_, ?_⟩
    · intro p hp
      rw [fire, mem_append, Option.mem_toList] at hp
      rcases hp with hold | hag
      · apply hi
        rw [hrw, mem_append, mem_cons]
        exact (mem_append.mp hold).imp_right Or.inr
      · rw [(rescheduled_same hag).wakeId]
        exact hi e he
    · intro f hf
      cases mem_singleton.mp hf
      exact hi e he

theorem Ticks.quiet (ht : Ticks i os j) (hi : NotPending i wid)
    (hos : ∀ a, .accepted a ∈ os → a.wakeId ≠ wid) :
    NotPending j wid ∧ ∀ f, .fired f ∈ os → f.wakeId ≠ wid := by
  induction ht with
  | nil => exact ⟨hi, by simp⟩
  | cons htc _ ih =>
    obtain ⟨hnx, hfr⟩ := htc.quiet hi fun a ha => hos a (mem_append_left _ ha)
    obtain ⟨hlast, hrs⟩ := ih hnx fun a ha => hos a (mem_append_right _ ha)
    refine ⟨hlast, ?_⟩
    intro f hf
    rcases mem_append.mp hf with hf | hf
    · exact hfr f hf
    · exact hrs f hf

theorem Tick.persists (ht : Tick i os j) (he : e ∈ i.entries) (hfr : fires os e.seq = 0)
    (hcancel : ∀ c, .cancelled c ∈ os → c.seq ≠ e.seq) : e ∈ j.entries := by
  cases ht with
  | idle hrw => exact hrw.symm ▸ he
  | accepted => exact mem_append_left _ he
  | cancelled id =>
    refine mem_filter.mpr ⟨he, bne_iff_ne.mpr ?_⟩
    intro hid
    have hrem : e ∈ (i.withdraw id).1.removed := mem_filter.mpr ⟨he, beq_iff_eq.mpr hid⟩
    exact hcancel e (mem_map_of_mem hrem) rfl
  | fired reading l₁ x l₂ hrw =>
    refine mem_refire_of_ne (hrw ▸ he) ?_
    intro heq
    rw [heq, fires_fired_self] at hfr
    cases hfr

theorem Ticks.persists (ht : Ticks i os j) (he : e ∈ i.entries) (hfr : fires os e.seq = 0)
    (hcancel : ∀ c, .cancelled c ∈ os → c.seq ≠ e.seq) : e ∈ j.entries := by
  induction ht with
  | nil => exact he
  | cons htc _ ih =>
    rw [fires_append] at hfr
    have hnx := htc.persists he (by omega) fun c hc => hcancel c (mem_append_left _ hc)
    exact ih hnx (by omega) fun c hc => hcancel c (mem_append_right _ hc)

open List

variable {t n u : ℕ} {a : Entry} {effect : Effect} {inner : Inner}

structure World.Kept (w : World) : Prop where
  followed : Followed w.inner w.history
  balanced : Balanced w.inner w.history
  turning : w.worker ≠ .looping

theorem kept_new : World.new.Kept where
  followed := {
    distinct := ⟨nodup_nil, nodup_nil, by simp [World.new, Inner.default],
      by simp [World.new, Inner.default], by simp [World.new]⟩
    single := nodup_nil
    fresh := by simp [World.new]
    fate := by simp [World.new]
    counted := by simp [World.new] }
  balanced := ⟨rfl, rfl, rfl⟩
  turning := by simp [World.new]

theorem Ticks.kept {i j : Inner} {h os : List Occurrence} (ht : Ticks i os j)
    (hf : Followed i h) (hb : Balanced i h) : Followed j (h ++ os) ∧ Balanced j (h ++ os) :=
  Ticks.keep (P := fun i h => Followed i h ∧ Balanced i h)
    (fun hp htc => ⟨hp.1.tick htc, hp.2.tick hp.1.distinct htc⟩) ht ⟨hf, hb⟩

theorem round_ends (hs : ∀ e ∈ inner.entries, e.Sound) (r : Round) :
    ∃ fired inner', fireDue r.now inner.entries.length r.readings inner = some (fired, inner') ∧
      fired.length ≤ inner.entries.length := by
  obtain ⟨fired, inner', hlp⟩ := fireDue_ends hs r.monotone countP_le_length
  exact ⟨fired, inner', hlp, (fireDue_spec hlp).2.2⟩

theorem World.Kept.turning_of {w : World} (hw : w.Kept) (h : Effected w effect) :
    effect.worker ≠ .looping := by
  cases h with
  | idle | accepted | cancelled => exact hw.turning
  | round r =>
    obtain ⟨fired, inner', hlp, -⟩ := round_ends hw.followed.distinct.sound r
    simp only [roundEffect, hlp]
    split_ifs <;> simp

theorem World.Kept.step {texts : Texts} {w : World} (hw : w.Kept) (op : Op) :
    (w.step texts op).Kept := by
  have hef := effected texts w op
  obtain ⟨hfollowed, hbalanced⟩ := hef.ticks.kept hw.followed hw.balanced
  exact ⟨hfollowed, hbalanced, hw.turning_of hef⟩

section
variable {texts : Texts} {w : World}

theorem Effected.fired (h : Effected w effect) {f : Entry} (hf : .fired f ∈ effect.occurred)
    (a : Entry) : .accepted a ∉ effect.occurred := by
  cases h with
  | idle => cases hf
  | accepted => cases mem_singleton.mp hf
  | cancelled wid =>
    obtain ⟨e, -, he⟩ := mem_map.mp hf
    cases he
  | round r =>
    obtain ⟨fired, hfr⟩ := roundEffect_occurred w.inner r
    rw [hfr]
    intro ha
    obtain ⟨e, -, he⟩ := mem_map.mp ha
    cases he

theorem Effected.notPending (h : Effected w effect) {e : Entry}
    (he : .cancelled e ∈ effect.occurred) : NotPending effect.inner e.wakeId := by
  cases h with
  | idle => cases he
  | accepted => cases mem_singleton.mp he
  | cancelled wid =>
    obtain ⟨x, hx, heq⟩ := mem_map.mp he
    cases heq
    have hid : e.wakeId = wid := beq_iff_eq.mp (mem_filter.mp hx).2
    rw [hid]
    intro p hp
    exact bne_iff_ne.mp (mem_filter.mp hp).2
  | round r =>
    obtain ⟨fired, hfr⟩ := roundEffect_occurred w.inner r
    rw [hfr] at he
    obtain ⟨x, -, heq⟩ := mem_map.mp he
    cases heq

theorem World.Kept.round_none_due {r : Round} (hw : w.Kept) (hsr : w.worker = .serving) :
    ∀ e ∈ (w.step texts (.round r)).inner.entries, r.now < e.fireAt := by
  obtain ⟨fired, inner', hlp, -⟩ := round_ends hw.followed.distinct.sound r
  have hin : (w.step texts (.round r)).inner = inner' := by
    simp [World.step, World.effect, hsr, roundEffect, hlp]
  rw [hin]
  exact (fireDue_spec hlp).2.1

end

section
variable (texts : Texts) (ops : ℕ → Op)

def worldAt : ℕ → World := Schedules.after (World.step texts) World.new ops

def occursAt (t : ℕ) : List Occurrence := ((worldAt texts ops t).effect texts (ops t)).occurred

/-- The worker makes a round after every due time of the registration. -/
def RunsPastDueTimes (seq : ℕ) : Prop :=
  ∀ t, ∀ e ∈ (worldAt texts ops t).inner.entries, e.seq = seq →
    ∃ u r, t ≤ u ∧ ops u = .round r ∧ (worldAt texts ops u).worker = .serving ∧ e.fireAt ≤ r.now

variable {texts ops}

theorem kept_worldAt : (worldAt texts ops t).Kept :=
  Schedules.after_invariant World.Kept (fun _ op hw => hw.step op) kept_new t

theorem history_succ : (worldAt texts ops (t + 1)).history =
    (worldAt texts ops t).history ++ occursAt texts ops t := rfl

theorem ticks_between (texts : Texts) (ops : ℕ → Op) (htu : t ≤ u) :
    ∃ os, (worldAt texts ops u).history = (worldAt texts ops t).history ++ os ∧
      Ticks (worldAt texts ops t).inner os (worldAt texts ops u).inner := by
  induction htu with
  | refl => exact ⟨[], (append_nil _).symm, .nil _⟩
  | @step u _ ih =>
    obtain ⟨os, hhs, htc⟩ := ih
    refine ⟨os ++ occursAt texts ops u, ?_, htc.trans (effected texts _ (ops u)).ticks⟩
    rw [history_succ, hhs, append_assoc]

theorem silent_until {wid : String} (htu : t ≤ u) (ht : NotPending (worldAt texts ops t).inner wid)
    (hnn : ∀ v, t ≤ v → v < u → ∀ a, .accepted a ∈ occursAt texts ops v → a.wakeId ≠ wid) :
    NotPending (worldAt texts ops u).inner wid := by
  induction htu with
  | refl => exact ht
  | @step u htu ih =>
    have hu := ih fun v hv hlt => hnn v hv (Nat.lt_succ_of_lt hlt)
    exact ((effected texts _ (ops u)).ticks.quiet hu (hnn u htu (Nat.lt_succ_self u))).1

theorem fired_after_cancel {e f : Entry} (htu : t < u) (he : .cancelled e ∈ occursAt texts ops t)
    (hf : .fired f ∈ occursAt texts ops u) (hid : f.wakeId = e.wakeId) :
    ∃ v a, t < v ∧ v < u ∧ .accepted a ∈ occursAt texts ops v ∧ a.wakeId = e.wakeId := by
  by_contra hnv
  have hnn : ∀ v, t + 1 ≤ v → v < u → ∀ a, .accepted a ∈ occursAt texts ops v →
      a.wakeId ≠ e.wakeId := by
    intro v hv hlt a ha heq
    exact hnv ⟨v, a, hv, hlt, ha, heq⟩
  have hrem : NotPending (worldAt texts ops (t + 1)).inner e.wakeId :=
    (effected texts _ (ops t)).notPending he
  have hu := silent_until htu hrem hnn
  have hef := effected texts (worldAt texts ops u) (ops u)
  have hqt := hef.ticks.quiet hu fun a ha => absurd ha (hef.fired hf a)
  exact hqt.2 f hf hid

theorem fires_rise (ha : .accepted a ∈ (worldAt texts ops t).history) (hn : a.left = some n)
    (hnv : ∀ u c, .cancelled c ∈ (worldAt texts ops u).history → c.seq ≠ a.seq)
    (hrn : RunsPastDueTimes texts ops a.seq)
    (hless : fires (worldAt texts ops t).history a.seq < n) :
    ∃ u, t ≤ u ∧ fires (worldAt texts ops t).history a.seq <
      fires (worldAt texts ops u).history a.seq := by
  cases kept_worldAt.followed.fate a ha with
  | cancelled c hc hseq => exact absurd hseq (hnv t c hc)
  | completed hgn hlf =>
    rw [hn, Option.some.injEq] at hlf
    omega
  | pending e he hag hlf =>
    obtain ⟨u, r, htu, hop, hsr, hdue⟩ := hrn t e he hag.seq
    refine ⟨u + 1, Nat.le_succ_of_le htu, ?_⟩
    obtain ⟨os, hhs, htc⟩ := ticks_between texts ops (Nat.le_succ_of_le htu)
    rw [hhs, fires_append]
    by_contra hsi
    -- The entry is neither fired nor cancelled, so the round leaves it, though it is due.
    have hin : e ∈ (worldAt texts ops (u + 1)).inner.entries := by
      refine htc.persists he ?_ ?_
      · rw [hag.seq]
        omega
      · intro c hc
        rw [hag.seq]
        exact hnv (u + 1) c (by rw [hhs]; exact mem_append_right _ hc)
    have hst : worldAt texts ops (u + 1) = (worldAt texts ops u).step texts (.round r) := by
      rw [← hop]
      rfl
    rw [hst] at hin
    have hlt := kept_worldAt.round_none_due hsr e hin
    omega

theorem Fate.fires_le {hist : List Occurrence} (hf : Fate inner hist a)
    (hn : a.left = some n) : fires hist a.seq ≤ n := by
  cases hf with
  | pending e he hag hlf =>
    rw [hlf, Option.map_eq_some_iff] at hn
    obtain ⟨k, -, hk⟩ := hn
    omega
  | cancelled e hc hseq hgn hlt => exact Nat.le_of_lt (hlt n hn)
  | completed hgn hlf =>
    rw [hlf, Option.some.injEq] at hn
    omega

variable (ha : .accepted a ∈ (worldAt texts ops t).history)
include ha

theorem left_of_count {r : WakeRepeat} (hr : a.repeating = some r) (hn : r.count = some n) :
    a.left = some n := by
  have hfr := kept_worldAt.followed.fresh a ha
  rw [Entry.left, hr]
  rw [hr, Option.bind_some, hn] at hfr
  exact hfr

theorem fires_reach (hn : a.left = some n)
    (hnv : ∀ u c, .cancelled c ∈ (worldAt texts ops u).history → c.seq ≠ a.seq)
    (hrn : RunsPastDueTimes texts ops a.seq) :
    ∃ u, t ≤ u ∧ ∀ v, u ≤ v → fires (worldAt texts ops v).history a.seq = n := by
  have hacc : ∀ u, t ≤ u → .accepted a ∈ (worldAt texts ops u).history := by
    intro u htu
    obtain ⟨os, hhs, -⟩ := ticks_between texts ops htu
    rw [hhs]
    exact mem_append_left _ ha
  have hbn : ∀ u, t ≤ u → fires (worldAt texts ops u).history a.seq ≤ n := fun u htu =>
    (kept_worldAt.followed.fate a (hacc u htu)).fires_le hn
  let miss := fun u => n - fires (worldAt texts ops u).history a.seq
  have han : ∀ u v, t ≤ u → u ≤ v → miss v ≤ miss u := by
    intro u v _ huv
    obtain ⟨os, hhs, -⟩ := ticks_between texts ops huv
    simp only [miss, hhs, fires_append]
    omega
  have hfalls : ∀ u, t ≤ u → miss u ≠ 0 → ∃ v, u ≤ v ∧ miss v < miss u := by
    intro u htu hpos
    simp only [miss] at hpos ⊢
    obtain ⟨v, huv, hrs⟩ := fires_rise (hacc u htu) hn hnv hrn (by omega)
    exact ⟨v, huv, by omega⟩
  obtain ⟨u, htu, hzr⟩ := Schedules.eventually_zero han hfalls
  refine ⟨u, htu, ?_⟩
  intro v huv
  have hle := hbn v (htu.trans huv)
  have hre : n - fires (worldAt texts ops v).history a.seq = 0 := hzr v huv
  omega

end

/-- What the scheduler guarantees, in every interleaving of its calls with rounds of
the worker. -/
theorem scheduler_keeps_its_books (texts : Texts) (ops : ℕ → Op) :
    (∀ t, ((worldAt texts ops t).inner.entries.map Entry.wakeId).Nodup) ∧
    (∀ t, (acceptedSeqs (worldAt texts ops t).history).Nodup) ∧
    (∀ t a, .accepted a ∈ (worldAt texts ops t).history → a.repeating = none →
      fires (worldAt texts ops t).history a.seq ≤ 1) ∧
    (∀ t a r n, .accepted a ∈ (worldAt texts ops t).history → a.repeating = some r →
      r.count = some n → fires (worldAt texts ops t).history a.seq ≤ n ∧
        ((∀ u c, .cancelled c ∈ (worldAt texts ops u).history → c.seq ≠ a.seq) →
          RunsPastDueTimes texts ops a.seq →
          ∃ u, t ≤ u ∧ ∀ v, u ≤ v → fires (worldAt texts ops v).history a.seq = n)) ∧
    (∀ t u e f, t < u → .cancelled e ∈ occursAt texts ops t → .fired f ∈ occursAt texts ops u →
      f.wakeId = e.wakeId →
      ∃ v a, t < v ∧ v < u ∧ .accepted a ∈ occursAt texts ops v ∧ a.wakeId = e.wakeId) ∧
    (∀ t, (worldAt texts ops t).inner.registered =
        (worldAt texts ops t).history.countP Occurrence.isAccepted ∧
      (worldAt texts ops t).inner.fired =
        (worldAt texts ops t).history.countP Occurrence.isFired ∧
      (worldAt texts ops t).inner.registered = (worldAt texts ops t).inner.entries.length +
        (worldAt texts ops t).inner.cancelled +
        (worldAt texts ops t).history.countP Occurrence.isCompletion) ∧
    (∀ t e, e ∈ (worldAt texts ops t).inner.entries ∨ .fired e ∈ (worldAt texts ops t).history →
      e.firesLeft ≠ some 0) ∧
    (∀ t (r : Round), ∃ fired inner,
      fireDue r.now (worldAt texts ops t).inner.entries.length r.readings
        (worldAt texts ops t).inner = some (fired, inner) ∧
      fired.length ≤ (worldAt texts ops t).inner.entries.length) := by
  refine ⟨?_, ?_, ?_, ?_, ?_, ?_, ?_, ?_⟩
  · intro t
    exact kept_worldAt.followed.distinct.ids
  · intro t
    exact kept_worldAt.followed.single
  · intro t a ha hnn
    exact (kept_worldAt.followed.fate a ha).fires_le (by rw [Entry.left, hnn])
  · intro t a r n ha hr hn
    have hlf := left_of_count ha hr hn
    exact ⟨(kept_worldAt.followed.fate a ha).fires_le hlf, fires_reach ha hlf⟩
  · intro t u e f htu he hf hid
    exact fired_after_cancel htu he hf hid
  · intro t
    exact ⟨kept_worldAt.balanced.registered, kept_worldAt.balanced.fired,
      kept_worldAt.balanced.total⟩
  · intro t e he
    rcases he with hpn | hfr
    · exact (kept_worldAt.followed.distinct.sound e hpn).left
    · exact kept_worldAt.followed.counted e hfr
  · intro t r
    exact round_ends kept_worldAt.followed.distinct.sound r

def sampleWake : Json :=
  .object [("wakeId", .string "wake-0001"), ("requestedAt", .string "1970-01-01T00:00:00Z"),
    ("reason", .string "user_requested"),
    ("repeat", .object [("intervalMs", Json.nat 50), ("count", Json.nat 2)])]

def sampleOps : ℕ → Op
  | 0 => .register ⟨0, 0⟩ sampleWake
  | t + 1 => .round ⟨(t + 1) * 1000000000, fun _ => ⟨.epoch, (t + 1) * 1000000000⟩, fun _ => le_rfl⟩

def sampleTexts : Texts := ⟨fun _ => "", fun _ => ""⟩

def sampleEntry (fireAt left : ℕ) : Entry :=
  ⟨0, "wake-0001", fireAt, .userRequested, "1970-01-01T00:00:00Z", none, some ⟨50, some 2⟩,
    some left⟩

theorem sample_entries : (worldAt sampleTexts sampleOps 1).inner.entries = [sampleEntry 0 2] ∧
    (worldAt sampleTexts sampleOps 2).inner.entries = [sampleEntry 1050000000 1] ∧
    (worldAt sampleTexts sampleOps 1).worker = .serving ∧
    (worldAt sampleTexts sampleOps 2).worker = .serving := by
  decide +kernel

theorem sample_settled : (worldAt sampleTexts sampleOps 3).inner.entries = [] ∧
    (worldAt sampleTexts sampleOps 3).history =
      [.accepted (sampleEntry 0 2), .fired (sampleEntry 0 2),
      .fired (sampleEntry 1050000000 1)] := by
  decide +kernel

theorem round_of_empty {texts : Texts} {w : World} {r : Round} (hem : w.inner.entries = []) :
    (w.step texts (.round r)).inner.entries = [] ∧
      (w.step texts (.round r)).history = w.history := by
  have hlp : fireDue r.now w.inner.entries.length r.readings w.inner = some ([], w.inner) := by
    unfold fireDue
    rw [hem]
    rfl
  unfold World.step World.effect
  split_ifs
  · exact ⟨hem, append_nil _⟩
  · simp only [roundEffect, hlp]
    exact ⟨hem, append_nil _⟩
  · exact ⟨hem, append_nil _⟩

theorem sample_end {t : ℕ} (ht : 3 ≤ t) : (worldAt sampleTexts sampleOps t).inner.entries = [] ∧
    (worldAt sampleTexts sampleOps t).history = (worldAt sampleTexts sampleOps 3).history := by
  induction ht with
  | refl => exact ⟨sample_settled.1, rfl⟩
  | @step t ht ih =>
    have hpos : 3 ≤ t := ht
    obtain ⟨k, rfl⟩ : ∃ k, t = k + 1 := ⟨t - 1, by omega⟩
    obtain ⟨hrw, hhs⟩ := round_of_empty ih.1
    exact ⟨hrw, hhs.trans ih.2⟩

theorem sample_never_cancelled {c : Entry} :
    .cancelled c ∉ (worldAt sampleTexts sampleOps t).history := by
  have hlast : .cancelled c ∉ (worldAt sampleTexts sampleOps 3).history := by
    simp [sample_settled.2]
  rcases Nat.le_total 3 t with hlt | hps
  · rw [(sample_end hlt).2]
    exact hlast
  · obtain ⟨os, hhs, -⟩ := ticks_between sampleTexts sampleOps hps
    intro hc
    exact hlast (hhs ▸ mem_append_left _ hc)

theorem sample_runs_past_due : RunsPastDueTimes sampleTexts sampleOps 0 := by
  obtain ⟨hone, htwo, hsr, hsr'⟩ := sample_entries
  intro t e he _
  match t with
  | 0 => cases he
  | 1 =>
    rw [hone, mem_singleton] at he
    exact ⟨1, _, le_rfl, rfl, hsr, by rw [he]; decide⟩
  | 2 =>
    rw [htwo, mem_singleton] at he
    exact ⟨2, _, le_rfl, rfl, hsr', by rw [he]; decide⟩
  | t + 3 =>
    rw [(sample_end (by omega)).1] at he
    cases he

theorem sample_wake_fires_twice :
    ∃ u, 3 ≤ u ∧ ∀ v, u ≤ v → fires (worldAt sampleTexts sampleOps v).history 0 = 2 :=
  ((scheduler_keeps_its_books sampleTexts sampleOps).2.2.2.1 3 (sampleEntry 0 2) ⟨50, some 2⟩ 2
    (by simp [sample_settled.2]) rfl rfl).2
    (fun u c hc => absurd hc sample_never_cancelled) sample_runs_past_due

end DshDesktop.Daemon.Scheduler
