import Mathlib.Algebra.Group.Nat.Defs
import Mathlib.Data.List.Infix

/-!
# Texts as bytes

The scan that decides whether bytes are UTF-8, in the way of a validator that tells bytes
which are no text from a text that stops within a character. A text is a list of bytes
together with the fact that the scan accepts it. The lossy decoder reads any bytes; on
chunks it gives the decoding of the whole exactly when no character is cut.
-/

namespace Utf8
open List

inductive Validity
  | valid
  | truncated
  | invalid
  deriving DecidableEq

def following (b : UInt8) : Option (List (UInt8 × UInt8)) :=
  if b < 0x80 then some []
  else if 0xC2 ≤ b ∧ b ≤ 0xDF then some [(0x80, 0xBF)]
  else if b = 0xE0 then some [(0xA0, 0xBF), (0x80, 0xBF)]
  else if b = 0xED then some [(0x80, 0x9F), (0x80, 0xBF)]
  else if 0xE1 ≤ b ∧ b ≤ 0xEF then some [(0x80, 0xBF), (0x80, 0xBF)]
  else if b = 0xF0 then some [(0x90, 0xBF), (0x80, 0xBF), (0x80, 0xBF)]
  else if 0xF1 ≤ b ∧ b ≤ 0xF3 then some [(0x80, 0xBF), (0x80, 0xBF), (0x80, 0xBF)]
  else if b = 0xF4 then some [(0x80, 0x8F), (0x80, 0xBF), (0x80, 0xBF)]
  else none

def scan : List (UInt8 × UInt8) → List UInt8 → Validity
  | [], [] => .valid
  | _ :: _, [] => .truncated
  | [], b :: bytes =>
    match following b with
    | none => .invalid
    | some ranges => scan ranges bytes
  | (low, high) :: ranges, b :: bytes =>
    if low ≤ b ∧ b ≤ high then scan ranges bytes else .invalid

structure Text where
  bytes : List UInt8
  valid : scan [] bytes = .valid
  deriving DecidableEq

def Text.empty : Text := ⟨[], rfl⟩

def byteOrderMark : List UInt8 := [0xEF, 0xBB, 0xBF]

def stripBom (bytes : List UInt8) : List UInt8 :=
  if byteOrderMark <+: bytes then bytes.drop 3 else bytes

theorem scan_bom {bytes : List UInt8} : scan [] (byteOrderMark ++ bytes) = scan [] bytes := by
  rfl

variable {ranges : List (UInt8 × UInt8)}

theorem scan_append_of {front back : List UInt8} :
    (scan ranges front = .invalid → scan ranges (front ++ back) = .invalid) ∧
      (scan ranges front = .valid → scan ranges (front ++ back) = scan [] back) := by
  induction front generalizing ranges with
  | nil => cases ranges <;> simp [scan]
  | cons b front ih =>
    cases ranges with
    | nil =>
      rw [cons_append, scan, scan]
      cases following b with
      | none => simp
      | some ranges => exact ih
    | cons range ranges =>
      rw [cons_append, scan, scan]
      split_ifs
      · exact ih
      · simp

theorem scan_append {front back : List UInt8} (h : scan ranges (front ++ back) = .valid) :
    scan ranges front ≠ .invalid := by
  intro hinv
  rw [scan_append_of.1 hinv] at h
  cases h

theorem scan_valid_append {front : List UInt8} (h : scan ranges front = .valid)
    (back : List UInt8) : scan ranges (front ++ back) = scan [] back :=
  scan_append_of.2 h

theorem scan_stripBom (bytes : List UInt8) : scan [] (stripBom bytes) = scan [] bytes := by
  rw [stripBom]
  split_ifs with hbom
  · obtain ⟨rest, rfl⟩ := hbom
    exact scan_bom.symm
  · rfl

theorem scan_stripBom_take (text : Text) (n : ℕ) :
    scan [] (stripBom (text.bytes.take n)) ≠ .invalid := by
  have hvl := text.valid
  rw [← take_append_drop n text.bytes] at hvl
  rw [scan_stripBom]
  exact scan_append hvl

/-- Where a lossy decoder stands: the bits of the character it is in and the ranges of
the bytes that are still to come. -/
abbrev Partial := ℕ × List (UInt8 × UInt8)

def replacement : Char := '�'

def enter (b : UInt8) : List Char × Partial :=
  match following b with
  | none => ([replacement], 0, [])
  | some [] => ([Char.ofNat b.toNat], 0, [])
  | some ranges => ([], b.toNat % 2 ^ (6 - ranges.length), ranges)

def advance (b : UInt8) : Partial → List Char × Partial
  | (_, []) => enter b
  | (code, r :: ranges) =>
    if r.1 ≤ b ∧ b ≤ r.2 then
      let code := code * 64 + b.toNat % 64
      if ranges = [] then ([Char.ofNat code], 0, []) else ([], code, ranges)
    else (replacement :: (enter b).1, (enter b).2)

/-- A sequence that is broken off is replaced as a whole, also at the end of the bytes. -/
def decodeFrom (p : Partial) : List UInt8 → List Char
  | [] => if p.2 = [] then [] else [replacement]
  | b :: bytes => (advance b p).1 ++ decodeFrom (advance b p).2 bytes

def decodeLossy (bytes : List UInt8) : List Char := decodeFrom (0, []) bytes

def after (p : Partial) (chunk : List UInt8) : Partial := chunk.foldl (fun p b => (advance b p).2) p

def Continues (p : Partial) (b : UInt8) : Prop := ∃ r ∈ p.2.head?, r.1 ≤ b ∧ b ≤ r.2

/-- No chunk ends within a character that the next byte goes on with. -/
def Unsplit : List (List UInt8) → Prop
  | [] => True
  | chunk :: chunks =>
    (∀ b ∈ chunks.flatten.head?, ¬ Continues (after (0, []) chunk) b) ∧ Unsplit chunks

def Partial.Sound (p : Partial) : Prop := ∀ r ∈ p.2, 0x80 ≤ r.1 ∧ r.2 ≤ 0xBF

variable {p : Partial} {b : UInt8} {bytes : List UInt8}

theorem following_sound (h : following b = some ranges) :
    ∀ r ∈ ranges, 0x80 ≤ r.1 ∧ r.2 ≤ 0xBF := by
  unfold following at h
  split_ifs at h
  all_goals
    cases h
    simp

theorem enter_continuation (hlo : 0x80 ≤ b) (hhi : b ≤ 0xBF) :
    enter b = ([replacement], 0, []) := by
  have hnn : following b = none := by
    unfold following
    simp only [UInt8.lt_iff_toNat_lt, UInt8.le_iff_toNat_le, ← UInt8.toNat_inj,
      UInt8.reduceToNat] at hlo hhi ⊢
    split_ifs <;> first | rfl | omega
  rw [enter, hnn]

theorem enter_sound : (enter b).2.Sound := by
  unfold enter
  split
  · exact nofun
  · exact nofun
  · next hb => exact following_sound hb

theorem advance_sound (h : p.Sound) : (advance b p).2.Sound := by
  obtain ⟨code, ranges⟩ := p
  cases ranges with
  | nil => exact enter_sound
  | cons r ranges =>
    rw [advance]
    split_ifs
    · exact nofun
    · exact (forall_mem_cons.mp h).2
    · exact enter_sound

theorem after_sound {chunk : List UInt8} (h : p.Sound) : (after p chunk).Sound := by
  induction chunk generalizing p with
  | nil => exact h
  | cons b chunk ih => exact ih (advance_sound h)

theorem decodeFrom_cons :
    decodeFrom p (b :: bytes) = (advance b p).1 ++ decodeFrom (advance b p).2 bytes := rfl

theorem decodeFrom_append (p : Partial) (chunk : List UInt8) :
    ∃ out, ∀ rest, decodeFrom p (chunk ++ rest) = out ++ decodeFrom (after p chunk) rest := by
  induction chunk generalizing p with
  | nil => exact ⟨[], fun rest => rfl⟩
  | cons b chunk ih =>
    obtain ⟨out, hout⟩ := ih (advance b p).2
    refine ⟨(advance b p).1 ++ out, fun rest => ?_⟩
    rw [cons_append, decodeFrom_cons, hout, append_assoc]
    rfl

theorem decodeFrom_fresh (h : ∀ b ∈ bytes.head?, ¬ Continues p b) :
    decodeFrom p bytes = decodeFrom p [] ++ decodeLossy bytes := by
  obtain ⟨code, ranges⟩ := p
  cases bytes with
  | nil => exact (append_nil _).symm
  | cons b bytes =>
    cases ranges with
    | nil => rfl
    | cons r ranges =>
      have hout : ¬ (r.1 ≤ b ∧ b ≤ r.2) := fun hr => h b rfl ⟨r, rfl, hr⟩
      rw [decodeFrom_cons, advance, if_neg hout]
      rfl

theorem length_decodeFrom_nil : (decodeFrom p []).length ≤ 1 := by
  rw [decodeFrom]
  split_ifs <;> simp

/-- A byte that goes on with a character costs one replacement more when it stands alone. -/
theorem length_decodeFrom (h : p.Sound) :
    (decodeFrom p bytes).length ≤ 1 + (decodeLossy bytes).length ∧
      ((∃ b ∈ bytes.head?, Continues p b) →
        (decodeFrom p bytes).length < 1 + (decodeLossy bytes).length) := by
  induction bytes generalizing p with
  | nil =>
    refine ⟨length_decodeFrom_nil, ?_⟩
    rintro ⟨b, hb, -⟩
    cases hb
  | cons b bytes ih =>
    by_cases hb : Continues p b
    · suffices hlt : (decodeFrom p (b :: bytes)).length < 1 + (decodeLossy (b :: bytes)).length from
        ⟨hlt.le, fun _ => hlt⟩
      obtain ⟨code, ranges⟩ := p
      obtain ⟨r, hr, hin⟩ := hb
      cases ranges with
      | nil => cases hr
      | cons _ ranges =>
        cases hr
        obtain ⟨hrn, hrs⟩ := forall_mem_cons.mp h
        have heq : decodeLossy (b :: bytes) = replacement :: decodeLossy bytes := by
          rw [decodeLossy, decodeFrom_cons, advance, enter_continuation
            (UInt8.le_trans hrn.1 hin.1) (UInt8.le_trans hin.2 hrn.2)]
          rfl
        have hle := (ih (p := (code * 64 + b.toNat % 64, ranges)) hrs).1
        rw [heq, length_cons, decodeFrom_cons, advance, if_pos hin]
        split_ifs
        · show (decodeLossy bytes).length + 1 < _
          omega
        · show (decodeFrom (code * 64 + b.toNat % 64, ranges) bytes).length < _
          omega
    have hfr : ∀ c ∈ (b :: bytes).head?, ¬ Continues p c := by
      rintro c ⟨⟩
      exact hb
    constructor
    · rw [decodeFrom_fresh hfr, length_append]
      exact Nat.add_le_add_right length_decodeFrom_nil _
    · rintro ⟨c, hc, hcn⟩
      exact absurd hcn (hfr c hc)

theorem chunks_decodeLossy (chunks : List (List UInt8)) :
    (decodeLossy chunks.flatten).length ≤ (chunks.flatMap decodeLossy).length ∧
      (chunks.flatMap decodeLossy = decodeLossy chunks.flatten ↔ Unsplit chunks) := by
  induction chunks with
  | nil => exact ⟨Nat.le_refl _, iff_of_true rfl trivial⟩
  | cons chunk chunks ih =>
    obtain ⟨hle, hiff⟩ := ih
    obtain ⟨out, hout⟩ := decodeFrom_append (0, []) chunk
    have hck := hout []
    rw [append_nil] at hck
    rw [flatMap_cons, flatten_cons, decodeLossy, decodeLossy, hck, hout, Unsplit]
    by_cases hfr : ∀ b ∈ chunks.flatten.head?, ¬ Continues (after (0, []) chunk) b
    · rw [decodeFrom_fresh hfr, ← append_assoc, append_right_inj, and_iff_right hfr]
      refine ⟨?_, hiff⟩
      simp only [length_append]
      exact Nat.add_le_add_left hle _
    simp only [not_forall, not_not] at hfr
    obtain ⟨b, hb, hcn⟩ := hfr
    have hlt := (length_decodeFrom (after_sound (p := (0, [])) nofun)).2 ⟨b, hb, hcn⟩
    have hone : (decodeFrom (after (0, []) chunk) []).length = 1 := by
      obtain ⟨r, hr, -⟩ := hcn
      rw [decodeFrom, if_neg]
      · rfl
      · intro hnil
        rw [hnil] at hr
        cases hr
    have hlt : (out ++ decodeFrom (after (0, []) chunk) chunks.flatten).length <
        (out ++ decodeFrom (after (0, []) chunk) [] ++ chunks.flatMap decodeLossy).length := by
      rw [length_append, length_append, length_append, hone]
      omega
    refine ⟨hlt.le, iff_of_false ?_ fun h => h.1 b hb hcn⟩
    intro heq
    exact absurd (congrArg List.length heq) hlt.ne'

end Utf8
