import Mathlib.Tactic.IntervalCases
import Mathlib.Data.String.Basic

/-!
# Text as bytes, and zero-padded numerals

`utf8Bytes` is the encoding of a text. `padded b w n` is the numeral of `n` in
base `b`, filled with zeros to at least `w` digits: exactly `w` digits when
`n < b ^ w`, and the plain numeral otherwise.
-/

namespace Text
open List Nat

variable {c : Char} {n b d : ℕ} {cs : List Char}

def utf8Bytes (s : String) : List UInt8 := s.toList.flatMap String.utf8EncodeChar

@[simp] theorem utf8Bytes_append (s t : String) :
    utf8Bytes (s ++ t) = utf8Bytes s ++ utf8Bytes t := by
  simp [utf8Bytes]

theorem utf8EncodeChar_ascii (h : c.val ≤ 127) : String.utf8EncodeChar c = [c.val.toUInt8] :=
  String.utf8EncodeChar_eq_singleton (Char.utf8Size_eq_one_iff.mpr h)

theorem utf8EncodeChar_cases (c : Char) :
    (c.val ≤ 127 ∧ String.utf8EncodeChar c = [c.val.toUInt8]) ∨
      (¬ c.val ≤ 127 ∧ ∃ b rest, String.utf8EncodeChar c = b :: rest ∧ 128 ≤ b.toNat) := by
  by_cases hc : c.val ≤ 127
  · exact .inl ⟨hc, utf8EncodeChar_ascii hc⟩
  have hv : ¬ c.val.toNat ≤ 127 := fun hle => hc (UInt32.le_iff_toNat_le.mpr hle)
  refine .inr ⟨hc, ?_⟩
  rw [String.utf8EncodeChar, if_neg hv]
  split_ifs
  all_goals
    refine ⟨_, _, rfl, ?_⟩
    rw [UInt8.toNat_ofNat', mod_eq_of_lt (by omega)]
    omega

theorem ascii_of_utf8EncodeChar (h : ∀ b ∈ String.utf8EncodeChar c, b.toNat < 128) :
    c.val ≤ 127 := by
  rcases utf8EncodeChar_cases c with ⟨has, -⟩ | ⟨-, b, rest, hby, hb⟩
  · exact has
  · have hlt := h b (by rw [hby]; exact mem_cons_self)
    omega

theorem utf8Bytes_ascii (h : ∀ c ∈ cs, c.val ≤ 127) :
    utf8Bytes (String.ofList cs) = cs.map fun c => c.val.toUInt8 := by
  simp only [utf8Bytes, String.toList_ofList]
  induction cs with
  | nil => rfl
  | cons c cs ih =>
    have hc := utf8EncodeChar_ascii (h c mem_cons_self)
    rw [flatMap_cons, hc, ih (forall_mem_cons.mp h).2]
    rfl

theorem utf8ByteSize_ascii (h : ∀ c ∈ cs, c.val ≤ 127) :
    (String.ofList cs).utf8ByteSize = cs.length := by
  induction cs with
  | nil => rfl
  | cons c cs ih =>
    have hc := Char.utf8Size_eq_one_iff.mpr (h c mem_cons_self)
    have hcs := ih (forall_mem_cons.mp h).2
    rw [String.ofList_cons, String.utf8ByteSize_append, String.utf8ByteSize_singleton, hc, hcs,
      length_cons, add_comm]

theorem append_delimiter_inj {α : Type*} {a : α} {xs ys r r' : List α} (hx : a ∉ xs) (hy : a ∉ ys)
    (h : xs ++ a :: r = ys ++ a :: r') : xs = ys ∧ r = r' := by
  induction xs generalizing ys with
  | nil =>
    cases ys with
    | nil => exact ⟨rfl, (List.cons.inj h).2⟩
    | cons y ys => exact absurd ((List.cons.inj h).1 ▸ mem_cons_self) hy
  | cons x xs ih =>
    cases ys with
    | nil => exact absurd ((List.cons.inj h).1 ▸ mem_cons_self) hx
    | cons y ys =>
      obtain ⟨hxy, hrs⟩ := List.cons.inj h
      obtain ⟨hxs, hr⟩ := ih (fun hmem => hx (mem_cons_of_mem _ hmem))
        (fun hmem => hy (mem_cons_of_mem _ hmem)) hrs
      exact ⟨by rw [hxy, hxs], hr⟩

theorem notMem_toString (h : c.isDigit = false) (n : ℕ) : c ∉ (toString n).toList := by
  intro hmem
  have hdg := isDigit_of_mem_toDigits (b := 10) (by omega) (by omega)
    (by simpa [toString_eq_ofList_toDigits] using hmem)
  exact absurd hdg (by simp [h])

theorem toString_toList_inj {m : ℕ} (h : (toString m).toList = (toString n).toList) : m = n := by
  have hvl := congrArg (fun ds => ofDigitChars 10 ds 0) h
  simpa [toString_eq_ofList_toDigits] using hvl

theorem dashed_inj {label : String} {m m' n' : ℕ}
    (h : label ++ toString m ++ "-" ++ toString n = label ++ toString m' ++ "-" ++ toString n') :
    m = m' ∧ n = n' := by
  have hlists := congrArg String.toList h
  simp only [String.toList_append, append_assoc, append_cancel_left_eq] at hlists
  obtain ⟨hm, hn⟩ := append_delimiter_inj (notMem_toString rfl m) (notMem_toString rfl m') hlists
  exact ⟨toString_toList_inj hm, toString_toList_inj hn⟩

def fixedWidth (b : ℕ) : ℕ → ℕ → List Char
  | 0, _ => []
  | w + 1, n => fixedWidth b w (n / b) ++ [digitChar (n % b)]

def digits (b w n : ℕ) : List Char :=
  if n < b ^ w then fixedWidth b w n else toDigits b n

def padded (b w n : ℕ) : String := String.ofList (digits b w n)

theorem length_fixedWidth {w : ℕ} : (fixedWidth b w n).length = w := by
  induction w generalizing n with
  | zero => rfl
  | succ w ih => simp [fixedWidth, ih]

theorem le_length_digits (hb : 1 < b) (w n : ℕ) : w ≤ (digits b w n).length := by
  rcases Nat.eq_zero_or_pos w with rfl | hw
  · exact Nat.zero_le _
  simp only [digits]
  split_ifs with h
  · exact length_fixedWidth.ge
  · exact (Nat.lt_of_not_le (mt (Nat.length_toDigits_le_iff hb hw).mp h)).le

theorem length_digits_le {w k : ℕ} (hb : 1 < b) (hk : 0 < k) (hw : w ≤ k) (hn : n < b ^ k) :
    (digits b w n).length ≤ k := by
  simp only [digits]
  split_ifs
  · rw [length_fixedWidth]
    exact hw
  · exact (length_toDigits_le_iff hb hk).mpr hn

theorem digits_four_long (h : 10000 ≤ n) : ∃ c₁ c₂ c₃ c₄ c₅ cs,
    digits 10 4 n = c₁ :: c₂ :: c₃ :: c₄ :: c₅ :: cs ∧ ∀ c ∈ digits 10 4 n, c.isDigit := by
  have hlen : 4 < (toDigits 10 n).length :=
    Nat.lt_of_not_le (mt (Nat.length_toDigits_le_iff (by omega) (by omega)).mp (by omega))
  rw [digits, if_neg (by omega)]
  rcases hds : Nat.toDigits 10 n with _ | ⟨c₁, _ | ⟨c₂, _ | ⟨c₃, _ | ⟨c₄, _ | ⟨c₅, cs⟩⟩⟩⟩⟩
  all_goals simp only [hds, length_nil, length_cons] at hlen
  all_goals try omega
  refine ⟨c₁, c₂, c₃, c₄, c₅, cs, rfl, ?_⟩
  rw [← hds]
  exact fun c hc => isDigit_of_mem_toDigits (by omega) (by omega) hc

theorem digitChar_ascii (h : d < 16) : (digitChar d).val ≤ 127 := by
  interval_cases d <;> decide

theorem mem_toDigits (hb : 1 < b) (h : c ∈ toDigits b n) :
    ∃ d, d < b ∧ c = digitChar d := by
  induction n using Nat.strong_induction_on with
  | _ n ih =>
    rw [Nat.toDigits_eq_if hb] at h
    split_ifs at h with hn
    · exact ⟨n, hn, mem_singleton.mp h⟩
    · rcases mem_append.mp h with h | h
      · exact ih (n / b) (div_lt_self (by omega) hb) h
      · exact ⟨n % b, mod_lt n (by omega), mem_singleton.mp h⟩

theorem toDigits_ascii (hb : 1 < b) (hb' : b ≤ 16) (n : ℕ) :
    ∀ c ∈ toDigits b n, c.val ≤ 127 := by
  intro c hc
  obtain ⟨d, hd, rfl⟩ := mem_toDigits hb hc
  exact digitChar_ascii (hd.trans_le hb')

theorem fixedWidth_ascii (hb : 1 < b) (hb' : b ≤ 16) (w n : ℕ) :
    ∀ c ∈ fixedWidth b w n, c.val ≤ 127 := by
  induction w generalizing n with
  | zero => simp [fixedWidth]
  | succ w ih =>
    intro c hc
    rcases mem_append.mp hc with hc | hc
    · exact ih (n / b) c hc
    · obtain rfl := mem_singleton.mp hc
      exact digitChar_ascii ((mod_lt n (by omega)).trans_le hb')

theorem digits_ascii {w : ℕ} (hb : 1 < b) (hb' : b ≤ 16) : ∀ c ∈ digits b w n, c.val ≤ 127 := by
  simp only [digits]
  split_ifs
  · exact fixedWidth_ascii hb hb' w n
  · exact toDigits_ascii hb hb' n

theorem utf8ByteSize_padded (hb : 1 < b) (hb' : b ≤ 16) (w n : ℕ) :
    (padded b w n).utf8ByteSize = (digits b w n).length :=
  utf8ByteSize_ascii (digits_ascii hb hb')

def digitByte (d : ℕ) : UInt8 := (digitChar d).val.toUInt8

theorem toNat_digitByte (h : d < 10) : (digitByte d).toNat = 48 + d := by
  interval_cases d <;> rfl

theorem utf8Bytes_padded (w n : ℕ) :
    utf8Bytes (padded 10 w n) = (digits 10 w n).map fun c => c.val.toUInt8 :=
  utf8Bytes_ascii (digits_ascii (by omega) (by omega))

def places : ℕ → ℕ → List ℕ
  | 0, _ => []
  | w + 1, n => places w (n / 10) ++ [n % 10]

theorem utf8Bytes_places (w n : ℕ) (h : n < 10 ^ w) :
    utf8Bytes (padded 10 w n) = (places w n).map digitByte := by
  rw [utf8Bytes_padded, digits, if_pos h]
  clear h
  induction w generalizing n with
  | zero => rfl
  | succ w ih =>
    rw [fixedWidth, places, map_append, map_append, ih]
    rfl

open List Nat

def decimalLength (n : ℕ) : ℕ := (toDigits 10 n).length

def NumeralBefore (m n : ℕ) : Prop :=
  if decimalLength m < decimalLength n then m ≤ n / 10 ^ (decimalLength n - decimalLength m)
  else m / 10 ^ (decimalLength m - decimalLength n) < n

instance (m n : ℕ) : Decidable (NumeralBefore m n) := by
  unfold NumeralBefore
  infer_instance

theorem append_lt_append_iff {α : Type*} [LinearOrder α] {xs ys : List α}
    (h : xs.length = ys.length) (t u : List α) :
    xs ++ t < ys ++ u ↔ xs < ys ∨ xs = ys ∧ t < u := by
  induction xs generalizing ys with
  | nil => simp [length_eq_zero_iff.mp h.symm]
  | cons x xs ih =>
    cases ys with
    | nil => cases h
    | cons y ys =>
      simp only [cons_append, cons_lt_cons_iff, ih (Nat.succ.inj h), List.cons.injEq]
      tauto

theorem toDigits_inj (m n : ℕ) : toDigits 10 m = toDigits 10 n ↔ m = n := by
  refine ⟨fun h => ?_, fun h => by rw [h]⟩
  have hval := congrArg (fun ds => ofDigitChars 10 ds 0) h
  simpa using hval

theorem toDigits_split (n d : ℕ) (h : d < decimalLength n) : ∃ tail : List Char,
    tail.length = d ∧ toDigits 10 n = toDigits 10 (n / 10 ^ d) ++ tail := by
  induction d generalizing n with
  | zero => exact ⟨[], rfl, by simp⟩
  | succ d ih =>
    rw [decimalLength, Nat.toDigits_eq_if (by omega)] at h
    split_ifs at h with hn
    · simp at h
    obtain ⟨tail, hlen, heq⟩ := ih (n / 10) (by simpa [decimalLength] using h)
    refine ⟨tail ++ [digitChar (n % 10)], by simp [hlen], ?_⟩
    rw [Nat.toDigits_eq_if (by omega), if_neg hn, heq, Nat.div_div_eq_div_mul, append_assoc,
      Nat.pow_succ']

theorem toDigits_lt_iff (m n : ℕ) (h : decimalLength m = decimalLength n) :
    toDigits 10 m < toDigits 10 n ↔ m < n := by
  induction m using Nat.strong_induction_on generalizing n with
  | _ m ih =>
    have hdigit : ∀ a < 10, ∀ b < 10, [digitChar a] < [digitChar b] ↔ a < b := by decide
    unfold decimalLength at h
    rw [Nat.toDigits_eq_if (by omega) (n := m), Nat.toDigits_eq_if (by omega) (n := n)] at h ⊢
    split_ifs at h ⊢ with hm hn hn
    · exact hdigit m hm n hn
    · simp at h
    · simp at h
    -- the last digits decide only between equal heads
    have hlen : (toDigits 10 (m / 10)).length = (toDigits 10 (n / 10)).length := by simpa using h
    rw [append_lt_append_iff hlen, ih (m / 10) (by omega) _ hlen, toDigits_inj,
      hdigit _ (by omega) _ (by omega)]
    omega

theorem toString_lt_iff (m n : ℕ) : (toString m).toList < (toString n).toList ↔
    NumeralBefore m n := by
  simp only [toString_eq_ofList_toDigits, String.toList_ofList, NumeralBefore]
  have hpos (k : ℕ) : 0 < decimalLength k := Nat.length_toDigits_pos
  split_ifs with hlt
  · obtain ⟨tail, htail, heq⟩ := toDigits_split n (decimalLength n - decimalLength m)
      (Nat.sub_lt (hpos n) (hpos m))
    have hlen : decimalLength m = decimalLength (n / 10 ^ (decimalLength n - decimalLength m)) := by
      have hsum : decimalLength n = _ := congrArg List.length heq
      rw [length_append, htail] at hsum
      unfold decimalLength at hsum hlt ⊢
      omega
    obtain ⟨c, cs, rfl⟩ := exists_cons_of_length_pos (htail ▸ Nat.sub_pos_of_lt hlt)
    rw [heq, ← append_nil (toDigits 10 m), append_lt_append_iff hlen, toDigits_lt_iff _ _ hlen,
      toDigits_inj]
    simp [Nat.le_iff_lt_or_eq]
  · obtain ⟨tail, htail, heq⟩ := toDigits_split m (decimalLength m - decimalLength n)
      (Nat.sub_lt (hpos m) (hpos n))
    have hlen : decimalLength (m / 10 ^ (decimalLength m - decimalLength n)) = decimalLength n := by
      have hsum : decimalLength m = _ := congrArg List.length heq
      rw [length_append, htail] at hsum
      unfold decimalLength at hsum hlt ⊢
      omega
    rw [heq, ← append_nil (toDigits 10 n), append_lt_append_iff hlen, toDigits_lt_iff _ _ hlen]
    simp

end Text
