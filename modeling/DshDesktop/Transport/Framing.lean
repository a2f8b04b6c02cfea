import Mathlib.Data.List.Basic
import Mathlib.Algebra.Order.Group.Nat

/-!
# Length-prefixed frames

The framing codec over a stream whose reads return bytes in arbitrary portions,
time out or are interrupted in between. `readFrame` keeps nothing between two
calls: when a read times out, what it had consumed of a frame is gone.
-/

namespace DshDesktop.Transport
open List Option Nat

abbrev Bytes := List UInt8

def lengthPrefixBytes : ℕ := 4

def toLeBytes : ℕ → ℕ → Bytes
  | 0, _ => []
  | width + 1, n => UInt8.ofNat n :: toLeBytes width (n / 256)

def fromLeBytes : Bytes → ℕ
  | [] => 0
  | b :: bs => b.toNat + 256 * fromLeBytes bs

/-- The length is written as a `u32`, so a longer payload has a wrong prefix. -/
def encodeFrame (payload : Bytes) : Bytes :=
  toLeBytes lengthPrefixBytes (payload.length % 2 ^ 32) ++ payload

@[simp] theorem length_toLeBytes (width n : ℕ) : (toLeBytes width n).length = width := by
  induction width generalizing n with
  | zero => rfl
  | succ width ih => rw [toLeBytes, length_cons, ih]

theorem fromLeBytes_toLeBytes {width n : ℕ} : fromLeBytes (toLeBytes width n)
    = n % 256 ^ width := by
  induction width generalizing n with
  | zero => rw [toLeBytes, fromLeBytes, pow_zero, mod_one]
  | succ width ih =>
    rw [toLeBytes, fromLeBytes, ih, pow_succ', mod_mul]
    rfl

theorem fromLeBytes_lt (bs : Bytes) : fromLeBytes bs < 256 ^ bs.length := by
  induction bs with
  | nil => exact one_pos
  | cons b bs ih =>
    have hb := b.toNat_lt
    rw [fromLeBytes, length_cons, pow_succ']
    omega

@[simp] theorem length_encodeFrame (payload : Bytes) :
    (encodeFrame payload).length = 4 + payload.length := by
  rw [encodeFrame, length_append, length_toLeBytes]
  rfl

/-- What the next read finds: bytes, of which it takes as many as fit, or an
error. At the end of the list the peer has closed. -/
inductive Delivery
  | data (bytes : Bytes)
  | timedOut
  | interrupted
  | failed
  deriving DecidableEq

def Delivery.bytes : Delivery → Bytes
  | .data bs => bs
  | _ => []

def contents (input : List Delivery) : Bytes := input.flatMap Delivery.bytes

def beforeTimeout : List Delivery → Option ℕ
  | [] => none
  | .timedOut :: _ => some 0
  | d :: rest => (beforeTimeout rest).map (d.bytes.length + ·)

def timeouts (input : List Delivery) : ℕ := input.count .timedOut

@[simp] theorem contents_cons (d : Delivery) (rest : List Delivery) :
    contents (d :: rest) = d.bytes ++ contents rest := rfl

inductive ReadError
  | timedOut
  | failed

def readSome : ℕ → List Delivery → Except ReadError Bytes × List Delivery
  | 0, input => (.ok [], input)
  | _ + 1, [] => (.ok [], [])
  | size + 1, .data bs :: rest =>
    if bs.length ≤ size + 1 then
      let (result, rest) := readSome (size + 1 - bs.length) rest
      (result.map (bs ++ ·), rest)
    else (.ok (bs.take (size + 1)), .data (bs.drop (size + 1)) :: rest)
  | size + 1, .interrupted :: rest => readSome (size + 1) rest
  | _ + 1, .timedOut :: rest => (.error .timedOut, rest)
  | _ + 1, .failed :: rest => (.error .failed, rest)

inductive FrameError
  | oversized (declared max : ℕ)
  | truncated (expected got : ℕ)

inductive FrameReadError
  | frame (error : FrameError)
  | io (error : ReadError)

def readPayload (declared : ℕ) (input : List Delivery) :
    Except FrameReadError (Option Bytes) × List Delivery :=
  match readSome declared input with
  | (.error e, rest) => (.error (.io e), rest)
  | (.ok payload, rest) =>
    if payload.length < declared then (.error (.frame (.truncated declared payload.length)), rest)
    else (.ok (some payload), rest)

def readFrame (max : ℕ) (input : List Delivery) :
    Except FrameReadError (Option Bytes) × List Delivery :=
  match readSome lengthPrefixBytes input with
  | (.error e, rest) => (.error (.io e), rest)
  | (.ok got, rest) =>
    if got.length = 0 then (.ok none, rest)
    else if got.length < lengthPrefixBytes then
      (.error (.frame (.truncated lengthPrefixBytes got.length)), rest)
    else
      let declared := fromLeBytes got
      if declared > max then (.error (.frame (.oversized declared max)), rest)
      else readPayload declared rest

structure Advanced (n : ℕ) (input rest : List Delivery) : Prop where
  left : contents rest = (contents input).drop n
  before : beforeTimeout rest = (beforeTimeout input).map (· - n)
  reached : ∀ t, beforeTimeout input = some t → n ≤ t
  waits : timeouts rest = timeouts input
  sound : .failed ∉ input → .failed ∉ rest

structure Lost (n : ℕ) (input rest : List Delivery) : Prop where
  before : beforeTimeout input = some n
  left : contents rest = (contents input).drop n
  waits : timeouts rest + 1 = timeouts input
  sound : .failed ∉ input → .failed ∉ rest

variable {d : Delivery} {n max m : ℕ} {input rest middle : List Delivery} {got : Bytes}

theorem beforeTimeout_cons (hd : d ≠ .timedOut) :
    beforeTimeout (d :: rest) = (beforeTimeout rest).map (d.bytes.length + ·) := by
  cases d with
  | timedOut => exact absurd rfl hd
  | _ => rfl

theorem timeouts_cons (hd : d ≠ .timedOut) (rest : List Delivery) :
    timeouts (d :: rest) = timeouts rest := count_cons_of_ne hd

theorem Advanced.refl (input : List Delivery) : Advanced 0 input input :=
  ⟨rfl, by simp, fun _ _ => zero_le _, rfl, id⟩

theorem Advanced.nil (n : ℕ) : Advanced n [] [] :=
  ⟨drop_nil.symm, rfl, nofun, rfl, id⟩

theorem Advanced.cons (h : Advanced n input rest) (hd : d ≠ .timedOut) :
    Advanced (d.bytes.length + n) (d :: input) rest where
  left := by rw [h.left, contents_cons, drop_length_add_append]
  before := by
    rw [h.before, beforeTimeout_cons hd, Option.map_map]
    congr 1
    funext t
    exact (Nat.add_sub_add_left _ _ _).symm
  reached := by
    intro t ht
    rw [beforeTimeout_cons hd, map_eq_some_iff] at ht
    obtain ⟨t', ht', rfl⟩ := ht
    exact Nat.add_le_add_left (h.reached t' ht') _
  waits := h.waits.trans (timeouts_cons hd _).symm
  sound := fun hsound => h.sound fun hmem => hsound (mem_cons_of_mem _ hmem)

theorem Advanced.within {bs : Bytes} (hn : n ≤ bs.length) (rest : List Delivery) :
    Advanced n (.data bs :: rest) (.data (bs.drop n) :: rest) where
  left := by
    exact (drop_append_of_le_length hn).symm
  before := by
    rw [beforeTimeout_cons (d := .data _) nofun, beforeTimeout_cons (d := .data _) nofun,
      Option.map_map]
    congr 1
    funext t
    show (bs.drop n).length + t = bs.length + t - n
    rw [length_drop]
    omega
  reached := by
    intro t ht
    rw [beforeTimeout_cons (d := .data _) nofun, map_eq_some_iff] at ht
    obtain ⟨t', _, rfl⟩ := ht
    exact le_add_right_of_le hn
  waits := by rw [timeouts_cons (d := .data _) nofun, timeouts_cons (d := .data _) nofun]
  sound := by
    intro hsound hmem
    rcases mem_cons.mp hmem with heq | hrs
    · cases heq
    · exact hsound (mem_cons_of_mem _ hrs)

theorem Lost.now (rest : List Delivery) : Lost 0 (.timedOut :: rest) rest where
  before := rfl
  left := rfl
  waits := count_cons_self.symm
  sound := fun hsound hmem => hsound (mem_cons_of_mem _ hmem)

theorem Lost.cons (h : Lost n input rest) (hd : d ≠ .timedOut) :
    Lost (d.bytes.length + n) (d :: input) rest where
  before := by rw [beforeTimeout_cons hd, h.before, map_some]
  left := by rw [h.left, contents_cons, drop_length_add_append]
  waits := h.waits.trans (timeouts_cons hd _).symm
  sound := fun hsound => h.sound fun hmem => hsound (mem_cons_of_mem _ hmem)

theorem Advanced.trans (h : Advanced m input middle) (h' : Advanced n middle rest) :
    Advanced (m + n) input rest where
  left := by rw [h'.left, h.left, drop_drop]
  before := by
    rw [h'.before, h.before, Option.map_map]
    congr 1
    funext t
    exact Nat.sub_sub t m n
  reached := by
    intro t ht
    have hm := h.reached t ht
    have hn := h'.reached (t - m) (by rw [h.before, ht]; rfl)
    omega
  waits := h'.waits.trans h.waits
  sound := fun hsound => h'.sound (h.sound hsound)

theorem Advanced.lost (h : Advanced m input middle) (h' : Lost n middle rest) :
    Lost (m + n) input rest where
  before := by
    have hmd := h.before.symm.trans h'.before
    obtain ⟨t, ht, hn⟩ := map_eq_some_iff.mp hmd
    have hm := h.reached t ht
    rw [ht]
    congr 1
    omega
  left := by rw [h'.left, h.left, drop_drop]
  waits := h'.waits.trans h.waits
  sound := fun hsound => h'.sound (h.sound hsound)

theorem Advanced.length_le (h : Advanced n input rest) :
    (contents rest).length ≤ (contents input).length := by
  rw [h.left, length_drop]
  exact sub_le _ _

theorem Lost.length_le (h : Lost n input rest) :
    (contents rest).length ≤ (contents input).length := by
  rw [h.left, length_drop]
  exact sub_le _ _

theorem readSome_cases (hsound : .failed ∉ input) (size : ℕ) :
    (∃ rest, readSome size input = (.ok ((contents input).take size), rest) ∧
      Advanced size input rest) ∨
    ∃ n rest, n < size ∧ readSome size input = (.error .timedOut, rest) ∧
      Lost n input rest := by
  induction input generalizing size with
  | nil =>
    cases size with
    | zero => exact .inl ⟨[], rfl, .refl []⟩
    | succ size => exact .inl ⟨[], rfl, .nil _⟩
  | cons d input ih =>
    have hrs : .failed ∉ input := fun hmem => hsound (mem_cons_of_mem _ hmem)
    rcases size with _ | size
    · exact .inl ⟨_, rfl, .refl _⟩
    cases d with
    | timedOut => exact .inr ⟨0, input, succ_pos _, rfl, .now input⟩
    | failed => exact absurd mem_cons_self hsound
    | interrupted =>
      rcases ih hrs (size + 1) with ⟨rest, hrd, hadv⟩ | ⟨n, rest, hn, hrd, hlost⟩
      · have hadv := hadv.cons (d := .interrupted) nofun
        rw [show Delivery.interrupted.bytes.length = 0 from rfl, zero_add] at hadv
        exact .inl ⟨rest, hrd, hadv⟩
      · have hlost := hlost.cons (d := .interrupted) nofun
        rw [show Delivery.interrupted.bytes.length = 0 from rfl, zero_add] at hlost
        exact .inr ⟨n, rest, hn, hrd, hlost⟩
    | data bs =>
      by_cases hft : bs.length ≤ size + 1
      · obtain ⟨k, hk⟩ := Nat.exists_eq_add_of_le hft
        have hun : readSome (size + 1) (.data bs :: input) =
            ((readSome k input).1.map (bs ++ ·), (readSome k input).2) := by
          rw [readSome, if_pos hft, show size + 1 - bs.length = k by omega]
        rcases ih hrs k with ⟨rest, hrd, hadv⟩ | ⟨n, rest, hn, hrd, hlost⟩
        · refine .inl ⟨rest, ?_, hk ▸ hadv.cons (d := .data bs) nofun⟩
          rw [hun, hrd, contents_cons, hk]
          show _ = (Except.ok (take (bs.length + k) (bs ++ contents input)), rest)
          rw [take_length_add_append]
          rfl
        · refine .inr ⟨bs.length + n, rest, by omega, ?_, hlost.cons (d := .data bs) nofun⟩
          rw [hun, hrd]
          rfl
      have hpart : size + 1 ≤ bs.length := by omega
      refine .inl ⟨.data (bs.drop (size + 1)) :: input, ?_, .within hpart input⟩
      rw [readSome, if_neg hft, contents_cons]
      show _ = (Except.ok (take (size + 1) (bs ++ contents input)), _)
      rw [take_append_of_le_length hpart]

/-- The ways `readFrame` can come out: only a whole frame or the end of the
stream leaves nothing behind that was read and not returned. -/
inductive FrameRead (input : List Delivery) :
    Except FrameReadError (Option Bytes) × List Delivery → Prop
  | frame {payload : Bytes} {rest : List Delivery} (short : payload.length < 2 ^ 32)
      (within : 4 + payload.length ≤ (contents input).length)
      (advanced : Advanced (4 + payload.length) input rest) :
      FrameRead input (.ok (some payload), rest)
  | closed {n : ℕ} {rest : List Delivery} (advanced : Advanced n input rest) :
      FrameRead input (.ok none, rest)
  | violated {n : ℕ} {rest : List Delivery} (e : FrameError) (advanced : Advanced n input rest) :
      FrameRead input (.error (.frame e), rest)
  | timedOut {n : ℕ} {rest : List Delivery} (lost : Lost n input rest) :
      FrameRead input (.error (.io .timedOut), rest)

theorem readFrame_of_length (hrd : readSome lengthPrefixBytes input = (.ok got, rest))
    (hgot : got.length = 4) (hmax : fromLeBytes got ≤ max) :
    readFrame max input = readPayload (fromLeBytes got) rest := by
  unfold readFrame
  rw [hrd]
  simp [hgot, lengthPrefixBytes, not_lt.mpr hmax]

theorem readPayload_cases {decl : ℕ} (hsound : .failed ∉ input) :
    (∃ rest, decl ≤ (contents input).length ∧ Advanced decl input rest ∧
      readPayload decl input = (.ok (some ((contents input).take decl)), rest)) ∨
    (∃ e rest, (contents input).length < decl ∧ Advanced decl input rest ∧
      readPayload decl input = (.error (.frame e), rest)) ∨
    ∃ n rest, n < decl ∧ Lost n input rest ∧
      readPayload decl input = (.error (.io .timedOut), rest) := by
  unfold readPayload
  rcases readSome_cases hsound decl with ⟨rest, hrd, hadv⟩ | ⟨n, rest, hn, hrd, hlost⟩
  · rw [hrd]
    by_cases hsh : (contents input).length < decl
    · have htk : ((contents input).take decl).length < decl := by
        rw [length_take]
        omega
      exact .inr (.inl ⟨_, rest, hsh, hadv, if_pos htk⟩)
    · have htk : ¬ ((contents input).take decl).length < decl := by
        rw [length_take]
        omega
      exact .inl ⟨rest, not_lt.mp hsh, hadv, if_neg htk⟩
  · rw [hrd]
    exact .inr (.inr ⟨n, rest, hn, hlost, rfl⟩)

section
variable (hsd : .failed ∉ input)
include hsd

theorem frameRead_of_length (hrd : readSome lengthPrefixBytes input = (.ok got, rest))
    (hadv : Advanced lengthPrefixBytes input rest) (hgot : got.length = 4)
    (hwh : 4 ≤ (contents input).length) (hmax : fromLeBytes got ≤ max) :
      FrameRead input (readFrame max input) := by
  have hdc : fromLeBytes got < 2 ^ 32 := by
    have hlt := fromLeBytes_lt got
    rw [hgot] at hlt
    exact hlt
  have hlen : (contents rest).length + 4 = (contents input).length := by
    rw [hadv.left, length_drop]
    exact Nat.sub_add_cancel hwh
  rw [readFrame_of_length hrd hgot hmax]
  rcases readPayload_cases (hadv.sound hsd) with
    ⟨rest', hwt, had', heq⟩ | ⟨e, rest', _, had', heq⟩ | ⟨n, rest', _, hlost, heq⟩ <;>
  rw [heq]
  · have htk : ((contents rest).take (fromLeBytes got)).length = fromLeBytes got :=
      length_take_of_le hwt
    refine .frame (by rw [htk]; exact hdc) (by rw [htk]; omega) ?_
    rw [htk]
    exact hadv.trans had'
  · exact .violated e (hadv.trans had')
  · exact .timedOut (hadv.lost hlost)

theorem readFrame_frameRead (max : ℕ) : FrameRead input (readFrame max input) := by
  rcases readSome_cases hsd lengthPrefixBytes with
    ⟨rest, hrd, hadv⟩ | ⟨n, rest, _, hrd, hlost⟩
  · have hlen : ((contents input).take lengthPrefixBytes).length =
        min 4 (contents input).length := length_take
    generalize (contents input).take lengthPrefixBytes = got at hrd hlen
    by_cases hwh : 4 ≤ (contents input).length ∧ fromLeBytes got ≤ max
    · exact frameRead_of_length hsd hrd hadv (by omega) hwh.1 hwh.2
    unfold readFrame
    rw [hrd]
    dsimp only
    split
    · exact .closed hadv
    split
    · exact .violated _ hadv
    split
    · exact .violated _ hadv
    · next hnotLess hno =>
      have hgot : ¬ got.length < 4 := hnotLess
      exact absurd ⟨by omega, not_lt.mp hno⟩ hwh
  have heq : readFrame max input = (.error (.io .timedOut), rest) := by
    unfold readFrame
    rw [hrd]
  rw [heq]
  exact .timedOut hlost

theorem readFrame_declared {tail : Bytes} (hcont : contents input = toLeBytes 4 n ++ tail)
    (hn : n < 2 ^ 32) :
    (∃ rest, contents rest = tail ∧ Advanced 4 input rest ∧ readFrame max input =
      if max < n then (.error (.frame (.oversized n max)), rest) else readPayload n rest) ∨
    ∃ m rest, m < 4 ∧ readFrame max input = (.error (.io .timedOut), rest) ∧
      Lost m input rest := by
  unfold readFrame
  rcases readSome_cases hsd lengthPrefixBytes with
    ⟨rest, hrd, hadv⟩ | ⟨m, rest, hm, hrd, hlost⟩
  · have hgot : (contents input).take lengthPrefixBytes = toLeBytes 4 n := by
      rw [hcont]
      exact take_left' (length_toLeBytes 4 n)
    have hdc : fromLeBytes (toLeBytes 4 n) = n := by
      rw [fromLeBytes_toLeBytes]
      exact mod_eq_of_lt hn
    refine .inl ⟨rest, ?_, hadv, ?_⟩
    · rw [hadv.left, hcont]
      exact drop_left' (length_toLeBytes 4 n)
    · rw [hrd, hgot]
      simp [hdc, lengthPrefixBytes]
  · rw [hrd]
    exact .inr ⟨m, rest, hm, rfl, hlost⟩

theorem readFrame_encoded {payload tail : Bytes}
    (hcont : contents input = encodeFrame payload ++ tail) (hmax : payload.length ≤ max)
    (hsh : payload.length < 2 ^ 32) :
    (∃ rest, readFrame max input = (.ok (some payload), rest) ∧ contents rest = tail ∧
      Advanced (4 + payload.length) input rest) ∨
    ∃ n rest, n < 4 + payload.length ∧ readFrame max input = (.error (.io .timedOut), rest) ∧
      Lost n input rest := by
  rw [encodeFrame, mod_eq_of_lt hsh, append_assoc] at hcont
  rcases readFrame_declared hsd hcont hsh with
    ⟨rest, htl, hadv, hrd⟩ | ⟨n, rest, hn, hrd, hlost⟩
  · rw [hrd, if_neg (not_lt.mpr hmax)]
    rcases readPayload_cases (hadv.sound hsd) with
      ⟨rest', _, had', heq⟩ | ⟨e, rest', hle, _⟩ | ⟨n, rest', hn, hlost, heq⟩
    · rw [htl, take_left] at heq
      refine .inl ⟨rest', heq, ?_, hadv.trans had'⟩
      rw [had'.left, htl, drop_left]
    · rw [htl, length_append] at hle
      omega
    · exact .inr ⟨4 + n, rest', by omega, heq, hadv.lost hlost⟩
  · exact .inr ⟨n, rest, Nat.lt_add_right _ hn, hrd, hlost⟩

end

theorem readFrame_empty (max : ℕ) (hsound : .failed ∉ input) (hcont : contents input = []) :
    (∃ rest, readFrame max input = (.ok none, rest)) ∨
    ∃ rest, readFrame max input = (.error (.io .timedOut), rest) ∧ contents rest = [] ∧
      ∃ n, Lost n input rest := by
  rcases readSome_cases hsound lengthPrefixBytes with
    ⟨rest, hrd, _⟩ | ⟨n, rest, _, hrd, hlost⟩
  · refine .inl ⟨rest, ?_⟩
    unfold readFrame
    rw [hrd, hcont]
    rfl
  · refine .inr ⟨rest, ?_, ?_, n, hlost⟩
    · unfold readFrame
      rw [hrd]
    · rw [hlost.left, hcont, drop_nil]

def Steady (input : List Delivery) : Prop := .timedOut ∉ input ∧ .failed ∉ input

def readFrames (max : ℕ) : ℕ → List Delivery → List (Except FrameReadError (Option Bytes))
  | 0, _ => []
  | n + 1, input => (readFrame max input).1 :: readFrames max n (readFrame max input).2

structure ReadsBack (max : ℕ) (payloads : List Bytes) (input : List Delivery) : Prop where
  whole : contents input = payloads.flatMap encodeFrame →
    readFrames max (payloads.length + 1) input =
      payloads.map (fun p => .ok (some p)) ++ [.ok none]
  cut : ∀ front p back k, payloads = front ++ p :: back → 0 < k → k < (encodeFrame p).length →
    contents input = front.flatMap encodeFrame ++ (encodeFrame p).take k →
    ∃ expected got, readFrames max (front.length + 1) input =
      front.map (fun p => .ok (some p)) ++ [.error (.frame (.truncated expected got))]
  oversized : ∀ n tail, max < n → n < 2 ^ 32 → contents input = toLeBytes 4 n ++ tail →
    ∃ rest, readFrame max input = (.error (.frame (.oversized n max)), rest) ∧
      contents rest = tail

variable {payload tail : Bytes} {payloads : List Bytes}
  {out : Except FrameReadError (Option Bytes) × List Delivery}

theorem Advanced.steady (h : Advanced n input rest) (hs : Steady input) : Steady rest := by
  refine ⟨?_, h.sound hs.2⟩
  rw [← count_eq_zero]
  exact h.waits.trans (count_eq_zero.mpr hs.1)

theorem Lost.not_steady (h : Lost n input rest) : ¬ Steady input := by
  intro hs
  have hnn : timeouts input = 0 := count_eq_zero.mpr hs.1
  rw [← h.waits] at hnn
  exact succ_ne_zero _ hnn

theorem FrameRead.sound (h : FrameRead input out) (hsound : .failed ∉ input) :
    .failed ∉ out.2 := by
  cases h with
  | frame _ _ adv | closed adv | violated _ adv => exact adv.sound hsound
  | timedOut lost => exact lost.sound hsound

theorem FrameRead.length_le (h : FrameRead input out) :
    (contents out.2).length ≤ (contents input).length := by
  cases h with
  | frame _ _ adv | closed adv | violated _ adv => exact adv.length_le
  | timedOut lost => exact lost.length_le

theorem FrameRead.short (h : FrameRead input out) (hout : out.1 = .ok (some payload)) :
    payload.length < 2 ^ 32 := by
  cases h with
  | frame short =>
    cases hout
    exact short
  | _ => cases hout

theorem length_of_mem_readFrames (hsound : .failed ∉ input)
    (h : .ok (some payload) ∈ readFrames max n input) : payload.length < 2 ^ 32 := by
  induction n generalizing input with
  | zero => cases h
  | succ n ih =>
    have hrd := readFrame_frameRead hsound max
    rcases mem_cons.mp h with heq | hrs
    · exact hrd.short heq.symm
    · exact ih (hrd.sound hsound) hrs

section
variable (hs : Steady input)
include hs

theorem readSome_steady (size : ℕ) :
    ∃ rest, readSome size input = (.ok ((contents input).take size), rest) := by
  rcases readSome_cases hs.2 size with ⟨rest, hrd, -⟩ | ⟨_, _, -, -, hlost⟩
  · exact ⟨rest, hrd⟩
  · exact absurd hs hlost.not_steady

theorem readFrame_steady (max : ℕ) (hcont : contents input = toLeBytes 4 n ++ tail)
    (hn : n < 2 ^ 32) :
    ∃ rest, Steady rest ∧ contents rest = tail ∧ readFrame max input =
      if max < n then (.error (.frame (.oversized n max)), rest) else readPayload n rest := by
  rcases readFrame_declared hs.2 hcont hn with ⟨rest, htl, hadv, hrd⟩ | ⟨_, _, -, -, hlost⟩
  · exact ⟨rest, hadv.steady hs, htl, hrd⟩
  · exact absurd hs hlost.not_steady

theorem readPayload_truncated (hn : (contents input).length < n) :
    (readPayload n input).1 = .error (.frame (.truncated n (contents input).length)) := by
  obtain ⟨rest, hrd⟩ := readSome_steady hs n
  unfold readPayload
  rw [hrd, take_of_length_le hn.le]
  simp [hn]

theorem readFrame_cut {k : ℕ} (hcont : contents input = (encodeFrame payload).take k)
    (hpos : 0 < k) (hk : k < 4 + payload.length) (hmax : payload.length ≤ max)
    (hsh : payload.length < 2 ^ 32) :
    ∃ want got, (readFrame max input).1 = .error (.frame (.truncated want got)) := by
  by_cases hpart : k < lengthPrefixBytes
  · obtain ⟨rest, hrd⟩ := readSome_steady hs lengthPrefixBytes
    have hlen : (contents input).length = k := by
      rw [hcont, length_take, length_encodeFrame]
      omega
    refine ⟨lengthPrefixBytes, k, ?_⟩
    unfold readFrame
    rw [hrd, take_of_length_le (hlen.trans_le hpart.le)]
    simp [hlen, hpart, hpos.ne']
  have hle : lengthPrefixBytes ≤ k := not_lt.mp hpart
  rw [encodeFrame, mod_eq_of_lt hsh, take_append, length_toLeBytes,
    take_of_length_le ((length_toLeBytes _ _).trans_le hle)] at hcont
  obtain ⟨rest, hrs, htl, hrd⟩ := readFrame_steady hs max hcont hsh
  rw [hrd, if_neg (not_lt.mpr hmax)]
  refine ⟨_, _, readPayload_truncated hrs ?_⟩
  rw [htl, length_take]
  change 4 ≤ k at hle
  show min (k - 4) payload.length < payload.length
  omega

theorem readFrames_encoded (hmax : ∀ p ∈ payloads, p.length ≤ max ∧ p.length < 2 ^ 32)
    (hcont : contents input = payloads.flatMap encodeFrame ++ tail) :
    ∃ rest, Steady rest ∧ contents rest = tail ∧ ∀ n,
      readFrames max (payloads.length + n) input =
        payloads.map (fun p => .ok (some p)) ++ readFrames max n rest := by
  induction payloads generalizing input with
  | nil => exact ⟨input, hs, hcont, fun n => by simp⟩
  | cons p payloads ih =>
    obtain ⟨hp, hsh⟩ := hmax p mem_cons_self
    rw [flatMap_cons, append_assoc] at hcont
    rcases readFrame_encoded hs.2 hcont hp hsh with
      ⟨rest, hrd, htl, hadv⟩ | ⟨_, _, -, -, hlost⟩
    · obtain ⟨last, hla, hlf, hre⟩ :=
        ih (hadv.steady hs) (fun q hq => hmax q (mem_cons_of_mem _ hq)) htl
      refine ⟨last, hla, hlf, fun n => ?_⟩
      rw [length_cons, add_right_comm, readFrames, hrd]
      exact congrArg (cons _) (hre n)
    · exact absurd hs hlost.not_steady

theorem readsBack_of_short (hmax : ∀ p ∈ payloads, p.length ≤ max ∧ p.length < 2 ^ 32) :
    ReadsBack max payloads input where
  whole := by
    intro hcont
    obtain ⟨rest, hrs, hend, hre⟩ := readFrames_encoded hs hmax (hcont.trans (append_nil _).symm)
    rw [hre 1]
    rcases readFrame_empty max hrs.2 hend with ⟨_, hrd⟩ | ⟨_, -, -, _, hlost⟩
    · rw [readFrames, hrd]
      rfl
    · exact absurd hrs hlost.not_steady
  cut := by
    rintro front p back k rfl hpos hk hcont
    obtain ⟨rest, hrs, hend, hre⟩ :=
      readFrames_encoded hs (fun q hq => hmax q (mem_append_left _ hq)) hcont
    obtain ⟨hp, hsh⟩ := hmax p (mem_append_right _ mem_cons_self)
    obtain ⟨want, got, hcut⟩ := readFrame_cut hrs hend hpos (length_encodeFrame p ▸ hk) hp hsh
    refine ⟨want, got, ?_⟩
    rw [hre 1, readFrames, hcut]
    rfl
  oversized := by
    intro n tail hov hn hcont
    obtain ⟨rest, -, htl, hrd⟩ := readFrame_steady hs max hcont hn
    rw [if_pos hov] at hrd
    exact ⟨rest, hrd, htl⟩

end

/-- For every list of payloads within the limit: every delivery of their frames,
whole or cut, is read back as it should be exactly when the lengths fit their
prefixes. -/
theorem frames_read_back_iff (max : ℕ) (payloads : List Bytes)
    (hmax : ∀ p ∈ payloads, p.length ≤ max) :
    (∀ input, Steady input → ReadsBack max payloads input) ↔
      ∀ p ∈ payloads, p.length < 2 ^ 32 := by
  constructor
  · intro h p hp
    have hs : Steady [.data (payloads.flatMap encodeFrame)] := by simp [Steady]
    have hrd := (h _ hs).whole (append_nil _)
    refine length_of_mem_readFrames hs.2 (hrd ▸ mem_append_left _ ?_)
    exact mem_map.mpr ⟨p, hp, rfl⟩
  · intro h input hs
    exact readsBack_of_short hs fun p hp => ⟨hmax p hp, h p hp⟩

theorem frames_read_back_iff_pair :
    readFrames 64 3 [.data [2, 0], .interrupted, .data [0, 0, 7, 8, 0, 0, 0], .data [0]] =
      [.ok (some [7, 8]), .ok (some []), .ok none] := by
  refine ((frames_read_back_iff 64 [[7, 8], []] (by decide)).mpr (by decide) _ ?_).whole rfl
  unfold Steady
  decide

/-- A payload of `2 ^ 32` bytes is announced as empty, and read back so. -/
theorem long_frame_read_back_empty :
    let payload : Bytes := replicate (2 ^ 32) 0
    payload.length = 2 ^ 32 ∧
      (readFrame (2 ^ 32) [.data (encodeFrame payload)]).1 = .ok (some []) := by
  intro payload
  have hlen : payload.length = 2 ^ 32 := length_replicate
  have hcont : contents [.data (encodeFrame payload)] = toLeBytes 4 0 ++ payload := by
    have hpre : payload.length % 2 ^ 32 = 0 := by rw [hlen, mod_self]
    refine (append_nil _).trans ?_
    rw [Delivery.bytes, encodeFrame, hpre]
    rfl
  obtain ⟨rest, -, -, hrd⟩ :=
    readFrame_steady (by simp [Steady]) (2 ^ 32) hcont (Nat.two_pow_pos 32)
  refine ⟨hlen, ?_⟩
  rw [hrd, if_neg (Nat.not_lt_zero _), readPayload, readSome]
  rfl

end DshDesktop.Transport
