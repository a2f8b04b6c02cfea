import Mathlib.Data.List.DropRight
import DshDesktop.Library.JoinedFields
import DshDesktop.Runtime.Supervisor

/-!
# Candidates in the output of the managed process

`spawn_output_reader` byte by byte, with a queue that has room. A read returns at least
one byte; the end of the list of reads is the end of the stream.
-/

namespace DshDesktop.Runtime
open List

def outputMarker : String := "dsh web:"

def trim (cs : List Char) : List Char := (cs.dropWhile isWhiteSpace).rdropWhile isWhiteSpace

def candidate (line : List UInt8) : Option String := do
  let text ← String.fromUTF8? ⟨line.toArray⟩
  let trimmed := trim text.toList
  if outputMarker.toList.isPrefixOf trimmed then
    return String.ofList (trim (trimmed.drop outputMarker.length))
  else none

structure OutputReader where
  line : List UInt8
  overflow : Bool
  sent : List String
  deriving DecidableEq

namespace OutputReader

def start : OutputReader := ⟨[], false, []⟩

def send (r : OutputReader) : OutputReader :=
  { r with sent := r.sent ++ (candidate r.line).toList }

def readByte (r : OutputReader) (byte : UInt8) : OutputReader :=
  if byte = 10 then
    { (if r.overflow then r else r.send) with line := [], overflow := false }
  else if byte ≠ 13 then
    if r.line.length < maxOutputLineBytes then { r with line := r.line ++ [byte] }
    else { r with overflow := true }
  else r

def finish (r : OutputReader) : OutputReader :=
  if r.line ≠ [] ∧ r.overflow = false then r.send else r

end OutputReader

def readOutput (reads : List (List UInt8)) : List String :=
  (reads.foldl (foldl OutputReader.readByte) .start).finish.sent

def lineCandidate (line : List UInt8) : Option String :=
  if maxOutputLineBytes < line.length then none else candidate line

def OutputReader.amid (line : List UInt8) (sent : List String) : OutputReader :=
  ⟨line.take maxOutputLineBytes, decide (maxOutputLineBytes < line.length), sent⟩

section
variable (line : List UInt8) (sent : List String)
open OutputReader

theorem send_amid (h : ¬ maxOutputLineBytes < line.length) :
    (amid line sent).send.sent = sent ++ (lineCandidate line).toList := by
  rw [lineCandidate, if_neg h, send, amid, take_of_length_le (Nat.not_lt.mp h)]

theorem readByte_newline :
    (amid line sent).readByte 10 = amid [] (sent ++ (lineCandidate line).toList) := by
  unfold readByte
  by_cases h : maxOutputLineBytes < line.length
  · simp [amid, lineCandidate, h]
  · have hsn := send_amid line sent h
    simp only [amid, h, decide_false, Bool.false_eq_true, if_false] at hsn ⊢
    rw [hsn]
    rfl

theorem readByte_kept {byte : UInt8} (hne : byte ≠ 10) (hcr : byte ≠ 13) :
    (amid line sent).readByte byte = amid (line ++ [byte]) sent := by
  unfold readByte amid
  rw [if_neg hne, if_pos hcr, length_take, length_append, take_append]
  split_ifs with h
  · have hrm : line.length < maxOutputLineBytes := by omega
    have hft : ¬ maxOutputLineBytes < line.length ∧
        ¬ maxOutputLineBytes < line.length + [byte].length := by
      simp only [length_singleton]
      omega
    rw [decide_eq_false hft.1, decide_eq_false hft.2, take_of_length_le (l := [byte])]
    omega
  · have hfull : maxOutputLineBytes ≤ line.length := by omega
    rw [Nat.sub_eq_zero_of_le hfull, take_zero, append_nil]
    congr 1
    exact (decide_eq_true (Nat.lt_succ_of_le hfull)).symm

theorem finish_amid : (amid line sent).finish.sent = sent ++ (lineCandidate line).toList := by
  unfold finish
  split_ifs with h
  · exact send_amid line sent (of_decide_eq_false h.2)
  rw [not_and_or, not_not, Bool.not_eq_false] at h
  rcases h with hem | hov
  · have hline : line = [] := (take_eq_nil_iff.mp hem).resolve_left (by decide)
    have hnn : lineCandidate [] = none := by decide
    rw [hline, hnn]
    exact (append_nil _).symm
  · rw [lineCandidate, if_pos (of_decide_eq_true hov)]
    exact (append_nil _).symm

theorem foldl_readByte (bytes : List UInt8) : (bytes.foldl readByte (amid line sent)).finish.sent =
      sent ++ (((LineFile.split 10 bytes).map fun l => l.filter (· ≠ 13)).modifyHead
        (line ++ ·)).filterMap lineCandidate := by
  induction bytes generalizing line sent with
  | nil =>
    rw [foldl_nil, finish_amid]
    cases h : lineCandidate line <;> simp [LineFile.split, h]
  | cons byte bytes ih =>
    obtain ⟨first, pieces, hsp⟩ := LineFile.exists_split 10 bytes
    rw [foldl_cons, LineFile.split, hsp]
    rw [hsp] at ih
    split_ifs with hnl
    · rw [hnl, readByte_newline, ih]
      cases h : lineCandidate line <;> simp [h]
    by_cases hcr : byte = 13
    · have heq : (amid line sent).readByte byte = amid line sent := by
        rw [readByte, if_neg hnl, if_neg (not_not.mpr hcr)]
      rw [heq, ih]
      simp [hcr]
    · rw [readByte_kept line sent hnl hcr, ih]
      simp [hcr]

end

end DshDesktop.Runtime
