import DshDesktop.Library.JoinedFields
import DshDesktop.Library.Utf8
import DshDesktop.Shell.Notifications
import DshDesktop.Shell.Usage
import Mathlib.Data.List.TakeWhile

/-!
# The two ledgers of lines

`append_record`, `roll_cap` and `read_records` of `usage.rs` and `notification.rs`, which
are the same but for the record type and the cap. Every step of an append may fail; a write
may fail after any number of its bytes.
-/

namespace DshDesktop.Shell.LineLedgers
open LineFile Notifications Usage List

def newline : UInt8 := 10

def auditCap : ℕ := 1000

/-- The JSON text of a record and its reader. `seen` is the record that is read back: the
record itself, up to the last bit of a number with a fraction. -/
structure LineFormat (ρ : Type) where
  line : ρ → List UInt8
  read : List UInt8 → Option ρ
  seen : ρ → ρ
  opens : ∀ r, (line r).head? = some 0x7B
  closes : ∀ r, (line r).getLast? = some 0x7D
  oneLine : ∀ r, newline ∉ line r
  text : ∀ r, Utf8.scan [] (line r) = .valid
  readBack : ∀ r, read (line r) = some (seen r)

inductive Rewrite
  | done
  | notOpened
  | stopped (written : ℕ)

/-- What becomes of an append: it fails before the file is open, it fails in or after the
write with some bytes in the file, or it comes to rolling the file. -/
inductive Outcome
  | notOpened
  | stopped (written : ℕ)
  | rolled (readable : Bool) (rewrite : Rewrite)

def fileLines (file : List UInt8) : List (List UInt8) :=
  (split newline file).filter fun l => l ≠ []

def rolledText (cap : ℕ) (file : List UInt8) : Option (List UInt8) :=
  if (fileLines file).length ≤ cap then none
  else some (render newline ((fileLines file).drop ((fileLines file).length - cap)))

def rollCap (cap : ℕ) (readable : Bool) (rewrite : Rewrite) (file : List UInt8) :
    Bool × List UInt8 :=
  if readable = false ∨ Utf8.scan [] file ≠ .valid then (true, file)
  else
    match rolledText cap file with
    | none => (true, file)
    | some payload =>
      match rewrite with
      | .done => (true, payload)
      | .notOpened => (false, file)
      | .stopped written => (false, payload.take written)

def appendRecord (cap : ℕ) (payload : List UInt8) (outcome : Outcome) (file : List UInt8) :
    Bool × List UInt8 :=
  match outcome with
  | .notOpened => (false, file)
  | .stopped written => (false, file ++ (payload ++ [newline]).take written)
  | .rolled readable rewrite => rollCap cap readable rewrite (file ++ (payload ++ [newline]))

def isWideSpace (a b c : UInt8) : Bool :=
  (a = 0xE1 && b = 0x9A && c = 0x80) ||
    (a = 0xE2 && b = 0x80 && ((0x80 ≤ c && c ≤ 0x8A) || c = 0xA8 || c = 0xA9 || c = 0xAF)) ||
    (a = 0xE2 && b = 0x81 && c = 0x9F) || (a = 0xE3 && b = 0x80 && c = 0x80)

def isBlank : List UInt8 → Bool
  | [] => true
  | a :: rest =>
    if (9 ≤ a && a ≤ 13) || a = 32 then isBlank rest
    else
      match rest with
      | [] => false
      | b :: rest =>
        if a = 0xC2 && (b = 0x85 || b = 0xA0) then isBlank rest
        else
          match rest with
          | [] => false
          | c :: rest => isWideSpace a b c && isBlank rest

def stripReturn (l : List UInt8) : List UInt8 := if l.getLast? = some 13 then l.dropLast else l

def bufferedLines (file : List UInt8) : List (List UInt8) :=
  (split newline file).dropLast.map stripReturn ++
    (split newline file).getLast?.toList.filter fun l => l ≠ []

section
variable {ρ : Type} (format : LineFormat ρ)

def readRecords (file : List UInt8) : List ρ :=
  (((bufferedLines file).takeWhile fun l => Utf8.scan [] l = .valid).filter fun l =>
    !isBlank l).filterMap format.read

structure Ledger (ρ : Type) where
  file : List UInt8
  appended : List (ρ × Bool)
  returned : Bool

def Ledger.empty (ρ : Type) : Ledger ρ := ⟨[], [], false⟩

structure Append (ρ : Type) where
  record : ρ
  outcome : Outcome

def Append.isWhole (e : Append ρ) : Bool :=
  match e.outcome with
  | .notOpened => false
  | .stopped written => (format.line e.record).length < written
  | .rolled _ _ => true

variable (cap : ℕ)

def step (s : Ledger ρ) (e : Append ρ) : Ledger ρ :=
  let r := appendRecord cap (format.line e.record) e.outcome s.file
  { file := r.2
    appended := if e.isWhole format then s.appended ++ [(e.record, r.1)] else s.appended
    returned := r.1 }

def run (events : List (Append ρ)) : Ledger ρ := Runs.run (step format cap) (.empty ρ) events

/-- A record whose append was successful is read until `cap` newer ones have come into
the file, and a successful append leaves at most `cap` lines. -/
structure Survives (s : Ledger ρ) : Prop where
  read : ∀ before r newer, s.appended = before ++ (r, true) :: newer → newer.length < cap →
    format.seen r ∈ readRecords format s.file
  few : s.returned = true → (lines newline s.file).length ≤ cap

/-- No failed write leaves a part of its bytes behind, and the file can be read back. -/
def Clean (s : Ledger ρ) (e : Append ρ) : Prop :=
  match e.outcome with
  | .notOpened => True
  | .stopped written => written = 0 ∨ (format.line e.record).length < written
  | .rolled readable rewrite =>
    readable = true ∧ ∀ written, rewrite = .stopped written →
      ∀ payload, rolledText cap (s.file ++ (format.line e.record ++ [newline])) = some payload →
        payload.length ≤ written

def wholeLines (rs : List ρ) : List UInt8 := render newline (rs.map format.line)

variable {format cap} {s : Ledger ρ} {kept : List ρ} {l : List UInt8} (rs : List ρ) (r : ρ)

theorem line_ne_nil : format.line r ≠ [] := by
  intro hnil
  have hhd := format.opens r
  rw [hnil] at hhd
  cases hhd

theorem newline_notMem : ∀ l ∈ rs.map format.line, newline ∉ l := by
  intro l hl
  obtain ⟨r, -, rfl⟩ := mem_map.mp hl
  exact format.oneLine r

theorem wholeLines_append :
    wholeLines format (rs ++ [r]) = wholeLines format rs ++ (format.line r ++ [newline]) := by
  simp [render, wholeLines]

theorem fileLines_wholeLines : fileLines (wholeLines format rs) = rs.map format.line := by
  refine filter_split_render (newline_notMem rs) ?_
  intro l hl
  obtain ⟨r, -, rfl⟩ := mem_map.mp hl
  exact line_ne_nil r

theorem lines_wholeLines : lines newline (wholeLines format rs) = rs.map format.line :=
  lines_render (newline_notMem rs)

theorem scan_wholeLines : Utf8.scan [] (wholeLines format rs) = .valid := by
  induction rs with
  | nil => rfl
  | cons r rs ih =>
    rw [wholeLines, map_cons, render, flatMap_cons, append_assoc,
      Utf8.scan_valid_append (format.text r)]
    exact ih

theorem isBlank_line : isBlank (format.line r) = false := by
  have hhd := format.opens r
  cases hline : format.line r with
  | nil => exact absurd hline (line_ne_nil r)
  | cons a rest =>
    rw [hline] at hhd
    cases hhd
    -- an opening brace is no white space, nor does it begin a white character
    cases rest with
    | nil => rfl
    | cons b rest =>
      cases rest with
      | nil | cons c rest => rfl

theorem bufferedLines_wholeLines : bufferedLines (wholeLines format rs) = rs.map format.line := by
  have hst : (rs.map format.line).map stripReturn = rs.map format.line := by
    rw [map_map]
    refine map_congr_left ?_
    intro r _
    change stripReturn (format.line r) = format.line r
    rw [stripReturn, format.closes]
    rfl
  rw [bufferedLines, wholeLines, split_render (newline_notMem rs), dropLast_concat,
    List.getLast?_concat, hst]
  simp

theorem readRecords_wholeLines :
    readRecords format (wholeLines format rs) = rs.map format.seen := by
  have htx : (rs.map format.line).takeWhile (fun l => Utf8.scan [] l = .valid) =
      rs.map format.line := by
    refine takeWhile_eq_self_iff.mpr ?_
    intro l hl
    obtain ⟨r, -, rfl⟩ := mem_map.mp hl
    exact decide_eq_true (format.text r)
  have hblank : (rs.map format.line).filter (fun l => !isBlank l) = rs.map format.line := by
    refine filter_eq_self.mpr ?_
    intro l hl
    obtain ⟨r, -, rfl⟩ := mem_map.mp hl
    rw [isBlank_line]
    rfl
  rw [readRecords, bufferedLines_wholeLines, htx, hblank, filterMap_map, ← filterMap_eq_map]
  refine filterMap_congr ?_
  intro r _
  exact format.readBack r

structure Tidy (format : LineFormat ρ) (cap : ℕ) (s : Ledger ρ) (kept : List ρ) : Prop where
  file : s.file = wholeLines format kept
  latest : kept <:+ s.appended.map Prod.fst
  enough : min cap s.appended.length ≤ kept.length
  few : s.returned = true → kept.length ≤ cap

theorem rollCap_wholeLines {rewrite : Rewrite}
    (hrew : ∀ wri, rewrite = .stopped wri →
      ∀ pay, rolledText cap (wholeLines format kept) = some pay →
      pay.length ≤ wri) :
    ∃ rest : List ρ,
      (rollCap cap true rewrite (wholeLines format kept)).2 = wholeLines format rest ∧
      rest <:+ kept ∧ min cap kept.length ≤ rest.length ∧
      ((rollCap cap true rewrite (wholeLines format kept)).1 → rest.length ≤ cap) := by
  have hvl : ¬ (true = false ∨ Utf8.scan [] (wholeLines format kept) ≠ .valid) := by
    rw [scan_wholeLines]
    simp
  rw [rollCap, if_neg hvl]
  by_cases hfew : kept.length ≤ cap
  · have hnn : rolledText cap (wholeLines format kept) = none := by
      rw [rolledText, fileLines_wholeLines, length_map, if_pos hfew]
    rw [hnn]
    exact ⟨kept, rfl, suffix_refl kept, min_le_right .., fun _ => hfew⟩
  have hsome : rolledText cap (wholeLines format kept) =
      some (wholeLines format (kept.drop (kept.length - cap))) := by
    rw [rolledText, fileLines_wholeLines, length_map, if_neg hfew, ← map_drop]
    rfl
  have hlen : (kept.drop (kept.length - cap)).length = cap := by
    rw [length_drop]
    omega
  rw [hsome]
  cases rewrite with
  | done =>
    exact ⟨_, rfl, drop_suffix _ kept, by omega, fun _ => le_of_eq hlen⟩
  | notOpened =>
    exact ⟨kept, rfl, suffix_refl kept, min_le_right .., fun h => by cases h⟩
  | stopped wri =>
    refine ⟨_, ?_, drop_suffix _ kept, by omega, fun _ => le_of_eq hlen⟩
    exact take_of_length_le (hrew wri rfl _ hsome)

theorem tidy_appended {rest : List ρ} (h : Tidy format cap s kept) {r : ρ} {answer : Bool}
    (hrs : rest <:+ kept ++ [r]) (hen : min cap (kept ++ [r]).length ≤ rest.length)
    (hfew : answer → rest.length ≤ cap) :
    Tidy format cap ⟨wholeLines format rest, s.appended ++ [(r, answer)], answer⟩ rest where
  file := rfl
  latest := by
    obtain ⟨front, hfr⟩ := h.latest
    refine hrs.trans ⟨front, ?_⟩
    rw [map_append, ← hfr, append_assoc]
    rfl
  enough := by
    have hold := h.enough
    simp only [length_append, length_singleton] at hen ⊢
    omega
  few := hfew

theorem tidy_step {e : Append ρ} (hclean : Clean format cap s e)
    (h : ∃ kept, Tidy format cap s kept) : ∃ kept, Tidy format cap (step format cap s e) kept := by
  obtain ⟨kept, hkp⟩ := h
  rw [Clean] at hclean
  rw [step, appendRecord.eq_def, Append.isWhole]
  cases hot : e.outcome with
  | notOpened =>
    exact ⟨kept, hkp.file, hkp.latest, hkp.enough, fun h => by cases h⟩
  | stopped wri =>
    rw [hot] at hclean
    dsimp only
    rcases hclean with rfl | hwh
    · rw [take_zero, append_nil, if_neg (by simp)]
      exact ⟨kept, hkp.file, hkp.latest, hkp.enough, fun h => by cases h⟩
    have htk : (format.line e.record ++ [newline]).take wri =
        format.line e.record ++ [newline] := by
      refine take_of_length_le ?_
      rw [length_append, length_singleton]
      omega
    rw [htk, hkp.file, ← wholeLines_append, if_pos (decide_eq_true hwh)]
    exact ⟨_, tidy_appended hkp (suffix_refl _) (min_le_right ..)
      fun h => by cases h⟩
  | rolled readable rewrite =>
    rw [hot] at hclean
    obtain ⟨hrd, hrew⟩ := hclean
    subst hrd
    rw [hkp.file, ← wholeLines_append] at hrew ⊢
    obtain ⟨rest, hfile, hrs, hen, hfew⟩ := rollCap_wholeLines hrew
    refine ⟨rest, ?_⟩
    have htd := tidy_appended hkp hrs hen hfew
    rw [← hfile] at htd
    exact htd

theorem mem_of_suffix {α : Type*} {l front back : List α} {a : α} (h : l <:+ front ++ a :: back)
    (hlen : back.length < l.length) : a ∈ l := by
  have hlonger : a :: back <:+ front ++ a :: back := ⟨front, rfl⟩
  have hsf : a :: back <:+ l := suffix_of_suffix_length_le hlonger h hlen
  exact hsf.subset mem_cons_self

theorem Tidy.survives (h : Tidy format cap s kept) : Survives format cap s where
  read := by
    intro bef r newer hsp hnw
    have hlt := h.latest
    have hen := h.enough
    rw [hsp, map_append, map_cons] at hlt
    rw [hsp, length_append, length_cons] at hen
    rw [h.file, readRecords_wholeLines]
    refine mem_map_of_mem (mem_of_suffix hlt ?_)
    rw [length_map]
    omega
  few := by
    intro hret
    rw [h.file, lines_wholeLines, length_map]
    exact h.few hret

theorem run_survives {evs : List (Append ρ)}
    (h : Runs.Along (step format cap) (Clean format cap) (.empty ρ) evs) :
    Survives format cap (run format cap evs) := by
  have hem : Tidy format cap (.empty ρ) [] :=
    ⟨rfl, suffix_refl _, min_le_right .., fun h => by cases h⟩
  obtain ⟨kept, hkp⟩ := Runs.run_invariant_along (Clean format cap)
    (fun s => ∃ kept, Tidy format cap s kept) (fun s e hclean => tidy_step hclean) h ⟨[], hem⟩
  exact hkp.survives

theorem readRecords_glued (hline : newline ∉ l) (hlast : l.getLast? = some 0x7D)
    (hrd : format.read l = none) : readRecords format (l ++ [newline]) = [] := by
  have hsp : split newline (l ++ [newline]) = [l, []] := split_line hline []
  have hst : stripReturn l = l := by
    rw [stripReturn, hlast]
    rfl
  have hli : bufferedLines (l ++ [newline]) = [l] := by
    rw [bufferedLines, hsp]
    simp [hst]
  rw [readRecords, hli, filterMap_eq_nil_iff]
  intro k hk
  have hmem := ( List.takeWhile_prefix _).subset (mem_of_mem_filter hk)
  rw [mem_singleton] at hmem
  rw [hmem]
  exact hrd

theorem rollCap_single (hline : newline ∉ l) (hcap : 0 < cap) :
    rollCap cap true .done (l ++ [newline]) = (true, l ++ [newline]) := by
  have hsp : split newline (l ++ [newline]) = [l, []] := split_line hline []
  have hfew : (fileLines (l ++ [newline])).length ≤ cap := by
    rw [fileLines, hsp]
    have hlen := length_filter_le (fun k : List UInt8 => decide (k ≠ [])) [l]
    simp only [filter_cons, filter_nil, length_singleton] at hlen ⊢
    exact le_trans hlen hcap
  rw [rollCap, rolledText, if_pos hfew]
  split_ifs <;> rfl

theorem lost_after_torn {a b : ρ} {wri : ℕ} (hwr : wri ≤ (format.line a).length)
    (hrd : format.read ((format.line a).take wri ++ format.line b) = none) (hcap : 0 < cap) :
    ¬ Survives format cap
      (run format cap [⟨a, .stopped wri⟩, ⟨b, .rolled true .done⟩]) := by
  let glued := (format.line a).take wri ++ format.line b
  have hline : newline ∉ glued := by
    intro hmem
    rcases mem_append.mp hmem with htorn | hnx
    · exact format.oneLine a (mem_of_mem_take htorn)
    · exact format.oneLine b hnx
  have hlast : glued.getLast? = some 0x7D := by
    rw [List.getLast?_append, format.closes]
    rfl
  have htorn : step format cap (.empty ρ) ⟨a, .stopped wri⟩ =
      ⟨(format.line a).take wri, [], false⟩ := by
    have hpart : ¬ (format.line a).length < wri := by omega
    simp [step, appendRecord, Append.isWhole, Ledger.empty, hpart, take_append_of_le_length hwr]
  have hnx : run format cap [⟨a, .stopped wri⟩, ⟨b, .rolled true .done⟩] =
      ⟨glued ++ [newline], [(b, true)], true⟩ := by
    rw [run, Runs.run_cons, htorn, Runs.run_cons, Runs.run_nil]
    simp only [step, appendRecord, Append.isWhole, ← append_assoc]
    rw [rollCap_single hline hcap]
    rfl
  rw [hnx]
  intro h
  have hmem := h.read [] b [] rfl hcap
  rw [readRecords_glued hline hlast hrd] at hmem
  cases hmem

end

structure Sample (ρ : Type) where
  record : ρ
  line : List UInt8
  opens : line.head? = some 0x7B
  closes : line.getLast? = some 0x7D
  oneLine : newline ∉ line
  text : Utf8.scan [] line = .valid

def Sample.format {ρ : Type} (a : Sample ρ) : LineFormat ρ where
  line _ := a.line
  read line := if line = a.line then some a.record else none
  seen _ := a.record
  opens _ := a.opens
  closes _ := a.closes
  oneLine _ := a.oneLine
  text _ := a.text
  readBack _ := if_pos rfl

theorem Sample.lost_after_torn {ρ : Type} (a : Sample ρ) {wri cap : ℕ}
    (hwr : 0 < wri ∧ wri ≤ a.line.length) (hcap : 0 < cap) :
    ¬ Survives a.format cap
      (run a.format cap [⟨a.record, .stopped wri⟩, ⟨a.record, .rolled true .done⟩]) := by
  have hgl : a.line.take wri ++ a.line ≠ a.line := by
    intro heq
    have hlong := congrArg List.length heq
    rw [length_append, length_take] at hlong
    omega
  have hrd : a.format.read (a.line.take wri ++ a.line) = none := if_neg hgl
  exact LineLedgers.lost_after_torn hwr.2 hrd hcap

def terminalText : List UInt8 := Text.utf8Bytes
  ("\x7b\"schemaVersion\":1,\"source\":\"terminal\",\"period\":\x7b\"start\":" ++
    "\"2026-08-01T00:00:00.000Z\",\"end\":\"2026-08-01T00:01:00.000Z\"\x7d,\"inputTokens\":0," ++
    "\"outputTokens\":0,\"isEstimate\":true,\"recordedAtUnixMs\":1785542460000\x7d")

theorem terminalText_line : terminalText.head? = some 0x7B ∧ terminalText.getLast? = some 0x7D ∧
    newline ∉ terminalText ∧ Utf8.scan [] terminalText = .valid ∧ 20 ≤ terminalText.length := by
  rw [terminalText, Text.utf8Bytes, String.toList_append, String.toList_append,
    String.toList_ofList, String.toList_ofList, String.toList_ofList]
  decide +kernel

def terminalSample : Sample UsageRecord where
  record := recordOf (sessionRequest sourceTerminal 1785542400000 1785542460000) 1785542460000
  line := terminalText
  opens := terminalText_line.1
  closes := terminalText_line.2.1
  oneLine := terminalText_line.2.2.1
  text := terminalText_line.2.2.2.1

def turnText : List UInt8 := Text.utf8Bytes
  ("\x7b\"schemaVersion\":1,\"id\":\"notif-1785542460000-1\",\"event\":\"turn_completed\"," ++
    "\"title\":\"Done\",\"contentPolicy\":\"title_only\",\"body\":null," ++
    "\"createdAtUnixMs\":1785542460000,\"dedupeKey\":null,\"source\":\"shell\"\x7d")

theorem turnText_line : turnText.head? = some 0x7B ∧ turnText.getLast? = some 0x7D ∧
    newline ∉ turnText ∧ Utf8.scan [] turnText = .valid := by
  rw [turnText, Text.utf8Bytes, String.toList_append, String.toList_append,
    String.toList_ofList, String.toList_ofList, String.toList_ofList]
  decide +kernel

def turnSample : Sample NotificationRecord where
  record := ⟨1, "notif-1785542460000-1", .turnCompleted, "Done", .titleOnly, none, 1785542460000,
    none, "shell"⟩
  line := turnText
  opens := turnText_line.1
  closes := turnText_line.2.1
  oneLine := turnText_line.2.2.1
  text := turnText_line.2.2.2

theorem ledgers_survive (usage : LineFormat UsageRecord) (trail : LineFormat NotificationRecord)
    {usageAppends : List (Append UsageRecord)} {trailAppends : List (Append NotificationRecord)}
    (husage : Runs.Along (step usage recordsCap) (Clean usage recordsCap) (.empty UsageRecord)
      usageAppends)
    (htrail : Runs.Along (step trail auditCap) (Clean trail auditCap) (.empty NotificationRecord)
      trailAppends) :
    Survives usage recordsCap (run usage recordsCap usageAppends) ∧
      Survives trail auditCap (run trail auditCap trailAppends) :=
  ⟨run_survives husage, run_survives htrail⟩

def retriedAppends {ρ : Type} (r : ρ) : List (Append ρ) :=
  [⟨r, .rolled true .done⟩, ⟨r, .notOpened⟩, ⟨r, .stopped 0⟩, ⟨r, .rolled true .done⟩]

theorem sample_ledgers_survive :
    Survives terminalSample.format recordsCap
        (run terminalSample.format recordsCap (retriedAppends terminalSample.record)) ∧
      Survives turnSample.format auditCap
        (run turnSample.format auditCap (retriedAppends turnSample.record)) :=
  ledgers_survive terminalSample.format turnSample.format
    ⟨⟨rfl, nofun⟩, trivial, .inl rfl, ⟨rfl, nofun⟩, trivial⟩
    ⟨⟨rfl, nofun⟩, trivial, .inl rfl, ⟨rfl, nofun⟩, trivial⟩

/-- The first append stops after twenty bytes and is made again. -/
theorem record_lost_after_torn_append : ¬ Survives terminalSample.format recordsCap
      (run terminalSample.format recordsCap
        [⟨terminalSample.record, .stopped 20⟩, ⟨terminalSample.record, .rolled true .done⟩]) := by
  have hline : terminalSample.line = terminalText := by rw [terminalSample]
  have hle : 20 ≤ terminalSample.line.length := by
    rw [hline]
    exact terminalText_line.2.2.2.2
  exact terminalSample.lost_after_torn ⟨by decide, hle⟩ (by decide)

end DshDesktop.Shell.LineLedgers
