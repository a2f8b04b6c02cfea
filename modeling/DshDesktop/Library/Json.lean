import Mathlib.Data.List.Nodup
import DshDesktop.Library.Text

/-!
# JSON values, their compact text and the reading of records

A value keeps the members of an object in order. Records are read as a derived reader that
denies unknown fields reads them, from an object or an array.
-/

inductive JsonNumber
  | posInt (n : ℕ)
  | negInt (n : ℕ)
  | float (text : String)

inductive Json
  | null
  | bool (b : Bool)
  | number (n : JsonNumber)
  | string (s : String)
  | array (items : List Json)
  | object (members : List (String × Json))

namespace Json
open String

def isObject : Json → Bool
  | object _ => true
  | _ => false

def nat (n : ℕ) : Json := number (.posInt n)

def get (key : String) : Json → Option Json
  | object members => members.reverse.lookup key
  | _ => none

def escapeChar (c : Char) : List Char :=
  if c = '"' then ['\\', '"']
  else if c = '\\' then ['\\', '\\']
  else if c = '\n' then ['\\', 'n']
  else if c = '\r' then ['\\', 'r']
  else if c = '\t' then ['\\', 't']
  else if c.toNat = 8 then ['\\', 'b']
  else if c.toNat = 12 then ['\\', 'f']
  else if c.toNat < 32 then
    ['\\', 'u', '0', '0', Nat.digitChar (c.toNat / 16), Nat.digitChar (c.toNat % 16)]
  else [c]

def quote (s : String) : String :=
  "\"" ++ ofList (s.toList.flatMap escapeChar) ++ "\""

def renderNumber : JsonNumber → String
  | .posInt n => toString n
  | .negInt n => "-" ++ toString (n + 1)
  | .float text => text

mutual

def render : Json → String
  | null => "null"
  | bool b => if b then "true" else "false"
  | number n => renderNumber n
  | string s => quote s
  | array items => "[" ++ renderItems items ++ "]"
  | object members => "\x7b" ++ renderMembers members ++ "\x7d"

def renderItems : List Json → String
  | [] => ""
  | [v] => render v
  | v :: vs => render v ++ "," ++ renderItems vs

def renderMembers : List (String × Json) → String
  | [] => ""
  | [(k, v)] => quote k ++ ":" ++ render v
  | (k, v) :: ms => quote k ++ ":" ++ render v ++ "," ++ renderMembers ms

end

section
variable {α : Type*}

def readString : Json → Option String
  | string s => some s
  | _ => none

def readBool : Json → Option Bool
  | bool b => some b
  | _ => none

def readUnsigned (width : ℕ) : Json → Option ℕ
  | number (.posInt n) => if n < 2 ^ width then some n else none
  | _ => none

def readU8 : Json → Option ℕ := readUnsigned 8

def readU16 : Json → Option ℕ := readUnsigned 16

def readU64 : Json → Option ℕ
  | number (.posInt n) => if n < 2 ^ 64 then some n else none
  | _ => none

def readList (read : Json → Option α) : Json → Option (List α)
  | array items => items.mapM read
  | _ => none

def readVariant (variants : List (String × α)) : Json → Option α
  | string name => variants.lookup name
  | object [(name, null)] => variants.lookup name
  | _ => none

def readRecord (fields : List String) : Json → Option (List (String × Json))
  | object members =>
    if (∀ m ∈ members, m.1 ∈ fields) ∧ (members.map Prod.fst).Nodup then some members else none
  | array items => if items.length = fields.length then some (fields.zip items) else none
  | _ => none

def readRecordWith (required defaulted : List String) : Json → Option (List (String × Json))
  | array items =>
    if required.length ≤ items.length ∧ items.length ≤ (required ++ defaulted).length then
      some ((required ++ defaulted).zip items)
    else none
  | v => readRecord (required ++ defaulted) v

def readField (read : Json → Option α) (members : List (String × Json)) (name : String) :
    Option α :=
  (members.lookup name).bind read

def readOptional (read : Json → Option α) (members : List (String × Json)) (name : String) :
    Option (Option α) :=
  match members.lookup name with
  | none => some none
  | some null => some none
  | some v => (read v).map some

def readDefaulted (read : Json → Option α) (default : α) (members : List (String × Json))
    (name : String) : Option α :=
  match members.lookup name with
  | none => some default
  | some v => read v

end

section
variable {α : Type*} {read : Json → Option α} {write : α → Json}

@[simp] theorem readString_string (s : String) : readString (string s) = some s := rfl

theorem readU64_nat {n : ℕ} (h : n < 2 ^ 64) : readU64 (nat n) = some n := if_pos h

theorem mapM_write (h : ∀ x, read (write x) = some x) {xs : List α} :
    (xs.map write).mapM read = some xs := by
  induction xs with
  | nil => rfl
  | cons x xs ih => simp [h, ih]

theorem mem_of_mapM {items : List Json} {xs : List α} (h : items.mapM read = some xs) {x : α} :
    x ∈ xs ↔ ∃ v ∈ items, read v = some x := by
  induction items generalizing xs with
  | nil =>
    cases h
    simp
  | cons v vs ih =>
    simp only [List.mapM_cons, Option.bind_eq_bind, Option.bind_eq_some_iff] at h
    obtain ⟨y, hy, ys, hys, heq⟩ := h
    cases heq
    rw [List.mem_cons, ih hys]
    simp [hy, eq_comm]

theorem readList_write (h : ∀ x, read (write x) = some x) (xs : List α) :
    readList read (array (xs.map write)) = some xs :=
  mapM_write h

variable {members : List (String × Json)} {name : String} {v : Json} {x : α}
  (h : members.lookup name = some v)
include h

theorem readField_lookup (hv : read v = some x) : readField read members name = some x := by
  rw [readField, h, Option.bind_some, hv]

theorem readOptional_lookup (hnl : v ≠ null) (hv : read v = some x) :
    readOptional read members name = some (some x) := by
  cases v with
  | null => exact absurd rfl hnl
  | _ => simp [readOptional, h, hv]

end

theorem render_pair_left {k l : String} {v v' w : Json}
    (h : render (object [(k, v), (l, w)]) = render (object [(k, v'), (l, w)])) :
    render v = render v' := by
  have hl := (append_left_inj _).mp h
  have hk := (append_right_inj _).mp hl
  have hw := (append_left_inj _).mp hk
  have hc := (append_left_inj _).mp hw
  exact (append_right_inj _).mp hc

open List Option

mutual

def collapse : Json → Json
  | array items => array (collapseItems items)
  | object members => object (collapseMembers members)
  | v => v

def collapseItems : List Json → List Json
  | [] => []
  | v :: vs => v.collapse :: collapseItems vs

def collapseMembers : List (String × Json) → List (String × Json)
  | [] => []
  | (key, v) :: ms =>
    (key, ((collapseMembers ms).lookup key).getD v.collapse) ::
      (collapseMembers ms).filter fun m => m.1 ≠ key

end

def member (members : List (String × Json)) (key : String) : Option Json :=
  members.reverse.lookup key

def keys (members : List (String × Json)) : List String := members.map Prod.fst

theorem collapseItems_eq_map (items : List Json) : collapseItems items = items.map collapse := by
  induction items with
  | nil => rfl
  | cons v vs ih => rw [collapseItems, ih, map_cons]

section
variable {mems : List (String × Json)} {key : String}

theorem lookup_filter_ne {key' : String} (h : key ≠ key') :
    (mems.filter fun m => m.1 ≠ key').lookup key = mems.lookup key := by
  induction mems with
  | nil => rfl
  | cons m ms ih =>
    obtain ⟨k, v⟩ := m
    by_cases hk : k = key'
    · have hne : (key == k) = false := by
        rw [hk]
        exact beq_false_of_ne h
      rw [filter_cons_of_neg (by simpa using hk), lookup_cons, hne, ih]
    · rw [filter_cons_of_pos (by simpa using hk), lookup_cons, lookup_cons, ih]

theorem member_cons {k : String} {v : Json} {ms : List (String × Json)} :
    member ((k, v) :: ms) key = (member ms key).or (if key = k then some v else none) := by
  unfold member
  rw [reverse_cons, lookup_append]
  congr 1
  rw [lookup_cons]
  by_cases h : key = k
  · simp [h]
  · rw [beq_false_of_ne h, if_neg h]
    rfl

theorem lookup_collapseMembers :
    (collapseMembers mems).lookup key = (member mems key).map collapse := by
  induction mems with
  | nil => rfl
  | cons m ms ih =>
    obtain ⟨k, v⟩ := m
    rw [collapseMembers, member_cons, lookup_cons]
    by_cases h : key = k
    · subst h
      rw [ih]
      cases member ms key <;> simp
    · rw [beq_false_of_ne h, lookup_filter_ne h, ih, if_neg h, or_none]

theorem mem_keys_collapseMembers : key ∈ keys (collapseMembers mems) ↔ key ∈ keys mems := by
  induction mems with
  | nil => rfl
  | cons m ms ih =>
    obtain ⟨k, v⟩ := m
    have hfilt : key ∈ keys ((collapseMembers ms).filter fun m => m.1 ≠ k) ↔
        key ∈ keys (collapseMembers ms) ∧ key ≠ k := by
      simp [keys]
    show key ∈ k :: keys ((collapseMembers ms).filter fun m => m.1 ≠ k) ↔ key ∈ k :: keys ms
    rw [mem_cons, mem_cons, hfilt, ih]
    tauto

theorem nodup_keys_collapseMembers : (keys (collapseMembers mems)).Nodup := by
  induction mems with
  | nil => exact nodup_nil
  | cons m ms ih =>
    obtain ⟨k, v⟩ := m
    refine nodup_cons.mpr ⟨?_, ?_⟩
    · simp
    · exact ih.sublist (filter_sublist.map Prod.fst)

theorem mem_keys_iff : key ∈ keys mems ↔ ∃ v, member mems key = some v := by
  induction mems with
  | nil => simp [keys, member]
  | cons m ms ih =>
    obtain ⟨k, v⟩ := m
    rw [show keys ((k, v) :: ms) = k :: keys ms from rfl, mem_cons, ih, member_cons]
    by_cases h : key = k
    · cases member ms key <;> simp [h]
    · simp [h]

theorem mem_keys_iff_lookup : key ∈ keys mems ↔ ∃ v, mems.lookup key = some v := by
  rw [← Option.isSome_iff_exists, lookup_isSome_iff, keys, List.mem_map]
  exact exists_congr fun m => and_congr_right fun _ => eq_comm.trans beq_iff_eq.symm

theorem member_eq_lookup (h : (keys mems).Nodup) : member mems key = mems.lookup key := by
  induction mems with
  | nil => rfl
  | cons m ms ih =>
    obtain ⟨k, v⟩ := m
    obtain ⟨hk, hms⟩ := nodup_cons.mp h
    rw [member_cons, ih hms, lookup_cons]
    by_cases heq : key = k
    · subst heq
      have hnn : ms.lookup key = none := by
        rw [← ih hms, ← not_isSome_iff_eq_none, isSome_iff_exists]
        exact fun hsome => hk (mem_keys_iff.mpr hsome)
      simp [hnn]
    · simp [heq, beq_false_of_ne heq]

end

theorem collapseMembers_of_nodup {members : List (String × Json)} (hkeys : (keys members).Nodup)
    (hvl : ∀ m ∈ members, m.2.collapse = m.2) : collapseMembers members = members := by
  induction members with
  | nil => rfl
  | cons m ms ih =>
    obtain ⟨k, v⟩ := m
    obtain ⟨hk, hms⟩ := nodup_cons.mp hkeys
    have hrs := ih hms (forall_mem_cons.mp hvl).2
    have hnn : ms.lookup k = none := by
      rw [← not_isSome_iff_eq_none, isSome_iff_exists]
      exact fun hsome => hk (mem_keys_iff_lookup.mpr hsome)
    have hfilt : (ms.filter fun m => m.1 ≠ k) = ms := by
      rw [filter_eq_self]
      intro m hm
      rw [decide_eq_true_eq]
      intro heq
      exact hk (mem_map.mpr ⟨m, hm, heq⟩)
    rw [collapseMembers, hrs, hnn, hfilt, getD_none, hvl (k, v) mem_cons_self]

mutual

theorem collapse_collapse : ∀ v : Json, v.collapse.collapse = v.collapse
  | null | bool _ | number _ | string _ => rfl
  | array items => congrArg array (collapse_collapseItems items)
  | object members => by
    show object _ = object _
    rw [collapseMembers_of_nodup nodup_keys_collapseMembers (collapse_collapseMembers members)]

theorem collapse_collapseItems : ∀ items, collapseItems (collapseItems items) = collapseItems items
  | [] => rfl
  | v :: vs => by
    rw [collapseItems, collapseItems, collapse_collapse v, collapse_collapseItems vs]

theorem collapse_collapseMembers : ∀ members, ∀ m ∈ collapseMembers members, m.2.collapse = m.2
  | [] => nofun
  | (key, v) :: ms => by
    intro m hm
    have ih := collapse_collapseMembers ms
    rw [collapseMembers, mem_cons] at hm
    rcases hm with rfl | hm
    · cases hget : (collapseMembers ms).lookup key with
      | none => exact collapse_collapse v
      | some w =>
        obtain ⟨_, _, hsp, _⟩ := lookup_eq_some_iff.mp hget
        refine ih (key, w) ?_
        rw [hsp]
        exact mem_append_right _ mem_cons_self
    · exact ih m (mem_filter.mp hm).1

end

def Plain (s : String) : Prop := ∀ c ∈ s.toList, escapeChar c = [c]

instance (s : String) : Decidable (Plain s) := List.decidableBAll _ s.toList

theorem escapeChar_of_printable {c : Char} (h : 32 ≤ c.toNat) (hqt : c ≠ '"')
    (hbc : c ≠ '\\') : escapeChar c = [c] := by
  have hct : ∀ d : Char, d.toNat < 32 → c ≠ d := by
    intro d hd heq
    subst heq
    omega
  have hn := hct '\n' (by decide)
  have hr := hct '\r' (by decide)
  have ht := hct '\t' (by decide)
  have h8 : c.toNat ≠ 8 := by omega
  have h12 : c.toNat ≠ 12 := by omega
  have h32 : ¬ c.toNat < 32 := by omega
  simp [escapeChar, hqt, hbc, hn, hr, ht, h8, h12, h32]

theorem escapeChar_cases {c : Char} : escapeChar c = [c] ∨ ∃ rest, escapeChar c = '\\' :: rest := by
  unfold escapeChar
  repeat' split
  all_goals first | exact .inl rfl | exact .inr ⟨_, rfl⟩

theorem ne_backslash_of_plain {c : Char} (h : escapeChar c = [c]) : c ≠ '\\' := by
  intro hc
  subst hc
  cases h

theorem flatMap_escapeChar_eq {cs ts : List Char} (ht : ∀ c ∈ ts, escapeChar c = [c])
    (h : cs.flatMap escapeChar = ts) : cs = ts := by
  induction cs generalizing ts with
  | nil => exact h
  | cons c cs ih =>
    rw [flatMap_cons] at h
    rcases escapeChar_cases with hc | ⟨rest, hc⟩ <;> rw [hc] at h
    · subst h
      congr 1
      exact ih (forall_mem_cons.mp ht).2 rfl
    · subst h
      exact absurd rfl (ne_backslash_of_plain (ht '\\' mem_cons_self))

theorem quote_plain {s : String} (h : Plain s) : quote s = "\"" ++ s ++ "\"" := by
  have hself : ∀ cs : List Char, (∀ c ∈ cs, escapeChar c = [c]) → cs.flatMap escapeChar = cs := by
    intro cs hcs
    induction cs with
    | nil => rfl
    | cons c cs ih =>
      rw [flatMap_cons, hcs c mem_cons_self, ih (forall_mem_cons.mp hcs).2]
      rfl
  rw [quote, hself _ h, String.ofList_toList]

theorem quote_append_inj {s t : String} (hs : Plain s) (ht : Plain t) {r r' : List Char}
    (h : (quote s).toList ++ r = (quote t).toList ++ r') : s = t ∧ r = r' := by
  have hmem : ∀ {s : String}, Plain s → '"' ∉ s.toList := fun hs hq => by cases hs _ hq
  rw [quote_plain hs, quote_plain ht] at h
  simp only [String.toList_append, List.append_assoc] at h
  have hrs := append_cancel_left h
  obtain ⟨hst, hr⟩ := Text.append_delimiter_inj (hmem hs) (hmem ht) hrs
  exact ⟨String.toList_inj.mp hst, hr⟩

theorem quote_eq_plain {s t : String} (h : Plain t) : quote s = quote t ↔ s = t := by
  constructor
  · intro hq
    rw [quote_plain h, quote, String.append_left_inj, String.append_right_inj] at hq
    have hlist : s.toList.flatMap escapeChar = t.toList := by
      rw [← hq, String.toList_ofList]
    exact String.toList_inj.mp (flatMap_escapeChar_eq h hlist)
  · intro hst
    rw [hst]

end Json
