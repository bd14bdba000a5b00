import Mathlib.Algebra.Group.Nat.Defs
import Mathlib.Data.List.Sort

/-!
# JSON documents and typed reading

`Json` is a document as it is written: numbers keep their literal, and an object keeps its members in order, repeated
names included. Two readings stand on it.

- A dynamic value: `get?` takes the last member of a name, `asStr?`, `asU64?` and `asArr?` the value of one shape.
- A typed record (`Serde`): a struct is read from an object by name or from an array by position. A missing member
  falls back to its default, an unknown one is ignored, and a known one must not occur twice.
-/

/-- A number as it is written: an integer, or a mantissa with a power of ten. -/
inductive JsonNumber
  | int (neg : Bool) (n : Nat)
  | dec (neg : Bool) (mantissa : Nat) (exponent : Int)
  deriving DecidableEq, Repr

/-- The integer a sign and its digits spell. -/
def JsonNumber.signed (neg : Bool) (n : Nat) : Int := if neg then -n else n

def JsonNumber.render : JsonNumber → List Char
  | .int neg n => (if neg then ['-'] else []) ++ (toString n).toList
  | .dec neg m e => (if neg then ['-'] else []) ++ (toString m).toList ++ 'e' :: (toString e).toList

inductive Json
  | null
  | bool (b : Bool)
  | num (n : JsonNumber)
  | str (s : String)
  | arr (items : List Json)
  | obj (members : List (String × Json))

namespace Json

/-! ## Dynamic values -/

/-- The last member of a name, in an object. -/
def get? (name : String) : Json → Option Json
  | .obj members => (members.reverse.find? fun m => m.1 == name).map Prod.snd
  | _ => none

def asStr? : Json → Option String
  | .str s => some s
  | _ => none

/-- An integer below `2 ^ 64`, written without a sign, a fraction or an exponent. -/
def asU64? : Json → Option UInt64
  | .num (.int false n) => if n < 2 ^ 64 then some (UInt64.ofNat n) else none
  | _ => none

def asArr? : Json → Option (List Json)
  | .arr items => some items
  | _ => none

/-- The last member of each name. -/
def lastOfEach (members : List (String × Json)) : List (String × Json) :=
  members.foldr (fun m kept => if kept.any fun k => k.1 == m.1 then kept else m :: kept) []

/-- The members of an object, by name. -/
def asObj? : Json → Option (List (String × Json))
  | .obj members => some ((lastOfEach members).insertionSort fun a b => a.1 ≤ b.1)
  | _ => none

/-- The number of members of an object. -/
def size : Json → Nat
  | .obj members => (lastOfEach members).length
  | _ => 0

/-- An array of strings. -/
def strList? : Json → Option (List String)
  | .arr items => items.mapM asStr?
  | _ => none

/-- Members with distinct names are all kept. -/
theorem lastOfEach_eq_self {ms : List (String × Json)} (h : (ms.map Prod.fst).Nodup) : lastOfEach ms = ms := by
  induction ms with
  | nil => rfl
  | cons m ms ih =>
    rw [List.map_cons, List.nodup_cons] at h
    have hfresh : (ms.any fun k => k.1 == m.1) = false := by
      rw [List.any_eq_false]
      intro k hk heq
      exact h.1 (List.mem_map.mpr ⟨k, hk, beq_iff_eq.mp heq⟩)
    rw [lastOfEach, List.foldr_cons, ← lastOfEach, ih h.2, hfresh]
    rfl

/-- An object written with distinct names in order is read as it is. -/
theorem asObj?_of_sorted {ms : List (String × Json)} (hnd : (ms.map Prod.fst).Nodup)
    (hs : ms.Pairwise fun a b => a.1 ≤ b.1) : (Json.obj ms).asObj? = some ms := by
  rw [asObj?, lastOfEach_eq_self hnd, hs.insertionSort_eq]

theorem asU64?_toNat (n : UInt64) : (Json.num (.int false n.toNat)).asU64? = some n := by
  rw [asU64?, if_pos n.toNat_lt, UInt64.ofNat_toNat]

def isObj : Json → Bool
  | .obj _ => true
  | _ => false

mutual

/-- No object of the document, at any depth, has two members of one name. -/
def distinctKeys : Json → Bool
  | .arr items => distinctKeysItems items
  | .obj members => decide (members.map Prod.fst).Nodup && distinctKeysMembers members
  | _ => true

def distinctKeysItems : List Json → Bool
  | [] => true
  | j :: js => distinctKeys j && distinctKeysItems js

def distinctKeysMembers : List (String × Json) → Bool
  | [] => true
  | (_, j) :: ms => distinctKeys j && distinctKeysMembers ms

end

/-- The value at a path of member names. -/
def pointer (path : List String) (j : Json) : Option Json := path.foldlM (fun j name => j.get? name) j

/-! ## Writing -/

def escapeChar (c : Char) : List Char :=
  if c = '"' then ['\\', '"'] else if c = '\\' then ['\\', '\\'] else if c = '\n' then ['\\', 'n'] else [c]

/-- A string in quotes. -/
def quote (s : String) : List Char := '"' :: s.toList.flatMap escapeChar ++ ['"']

mutual

/-- A document without blanks. -/
def render : Json → List Char
  | .null => "null".toList
  | .bool b => (if b then "true" else "false").toList
  | .num n => n.render
  | .str s => quote s
  | .arr items => '[' :: renderItems items ++ [']']
  | .obj members => '{' :: renderMembers members ++ ['}']

def renderItems : List Json → List Char
  | [] => []
  | [j] => render j
  | j :: js => render j ++ ',' :: renderItems js

def renderMembers : List (String × Json) → List Char
  | [] => []
  | [(k, v)] => quote k ++ ':' :: render v
  | (k, v) :: ms => quote k ++ ':' :: render v ++ ',' :: renderMembers ms

end

def text (j : Json) : String := String.ofList j.render

/-- How the text of an object that is not empty starts, after the brace. -/
def lead : Json → List Char
  | .obj ((k, _) :: _) => (quote k).take 2
  | _ => []

theorem lead_eq {j : Json} (h : j.lead ≠ []) : j.lead = (j.render.drop 1).take 2 := by
  have hquote : ∀ (k : String) (r : List Char), (quote k ++ r).take 2 = (quote k).take 2 := by
    intro k r
    rw [List.take_append_of_le_length (by simp [quote])]
  cases j with
  | obj ms =>
    match ms with
    | [] => exact absurd rfl h
    | [(k, v)] => simp [lead, render, renderMembers, hquote]
    | (k, v) :: m :: ms => simp [lead, render, renderMembers, hquote]
  | _ => exact absurd rfl h

/-- Objects with one text start with the same name, as far as its first letter. -/
theorem lead_eq_of_text {j j' : Json} (h : j.lead ≠ []) (h' : j'.lead ≠ []) (htext : j.text = j'.text) :
    j.lead = j'.lead := by
  rw [lead_eq h, lead_eq h', String.ofList_inj.mp htext]

end Json

/-! ## Typed records -/

namespace Serde

variable {α : Type}

/-- What a struct is read from. -/
inductive Source
  | map (members : List (String × Json))
  | seq (items : List Json)

/-- A struct of `n` fields is an object, or an array of at most `n` items. -/
def source (n : Nat) : Json → Option Source
  | .obj members => some (.map members)
  | .arr items => if items.length ≤ n then some (.seq items) else none
  | _ => none

/-- The field `name` at position `i`; an absent one has the value `missing`, if it has one. -/
def Source.field (s : Source) (i : Nat) (name : String) (read : Json → Option α) (missing : Option α) : Option α :=
  match s with
  | .map members =>
    match members.filter fun m => m.1 == name with
    | [] => missing
    | [m] => read m.2
    | _ => none
  | .seq items =>
    match items[i]? with
    | some j => read j
    | none => missing

def string : Json → Option String := Json.asStr?

def u64 : Json → Option UInt64 := Json.asU64?

def u32 (j : Json) : Option UInt32 := do
  let n ← j.asU64?
  if n.toNat < 2 ^ 32 then some n.toUInt32 else none

/-- `null` is absent. -/
def option (read : Json → Option α) : Json → Option (Option α)
  | .null => some none
  | j => (read j).map some

def list (read : Json → Option α) : Json → Option (List α)
  | .arr items => items.mapM read
  | _ => none

/-- An object whose members are not looked at. -/
def anyObject : Json → Option Unit
  | .obj _ => some ()
  | _ => none

/-- A string field that is empty when missing. -/
def Source.text (s : Source) (i : Nat) (name : String) : Option String := s.field i name string (some "")

/-- An optional field that is absent when missing. -/
def Source.optional (s : Source) (i : Nat) (name : String) (read : Json → Option α) : Option (Option α) :=
  s.field i name (option read) (some none)

/-! ## Writing typed records -/

/-- The members a record writes: one for each slot that is filled. -/
def filled (slots : List (String × Option Json)) : List (String × Json) :=
  slots.filterMap fun s => s.2.map (s.1, ·)

theorem name_mem_of_mem_filled {slots : List (String × Option Json)} {m : String × Json} (h : m ∈ filled slots) :
    m.1 ∈ slots.map Prod.fst := by
  obtain ⟨s, hs, hm⟩ := List.mem_filterMap.mp h
  obtain ⟨j, -, rfl⟩ := Option.map_eq_some_iff.mp hm
  exact List.mem_map_of_mem hs

/-- Under distinct names, a name selects its own slot. -/
theorem filter_filled {slots : List (String × Option Json)} {i : Nat} {name : String} {o : Option Json}
    (hnd : (slots.map Prod.fst).Nodup) (h : slots[i]? = some (name, o)) :
    (filled slots).filter (fun m => m.1 == name) = (o.map (name, ·)).toList := by
  induction slots generalizing i with
  | nil => cases h
  | cons s slots ih =>
    rw [List.map_cons, List.nodup_cons] at hnd
    have hcons : filled (s :: slots) = (s.2.map (s.1, ·)).toList ++ filled slots := by
      cases hs : s.2 <;> simp [filled, hs]
    rw [hcons, List.filter_append]
    cases i with
    | zero =>
      obtain rfl : s = (name, o) := Option.some.inj h
      have hrest : (filled slots).filter (fun m => m.1 == name) = [] := by
        rw [List.filter_eq_nil_iff]
        intro m hm hname
        exact hnd.1 (beq_iff_eq.mp hname ▸ name_mem_of_mem_filled hm)
      rw [hrest, List.append_nil]
      cases o <;> simp
    | succ i =>
      have hne : s.1 ≠ name := by
        intro heq
        have hmem : (name, o) ∈ slots := List.mem_of_getElem? h
        exact hnd.1 (heq ▸ List.mem_map_of_mem hmem)
      rw [ih hnd.2 h]
      cases s.2 <;> simp [hne]

section Slots

variable {slots : List (String × Option Json)} {i : Nat} {name : String} {o : Option Json}

/-- **A field is read from its slot.** -/
theorem Source.field_filled {read : Json → Option α} {missing : Option α} (hnd : (slots.map Prod.fst).Nodup)
    (hslot : slots[i]? = some (name, o)) :
    (Source.map (filled slots)).field i name read missing = o.elim missing read := by
  simp only [Source.field, filter_filled hnd hslot]
  cases o <;> rfl

/-- An optional field is read back, where what is written is read back and is never `null`. -/
theorem Source.optional_filled {read : Json → Option α} {write : α → Json} {a : Option α}
    (hnd : (slots.map Prod.fst).Nodup) (hread : ∀ a, read (write a) = some a) (hnull : ∀ a, write a ≠ .null)
    (hslot : slots[i]? = some (name, a.map write)) : (Source.map (filled slots)).optional i name read = some a := by
  rw [Source.optional, field_filled hnd hslot]
  cases a with
  | none => rfl
  | some a =>
    have hopt : ∀ j : Json, j ≠ .null → option read j = (read j).map some := by
      intro j hj
      cases j <;> first | rfl | exact absurd rfl hj
    rw [Option.map_some, Option.elim_some, hopt _ (hnull a), hread]
    rfl

end Slots

theorem u64_num (n : UInt64) : u64 (.num (.int false n.toNat)) = some n := Json.asU64?_toNat n

theorem u32_num (n : UInt32) : u32 (.num (.int false n.toNat)) = some n := by
  have hread : (Json.num (.int false n.toNat)).asU64? = some n.toUInt64 := Json.asU64?_toNat n.toUInt64
  have hlt : n.toUInt64.toNat < 2 ^ 32 := n.toNat_lt
  rw [u32, hread, Option.bind_eq_bind, Option.bind_some, if_pos hlt, UInt32.toUInt32_toUInt64]

theorem list_str (ss : List String) : list string (.arr (ss.map Json.str)) = some ss := by
  rw [list, List.mapM_map]
  induction ss with
  | nil => rfl
  | cons s ss ih => simp_all [string, Json.asStr?]

end Serde
