/-!
# Ordered maps

Association lists in which a key keeps the place of its first insertion. Whether two keys are the
same key is decided by their codes. The lemmas say what each operation does to `get?` and to
`codes`, the codes of the keys in order.
-/

namespace MediaBridge

/-- Keys with a code: two keys are the same key if their codes agree. -/
class Keyed (κ : Type) where
  Code : Type
  code : κ → Code
  [decEq : DecidableEq Code]

instance (κ : Type) [Keyed κ] : DecidableEq (Keyed.Code κ) := Keyed.decEq

instance : Keyed String := { Code := String, code := id }

/-- An association list from keys to values, in order of insertion. -/
structure OrderedMap (κ α : Type) where
  toList : List (κ × α)

namespace OrderedMap

variable {κ α : Type}

def empty : OrderedMap κ α := ⟨[]⟩

instance : Inhabited (OrderedMap κ α) := ⟨empty⟩

def keys (m : OrderedMap κ α) : List κ := m.toList.map (·.1)

def size (m : OrderedMap κ α) : Nat := m.toList.length

def isEmpty (m : OrderedMap κ α) : Bool := m.toList.isEmpty

variable [Keyed κ]

open Keyed (code)

def codes (m : OrderedMap κ α) : List (Keyed.Code κ) := m.toList.map (code ·.1)

/-- The value of the first entry at a key. -/
def lookup (k : κ) : List (κ × α) → Option α
  | [] => none
  | e :: l => if code e.1 = code k then some e.2 else lookup k l

def get? (m : OrderedMap κ α) (k : κ) : Option α := lookup k m.toList

def contains (m : OrderedMap κ α) (k : κ) : Bool := m.toList.any fun e => code e.1 = code k

/-- Replace the value of a present key, or add an entry at the end. -/
def insertEntry (k : κ) (v : α) : List (κ × α) → List (κ × α)
  | [] => [(k, v)]
  | e :: l => if code e.1 = code k then (e.1, v) :: l else e :: insertEntry k v l

/-- Set the value at a key. A present key keeps its place, a new one goes last. -/
def insert (m : OrderedMap κ α) (k : κ) (v : α) : OrderedMap κ α := ⟨insertEntry k v m.toList⟩

def erase (m : OrderedMap κ α) (k : κ) : OrderedMap κ α :=
  ⟨m.toList.filter fun e => code e.1 ≠ code k⟩

def insertAll (m : OrderedMap κ α) (l : List (κ × α)) : OrderedMap κ α :=
  l.foldl (fun m e => m.insert e.1 e.2) m

/-- The map of a list of entries: a repeated key keeps its first place and its last value. -/
def ofList (l : List (κ × α)) : OrderedMap κ α := empty.insertAll l

/-! ## Laws -/

omit [Keyed κ] in
@[simp] theorem toList_empty : (empty : OrderedMap κ α).toList = [] := rfl

@[simp] theorem insertAll_nil (m : OrderedMap κ α) : m.insertAll [] = m := rfl

@[simp] theorem insertAll_cons (m : OrderedMap κ α) (e : κ × α) (l : List (κ × α)) :
    m.insertAll (e :: l) = (m.insert e.1 e.2).insertAll l := rfl

theorem contains_iff (m : OrderedMap κ α) (k : κ) : m.contains k = true ↔ code k ∈ m.codes := by
  simp [contains, codes]

theorem get?_eq_none_iff (m : OrderedMap κ α) (k : κ) : m.get? k = none ↔ code k ∉ m.codes := by
  obtain ⟨l⟩ := m
  simp only [get?, codes]
  induction l with
  | nil => simp [lookup]
  | cons e l ih => by_cases he : code e.1 = code k <;> simp_all [lookup, eq_comm]

theorem contains_eq_isSome (m : OrderedMap κ α) (k : κ) : m.contains k = (m.get? k).isSome := by
  rw [Bool.eq_iff_iff, contains_iff, ← Decidable.not_not (p := code k ∈ m.codes), ← get?_eq_none_iff]
  simp [Option.isSome_iff_ne_none]

theorem codes_insert_of_mem {m : OrderedMap κ α} {k : κ} {v : α} (h : code k ∈ m.codes) :
    (m.insert k v).codes = m.codes := by
  obtain ⟨l⟩ := m
  simp only [codes, insert] at h ⊢
  induction l with
  | nil => simp at h
  | cons e l ih =>
    by_cases he : code e.1 = code k
    · simp [insertEntry, he]
    · have : code k ∈ l.map (code ·.1) := by simpa [Ne.symm he] using h
      simpa [insertEntry, he] using ih this

theorem codes_insert_of_not_mem {m : OrderedMap κ α} {k : κ} {v : α} (h : code k ∉ m.codes) :
    (m.insert k v).codes = m.codes ++ [code k] := by
  obtain ⟨l⟩ := m
  simp only [codes, insert] at h ⊢
  induction l with
  | nil => simp [insertEntry]
  | cons e l ih =>
    have he : ¬ code e.1 = code k := fun he => h (by simp [he])
    have : code k ∉ l.map (code ·.1) := fun hm => h (by simp at hm ⊢; exact .inr hm)
    simpa [insertEntry, he] using ih this

/-- A new entry goes last. -/
theorem toList_insert_of_not_mem {m : OrderedMap κ α} {k : κ} {v : α} (h : code k ∉ m.codes) :
    (m.insert k v).toList = m.toList ++ [(k, v)] := by
  obtain ⟨l⟩ := m
  simp only [codes, insert] at h ⊢
  induction l with
  | nil => rfl
  | cons e l ih =>
    have he : ¬ code e.1 = code k := fun he => h (by simp [he])
    have : code k ∉ l.map (code ·.1) := fun hm => h (by simp at hm ⊢; exact .inr hm)
    simp [insertEntry, he, ih this]

theorem codes_erase (m : OrderedMap κ α) (k : κ) :
    (m.erase k).codes = m.codes.filter (· ≠ code k) := by
  simp [codes, erase, List.filter_map, Function.comp_def]

theorem get?_insert_of_eq {m : OrderedMap κ α} {k k' : κ} {v : α} (h : code k = code k') :
    (m.insert k v).get? k' = some v := by
  obtain ⟨l⟩ := m
  simp only [get?, insert]
  induction l with
  | nil => simp [insertEntry, lookup, h]
  | cons e l ih => by_cases he : code e.1 = code k <;> simp_all [insertEntry, lookup]

theorem get?_insert_of_ne {m : OrderedMap κ α} {k k' : κ} {v : α} (h : code k ≠ code k') :
    (m.insert k v).get? k' = m.get? k' := by
  obtain ⟨l⟩ := m
  simp only [get?, insert]
  induction l with
  | nil => simp [insertEntry, lookup, h]
  | cons e l ih => by_cases he : code e.1 = code k <;> simp_all [insertEntry, lookup]

theorem get?_erase_of_eq {m : OrderedMap κ α} {k k' : κ} (h : code k = code k') :
    (m.erase k).get? k' = none := by
  rw [get?_eq_none_iff, codes_erase]; simp [h]

theorem get?_erase_of_ne {m : OrderedMap κ α} {k k' : κ} (h : code k ≠ code k') :
    (m.erase k).get? k' = m.get? k' := by
  obtain ⟨l⟩ := m
  simp only [get?, erase]
  induction l with
  | nil => rfl
  | cons e l ih => by_cases he : code e.1 = code k <;> simp_all [lookup]

/-! ## Distinct keys -/

/-- No key occurs twice. -/
def Distinct (m : OrderedMap κ α) : Prop := m.codes.Nodup

theorem distinct_empty : (empty : OrderedMap κ α).Distinct := List.nodup_nil

theorem Distinct.insert {m : OrderedMap κ α} (h : m.Distinct) (k : κ) (v : α) :
    (m.insert k v).Distinct := by
  unfold Distinct
  by_cases hk : code k ∈ m.codes
  · rw [codes_insert_of_mem hk]; exact h
  · rw [codes_insert_of_not_mem hk, List.nodup_append]
    exact ⟨h, by simp, fun a ha b hb hab => hk (by simp at hb; subst hb; exact hab ▸ ha)⟩

theorem Distinct.erase {m : OrderedMap κ α} (h : m.Distinct) (k : κ) : (m.erase k).Distinct := by
  unfold Distinct; rw [codes_erase]; exact h.filter _

end OrderedMap

end MediaBridge
