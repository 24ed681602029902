import MediaBridge.OrderedMap

/-!
# Entries of ordered maps

Which entries a map has after an operation, and how it is read off its entries. New keys that do
not occur twice are added in their order (`insertAll_of_nodup`).
-/

namespace MediaBridge.OrderedMap

variable {κ α : Type} [Keyed κ] {m : OrderedMap κ α} {k : κ} {v : α} {e : κ × α}
  {l : List (κ × α)}

open Keyed (code)

/-! ## Membership -/

/-- A value that is set comes under its key, or under the one that was there before. -/
theorem mem_insert (h : e ∈ (m.insert k v).toList) :
    e ∈ m.toList ∨
      code e.1 = code k ∧ e.2 = v ∧ (e.1 = k ∨ ∃ w, (e.1, w) ∈ m.toList) := by
  obtain ⟨entries⟩ := m
  simp only [insert] at h ⊢
  induction entries with
  | nil =>
    rw [insertEntry, List.mem_singleton] at h
    subst h
    exact .inr ⟨rfl, rfl, .inl rfl⟩
  | cons first rest ih =>
    rw [insertEntry] at h
    split at h
    · next hcode =>
      rcases List.mem_cons.1 h with rfl | h
      · exact .inr ⟨hcode, rfl, .inr ⟨first.2, List.mem_cons_self⟩⟩
      · exact .inl (List.mem_cons_of_mem _ h)
    · rcases List.mem_cons.1 h with rfl | h
      · exact .inl List.mem_cons_self
      · rcases ih h with hmem | ⟨hcode, hv, rfl | ⟨w, hw⟩⟩
        · exact .inl (List.mem_cons_of_mem _ hmem)
        · exact .inr ⟨hcode, hv, .inl rfl⟩
        · exact .inr ⟨hcode, hv, .inr ⟨w, List.mem_cons_of_mem _ hw⟩⟩

theorem mem_of_mem_erase (h : e ∈ (m.erase k).toList) : e ∈ m.toList :=
  (List.mem_filter.1 h).1

theorem exists_mem_of_get? (h : m.get? k = some v) :
    ∃ k', code k' = code k ∧ (k', v) ∈ m.toList := by
  obtain ⟨entries⟩ := m
  simp only [get?] at h ⊢
  induction entries with
  | nil => cases h
  | cons first rest ih =>
    rw [lookup] at h
    split at h
    · next hcode =>
      cases h
      exact ⟨first.1, hcode, List.mem_cons_self⟩
    · obtain ⟨k', hcode, hmem⟩ := ih h
      exact ⟨k', hcode, List.mem_cons_of_mem _ hmem⟩

theorem Distinct.get?_of_mem (hd : m.Distinct) (h : e ∈ m.toList) (hcode : code e.1 = code k) :
    m.get? k = some e.2 := by
  obtain ⟨entries⟩ := m
  simp only [Distinct, codes, get?] at hd h ⊢
  induction entries with
  | nil => cases h
  | cons first rest ih =>
    rw [List.map_cons, List.nodup_cons] at hd
    rw [lookup]
    rcases List.mem_cons.1 h with rfl | h
    · rw [if_pos hcode]
    · rw [if_neg]
      · exact ih hd.2 h
      · intro hfirst
        exact hd.1 (List.mem_map.2 ⟨e, h, hcode.trans hfirst.symm⟩)

/-- What is at a key is what comes under it, if no key occurs twice. -/
theorem Distinct.get?_eq_some_iff (hd : m.Distinct) :
    m.get? k = some v ↔ ∃ k', code k' = code k ∧ (k', v) ∈ m.toList :=
  ⟨exists_mem_of_get?, fun ⟨_, hcode, hmem⟩ => hd.get?_of_mem hmem hcode⟩

/-! ## Adding new keys -/

theorem codes_mk_append (m : OrderedMap κ α) (e : κ × α) :
    (⟨m.toList ++ [e]⟩ : OrderedMap κ α).codes = m.codes ++ [code e.1] := by
  simp [codes]

theorem insert_of_not_mem (h : code k ∉ m.codes) : m.insert k v = ⟨m.toList ++ [(k, v)]⟩ :=
  congrArg mk (toList_insert_of_not_mem h)

theorem not_mem_of_nodup {β : Type} {e : κ × β} {l : List (κ × β)}
    (h : (m.codes ++ (e :: l).map (code ·.1)).Nodup) : code e.1 ∉ m.codes := by
  intro hmem
  exact (List.nodup_append.1 h).2.2 _ hmem _ List.mem_cons_self rfl

/-- New keys that do not occur twice are added in their order. -/
theorem insertAll_of_nodup (h : (m.codes ++ l.map (code ·.1)).Nodup) :
    m.insertAll l = ⟨m.toList ++ l⟩ := by
  induction l generalizing m with
  | nil => simp
  | cons e l ih =>
    rw [insertAll_cons, insert_of_not_mem (not_mem_of_nodup h), ih]
    · simp
    · rw [codes_mk_append, List.append_assoc]
      exact h

/-- Two disjoint choices of entries have distinct keys. -/
theorem Distinct.nodup_filter (hd : m.Distinct) (p q : κ × α → Bool) :
    ((m.toList.filter p ++ m.toList.filter fun e => q e && !p e).map (code ·.1)).Nodup := by
  have hperm := List.filter_append_perm p m.toList
  have hall := (hperm.map fun e : κ × α => code e.1).nodup_iff.2 hd
  have hsub : (m.toList.filter fun e => q e && !p e).Sublist (m.toList.filter (!p ·)) := by
    rw [← List.filter_filter]
    exact List.filter_sublist
  exact hall.sublist ((hsub.append_left _).map _)

theorem ofList_of_nodup (h : (l.map (code ·.1)).Nodup) : ofList l = ⟨l⟩ :=
  insertAll_of_nodup h

/-! ## Other values under the same keys -/

section

variable {β : Type} (f : α → β)

omit [Keyed κ] in
/-- Apply a function to every value. -/
def mapValues (m : OrderedMap κ α) : OrderedMap κ β := ⟨m.toList.map fun e => (e.1, f e.2)⟩

theorem mapValues_insert (m : OrderedMap κ α) (k : κ) (v : α) :
    (m.insert k v).mapValues f = (m.mapValues f).insert k (f v) := by
  obtain ⟨entries⟩ := m
  simp only [insert, mapValues, mk.injEq]
  induction entries with
  | nil => rfl
  | cons first rest ih =>
    by_cases hcode : code first.1 = code k
    · simp [insertEntry, hcode]
    · simp [insertEntry, hcode, ih]

theorem mapValues_erase (m : OrderedMap κ α) (k : κ) :
    (m.erase k).mapValues f = (m.mapValues f).erase k := by
  simp [erase, mapValues, List.filter_map, Function.comp_def]

end

end MediaBridge.OrderedMap
