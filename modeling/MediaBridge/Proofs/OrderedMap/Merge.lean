import MediaBridge.Proofs.OrderedMap

/-!
# Merging ordered maps

All entries of a map are put into another one. The new keys go last in their order
(`keys_insertAll`), what was put in goes before what was there (`get?_insertAll`), and two maps that
are put in one after the other may be merged first (`insertAll_insertAll`).
-/

namespace MediaBridge.OrderedMap

variable {κ α : Type} [Keyed κ] {m e : OrderedMap κ α} {k k' : κ} {v v' : α} {l : List (κ × α)}

open Keyed (code)

theorem lookup_eq_none_of_not_mem (h : code k ∉ l.map (code ·.1)) : lookup k l = none :=
  (get?_eq_none_iff ⟨l⟩ k).2 h

theorem contains_insert_of_ne (h : code k ≠ code k') :
    (m.insert k v).contains k' = m.contains k' := by
  rw [contains_eq_isSome, contains_eq_isSome, get?_insert_of_ne h]

/-! ## Keys and values after a merge -/

theorem keys_insert_of_mem (h : code k ∈ m.codes) : (m.insert k v).keys = m.keys := by
  obtain ⟨entries⟩ := m
  simp only [keys, codes, insert] at h ⊢
  induction entries with
  | nil => cases h
  | cons first rest ih =>
    by_cases hfirst : code first.1 = code k
    · simp [insertEntry, hfirst]
    · have hrest : code k ∈ rest.map (code ·.1) := by simpa [Ne.symm hfirst] using h
      simpa [insertEntry, hfirst] using ih hrest

theorem keys_insert_of_not_mem (h : code k ∉ m.codes) :
    (m.insert k v).keys = m.keys ++ [k] := by
  simp [insert_of_not_mem h, keys]

/-- The keys that are there keep their places, and the new ones go last in their order. -/
theorem Distinct.keys_insertAll (hd : e.Distinct) (m : OrderedMap κ α) :
    (m.insertAll e.toList).keys = m.keys ++ e.keys.filter fun k => !m.contains k := by
  obtain ⟨l⟩ := e
  simp only [Distinct, codes] at hd
  change (m.insertAll l).keys = m.keys ++ (l.map (·.1)).filter fun k => !m.contains k
  induction l generalizing m with
  | nil => simp
  | cons entry l ih =>
    rw [List.map_cons, List.nodup_cons] at hd
    have hothers : (l.map (·.1)).filter (fun k => !(m.insert entry.1 entry.2).contains k) =
        (l.map (·.1)).filter fun k => !m.contains k := by
      refine List.filter_congr fun k hk => ?_
      obtain ⟨entry', hmem, rfl⟩ := List.mem_map.1 hk
      have hne : code entry.1 ≠ code entry'.1 := fun heq =>
        hd.1 (heq ▸ List.mem_map_of_mem hmem)
      rw [contains_insert_of_ne hne]
    rw [insertAll_cons, ih _ hd.2, hothers, List.map_cons, List.filter_cons]
    by_cases hmem : code entry.1 ∈ m.codes
    · rw [keys_insert_of_mem hmem, (contains_iff m entry.1).2 hmem]
      rfl
    · rw [keys_insert_of_not_mem hmem, Bool.eq_false_iff.2 (mt (contains_iff m entry.1).1 hmem),
        List.append_assoc]
      rfl

/-- What is put in goes before what was there. -/
theorem Distinct.get?_insertAll (hd : e.Distinct) (m : OrderedMap κ α) (k : κ) :
    (m.insertAll e.toList).get? k = (e.get? k).or (m.get? k) := by
  obtain ⟨l⟩ := e
  simp only [Distinct, codes, get?] at hd ⊢
  change (m.insertAll l).get? k = (lookup k l).or (m.get? k)
  induction l generalizing m with
  | nil => rfl
  | cons entry l ih =>
    rw [List.map_cons, List.nodup_cons] at hd
    rw [insertAll_cons, ih _ hd.2, lookup]
    by_cases hk : code entry.1 = code k
    · rw [lookup_eq_none_of_not_mem (hk ▸ hd.1), get?_insert_of_eq hk, if_pos hk]
      rfl
    · rw [get?_insert_of_ne hk, if_neg hk]

/-- What holds of the values of both maps holds after a merge. -/
theorem forall_mem_insertAll {P : α → Prop} (hm : ∀ entry ∈ m.toList, P entry.2)
    (hl : ∀ entry ∈ l, P entry.2) : ∀ entry ∈ (m.insertAll l).toList, P entry.2 := by
  induction l generalizing m with
  | nil => exact hm
  | cons first l ih =>
    rw [List.forall_mem_cons] at hl
    refine ih (fun entry hmem => ?_) hl.2
    rcases mem_insert hmem with hmem | ⟨-, hvalue, -⟩
    · exact hm entry hmem
    · exact hvalue ▸ hl.1

/-! ## Two merges -/

theorem insert_insert_of_eq (h : code k = code k') :
    (m.insert k v).insert k' v' = m.insert k v' := by
  obtain ⟨entries⟩ := m
  simp only [insert, mk.injEq]
  induction entries with
  | nil => simp [insertEntry, h]
  | cons first rest ih =>
    by_cases hfirst : code first.1 = code k
    · simp [insertEntry, hfirst, ← h]
    · have hfirst' : ¬ code first.1 = code k' := fun heq => hfirst (heq.trans h.symm)
      simp [insertEntry, hfirst, hfirst', ih]

/-- Setting a key that is there changes no place, so another key may be set first. -/
theorem insert_insert_of_ne (h : code k ≠ code k') (hmem : code k ∈ m.codes) :
    (m.insert k' v').insert k v = (m.insert k v).insert k' v' := by
  obtain ⟨entries⟩ := m
  simp only [insert, codes, mk.injEq] at hmem ⊢
  induction entries with
  | nil => cases hmem
  | cons first rest ih =>
    by_cases hk : code first.1 = code k
    · have hk' : ¬ code first.1 = code k' := fun heq => h (hk.symm.trans heq)
      simp [insertEntry, hk, h]
    · have hrest : code k ∈ rest.map (code ·.1) := by simpa [Ne.symm hk] using hmem
      by_cases hk' : code first.1 = code k'
      · simp [insertEntry, hk', h.symm]
      · simpa [insertEntry, hk, hk'] using ih hrest

theorem insert_insertAll_of_mem (hmem : code k ∈ m.codes) (hl : code k ∉ l.map (code ·.1)) :
    (m.insertAll l).insert k v = (m.insert k v).insertAll l := by
  induction l generalizing m with
  | nil => rfl
  | cons entry l ih =>
    rw [List.map_cons, List.mem_cons, not_or] at hl
    have hmem' : code k ∈ (m.insert entry.1 entry.2).codes := by
      rw [← contains_iff, contains_insert_of_ne (Ne.symm hl.1), contains_iff]
      exact hmem
    rw [insertAll_cons, insertAll_cons, ih hmem' hl.2, insert_insert_of_ne hl.1 hmem]

/-- An entry may be put into the map that is put in. -/
theorem Distinct.insert_insertAll (hd : e.Distinct) (m : OrderedMap κ α) (k : κ) (v : α) :
    (m.insertAll e.toList).insert k v = m.insertAll (e.insert k v).toList := by
  obtain ⟨l⟩ := e
  simp only [Distinct, codes] at hd
  change (m.insertAll l).insert k v = m.insertAll (insertEntry k v l)
  induction l generalizing m with
  | nil => rfl
  | cons entry l ih =>
    rw [List.map_cons, List.nodup_cons] at hd
    simp only [insertEntry]
    split
    · next hk =>
      have hmem : code k ∈ (m.insert entry.1 entry.2).codes := by
        rw [← contains_iff, contains_eq_isSome, get?_insert_of_eq hk]
        rfl
      have hset := insert_insertAll_of_mem (v := v) hmem (hk ▸ hd.1)
      rw [insert_insert_of_eq hk] at hset
      exact hset
    · exact ih (m.insert entry.1 entry.2) hd.2

/-- Two maps that are put in one after the other may be merged first. -/
theorem Distinct.insertAll_insertAll (hd : e.Distinct) (m : OrderedMap κ α) (l : List (κ × α)) :
    (m.insertAll e.toList).insertAll l = m.insertAll (e.insertAll l).toList := by
  induction l generalizing e with
  | nil => rfl
  | cons entry l ih =>
    rw [insertAll_cons, insertAll_cons, hd.insert_insertAll, ih (hd.insert _ _)]

/-! ## Merges with other values -/

section

variable {β : Type} (f : α → β)

theorem codes_mapValues (m : OrderedMap κ α) : (m.mapValues f).codes = m.codes := by
  simp [codes, mapValues, Function.comp_def]

omit [Keyed κ] in
theorem keys_mapValues (m : OrderedMap κ α) : (m.mapValues f).keys = m.keys := by
  simp [keys, mapValues, Function.comp_def]

theorem Distinct.mapValues (hd : m.Distinct) : (m.mapValues f).Distinct := by
  rw [Distinct, codes_mapValues]
  exact hd

theorem get?_mapValues (m : OrderedMap κ α) (k : κ) :
    (m.mapValues f).get? k = (m.get? k).map f := by
  obtain ⟨entries⟩ := m
  simp only [get?, OrderedMap.mapValues]
  induction entries with
  | nil => rfl
  | cons first rest ih => by_cases hk : code first.1 = code k <;> simp [lookup, hk, ih]

theorem mapValues_insertAll (m : OrderedMap κ α) (l : List (κ × α)) :
    (m.insertAll l).mapValues f = (m.mapValues f).insertAll (l.map fun e => (e.1, f e.2)) := by
  induction l generalizing m with
  | nil => rfl
  | cons entry l ih =>
    rw [insertAll_cons, ih, mapValues_insert, List.map_cons, insertAll_cons]

end

end MediaBridge.OrderedMap
