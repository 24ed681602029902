import Mathlib.Data.List.Dedup
import Mathlib.Data.List.Induction
import MediaBridge.Proofs.OrderedMap

/-!
# Updates of ordered maps

An update sets or removes the value at one key. After a run of updates the value at a key is that of
the last update of the key (`get?_updateAll`), the keys are in the order in which they last came in
(`codes_updateAll`), and neighbours in a run that update different keys may change places
(`updateAll_swap`).
-/

namespace MediaBridge.OrderedMap

open Keyed (code)

/-- A change at one key: a value to set, or none to remove the key. -/
structure Update (κ α : Type) where
  key : κ
  value : Option α

variable {κ α : Type} [Keyed κ] {m m' : OrderedMap κ α} {u v : Update κ α}
  {us : List (Update κ α)} {k : κ}

/-- Carry out an update. -/
def update (m : OrderedMap κ α) (u : Update κ α) : OrderedMap κ α :=
  match u.value with
  | some v => m.insert u.key v
  | none => m.erase u.key

/-- Carry out updates one after the other. -/
def updateAll (m : OrderedMap κ α) (us : List (Update κ α)) : OrderedMap κ α := us.foldl update m

theorem update_of_some {w : α} (h : u.value = some w) : m.update u = m.insert u.key w := by
  rw [update, h]

theorem update_of_none (h : u.value = none) : m.update u = m.erase u.key := by
  rw [update, h]

@[simp] theorem updateAll_nil (m : OrderedMap κ α) : m.updateAll [] = m := rfl

@[simp] theorem updateAll_cons (m : OrderedMap κ α) (u : Update κ α) (us : List (Update κ α)) :
    m.updateAll (u :: us) = (m.update u).updateAll us := rfl

theorem updateAll_append (m : OrderedMap κ α) (us vs : List (Update κ α)) :
    m.updateAll (us ++ vs) = (m.updateAll us).updateAll vs := List.foldl_append

/-! ## One update -/

theorem get?_update_of_eq (h : code u.key = code k) : (m.update u).get? k = u.value := by
  cases hu : u.value with
  | some w => rw [update_of_some hu, get?_insert_of_eq h]
  | none => rw [update_of_none hu, get?_erase_of_eq h]

theorem get?_update_of_ne (h : code u.key ≠ code k) : (m.update u).get? k = m.get? k := by
  cases hu : u.value with
  | some w => rw [update_of_some hu, get?_insert_of_ne h]
  | none => rw [update_of_none hu, get?_erase_of_ne h]

theorem Distinct.update (h : m.Distinct) (u : Update κ α) : (m.update u).Distinct := by
  cases hu : u.value with
  | some w =>
    rw [update_of_some hu]
    exact h.insert _ _
  | none =>
    rw [update_of_none hu]
    exact h.erase _

theorem Distinct.updateAll (h : m.Distinct) (us : List (Update κ α)) :
    (m.updateAll us).Distinct := by
  induction us generalizing m with
  | nil => exact h
  | cons u us ih => exact ih (h.update u)

/-- An update leaves the entries of the other keys and their order alone. -/
theorem erase_update (m : OrderedMap κ α) (u : Update κ α) :
    (m.update u).erase u.key = m.erase u.key := by
  cases hu : u.value with
  | none =>
    rw [update_of_none hu]
    simp only [erase, List.filter_filter, Bool.and_self]
  | some w =>
    rw [update_of_some hu]
    obtain ⟨l⟩ := m
    simp only [erase, insert, mk.injEq]
    induction l with
    | nil => simp [insertEntry]
    | cons e l ih =>
      by_cases he : code e.1 = code u.key
      · simp [insertEntry, he]
      · simpa [insertEntry, he] using ih

/-- A key that is set keeps its place if it is present, and goes last if it is not. -/
theorem codes_update_of_some {w : α} (h : u.value = some w) : (m.update u).codes =
    if code u.key ∈ m.codes then m.codes else m.codes ++ [code u.key] := by
  rw [update_of_some h]
  split
  · next hmem => exact codes_insert_of_mem hmem
  · next hmem => exact codes_insert_of_not_mem hmem

theorem codes_update_of_none (h : u.value = none) :
    (m.update u).codes = m.codes.filter (· ≠ code u.key) := by
  rw [update_of_none h, codes_erase]

/-! ## The value at a key -/

/-- The last update of a key. -/
def lastAt? (k : κ) (us : List (Update κ α)) : Option (Update κ α) :=
  us.reverse.find? fun u => code u.key = code k

/-- The last update of a key decides what is there, and without one nothing changes there. -/
theorem get?_updateAll (m : OrderedMap κ α) (us : List (Update κ α)) (k : κ) :
    (m.updateAll us).get? k = (lastAt? k us).elim (m.get? k) Update.value := by
  induction us using List.reverseRecOn with
  | nil => rfl
  | append_singleton us u ih =>
    rw [updateAll_append, updateAll_cons, updateAll_nil, lastAt?, List.reverse_append,
      List.reverse_singleton, List.singleton_append, List.find?_cons]
    by_cases h : code u.key = code k
    · rw [get?_update_of_eq h, decide_eq_true h]
      rfl
    · rw [get?_update_of_ne h, decide_eq_false h]
      exact ih

/-! ## The order of the keys -/

/-- The keys that come in during a run: a key that is absent before an update and present after it,
in order. -/
def arrivals (m : OrderedMap κ α) : List (Update κ α) → List (Keyed.Code κ)
  | [] => []
  | u :: us =>
    let rest := (m.update u).arrivals us
    if code u.key ∉ m.codes ∧ code u.key ∈ (m.update u).codes then code u.key :: rest else rest

theorem dedup_concat {β : Type} [DecidableEq β] (l : List β) (a : β) :
    (l ++ [a]).dedup = l.dedup.filter (· ≠ a) ++ [a] := by
  induction l with
  | nil => simp
  | cons b l ih =>
    rw [List.cons_append]
    by_cases hb : b ∈ l
    · rw [List.dedup_cons_of_mem (List.mem_append_left _ hb), List.dedup_cons_of_mem hb, ih]
    · rw [List.dedup_cons_of_notMem hb]
      by_cases hba : b = a
      · subst hba
        have hmem : b ∈ l ++ [b] := List.mem_append_right _ List.mem_cons_self
        rw [List.dedup_cons_of_mem hmem, ih, List.filter_cons_of_neg (by simp)]
      · have hnot : b ∉ l ++ [a] := by simp [hb, hba]
        rw [List.dedup_cons_of_notMem hnot, ih, List.filter_cons_of_pos (by simpa using hba)]
        rfl

/-- Whether keys are in the order in which they last came in. -/
def Follows (m : OrderedMap κ α) (comings : List (Keyed.Code κ)) : Prop :=
  m.codes = comings.dedup.filter (· ∈ m.codes)

theorem Distinct.follows (h : m.Distinct) : m.Follows m.codes := by
  rw [Follows, List.Nodup.dedup h, eq_comm]
  exact List.filter_eq_self.2 fun c hc => decide_eq_true hc

/-- An update adds at most the key that it sets to the keys that came in. -/
theorem Follows.update {comings : List (Keyed.Code κ)} (h : m.Follows comings)
    (u : Update κ α) :
    (m.update u).Follows (comings ++ m.arrivals [u]) := by
  cases hu : u.value with
  | none =>
    have hcodes := codes_update_of_none (m := m) hu
    have harrivals : m.arrivals [u] = [] := by simp [arrivals, hcodes]
    rw [harrivals, List.append_nil, Follows, hcodes]
    conv => lhs; rw [h]
    rw [List.filter_filter]
    refine List.filter_congr fun c _ => ?_
    simp [Bool.and_comm]
  | some w =>
    have hcodes := codes_update_of_some (m := m) hu
    by_cases hmem : code u.key ∈ m.codes
    · rw [if_pos hmem] at hcodes
      have harrivals : m.arrivals [u] = [] := by simp [arrivals, hmem]
      rw [harrivals, List.append_nil, Follows, hcodes]
      exact h
    · rw [if_neg hmem] at hcodes
      have harrivals : m.arrivals [u] = [code u.key] := by simp [arrivals, hmem, hcodes]
      rw [harrivals, Follows, hcodes, dedup_concat, List.filter_append, List.filter_filter]
      conv => lhs; rw [h]
      congr 1
      · -- the new key is not among the old ones, so it makes no difference to leave it out
        refine List.filter_congr fun c _ => ?_
        by_cases hc : c = code u.key
        · subst hc
          simp [hmem]
        · simp [hc]
      · simp

theorem arrivals_cons (m : OrderedMap κ α) (u : Update κ α) (us : List (Update κ α)) :
    m.arrivals (u :: us) = m.arrivals [u] ++ (m.update u).arrivals us := by
  simp only [arrivals]
  split <;> rfl

theorem Follows.updateAll {comings : List (Keyed.Code κ)} (h : m.Follows comings)
    (us : List (Update κ α)) : (m.updateAll us).Follows (comings ++ m.arrivals us) := by
  induction us generalizing m comings with
  | nil =>
    rw [arrivals, List.append_nil]
    exact h
  | cons u us ih =>
    rw [arrivals_cons, ← List.append_assoc]
    exact ih (h.update u)

/-- After a run the keys that are present are in the order in which they last came in. -/
theorem Distinct.codes_updateAll (h : m.Distinct) (us : List (Update κ α)) :
    (m.updateAll us).codes =
      (m.codes ++ m.arrivals us).dedup.filter (· ∈ (m.updateAll us).codes) :=
  h.follows.updateAll us

/-! ## Updates that change places -/

theorem codes_perm (h : m.toList.Perm m'.toList) : m.codes.Perm m'.codes := h.map _

theorem toList_insert_of_mem (hd : m.Distinct) {w : α} (h : code k ∈ m.codes) :
    (m.insert k w).toList =
      m.toList.map fun e => if code e.1 = code k then (e.1, w) else e := by
  obtain ⟨l⟩ := m
  simp only [Distinct, codes, insert] at hd h ⊢
  induction l with
  | nil => cases h
  | cons e l ih =>
    rw [List.map_cons, List.nodup_cons] at hd
    by_cases he : code e.1 = code k
    · -- the key does not occur again
      have hrest : ∀ e' ∈ l, ¬ code e'.1 = code k := fun e' hmem he' =>
        hd.1 (List.mem_map.2 ⟨e', hmem, he'.trans he.symm⟩)
      have hmap : l.map (fun e => if code e.1 = code k then (e.1, w) else e) = l := by
        refine (List.map_congr_left fun e' hmem => ?_).trans (List.map_id l)
        exact if_neg (hrest e' hmem)
      rw [insertEntry, if_pos he, List.map_cons, if_pos he, hmap]
    · have hmem : code k ∈ l.map (code ·.1) := by simpa [Ne.symm he] using h
      rw [insertEntry, if_neg he, List.map_cons, if_neg he, ih hd.2 hmem]

/-- Maps with the same entries have the same entries after an update. -/
theorem Distinct.update_perm (hd : m.Distinct) (hd' : m'.Distinct)
    (h : m.toList.Perm m'.toList) (u : Update κ α) :
    (m.update u).toList.Perm (m'.update u).toList := by
  cases hu : u.value with
  | none =>
    rw [update_of_none hu, update_of_none hu]
    exact h.filter _
  | some w =>
    rw [update_of_some hu, update_of_some hu]
    by_cases hmem : code u.key ∈ m.codes
    · have hmem' := (codes_perm h).mem_iff.1 hmem
      rw [toList_insert_of_mem hd hmem, toList_insert_of_mem hd' hmem']
      exact h.map _
    · have hmem' := mt (codes_perm h).mem_iff.2 hmem
      rw [toList_insert_of_not_mem hmem, toList_insert_of_not_mem hmem']
      exact h.append_right _

theorem Distinct.updateAll_perm (hd : m.Distinct) (hd' : m'.Distinct)
    (h : m.toList.Perm m'.toList) (us : List (Update κ α)) :
    (m.updateAll us).toList.Perm (m'.updateAll us).toList := by
  induction us generalizing m m' with
  | nil => exact h
  | cons u us ih => exact ih (hd.update u) (hd'.update u) (hd.update_perm hd' h u)

theorem insertEntry_swap {k k' : κ} (h : code k ≠ code k') (w w' : α) (l : List (κ × α)) :
    (insertEntry k' w' (insertEntry k w l)).Perm (insertEntry k w (insertEntry k' w' l)) := by
  induction l with
  | nil =>
    simp only [insertEntry, if_neg h, if_neg h.symm]
    exact .swap _ _ _
  | cons e l ih =>
    by_cases he : code e.1 = code k
    · have he' : ¬ code e.1 = code k' := fun he' => h (he.symm.trans he')
      simp only [insertEntry, if_pos he, if_neg he']
      exact .refl _
    · by_cases he' : code e.1 = code k'
      · simp only [insertEntry, if_neg he, if_pos he']
        exact .refl _
      · simp only [insertEntry, if_neg he, if_neg he']
        exact ih.cons e

theorem erase_insert {k k' : κ} (h : code k ≠ code k') (w : α) (m : OrderedMap κ α) :
    (m.insert k w).erase k' = (m.erase k').insert k w := by
  obtain ⟨l⟩ := m
  simp only [insert, erase, mk.injEq]
  induction l with
  | nil => simp [insertEntry, h]
  | cons e l ih =>
    by_cases he : code e.1 = code k
    · have he' : ¬ code e.1 = code k' := fun he' => h (he.symm.trans he')
      simp [insertEntry, he, h]
    · by_cases he' : code e.1 = code k'
      · simpa [insertEntry, he', h.symm] using ih
      · simpa [insertEntry, he, he'] using ih

/-- Updates of different keys have the same effect on the entries in either order. -/
theorem update_swap (h : code u.key ≠ code v.key) (m : OrderedMap κ α) :
    ((m.update u).update v).toList.Perm ((m.update v).update u).toList := by
  cases hu : u.value with
  | none =>
    rw [update_of_none hu, update_of_none hu]
    cases hv : v.value with
    | none =>
      rw [update_of_none hv, update_of_none hv]
      simp only [erase, List.filter_filter, Bool.and_comm]
      exact .refl _
    | some w =>
      rw [update_of_some hv, update_of_some hv, erase_insert h.symm]
  | some w =>
    rw [update_of_some hu, update_of_some hu]
    cases hv : v.value with
    | none => rw [update_of_none hv, update_of_none hv, erase_insert h]
    | some w' =>
      rw [update_of_some hv, update_of_some hv]
      exact insertEntry_swap h w w' m.toList

/-- Neighbours in a run that update different keys may change places. -/
theorem Distinct.updateAll_swap (hd : m.Distinct) (h : code u.key ≠ code v.key)
    (us vs : List (Update κ α)) :
    (m.updateAll (us ++ u :: v :: vs)).toList.Perm
      (m.updateAll (us ++ v :: u :: vs)).toList := by
  have hus := hd.updateAll us
  simp only [updateAll_append, updateAll_cons]
  exact ((hus.update u).update v).updateAll_perm ((hus.update v).update u) (update_swap h _) vs

end MediaBridge.OrderedMap
