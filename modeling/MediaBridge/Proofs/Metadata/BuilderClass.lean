import MediaBridge.Proofs.Metadata.Partition
import MediaBridge.Proofs.OrderedMap.Update
import MediaBridge.Proofs.Session.Store

/-!
# Builders as ordered maps

Both classes of builders are ordered maps that every setter call updates at one key, or does not
touch when it fails. Whether a call fails does not depend on the builder. What follows for single
calls and for runs is derived once (`BuilderClass.Lawful.ordered`) from what the setters of a class
have in common. Main statement: `BuilderClass.both_ordered`.
-/

namespace MediaBridge

open Keyed (code)
open OrderedMap (Update)

/-! ## Setters -/

namespace MetadataSetter

/-- The key that a call is addressed to. -/
def key : MetadataSetter → Value
  | .text key _ | .long key _ | .float key _ | .bitmap key _ | .rating key _ => key
  | .extras _ => .ofKey .extras

/-- The kind of a setter. -/
def kind : MetadataSetter → ValueKind
  | .text .. => .text
  | .long .. => .long
  | .float .. => .float
  | .bitmap .. => .bitmap
  | .rating .. => .rating
  | .extras _ => .extras

/-- The value that a call is given. -/
def value : MetadataSetter → Value
  | .text _ value | .long _ value | .float _ value | .bitmap _ value | .rating _ value => value
  | .extras value => value

/-- The given value as the content of an entry of the kind of the setter. -/
def coerced : MetadataSetter → Except Fault Value
  | .text _ value => value.asText
  | .long key value => value.asLong key
  | .float key value => value.asFloat key
  | .bitmap key value => value.asBitmap key
  | .rating key value => value.asRating key
  | .extras value => value.asExtras

variable {call : MetadataSetter} {v : Value}

theorem change_eq (call : MetadataSetter) :
    call.change = (do return ⟨call.key, call.kind, ← call.coerced⟩) := by
  cases call <;> rfl

theorem isNone_of_coerced (h : call.coerced = .ok v) : v.isNone = call.value.isNone := by
  cases call with
  | text key value => exact Value.isNone_of_asText h
  | long key value =>
    rw [coerced, Value.asLong_eq] at h
    exact Value.isNone_of_checked (fun _ => rfl) h
  | float key value => exact Value.isNone_of_asFloat h
  | bitmap key value =>
    rw [coerced, Value.asBitmap_eq] at h
    exact Value.isNone_of_checked (fun _ => rfl) h
  | rating key value =>
    rw [coerced, Value.asRating_eq] at h
    exact Value.isNone_of_checked (fun _ => rfl) h
  | extras value =>
    rw [coerced, Value.asExtras_eq] at h
    exact Value.isNone_of_checked (fun _ => rfl) h

end MetadataSetter

namespace LegacyMetadataSetter

/-- The key that a call is addressed to. -/
def key : LegacyMetadataSetter → Value
  | .text key _ | .long key _ | .bitmap key _ | .rating key _ => key

/-- The kind of a setter. -/
def kind : LegacyMetadataSetter → ValueKind
  | .text .. => .text
  | .long .. => .long
  | .bitmap .. => .bitmap
  | .rating .. => .rating

/-- The value that a call is given. -/
def value : LegacyMetadataSetter → Value
  | .text _ value | .long _ value | .bitmap _ value | .rating _ value => value

/-- The given value as the content of an entry of the kind of the setter. -/
def coerced : LegacyMetadataSetter → Except Fault Value
  | .text _ value => value.asText
  | .long key value => value.asLong key
  | .bitmap key value => value.asBitmap key
  | .rating key value => value.asLegacyRating key

variable {call : LegacyMetadataSetter} {v : Value}

theorem change_eq (call : LegacyMetadataSetter) :
    call.change = (do return ⟨call.key, call.kind, ← call.coerced⟩) := by
  cases call <;> rfl

theorem isNone_of_coerced (h : call.coerced = .ok v) : v.isNone = call.value.isNone := by
  cases call with
  | text key value => exact Value.isNone_of_asText h
  | long key value =>
    rw [coerced, Value.asLong_eq] at h
    exact Value.isNone_of_checked (fun _ => rfl) h
  | bitmap key value =>
    rw [coerced, Value.asBitmap_eq] at h
    exact Value.isNone_of_checked (fun _ => rfl) h
  | rating key value =>
    rw [coerced, Value.asLegacyRating_eq] at h
    exact Value.isNone_of_checked (fun _ => rfl) h

end LegacyMetadataSetter

/-! ## Classes of builders -/

/-- A class of builders: what a builder holds and what a call of a setter does to it. Bags of the
class are what a builder may start with. -/
structure BuilderClass where
  State : Type
  Call : Type
  Content : Type
  IsBag : OrderedMap Value Content → Prop
  bag : State → OrderedMap Value Content
  ofBag : OrderedMap Value Content → State
  build : State → Except Fault (OrderedMap Value Content)
  store : State → Change → Except Fault State
  apply : State → Call → Except Fault State
  applyAll : State → List Call → State
  inSession : State → Builder
  change : Call → Except Fault Change
  key : Call → Value
  kind : Call → ValueKind
  value : Call → Value
  coerced : Call → Except Fault Value
  content : ValueKind → Value → Content

namespace BuilderClass

/-- The builders of metadata of the new schema. The tag of an entry is the kind of its setter. -/
def metadata : BuilderClass where
  State := MetadataBuilder
  Call := MetadataSetter
  Content := Entry
  IsBag m := m.Distinct ∧ Metadata.ofEntries (m.mapValues Value.entry) = .ok m
  bag := MetadataBuilder.entries
  ofBag := MetadataBuilder.ofSource
  build := MetadataBuilder.build
  store := MetadataBuilder.store
  apply := MetadataBuilder.apply
  applyAll := MetadataBuilder.applyAll
  inSession := .metadata
  change := MetadataSetter.change
  key := MetadataSetter.key
  kind := MetadataSetter.kind
  value := MetadataSetter.value
  coerced := MetadataSetter.coerced
  content kind v := ⟨some kind, v⟩

/-- The builders of metadata of the legacy schema. Values carry no tags there. -/
def legacyMetadata : BuilderClass where
  State := LegacyMetadataBuilder
  Call := LegacyMetadataSetter
  Content := Value
  IsBag m := m.Distinct
  bag := LegacyMetadataBuilder.raw
  ofBag := LegacyMetadataBuilder.ofSource
  build b := .ok b.build
  store := LegacyMetadataBuilder.store
  apply := LegacyMetadataBuilder.apply
  applyAll := LegacyMetadataBuilder.applyAll
  inSession := .legacyMetadata
  change := LegacyMetadataSetter.change
  key := LegacyMetadataSetter.key
  kind := LegacyMetadataSetter.kind
  value := LegacyMetadataSetter.value
  coerced := LegacyMetadataSetter.coerced
  content _ v := v

variable (c : BuilderClass)

/-- The builders that come about: empty ones, ones that start with any bag, and what calls make of
them. -/
inductive Reachable : c.State → Prop
  | empty : Reachable (c.ofBag .empty)
  | ofSource {m : OrderedMap Value c.Content} (h : c.IsBag m) : Reachable (c.ofBag m)
  | apply {b b' : c.State} {call : c.Call} (h : Reachable b) (happly : c.apply b call = .ok b') :
    Reachable b'

/-- What a call does to any builder, if it does not fail. -/
def update (call : c.Call) : Except Fault (Update Value c.Content) := do
  let v ← c.coerced call
  (c.key call).checkKey (c.kind call)
  return ⟨c.key call, if v.isNone then none else some (c.content (c.kind call) v)⟩

/-- What the calls do that do not fail, in order. -/
def updates (calls : List c.Call) : List (Update Value c.Content) :=
  calls.filterMap fun call => (c.update call).toOption

/-- The laws of builders as ordered maps with atomic updates. -/
structure Ordered : Prop where
  /-- A call that fails leaves the whole session alone, and one that succeeds changes its builder
  only. -/
  session {s : Session} {id : Nat} {b : c.State} (call : c.Call)
    (h : s.builders[id]? = some (c.inSession b)) :
    (Action.store (.builder id) (c.change call)).exec s = match c.apply b call with
      | .ok b' => (.ok (.builder id), { s with builders := s.builders.set id (c.inSession b') })
      | .error f => (.error f, s)
  sessionRun {s : Session} {id : Nat} {b : c.State} (calls : List c.Call)
    (h : s.builders[id]? = some (c.inSession b)) :
    Action.storeAll (.builder id) (calls.map c.change) s =
      { s with builders := s.builders.set id (c.inSession (c.applyAll b calls)) }
  /-- Whether a call fails does not depend on the builder. -/
  apply_eq (b : c.State) (call : c.Call) :
    c.apply b call = (fun u => c.ofBag ((c.bag b).update u)) <$> c.update call
  build {b : c.State} (h : c.Reachable b) : c.build b = .ok (c.bag b)
  /-- A value is stored with the kind of the setter. Its key keeps its place or goes last. -/
  set {b b' : c.State} {call : c.Call} (h : c.Reachable b) (happly : c.apply b call = .ok b')
    (hv : c.value call ≠ .none) :
    (∃ v, c.coerced call = .ok v ∧
      (c.bag b').get? (c.key call) = some (c.content (c.kind call) v)) ∧
    (c.bag b').codes =
      if code (c.key call) ∈ (c.bag b).codes then (c.bag b).codes
      else (c.bag b).codes ++ [code (c.key call)]
  remove {b b' : c.State} {call : c.Call} (h : c.Reachable b) (happly : c.apply b call = .ok b')
    (hv : c.value call = .none) : (c.bag b').get? (c.key call) = none
  /-- The other keys keep their entries, and these keep their order. -/
  others {b b' : c.State} {call : c.Call} (h : c.Reachable b) (happly : c.apply b call = .ok b') :
    (∀ k, code k ≠ code (c.key call) → (c.bag b').get? k = (c.bag b).get? k) ∧
    (c.bag b').erase (c.key call) = (c.bag b).erase (c.key call)
  /-- The last successful call that is addressed to a key decides what is there. -/
  get?_run {b : c.State} (h : c.Reachable b) (calls : List c.Call) (k : Value) :
    (c.bag (c.applyAll b calls)).get? k =
      (OrderedMap.lastAt? k (c.updates calls)).elim ((c.bag b).get? k) Update.value
  /-- The keys are in the order in which they last came in: of equal ones the last is kept. -/
  codes_run {b : c.State} (h : c.Reachable b) (calls : List c.Call) :
    (c.bag (c.applyAll b calls)).codes =
      ((c.bag b).codes ++ (c.bag b).arrivals (c.updates calls)).dedup.filter
        (· ∈ (c.bag (c.applyAll b calls)).codes)
  /-- Neighbours that are addressed to different keys may change places. -/
  swap {b : c.State} {call call' : c.Call} (h : c.Reachable b)
    (hne : ∀ s, (c.key call).text? = some s → (c.key call').text? ≠ some s)
    (before after : List c.Call) :
    ∃ m m', c.build (c.applyAll b (before ++ call :: call' :: after)) = .ok m ∧
      c.build (c.applyAll b (before ++ call' :: call :: after)) = .ok m' ∧
      m.toList.Perm m'.toList

/-- What the setters of both classes have in common. -/
structure Lawful : Prop where
  apply_def (b : c.State) (call : c.Call) :
    c.apply b call = (do c.store b (← c.change call))
  applyAll_def (b : c.State) (calls : List c.Call) :
    c.applyAll b calls = calls.foldl (fun b call => (c.apply b call).toOption.getD b) b
  bag_ofBag (m : OrderedMap Value c.Content) : c.bag (c.ofBag m) = m
  change_eq (call : c.Call) :
    c.change call = (do return ⟨c.key call, c.kind call, ← c.coerced call⟩)
  isNone_of_coerced {call : c.Call} {v : Value} (h : c.coerced call = .ok v) :
    v.isNone = (c.value call).isNone
  store_eq (b : c.State) (change : Change) :
    c.store b change = (do
      change.key.checkKey change.kind
      return c.ofBag (if change.value.isNone then (c.bag b).erase change.key
        else (c.bag b).insert change.key (c.content change.kind change.value)))
  store_inSession (b : c.State) (change : Change) :
    (c.inSession b).store change = c.inSession <$> c.store b change
  build {b : c.State} (h : c.IsBag (c.bag b)) : c.build b = .ok (c.bag b)
  distinct {m : OrderedMap Value c.Content} (h : c.IsBag m) : m.Distinct
  empty : c.IsBag .empty
  insert {m : OrderedMap Value c.Content} {key : Value} {kind : ValueKind} (h : c.IsBag m)
    (hkey : key.checkKey kind = .ok ()) (v : Value) : c.IsBag (m.insert key (c.content kind v))
  erase {m : OrderedMap Value c.Content} (h : c.IsBag m) (key : Value) : c.IsBag (m.erase key)

/-! ## One call -/

namespace Lawful

variable {c : BuilderClass} {b b' : c.State} {call call' : c.Call} {calls : List c.Call}
  {u u' : Update Value c.Content}

theorem apply_eq (hc : c.Lawful) (b : c.State) (call : c.Call) :
    c.apply b call = (fun u => c.ofBag ((c.bag b).update u)) <$> c.update call := by
  rw [hc.apply_def, update, hc.change_eq]
  cases c.coerced call with
  | error f => rfl
  | ok v =>
    simp only [ok_bind]
    rw [show (pure _ : Except Fault Change) = .ok _ from rfl, ok_bind, hc.store_eq]
    cases (c.key call).checkKey (c.kind call) with
    | error f => rfl
    | ok _ =>
      change Except.ok (c.ofBag (if v.isNone then _ else _)) = Except.ok _
      cases v.isNone <;> rfl

/-- A call that succeeds is addressed to a text, and updates what is there. -/
theorem update_cases (hc : c.Lawful) (h : c.update call = .ok u) :
    u.key = c.key call ∧ (c.key call).checkKey (c.kind call) = .ok () ∧
      ∃ v, c.coerced call = .ok v ∧
        (c.value call = .none ∧ u.value = none ∨
          c.value call ≠ .none ∧ u.value = some (c.content (c.kind call) v)) := by
  obtain ⟨v, hv, h⟩ := bind_eq_ok_iff.1 h
  obtain ⟨_, hkey, h⟩ := bind_eq_ok_iff.1 h
  cases h
  refine ⟨rfl, hkey, v, hv, ?_⟩
  have hnone := hc.isNone_of_coerced hv
  cases hgiven : (c.value call).isNone with
  | true => exact .inl ⟨Value.isNone_iff.1 hgiven, by simp [hnone, hgiven]⟩
  | false =>
    refine .inr ⟨fun h => ?_, by simp [hnone, hgiven]⟩
    cases (Value.isNone_iff.2 h).symm.trans hgiven

theorem exists_of_apply (hc : c.Lawful) (h : c.apply b call = .ok b') :
    ∃ u, c.update call = .ok u ∧ u.key = c.key call ∧ c.bag b' = (c.bag b).update u := by
  rw [hc.apply_eq] at h
  cases hu : c.update call with
  | error f =>
    rw [hu] at h
    cases h
  | ok u =>
    rw [hu] at h
    cases h
    exact ⟨u, rfl, (hc.update_cases hu).1, hc.bag_ofBag _⟩

/-- An update of a bag is a bag. -/
theorem isBag_update (hc : c.Lawful) {m : OrderedMap Value c.Content} (hm : c.IsBag m)
    (h : c.update call = .ok u) : c.IsBag (m.update u) := by
  obtain ⟨hkey, hcheck, v, -, ⟨-, hv⟩ | ⟨-, hv⟩⟩ := hc.update_cases h
  · rw [OrderedMap.update_of_none hv]
    exact hc.erase hm _
  · rw [OrderedMap.update_of_some hv, hkey]
    exact hc.insert hm hcheck v

/-- What a builder holds is a bag at any time. -/
theorem isBag (hc : c.Lawful) (h : c.Reachable b) : c.IsBag (c.bag b) := by
  induction h with
  | empty => exact (hc.bag_ofBag _).symm ▸ hc.empty
  | ofSource h => exact (hc.bag_ofBag _).symm ▸ h
  | apply _ happly ih =>
    obtain ⟨u, hu, -, hb⟩ := hc.exists_of_apply happly
    exact hb ▸ hc.isBag_update ih hu

/-! ## Runs of calls -/

theorem applyAll_nil (hc : c.Lawful) (b : c.State) : c.applyAll b [] = b := hc.applyAll_def b []

theorem applyAll_cons (hc : c.Lawful) (b : c.State) (call : c.Call) (calls : List c.Call) :
    c.applyAll b (call :: calls) = c.applyAll ((c.apply b call).toOption.getD b) calls := by
  rw [hc.applyAll_def, hc.applyAll_def, List.foldl_cons]

theorem reachable_applyAll (hc : c.Lawful) (h : c.Reachable b) (calls : List c.Call) :
    c.Reachable (c.applyAll b calls) := by
  rw [hc.applyAll_def]
  exact foldl_getD_preserves (P := c.Reachable) (fun _ _ _ _ hb happly => hb.apply happly) h

theorem updates_cons_of_error {f : Fault} (h : c.update call = .error f) (calls : List c.Call) :
    c.updates (call :: calls) = c.updates calls := by
  rw [updates, List.filterMap_cons, h]
  rfl

theorem updates_cons_of_ok (h : c.update call = .ok u) (calls : List c.Call) :
    c.updates (call :: calls) = u :: c.updates calls := by
  rw [updates, List.filterMap_cons, h]
  rfl

/-- A run of calls is the run of the updates of those that succeed. -/
theorem bag_applyAll (hc : c.Lawful) (b : c.State) (calls : List c.Call) :
    c.bag (c.applyAll b calls) = (c.bag b).updateAll (c.updates calls) := by
  induction calls generalizing b with
  | nil =>
    rw [hc.applyAll_nil]
    rfl
  | cons call calls ih =>
    rw [hc.applyAll_cons, ih, hc.apply_eq]
    cases hu : c.update call with
    | error f =>
      rw [updates_cons_of_error hu]
      rfl
    | ok u =>
      rw [updates_cons_of_ok hu, OrderedMap.updateAll_cons]
      exact congrArg (OrderedMap.updateAll · _) (hc.bag_ofBag _)

theorem updates_append (calls calls' : List c.Call) :
    c.updates (calls ++ calls') = c.updates calls ++ c.updates calls' := List.filterMap_append

/-- Calls that are addressed to different texts update different keys. -/
theorem code_ne (hc : c.Lawful) (hu : c.update call = .ok u) (hu' : c.update call' = .ok u')
    (hne : ∀ s, (c.key call).text? = some s → (c.key call').text? ≠ some s) :
    code u.key ≠ code u'.key := by
  obtain ⟨hkey, hcheck, -⟩ := hc.update_cases hu
  obtain ⟨hkey', -, -⟩ := hc.update_cases hu'
  obtain ⟨⟨s, hs, -⟩, -⟩ := Value.checkKey_iff_isName.1 hcheck
  rw [hkey, hkey']
  intro hcode
  exact hne s hs ((Value.text?_eq_of_code hcode.symm).trans hs)

theorem bag_swap (hc : c.Lawful) (h : c.Reachable b)
    (hne : ∀ s, (c.key call).text? = some s → (c.key call').text? ≠ some s)
    (before after : List c.Call) :
    (c.bag (c.applyAll b (before ++ call :: call' :: after))).toList.Perm
      (c.bag (c.applyAll b (before ++ call' :: call :: after))).toList := by
  have hd := hc.distinct (hc.isBag h)
  rw [hc.bag_applyAll, hc.bag_applyAll, updates_append, updates_append]
  cases hu : c.update call with
  | error f =>
    -- without the failed call the two runs are the same
    cases hu' : c.update call' with
    | error f' => simp only [updates_cons_of_error hu, updates_cons_of_error hu', List.Perm.refl]
    | ok u' => simp only [updates_cons_of_error hu, updates_cons_of_ok hu', List.Perm.refl]
  | ok u =>
    cases hu' : c.update call' with
    | error f' => simp only [updates_cons_of_ok hu, updates_cons_of_error hu', List.Perm.refl]
    | ok u' =>
      simp only [updates_cons_of_ok hu, updates_cons_of_ok hu']
      exact hd.updateAll_swap (hc.code_ne hu hu' hne) _ _

/-! ## Calls in a session -/

theorem inSession_apply (hc : c.Lawful) (b : c.State) (call : c.Call) :
    c.change call >>= (c.inSession b).store = c.inSession <$> c.apply b call := by
  rw [hc.apply_def]
  cases c.change call with
  | error f => rfl
  | ok change => exact hc.store_inSession b change

theorem inSession_applyAll (hc : c.Lawful) (b : c.State) (calls : List c.Call) :
    (c.inSession b).storeAll (calls.map c.change) = c.inSession (c.applyAll b calls) := by
  induction calls generalizing b with
  | nil =>
    rw [hc.applyAll_nil]
    rfl
  | cons call calls ih =>
    rw [List.map_cons, Builder.storeAll, List.foldl_cons, ← Builder.storeAll,
      hc.inSession_apply, hc.applyAll_cons]
    cases c.apply b call <;> exact ih _

/-! ## The laws -/

/-- What the setters have in common makes the builders ordered maps with atomic updates. -/
theorem ordered (hc : c.Lawful) : c.Ordered where
  session {s id b} call h := by
    rw [Action.exec_store h, hc.inSession_apply]
    cases c.apply b call <;> rfl
  sessionRun calls h := by
    rw [Action.storeAll_eq h, hc.inSession_applyAll]
  apply_eq := hc.apply_eq
  build h := hc.build (hc.isBag h)
  set {b b' call} h happly hv := by
    obtain ⟨u, hu, hkey, hb⟩ := hc.exists_of_apply happly
    obtain ⟨-, -, v, hcoerced, ⟨hnone, -⟩ | ⟨-, hvalue⟩⟩ := hc.update_cases hu
    · exact absurd hnone hv
    · rw [hb, ← hkey]
      refine ⟨⟨v, hcoerced, ?_⟩, OrderedMap.codes_update_of_some hvalue⟩
      rw [OrderedMap.get?_update_of_eq rfl, hvalue]
  remove {b b' call} h happly hv := by
    obtain ⟨u, hu, hkey, hb⟩ := hc.exists_of_apply happly
    obtain ⟨-, -, v, hcoerced, ⟨-, hnone⟩ | ⟨hsome, -⟩⟩ := hc.update_cases hu
    · rw [hb, ← hkey, OrderedMap.get?_update_of_eq rfl, hnone]
    · exact absurd hv hsome
  others {b b' call} h happly := by
    obtain ⟨u, hu, hkey, hb⟩ := hc.exists_of_apply happly
    rw [hb, ← hkey]
    exact ⟨fun k hk => OrderedMap.get?_update_of_ne hk.symm, OrderedMap.erase_update _ u⟩
  get?_run h calls k := by
    rw [hc.bag_applyAll, OrderedMap.get?_updateAll]
  codes_run h calls := by
    rw [hc.bag_applyAll]
    exact (hc.distinct (hc.isBag h)).codes_updateAll _
  swap h hne before after :=
    ⟨_, _, hc.build (hc.isBag (hc.reachable_applyAll h _)),
      hc.build (hc.isBag (hc.reachable_applyAll h _)), hc.bag_swap h hne before after⟩

end Lawful

/-! ## Both classes -/

theorem lawful_metadata : metadata.Lawful where
  apply_def _ _ := rfl
  applyAll_def _ _ := rfl
  bag_ofBag _ := rfl
  change_eq := MetadataSetter.change_eq
  isNone_of_coerced := MetadataSetter.isNone_of_coerced
  store_eq := MetadataBuilder.store_eq
  store_inSession _ _ := rfl
  build h := MetadataBuilder.build_of_checkKind (Metadata.ofEntries_eq_ok_iff.1 h.2).2
  distinct h := h.1
  empty := ⟨OrderedMap.distinct_empty, rfl⟩
  insert {m key kind} h hkey v := by
    refine ⟨h.1.insert _ _, Metadata.ofEntries_eq_ok_iff.2 ⟨rfl, fun e hmem => ?_⟩⟩
    rcases OrderedMap.mem_insert hmem with hmem | ⟨hcode, hvalue, -⟩
    · exact (Metadata.ofEntries_eq_ok_iff.1 h.2).2 e hmem
    · rw [hvalue]
      have htext := Value.text?_eq_of_code hcode
      exact Value.checkKind_of_checkKey (Value.checkKey_congr htext.symm hkey)
  erase h key := by
    refine ⟨h.1.erase _, Metadata.ofEntries_eq_ok_iff.2 ⟨rfl, fun e hmem => ?_⟩⟩
    exact (Metadata.ofEntries_eq_ok_iff.1 h.2).2 e (OrderedMap.mem_of_mem_erase hmem)

theorem lawful_legacyMetadata : legacyMetadata.Lawful where
  apply_def _ _ := rfl
  applyAll_def _ _ := rfl
  bag_ofBag _ := rfl
  change_eq := LegacyMetadataSetter.change_eq
  isNone_of_coerced := LegacyMetadataSetter.isNone_of_coerced
  store_eq := LegacyMetadataBuilder.store_eq
  store_inSession _ _ := rfl
  build _ := rfl
  distinct := id
  empty := OrderedMap.distinct_empty
  insert h _ _ := OrderedMap.Distinct.insert h _ _
  erase h key := OrderedMap.Distinct.erase h key

/-- The builders of both schemas are ordered maps with atomic updates. -/
theorem both_ordered : metadata.Ordered ∧ legacyMetadata.Ordered :=
  ⟨lawful_metadata.ordered, lawful_legacyMetadata.ordered⟩

/-- A key that is removed and set again goes last, and a refused call leaves no trace. -/
theorem both_ordered_reinserted :
    ∃ m : Metadata, (MetadataBuilder.applyAll {} [.text (.ofString "z") (.ofInt 1),
        .long (.ofString "a") (.ofInt 2), .text (.ofString "z") .none,
        .long (.ofString "a") (.ofString "x"), .float (.ofString "z") (.real .one)]).build = .ok m ∧
      m.keys = [.ofString "a", .ofString "z"] ∧
      m.get? (.ofString "z") = some ⟨some .float, .real .one⟩ := by
  have h (calls : List MetadataSetter) : metadata.Reachable (MetadataBuilder.applyAll {} calls) :=
    lawful_metadata.reachable_applyAll .empty calls
  exact ⟨_, both_ordered.1.build (h _), rfl, both_ordered.1.get?_run .empty _ _⟩

end BuilderClass

end MediaBridge
