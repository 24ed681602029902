import MediaBridge.Proofs.Item.LegacyRoundTrip
import MediaBridge.Proofs.Metadata.ToLegacy
import MediaBridge.Proofs.OrderedMap.Merge

/-!
# Extension entries

Extension entries are put into legacy metadata as one map is put into another. The first value that
is neither a double-precision number nor a map is refused for its key, if that key can be written,
and the getters do not see what is put in. Main statement: `LegacyMetadata.extend_merges`.
-/

namespace MediaBridge

/-! ## Values of extension entries -/

/-- A value that an extension entry can have: a double-precision number, or a map. -/
inductive Value.Extensible : Value → Prop
  | real (x : Double) : Extensible (.real x)
  | map (isSealed : Bool) (m : OrderedMap Value Value) : Extensible (.map isSealed m)

namespace LegacyMetadata

variable {m m' : LegacyMetadata} {entries entries' : OrderedMap Value Value} {key value : Value}

theorem asExtension_of_extensible (h : value.Extensible) :
    asExtension key value = .ok value.sealed := by
  cases h <;> rfl

theorem asExtension_of_not_extensible (h : ¬ value.Extensible) :
    asExtension key value = refuse (.notExtension key) := by
  cases value with
  | real x => exact absurd (.real x) h
  | map isSealed m => exact absurd (.map isSealed m) h
  | _ => rfl

theorem reported_notExtension (key : Value) : (Invalid.notExtension key).reported =
    if key.literal?.isSome then .notExtension key else .tooLongToWrite := by
  rw [Invalid.reported, Invalid.message?]
  cases key.literal? <;> rfl

/-- The entry that is stored for an extension entry. -/
def extensionEntry (e : Value × Value) : Except Fault (Value × Value) :=
  (e.1, ·) <$> asExtension e.1 e.2

theorem extensionEntry_eq_error_iff {e : Value × Value} {f : Fault} :
    extensionEntry e = .error f ↔
      ¬ e.2.Extensible ∧ f = .invalid (Invalid.notExtension e.1).reported := by
  rw [extensionEntry]
  by_cases h : e.2.Extensible
  · rw [asExtension_of_extensible h]
    exact ⟨nofun, fun hnot => absurd h hnot.1⟩
  · rw [asExtension_of_not_extensible h]
    constructor
    · rintro ⟨⟩
      exact ⟨h, rfl⟩
    · rintro ⟨-, rfl⟩
      rfl

theorem extensionEntry_eq_ok_iff {e e' : Value × Value} :
    extensionEntry e = .ok e' ↔ e.2.Extensible ∧ e' = (e.1, e.2.sealed) := by
  rw [extensionEntry]
  by_cases h : e.2.Extensible
  · rw [asExtension_of_extensible h]
    constructor
    · rintro ⟨⟩
      exact ⟨h, rfl⟩
    · rintro ⟨-, rfl⟩
      rfl
  · rw [asExtension_of_not_extensible h]
    exact ⟨nofun, fun h' => absurd h'.1 h⟩

theorem fails_extensionEntry_iff {e : Value × Value} :
    Fails extensionEntry e ↔ ¬ e.2.Extensible := by
  simp only [Fails, extensionEntry_eq_error_iff, exists_and_left, exists_eq, and_true]

/-- All extension entries are looked at before any of them is put in. -/
theorem extend_eq (m : LegacyMetadata) (entries : OrderedMap Value Value) :
    m.extend entries = m.insertAll <$> entries.toList.mapM extensionEntry := by
  have hstep : (fun (m : LegacyMetadata) (e : Value × Value) =>
      (do return m.insert e.1 (← asExtension e.1 e.2) : Except Fault LegacyMetadata)) =
      fun m e => (fun e' : Value × Value => m.insert e'.1 e'.2) <$> extensionEntry e := by
    funext m e
    rw [extensionEntry]
    cases asExtension e.1 e.2 <;> rfl
  rw [extend]
  change entries.toList.foldlM (fun (m : LegacyMetadata) (e : Value × Value) =>
    (do return m.insert e.1 (← asExtension e.1 e.2) : Except Fault LegacyMetadata)) m = _
  rw [hstep, foldlM_map_eq]
  rfl

theorem extend_eq_error_iff {f : Fault} :
    m.extend entries = .error f ↔ ∃ e, IsFirst (fun e => ¬ e.2.Extensible) entries.toList e ∧
      f = .invalid (Invalid.notExtension e.1).reported := by
  have hmap : m.extend entries = .error f ↔ entries.toList.mapM extensionEntry = .error f := by
    rw [extend_eq]
    cases entries.toList.mapM extensionEntry <;> simp
  have hfails : Fails extensionEntry = fun e => ¬ e.2.Extensible :=
    funext fun e => propext fails_extensionEntry_iff
  simp only [hmap, mapM_eq_error_iff, hfails, extensionEntry_eq_error_iff]
  refine exists_congr fun e => and_congr_right fun hfirst => ?_
  exact ⟨And.right, fun hf => ⟨hfirst.1, hf⟩⟩

theorem mapM_extensionEntry_eq_ok_iff {l l' : List (Value × Value)} :
    l.mapM extensionEntry = .ok l' ↔
      (∀ e ∈ l, e.2.Extensible) ∧ l' = l.map fun e => (e.1, e.2.sealed) := by
  rw [mapM_eq_ok_iff]
  simp only [extensionEntry_eq_ok_iff]
  induction l generalizing l' with
  | nil => simp
  | cons e l ih =>
    simp only [List.forall₂_cons_left_iff, ih, List.forall_mem_cons, List.map_cons]
    constructor
    · rintro ⟨e', l', ⟨he, rfl⟩, ⟨hl, rfl⟩, rfl⟩
      exact ⟨⟨he, hl⟩, rfl⟩
    · rintro ⟨⟨he, hl⟩, rfl⟩
      exact ⟨_, _, ⟨he, rfl⟩, ⟨hl, rfl⟩, rfl⟩

/-- Extension entries are put in with their maps sealed. -/
theorem extend_eq_ok_iff :
    m.extend entries = .ok m' ↔ (∀ e ∈ entries.toList, e.2.Extensible) ∧
      m' = m.insertAll (entries.mapValues Value.sealed).toList := by
  rw [extend_eq]
  constructor
  · intro h
    obtain ⟨l', hl', hm'⟩ := bind_eq_ok_iff.1 h
    obtain ⟨hextensible, rfl⟩ := mapM_extensionEntry_eq_ok_iff.1 hl'
    exact ⟨hextensible, (Except.ok.inj hm').symm⟩
  · rintro ⟨hextensible, rfl⟩
    rw [mapM_extensionEntry_eq_ok_iff.2 ⟨hextensible, rfl⟩]
    rfl

/-! ## What extension entries make of metadata -/

/-- Legacy metadata with the given entries put in, of which the getters do not know. -/
structure MergedWith (m : LegacyMetadata) (entries : OrderedMap Value Value)
    (m' : LegacyMetadata) : Prop where
  /-- The keys keep their places, and the new ones go last in their order. -/
  keys : m'.keys = m.keys ++ entries.keys.filter fun k => !m.contains k
  entry {key value : Value} (h : entries.get? key = some value) :
    m'.get? key = some value.sealed
  other {key : Value} (h : entries.get? key = none) : m'.get? key = m.get? key
  /-- Whatever the getters saw at the key of an entry, they do not see it any more. -/
  unseen {key : Value} (h : entries.contains key = true) :
    m'.textAt key = .none ∧ m'.longAt key = .ofInt 0 ∧ m'.bitmapAt key = .none ∧
      m'.ratingAt key = .none
  seen {key : Value} (h : entries.contains key = false) :
    m'.textAt key = m.textAt key ∧ m'.longAt key = m.longAt key ∧
      m'.bitmapAt key = m.bitmapAt key ∧ m'.ratingAt key = m.ratingAt key

/-- The getters depend on what is at the key only. -/
theorem getters_congr (h : m'.get? key = m.get? key) :
    m'.textAt key = m.textAt key ∧ m'.longAt key = m.longAt key ∧
      m'.bitmapAt key = m.bitmapAt key ∧ m'.ratingAt key = m.ratingAt key := by
  simp only [textAt, longAt, bitmapAt, ratingAt, h, and_self]

theorem getters_of_extensible (hvalue : value.Extensible)
    (h : m.get? key = some value.sealed) :
    m.textAt key = .none ∧ m.longAt key = .ofInt 0 ∧ m.bitmapAt key = .none ∧
      m.ratingAt key = .none := by
  cases hvalue <;> simp only [textAt, longAt, bitmapAt, ratingAt, h, Value.sealed, and_self]

theorem mergedWith_of_extend (hd : entries.Distinct) (h : m.extend entries = .ok m') :
    m.MergedWith entries m' := by
  obtain ⟨hextensible, rfl⟩ := extend_eq_ok_iff.1 h
  have hd' : (entries.mapValues Value.sealed).Distinct := hd.mapValues _
  have hentry (key value : Value) (h : entries.get? key = some value) :
      (m.insertAll (entries.mapValues Value.sealed).toList).get? key = some value.sealed := by
    rw [hd'.get?_insertAll, OrderedMap.get?_mapValues, h]
    rfl
  have hother (key : Value) (h : entries.get? key = none) :
      (m.insertAll (entries.mapValues Value.sealed).toList).get? key = m.get? key := by
    rw [hd'.get?_insertAll, OrderedMap.get?_mapValues, h]
    rfl
  refine ⟨?_, hentry _ _, hother _, fun {key} hkey => ?_, fun {key} hkey => ?_⟩
  · rw [hd'.keys_insertAll, OrderedMap.keys_mapValues]
  · rw [OrderedMap.contains_eq_isSome] at hkey
    obtain ⟨value, hvalue⟩ := Option.isSome_iff_exists.1 hkey
    obtain ⟨key', -, hmem⟩ := OrderedMap.exists_mem_of_get? hvalue
    exact getters_of_extensible (hextensible _ hmem) (hentry key value hvalue)
  · rw [OrderedMap.contains_eq_isSome, Option.isSome_eq_false_iff] at hkey
    exact getters_congr (hother key (Option.isNone_iff_eq_none.1 hkey))

/-- Entries that are put in one after the other may be merged first. -/
theorem extend_extend (hd : entries.Distinct) (h : ∀ e ∈ entries.toList, e.2.Extensible)
    (h' : ∀ e ∈ entries'.toList, e.2.Extensible) :
    ∃ m₁ m₂, m.extend entries = .ok m₁ ∧ m₁.extend entries' = .ok m₂ ∧
      m.extend (entries.insertAll entries'.toList) = .ok m₂ := by
  have hmerged := OrderedMap.forall_mem_insertAll h h'
  refine ⟨_, _, extend_eq_ok_iff.2 ⟨h, rfl⟩, extend_eq_ok_iff.2 ⟨h', rfl⟩,
    extend_eq_ok_iff.2 ⟨hmerged, ?_⟩⟩
  have hd' : (entries.mapValues Value.sealed).Distinct := hd.mapValues _
  rw [hd'.insertAll_insertAll, OrderedMap.mapValues_insertAll]
  rfl

/-- Extension entries under distinct keys are refused for the first value that is neither a
double-precision number nor a map, if there is one. Its key is named unless it has no literal.
Otherwise they are merged into the metadata, and entries that are put in after them may be merged
into them first. -/
theorem extend_merges (m : LegacyMetadata) (hd : entries.Distinct) :
    (∀ f, m.extend entries = .error f ↔
      ∃ e, IsFirst (fun e => ¬ e.2.Extensible) entries.toList e ∧
        f = .invalid (if e.1.literal?.isSome then .notExtension e.1 else .tooLongToWrite)) ∧
    ((∃ f, m.extend entries = .error f) ↔ ∃ e ∈ entries.toList, ¬ e.2.Extensible) ∧
    (∀ m', m.extend entries = .ok m' → m.MergedWith entries m') ∧
    ∀ entries' : OrderedMap Value Value, (∀ e ∈ entries.toList, e.2.Extensible) →
      (∀ e ∈ entries'.toList, e.2.Extensible) →
      ∃ m₁ m₂, m.extend entries = .ok m₁ ∧ m₁.extend entries' = .ok m₂ ∧
        m.extend (entries.insertAll entries'.toList) = .ok m₂ := by
  simp only [← reported_notExtension]
  refine ⟨fun _ => extend_eq_error_iff, ?_, fun _ => mergedWith_of_extend hd,
    fun _ => extend_extend hd⟩
  rw [← exists_isFirst_iff]
  simp only [extend_eq_error_iff]
  constructor
  · rintro ⟨f, e, he, -⟩
    exact ⟨e, he⟩
  · rintro ⟨e, he⟩
    exact ⟨_, e, he, rfl⟩

theorem extend_merges_overwritten :
    ∃ m₁ m₂ : LegacyMetadata,
      extend ⟨[(.ofString "a", .ofString "x"), (.ofString "b", .ofInt 1)]⟩
        ⟨[(.ofString "c", .real .one), (.ofString "a", .real .zero)]⟩ = .ok m₁ ∧
      m₁.keys = [.ofString "a", .ofString "b", .ofString "c"] ∧
      m₁.textAt (.ofString "a") = .none ∧ m₁.longAt (.ofString "b") = .ofInt 1 ∧
      m₁.extend ⟨[(.ofString "d", .map false .empty), (.ofString "c", .real .zero)]⟩ = .ok m₂ ∧
      m₂.toList = [(.ofString "a", .real .zero), (.ofString "b", .ofInt 1),
        (.ofString "c", .real .zero), (.ofString "d", .map true .empty)] := by
  have hd : OrderedMap.Distinct (⟨[(.ofString "c", .real .one), (.ofString "a", .real .zero)]⟩ :
      OrderedMap Value Value) := by
    unfold OrderedMap.Distinct
    decide
  obtain ⟨-, -, hmerged, htwice⟩ := extend_merges
    ⟨[(.ofString "a", .ofString "x"), (.ofString "b", .ofInt 1)]⟩ hd
  obtain ⟨m₁, m₂, h₁, h₂, h⟩ := htwice
    ⟨[(.ofString "d", .map false .empty), (.ofString "c", .real .zero)]⟩
    (List.forall_mem_cons.2 ⟨.real _, List.forall_mem_cons.2 ⟨.real _, nofun⟩⟩)
    (List.forall_mem_cons.2 ⟨.map _ _, List.forall_mem_cons.2 ⟨.real _, nofun⟩⟩)
  have hm := hmerged m₁ h₁
  refine ⟨m₁, m₂, h₁, hm.keys, (hm.unseen rfl).1, (hm.seen rfl).2.1, h₂, ?_⟩
  cases h
  rfl

/-- A key that is an integer with too many digits is not named. -/
theorem extend_of_long_key :
    extend .empty ⟨[(.ofInt (Text.tenPow 5000), .ofInt 1)]⟩ = .error (.invalid .tooLongToWrite) ∧
      ∀ key, extend .empty ⟨[(.ofInt (Text.tenPow 5000), .ofInt 1)]⟩ ≠
        .error (.invalid (.notExtension key)) := by
  have hrefused : extend .empty ⟨[(.ofInt (Text.tenPow 5000), .ofInt 1)]⟩ =
      .error (.invalid .tooLongToWrite) := by
    have hliteral : (Value.ofInt (Text.tenPow 5000)).literal? = none :=
      Value.literal?_ofInt_tenPow (by decide)
    refine extend_eq_error_iff.2 ⟨_, isFirst_cons_iff.2 (.inl ⟨nofun, rfl⟩), ?_⟩
    rw [reported_notExtension, hliteral]
    rfl
  refine ⟨hrefused, fun key hnamed => ?_⟩
  cases hrefused.symm.trans hnamed

end LegacyMetadata

end MediaBridge
