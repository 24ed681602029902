import MediaBridge.Proofs.Metadata.ToMetadata

/-!
# Legacy metadata that come about

There are two ways into legacy metadata: the setters of a builder, which check the key, and
extension entries, which do not. The invariant of both leaves one entry that the new schema refuses,
a double-precision number under the empty text. Main statement:
`LegacyMetadata.Reachable.toMetadata_iff`.
-/

namespace MediaBridge

open Keyed (code)

/-! ## Setters -/

/-- A legacy rating that is given to a setter is constructible. -/
def LegacyMetadataSetter.Sound : LegacyMetadataSetter → Prop
  | .rating _ (.legacyRating l) => l.Constructible
  | _ => True

theorem LegacyMetadataSetter.constructible_of_change {call : LegacyMetadataSetter} {c : Change}
    {l : LegacyRating} (hs : call.Sound) (h : call.change = .ok c)
    (hl : c.value = .legacyRating l) : l.Constructible := by
  cases call with
  | text key value =>
    obtain ⟨v, has, hc⟩ := bind_eq_ok_iff.1 h
    cases hc
    rcases Value.asText_cases has with rfl | ⟨w, rfl⟩ <;> cases hl
  | long key value =>
    obtain ⟨v, has, hc⟩ := bind_eq_ok_iff.1 h
    cases hc
    rw [Value.asLong_eq] at has
    rcases Value.checked_cases has with rfl | ⟨n, -, rfl⟩ <;> cases hl
  | bitmap key value =>
    obtain ⟨v, has, hc⟩ := bind_eq_ok_iff.1 h
    cases hc
    rw [Value.asBitmap_eq] at has
    rcases Value.checked_cases has with rfl | ⟨name, -, rfl⟩ <;> cases hl
  | rating key value =>
    obtain ⟨v, has, hc⟩ := bind_eq_ok_iff.1 h
    cases hc
    rw [Value.asLegacyRating_eq] at has
    rcases Value.checked_cases has with rfl | ⟨l', hl', rfl⟩
    · cases hl
    · cases hl
      cases Value.legacyRating?_eq_some_iff.1 hl'
      exact hs

theorem LegacyMetadataBuilder.apply_cases {b b' : LegacyMetadataBuilder}
    {call : LegacyMetadataSetter} (h : b.apply call = .ok b') :
    ∃ c, call.change = .ok c ∧ c.key.checkKey c.kind = .ok () ∧
      (b'.raw = b.raw.erase c.key ∨ b'.raw = b.raw.insert c.key c.value) := by
  obtain ⟨c, hc, hstore⟩ := bind_eq_ok_iff.1 h
  obtain ⟨_, hkey, hstore⟩ := bind_eq_ok_iff.1 hstore
  refine ⟨c, hc, hkey, ?_⟩
  split at hstore
  · cases hstore
    exact .inl rfl
  · cases hstore
    exact .inr rfl

/-! ## The invariant -/

/-- The values of extension entries: double-precision numbers, and sealed maps. -/
inductive Value.IsExtension : Value → Prop
  | real (x : Double) : IsExtension (.real x)
  | map (m : OrderedMap Value Value) : IsExtension (.map true m)

theorem LegacyMetadata.isExtension_of_asExtension {key value value' : Value}
    (h : asExtension key value = .ok value') : value'.IsExtension := by
  unfold asExtension at h
  split at h <;> cases h
  · exact .real _
  · exact .map _

/-- What setters and extensions keep up. -/
structure LegacyMetadata.Kept (m : LegacyMetadata) : Prop where
  distinct : m.Distinct
  key : ∀ key value, (key, value) ∈ m.toList →
    key.IsName ∨ key.text? = some "" ∧ value.IsExtension
  sound : m.Sound

namespace LegacyMetadata.Kept

variable {m m' : LegacyMetadata} {key value : Value}

theorem empty : Kept .empty :=
  ⟨OrderedMap.distinct_empty, fun _ _ h => absurd h List.not_mem_nil,
    fun _ _ h => absurd h List.not_mem_nil⟩

theorem erase (h : m.Kept) (key : Value) : Kept (m.erase key) where
  distinct := h.distinct.erase key
  key k v hmem := h.key k v (OrderedMap.mem_of_mem_erase hmem)
  sound k l hmem := h.sound k l (OrderedMap.mem_of_mem_erase hmem)

theorem insert (h : m.Kept) (hkey : key.IsName ∨ key.text? = some "" ∧ value.IsExtension)
    (hs : ∀ l, value = .legacyRating l → l.Constructible) : Kept (m.insert key value) where
  distinct := h.distinct.insert key value
  key k v hmem := by
    rcases OrderedMap.mem_insert hmem with hmem | ⟨hcode, rfl, -⟩
    · exact h.key k v hmem
    · -- the entry may stand under a key that was there before, with the same text
      have htext : k.text? = key.text? := Value.text?_eq_of_code hcode
      rw [Value.IsName, htext]
      exact hkey
  sound k l hmem := by
    rcases OrderedMap.mem_insert hmem with hmem | ⟨-, hl, -⟩
    · exact h.sound k l hmem
    · exact hs l hl.symm

theorem apply {b b' : LegacyMetadataBuilder} {call : LegacyMetadataSetter} (h : Kept b.raw)
    (hs : call.Sound) (happly : b.apply call = .ok b') : Kept b'.raw := by
  obtain ⟨c, hc, hkey, hb | hb⟩ := LegacyMetadataBuilder.apply_cases happly
  · rw [hb]
    exact h.erase c.key
  · rw [hb]
    have hname := (Value.checkKey_iff_isName.1 hkey).1
    exact h.insert (.inl hname) fun l => LegacyMetadataSetter.constructible_of_change hs hc

theorem applyAll {b : LegacyMetadataBuilder} {calls : List LegacyMetadataSetter} (h : Kept b.raw)
    (hs : ∀ call ∈ calls, call.Sound) : Kept (b.applyAll calls).raw :=
  foldl_getD_preserves (P := fun b : LegacyMetadataBuilder => Kept b.raw)
    (fun call hmem _ _ hb happly => hb.apply (hs call hmem) happly) h

theorem extend {entries : OrderedMap Value Value} (h : m.Kept)
    (htexts : ∀ key ∈ entries.keys, key.text?.isSome) (hm : m.extend entries = .ok m') :
    m'.Kept := by
  refine foldlM_preserves (P := Kept) (fun e hmem b b' hb hstep => ?_) h hm
  obtain ⟨value, hvalue, hinsert⟩ := bind_eq_ok_iff.1 hstep
  cases hinsert
  have hextension := isExtension_of_asExtension hvalue
  refine hb.insert ?_ ?_
  · obtain ⟨s, hs⟩ := Option.isSome_iff_exists.1 (htexts e.1 (List.mem_map_of_mem hmem))
    by_cases hempty : s = ""
    · exact .inr ⟨hempty ▸ hs, hextension⟩
    · exact .inl ⟨s, hs, hempty⟩
  · rintro l rfl
    cases hextension

end LegacyMetadata.Kept

/-! ## The empty text -/

theorem MetadataDraft.result_add_of_empty (d : MetadataDraft) {key : Value}
    (hempty : key.text? = some "") (x : Double) :
    (d.add key (.real x)).result = .error (.invalid .emptyKey) := by
  have hadmits : key.admits .float = true := by
    rw [Value.admits, Value.boundKind?, hempty]
    rfl
  have hrefuse : key.checkKey .float = .error (.invalid .emptyKey) := by
    rw [Value.checkKey, hempty]
    rfl
  have happly : d.bag.apply (.float key (.real x)) = .error (.invalid .emptyKey) := by
    rw [MetadataBuilder.apply]
    change d.bag.store ⟨key, .float, .real x⟩ = _
    rw [MetadataBuilder.store_eq, hrefuse, error_bind]
  simp only [MetadataDraft.add, hadmits, if_true, happly, Traced.result_bind, Traced.result_liftM,
    error_bind]

/-! ## Legacy metadata that come about -/

namespace LegacyMetadata

/-- The legacy metadata that come about: what a builder makes of calls, failed calls included,
starting from nothing or from such metadata, and such metadata with extension entries under texts.
-/
inductive Reachable : LegacyMetadata → Prop
  | build {calls : List LegacyMetadataSetter} (hs : ∀ call ∈ calls, call.Sound) :
    Reachable (LegacyMetadataBuilder.applyAll {} calls).build
  | rebuild {m : LegacyMetadata} {calls : List LegacyMetadataSetter} (h : Reachable m)
    (hs : ∀ call ∈ calls, call.Sound) :
    Reachable ((LegacyMetadataBuilder.ofSource m).applyAll calls).build
  | extend {m m' : LegacyMetadata} {entries : OrderedMap Value Value} (h : Reachable m)
    (htexts : ∀ key ∈ entries.keys, key.text?.isSome) (hm : m.extend entries = .ok m') :
    Reachable m'

variable {m : LegacyMetadata} {config : ConversionConfig}

theorem Reachable.kept (h : m.Reachable) : m.Kept := by
  induction h with
  | build hs => exact Kept.applyAll (b := {}) .empty hs
  | rebuild _ hs ih => exact Kept.applyAll (b := .ofSource _) ih hs
  | extend _ htexts hm ih => exact ih.extend htexts hm

/-! ## To the new schema -/

theorem Kept.acceptable (h : m.Kept) {key value : Value} (hmem : (key, value) ∈ m.toList)
    (hreal : key.text? = some "" → ∀ x, value ≠ .real x) : key.Acceptable value := by
  rcases h.key key value hmem with hname | ⟨hempty, hextension⟩
  · exact h.sound.acceptable hmem hname
  · have hrefused (e : Entry) (he : key.becomes? value = some e) : False := by
      cases hextension with
      | real x => exact hreal hempty x rfl
      | map l =>
        obtain ⟨has, htakes⟩ := Value.becomes?_eq_some_iff.1 he
        cases has
        have hkeys := hempty.symm.trans (Value.takes_extras_iff.1 htakes)
        exact absurd (Option.some.inj hkeys) (by decide)
    refine ⟨?_, fun e he => (hrefused e he).elim, ?_⟩
    · rw [hempty]
      rfl
    · rintro l rfl
      exact h.sound key l hmem

theorem Kept.exists_toMetadata (h : m.Kept) (config : ConversionConfig)
    (hreal : ∀ x, m.get? (.ofString "") ≠ some (.real x)) :
    ∃ final, (m.toMetadata config).result = .ok final := by
  refine ⟨_, congrArg Traced.result (toMetadata_of_acceptable config h.distinct ?_)⟩
  rintro ⟨key, value⟩ hmem
  refine h.acceptable hmem ?_
  rintro hempty x rfl
  have hcode : code key = code (Value.ofString "") := Value.code?_eq_text_iff.2 hempty
  exact hreal x (h.distinct.get?_of_mem hmem hcode)

theorem Kept.toMetadata_of_get? (h : m.Kept) (config : ConversionConfig) {x : Double}
    (hx : m.get? (.ofString "") = some (.real x)) :
    (m.toMetadata config).result = .error (.invalid .emptyKey) := by
  obtain ⟨key, hcode, hmem⟩ := OrderedMap.exists_mem_of_get? hx
  have hempty : key.text? = some "" := Value.code?_eq_text_iff.1 hcode
  obtain ⟨l, rest, hsplit⟩ := List.append_of_mem hmem
  have hnodup : (l.map (code ·.1) ++ code key :: rest.map (code ·.1)).Nodup := by
    have hd := h.distinct
    rw [OrderedMap.Distinct, OrderedMap.codes, hsplit, List.map_append, List.map_cons] at hd
    exact hd
  obtain ⟨hl, -, hdisjoint⟩ := List.nodup_append.1 hnodup
  -- nothing before this entry is refused, since no other key has the empty text
  have hacceptable : ∀ e ∈ l, e.1.Acceptable e.2 := by
    intro e he
    refine h.acceptable (hsplit ▸ List.mem_append_left _ he) fun hempty' => ?_
    have hcode' : code e.1 = code (Value.ofString "") := Value.code?_eq_text_iff.2 hempty'
    exact absurd (hcode'.trans hcode.symm)
      (hdisjoint _ (List.mem_map_of_mem he) _ List.mem_cons_self)
  have hfold := congrArg Traced.result (MetadataDraft.foldlM_add (d := {}) hacceptable hl)
  rw [Traced.result_foldlM] at hfold
  rw [result_toMetadata, firstPass, hsplit, List.foldlM_append, hfold, ok_bind, List.foldlM_cons,
    MetadataDraft.result_add_of_empty _ hempty, error_bind, error_bind]

/-- Legacy metadata that come about have texts as keys, and the empty text only as the key of an
extension entry. They have a counterpart unless a double-precision number is under the empty text,
and then they are refused for that key. -/
theorem Reachable.toMetadata_iff (h : m.Reachable) (config : ConversionConfig) :
    (∀ key value, (key, value) ∈ m.toList →
      key.IsName ∨ key.text? = some "" ∧ value.IsExtension) ∧
    ((∃ final, (m.toMetadata config).result = .ok final) ↔
      ∀ x, m.get? (.ofString "") ≠ some (.real x)) ∧
    ((m.toMetadata config).result = .error (.invalid .emptyKey) ↔
      ∃ x, m.get? (.ofString "") = some (.real x)) := by
  have hkept := h.kept
  refine ⟨hkept.key, ⟨?_, hkept.exists_toMetadata config⟩, ?_, ?_⟩
  · rintro ⟨final, hfinal⟩ x hx
    cases hfinal.symm.trans (hkept.toMetadata_of_get? config hx)
  · intro herror
    by_contra hreal
    obtain ⟨final, hfinal⟩ := hkept.exists_toMetadata config fun x hx => hreal ⟨x, hx⟩
    cases hfinal.symm.trans herror
  · rintro ⟨x, hx⟩
    exact hkept.toMetadata_of_get? config hx

theorem toMetadata_iff_empty_map :
    ∃ final, (toMetadata {} ⟨[(.ofKey .title, .ofString "a"), (.ofString "", .map true .empty)]⟩
      ).result = .ok final := by
  have hbuild : Reachable (LegacyMetadataBuilder.applyAll {}
      [.text (.ofKey .title) (.ofString "a"), .text (.ofString "") (.ofString "b")]).build := by
    refine .build fun call hmem => ?_
    rcases List.mem_pair.1 hmem with rfl | rfl <;> trivial
  have hextend : extend ⟨[(.ofKey .title, .ofString "a")]⟩
      ⟨[(.ofString "", .map false .empty)]⟩ =
        .ok ⟨[(.ofKey .title, .ofString "a"), (.ofString "", .map true .empty)]⟩ := rfl
  have h := hbuild.extend (by simp [OrderedMap.keys, Value.ofString, Value.text?]) hextend
  refine (h.toMetadata_iff {}).2.1.2 fun x hx => ?_
  cases hx

/-- An extension entry under the empty text makes a conversion fail. -/
theorem exists_extend_refused :
    ∃ m : LegacyMetadata, extend .empty ⟨[(.ofString "", .real .one)]⟩ = .ok m ∧ m.Reachable ∧
      (m.toMetadata {}).result = .error (.invalid .emptyKey) := by
  have hextend : extend .empty ⟨[(.ofString "", .real .one)]⟩ =
      .ok ⟨[(.ofString "", .real .one)]⟩ := rfl
  have hbuild : Reachable (LegacyMetadataBuilder.applyAll {} []).build := .build nofun
  exact ⟨_, hextend, hbuild.extend (by simp [OrderedMap.keys, Value.ofString, Value.text?]) hextend,
    rfl⟩

end LegacyMetadata

end MediaBridge
