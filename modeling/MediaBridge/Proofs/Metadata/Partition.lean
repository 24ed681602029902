import MediaBridge.Proofs.Metadata.Reporting

/-!
# Native, extended and dropped entries

An entry of the new schema takes one of three ways, and its kind, its key and the configuration say
which. The legacy metadata consist of the native entries and then the extensions, the keys of the
other entries are reported, and the getters do not notice. Main statement:
`Metadata.toLegacy_partition`.
-/

namespace MediaBridge

open Keyed (code)

/-! ## Well-typed metadata -/

namespace Metadata

variable {m : Metadata}

/-- A constructor takes entries over as they are if their kinds agree with their keys. -/
theorem ofEntries_eq_ok_iff {entries : OrderedMap Value Value} {m : Metadata} :
    ofEntries entries = .ok m ↔ entries = m.mapValues Value.entry ∧
      ∀ e ∈ m.toList, e.1.checkKind e.2.kind = .ok () := by
  obtain ⟨l⟩ := entries
  obtain ⟨l'⟩ := m
  have hpure (l : List (Value × Entry)) :
      (pure ⟨l⟩ : Except Fault Metadata) = .ok ⟨l'⟩ ↔ l = l' := by
    constructor
    · rintro ⟨⟩
      rfl
    · rintro rfl
      rfl
  simp only [ofEntries, bind_eq_ok_iff, mapM_eq_ok_iff, hpure, exists_eq_right,
    OrderedMap.mapValues, OrderedMap.mk.injEq]
  clear hpure
  -- on the entries that come out, the checked ones
  induction l' generalizing l with
  | nil => simp
  | cons first rest ih =>
    simp only [List.forall₂_cons_right_iff, ih, List.map_cons, List.forall_mem_cons]
    constructor
    · rintro ⟨⟨key, value⟩, l, hfirst, ⟨rfl, hrest⟩, rfl⟩
      cases value with
      | entry e =>
        obtain ⟨_, hcheck, h⟩ := bind_eq_ok_iff.1 hfirst
        cases h
        exact ⟨rfl, hcheck, hrest⟩
      | _ => cases hfirst
    · rintro ⟨rfl, hcheck, hrest⟩
      refine ⟨_, _, ?_, ⟨rfl, hrest⟩, rfl⟩
      exact bind_eq_ok_iff.2 ⟨(), hcheck, rfl⟩

/-- Metadata under texts that are not empty with content of the kinds of the tags, that a
constructor accepts. Extras may be under a custom key. -/
structure WellTyped (m : Metadata) : Prop where
  distinct : m.Distinct
  name : ∀ key ∈ m.keys, key.IsName
  typed : ∀ key e, (key, e) ∈ m.toList → e.Typed
  accepted : ofEntries (m.mapValues Value.entry) = .ok m

theorem WellTyped.of_fits (hd : m.Distinct)
    (hf : ∀ key e, (key, e) ∈ m.toList → e.Fits key) : m.WellTyped where
  distinct := hd
  name key hmem := by
    obtain ⟨e, hmem', rfl⟩ := List.mem_map.1 hmem
    exact (hf e.1 e.2 hmem').isName
  typed key e hmem := (hf key e hmem).typed
  accepted := ofEntries_eq_ok_iff.2 ⟨rfl, fun e hmem => (hf e.1 e.2 hmem).checkKind⟩

/-- What a builder builds is accepted by a constructor as well. -/
theorem Built.wellTyped (h : m.Built) : m.WellTyped := .of_fits h.distinct h.fits

theorem WellTyped.fits (h : m.WellTyped) {key : Value} {e : Entry} (hmem : (key, e) ∈ m.toList) :
    e.Fits key := by
  refine ⟨h.typed key e hmem, fun kind hkind => ?_⟩
  have hcheck := (ofEntries_eq_ok_iff.1 h.accepted).2 (key, e) hmem
  obtain ⟨s, hs, hne⟩ := h.name key (List.mem_map_of_mem hmem)
  rw [Option.mem_def.1 hkind] at hcheck
  rw [Value.checkKey, hs]
  exact (if_neg hne).trans hcheck

end Metadata

/-! ## One entry -/

/-- The ways an entry can take. -/
inductive Passage where
  | native
  | extension
  | dropped
deriving DecidableEq

namespace Entry

variable {e : Entry} {key key' : Value} {config : ConversionConfig}

/-- The way an entry takes: double-precision numbers and the extras of the vocabulary are extensions
if they are kept at all, and other extras are dropped. -/
def passage (config : ConversionConfig) (key : Value) (e : Entry) : Passage :=
  match e.kind with
  | some .float => if config.keepFloatValues then .extension else .dropped
  | some .extras =>
    if key.text? = some MetadataKey.extras.identifier ∧ config.keepExtras then .extension
    else .dropped
  | some _ => .native
  | none => .dropped

/-- The values that carry the content of an entry in the legacy schema. -/
inductive CarriedBy : Entry → Value → Prop
  | text (w : Word) : CarriedBy ⟨some .text, .text w⟩ (.text w)
  | long (n : Whole) : CarriedBy ⟨some .long, .whole n⟩ (.whole n)
  | float (x : Double) : CarriedBy ⟨some .float, .real x⟩ (.real x)
  | bitmap (name : String) : CarriedBy ⟨some .bitmap, .bitmap name⟩ (.bitmap name)
  | rating {r : Rating} {l : LegacyRating} (h : r.toLegacy = ⟨[], .ok (some l)⟩) :
    CarriedBy ⟨some .rating, .rating r⟩ (.legacyRating l)
  | extras (isSealed : Bool) (m : OrderedMap Value Value) :
    CarriedBy ⟨some .extras, .map isSealed m⟩ (.map true m)

theorem Typed.carriedBy (h : e.Typed) (hr : ∀ r, e.content = .rating r → r.Constructible) :
    e.CarriedBy e.legacyContent := by
  cases h with
  | text w => exact .text w
  | long n => exact .long n
  | float x => exact .float x
  | bitmap name => exact .bitmap name
  | rating r =>
    obtain ⟨l, hl, -⟩ := (hr r rfl).exists_toLegacy
    rw [legacyContent_rating hl]
    exact .rating hl
  | extras isSealed m => exact .extras isSealed m

theorem Typed.passage_eq (h : e.Typed) : e.passage config key =
    if e.isNative then .native else if config.keeps key e then .extension else .dropped := by
  cases h with
  | float x | extras isSealed m => simp [passage, isNative, ConversionConfig.keeps]
  | _ => rfl

theorem passage_congr (h : key.text? = key'.text?) :
    e.passage config key = e.passage config key' := by
  rw [passage, passage, h]

end Entry

/-! ## All entries -/

namespace Metadata

variable {m : Metadata} {config : ConversionConfig}

/-- The entries that take a way, in order. -/
def passing (m : Metadata) (config : ConversionConfig) (p : Passage) : List (Value × Entry) :=
  m.toList.filter fun e => e.2.passage config e.1 = p

theorem mem_passing {p : Passage} {e : Value × Entry} :
    e ∈ m.passing config p ↔ e ∈ m.toList ∧ e.2.passage config e.1 = p := by
  rw [passing, List.mem_filter, decide_eq_true_iff]

/-- The entries that are not dropped, native ones first. -/
def passed (m : Metadata) (config : ConversionConfig) : List (Value × Entry) :=
  m.passing config .native ++ m.passing config .extension

theorem mem_passed {e : Value × Entry} :
    e ∈ m.passed config ↔ e ∈ m.toList ∧ e.2.passage config e.1 ≠ .dropped := by
  rw [passed, List.mem_append, mem_passing, mem_passing, ← and_or_left]
  cases e.2.passage config e.1 <;> simp

theorem toLegacy_of_wellTyped (hm : m.WellTyped) (hs : m.Sound) (config : ConversionConfig) :
    m.toLegacy config =
      ⟨config.dropRecords "metadata -> legacy" ((m.passing config .dropped).map (·.1)),
        .ok ⟨(m.passed config).map legacyEntry⟩⟩ := by
  -- the conditions of the two passes only look at the kind and at what is kept
  have hpassing (p : Passage) (q : Bool → Bool → Bool) (hq : ∀ isNative keeps, q isNative keeps =
      decide ((if isNative then Passage.native else if keeps then .extension else .dropped) = p)) :
      m.toList.filter (fun e => q e.2.isNative (config.keeps e.1 e.2)) = m.passing config p := by
    refine List.filter_congr fun e hmem => ?_
    rw [hq, (hm.typed e.1 e.2 hmem).passage_eq]
  have hnative := hpassing .native (fun isNative _ => isNative) (by decide)
  have hextension := hpassing .extension (fun isNative keeps => keeps && !isNative) (by decide)
  have hdropped := hpassing .dropped (fun isNative keeps => !keeps && !isNative) (by decide)
  have htexts : ∀ key ∈ (m.passing config .dropped).map (·.1), key.text?.isSome := by
    intro key hkey
    obtain ⟨e, hmem, rfl⟩ := List.mem_map.1 hkey
    have hfits : e.2.Fits e.1 := hm.fits (mem_passing.1 hmem).1
    exact hfits.isName.isSome_text?
  rw [toLegacy_of_fits config hm.distinct (fun _ _ => hm.fits) hs, hnative, hextension, hdropped,
    reportDropped_of_texts htexts, Traced.bind_ok, Traced.pure_def, List.append_nil, passed]

theorem WellTyped.distinct_passed (hm : m.WellTyped) (config : ConversionConfig) :
    OrderedMap.Distinct (⟨(m.passed config).map legacyEntry⟩ : LegacyMetadata) := by
  have hnodup := hm.distinct.nodup_filter (fun e => e.2.passage config e.1 = .native)
    fun e => e.2.passage config e.1 = .extension
  have hextension : m.toList.filter (fun e => decide (e.2.passage config e.1 = .extension) &&
      !decide (e.2.passage config e.1 = .native)) = m.passing config .extension := by
    refine List.filter_congr fun e _ => ?_
    cases e.2.passage config e.1 <;> rfl
  rw [hextension] at hnodup
  rw [OrderedMap.Distinct, OrderedMap.codes, List.map_map]
  exact hnodup

/-- The content of an entry is at its key in the legacy metadata, unless it is dropped. -/
theorem WellTyped.get?_legacy (hm : m.WellTyped) (config : ConversionConfig) (key : Value) :
    OrderedMap.get? (⟨(m.passed config).map legacyEntry⟩ : LegacyMetadata) key =
      (m.get? key).bind fun e =>
        if e.passage config key = .dropped then none else some e.legacyContent := by
  -- the key of an entry may be another one than the key that is looked up, but its text is the same
  ext value
  rw [(hm.distinct_passed config).get?_eq_some_iff, Option.bind_eq_some_iff]
  simp only [hm.distinct.get?_eq_some_iff]
  constructor
  · rintro ⟨key', hcode, hmem⟩
    obtain ⟨⟨key', e⟩, hpassed, he⟩ := List.mem_map.1 hmem
    cases he
    obtain ⟨hmem', hpassage⟩ := mem_passed.1 hpassed
    rw [Entry.passage_congr (Value.text?_eq_of_code hcode)] at hpassage
    exact ⟨e, ⟨key', hcode, hmem'⟩, if_neg hpassage⟩
  · rintro ⟨e, ⟨key', hcode, hmem⟩, he⟩
    have hpassage : e.passage config key ≠ .dropped := by
      intro hpassage
      rw [if_pos hpassage] at he
      cases he
    rw [if_neg hpassage] at he
    cases he
    rw [← Entry.passage_congr (Value.text?_eq_of_code hcode)] at hpassage
    exact ⟨key', hcode, List.mem_map.2 ⟨(key', e), mem_passed.2 ⟨hmem, hpassage⟩, rfl⟩⟩

/-! ## Getters -/

theorem WellTyped.getters_eq (hm : m.WellTyped) (hs : m.Sound) (config : ConversionConfig)
    (key : Value) {legacy : LegacyMetadata} (hl : legacy = ⟨(m.passed config).map legacyEntry⟩) :
    legacy.textAt key = m.textAt key ∧ legacy.longAt key = m.longAt key ∧
      legacy.bitmapAt key = m.bitmapAt key ∧
      ∃ l, (m.ratingAt key).ratingToLegacy = ⟨[], .ok l⟩ ∧
        legacy.ratingAt key = .ofOption .legacyRating l := by
  have hget := hm.get?_legacy config key
  rw [← hl] at hget
  cases he : m.get? key
  all_goals
    rw [he] at hget
    simp only [LegacyMetadata.textAt, LegacyMetadata.longAt, LegacyMetadata.bitmapAt,
      LegacyMetadata.ratingAt, textAt, longAt, bitmapAt, ratingAt, contentOr, content, content?,
      he, hget, Option.bind_none, Option.bind_some]
  case none => exact ⟨rfl, rfl, rfl, none, rfl, rfl⟩
  case some e =>
    obtain ⟨key', -, hmem⟩ := OrderedMap.exists_mem_of_get? he
    cases hm.typed key' e hmem with
    | text w | long n | bitmap name => exact ⟨rfl, rfl, rfl, none, rfl, rfl⟩
    | rating r =>
      obtain ⟨l, hr, -⟩ := (hs key' _ r hmem rfl).exists_toLegacy
      have hcontent : Entry.legacyContent ⟨some .rating, .rating r⟩ = .legacyRating l :=
        Entry.legacyContent_rating hr
      rw [hcontent]
      exact ⟨rfl, rfl, rfl, some l, hr, rfl⟩
    -- the getters do not see extensions, so it does not matter which ones are kept
    | float x | extras isSealed l =>
      generalize Entry.passage config key _ = passage
      cases passage <;> exact ⟨rfl, rfl, rfl, none, rfl, rfl⟩

/-- Well-typed metadata have a counterpart in the legacy schema under every configuration. Its
entries are the native ones and then the extensions, both in order, the keys of the others are
reported, in order, and the getters see the same in both schemas. -/
theorem toLegacy_partition (hm : m.WellTyped) (hs : m.Sound) (config : ConversionConfig) :
    ∃ legacy : LegacyMetadata,
      m.toLegacy config = ⟨config.dropRecords "metadata -> legacy"
        ((m.passing config .dropped).map (·.1)), .ok legacy⟩ ∧
      (m.passing config .native ++ m.passing config .extension).Forall₂
        (fun e e' => e'.1 = e.1 ∧ e.2.CarriedBy e'.2) legacy.toList ∧
      ∀ key, legacy.textAt key = m.textAt key ∧ legacy.longAt key = m.longAt key ∧
        legacy.bitmapAt key = m.bitmapAt key ∧
        ∃ l, (m.ratingAt key).ratingToLegacy = ⟨[], .ok l⟩ ∧
          legacy.ratingAt key = .ofOption .legacyRating l := by
  refine ⟨_, toLegacy_of_wellTyped hm hs config, ?_, fun key => hm.getters_eq hs config key rfl⟩
  rw [List.forall₂_map_right_iff]
  refine List.forall₂_same.2 fun e hmem => ⟨rfl, ?_⟩
  have hmem' := (mem_passed.1 hmem).1
  exact (hm.typed e.1 e.2 hmem').carriedBy fun r => hs e.1 e.2 r hmem'

theorem toLegacy_partition_mixed :
    ∃ legacy : LegacyMetadata,
      toLegacy ⟨false, true, true⟩ ⟨[(.ofString "gain", ⟨some .float, .real .one⟩),
          (.ofString "more", ⟨some .extras, .map false .empty⟩),
          (.ofKey .extras, ⟨some .extras, .map false .empty⟩),
          (.ofString "b", ⟨some .rating, .rating ⟨.percentage, none⟩⟩)]⟩ =
        ⟨ConversionConfig.dropRecords ⟨false, true, true⟩ "metadata -> legacy"
          [.ofString "gain", .ofString "more"], .ok legacy⟩ ∧
      legacy.keys = [.ofString "b", .ofKey .extras] ∧
      legacy.ratingAt (.ofString "b") = .legacyRating ⟨.plain 6, notRated⟩ := by
  have hm : WellTyped ⟨[(.ofString "gain", ⟨some .float, .real .one⟩),
      (.ofString "more", ⟨some .extras, .map false .empty⟩),
      (.ofKey .extras, ⟨some .extras, .map false .empty⟩),
      (.ofString "b", ⟨some .rating, .rating ⟨.percentage, none⟩⟩)]⟩ := by
    refine ⟨?_, fun key hkey => ?_, fun key e hmem => ?_, rfl⟩
    · unfold OrderedMap.Distinct
      decide
    · simp only [OrderedMap.keys, List.map_cons, List.map_nil, List.mem_cons, List.not_mem_nil,
        or_false] at hkey
      rcases hkey with rfl | rfl | rfl | rfl <;> exact ⟨_, rfl, by decide⟩
    · simp only [List.mem_cons, Prod.mk.injEq, List.not_mem_nil, or_false] at hmem
      rcases hmem with ⟨-, rfl⟩ | ⟨-, rfl⟩ | ⟨-, rfl⟩ | ⟨-, rfl⟩ <;> constructor
  obtain ⟨⟨legacy⟩, hto, hentries, hgetters⟩ := toLegacy_partition hm (by
    intro key e r hmem hr
    simp only [List.mem_cons, Prod.mk.injEq, List.not_mem_nil, or_false] at hmem
    rcases hmem with ⟨-, rfl⟩ | ⟨-, rfl⟩ | ⟨-, rfl⟩ | ⟨-, rfl⟩ <;> cases hr
    exact Rating.constructible_iff.2 (.inl rfl)) ⟨false, true, true⟩
  obtain ⟨-, -, -, l, hl, hrating⟩ := hgetters (.ofString "b")
  refine ⟨⟨legacy⟩, hto, ?_, ?_⟩
  · rcases hentries with _ | ⟨⟨hfirst, -⟩, _ | ⟨⟨hsecond, -⟩, _ | _⟩⟩
    simp only [OrderedMap.keys, List.map_cons, List.map_nil, hfirst, hsecond]
  · cases hl
    exact hrating

end Metadata

end MediaBridge
