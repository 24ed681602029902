import Mathlib.Data.List.Forall2
import MediaBridge.Proofs.Metadata.ToMetadata

/-!
# Metadata through the legacy schema

The legacy content of a built entry becomes that entry again, whatever its kind is inferred from
(`Entry.Returns.becomes?`). Main statement: `toLegacy_toMetadata`, metadata that are built
from nothing come back with all their entries, the native ones first.
-/

namespace MediaBridge

open Keyed (code)

/-! ## Entries that come back -/

/-- The same entry, or an entry with the same rating. -/
inductive Entry.Alike : Entry → Entry → Prop
  | refl (e : Entry) : Alike e e
  | rating {r r' : Rating} (h : r'.same r = true) :
    Alike ⟨some .rating, .rating r⟩ ⟨some .rating, .rating r'⟩

/-- What an entry needs in order to come back from the legacy schema. -/
structure Entry.Returns (key : Value) (e : Entry) : Prop where
  fits : e.Fits key
  rating : ∀ r, e.content = .rating r → r.Constructible ∧ r.isNan = false
  extras : e.kind = some .extras → key = .ofKey .extras ∧ ∃ l, e.content = .map true l

/-- The value of no rating in the metadata is a not-a-number. -/
def Metadata.NanFree (m : Metadata) : Prop :=
  ∀ key e r, (key, e) ∈ m.toList → e.content = .rating r → r.isNan = false

/-- The legacy content of an entry that fits its key is never refused. -/
theorem Entry.Fits.acceptable {key : Value} {e : Entry} (h : e.Fits key)
    (hr : ∀ r, e.content = .rating r → r.Constructible) : key.Acceptable e.legacyContent := by
  refine ⟨h.isName.isSome_text?, fun _ _ => h.isName, fun l hl => ?_⟩
  obtain ⟨htyped, -⟩ := h
  cases htyped with
  | rating r =>
    obtain ⟨l', hl', -⟩ := (hr r rfl).exists_toLegacy
    rw [legacyContent_rating hl'] at hl
    cases hl
    exact LegacyRating.constructible_of_toLegacy (congrArg Traced.result hl')
  | _ => cases hl

/-- The legacy content of an entry becomes the entry again, under its key. -/
theorem Entry.Returns.becomes? {key : Value} {e : Entry} (h : e.Returns key) :
    ∃ e', key.becomes? e.legacyContent = some e' ∧ key.newKey e' = key ∧ e.Alike e' := by
  obtain ⟨⟨htyped, hkey⟩, hr, hx⟩ := h
  have htakes {kind : ValueKind} (hk : key.checkKey kind = .ok ()) (hkind : kind ≠ .extras) :
      key.takes (some kind) := by
    rw [Value.takes_eq_admits hkind]
    exact (Value.checkKey_iff_isName.1 hk).2
  cases htyped with
  | text w | long n | float x | bitmap name =>
    refine ⟨_, Value.becomes?_eq_some_iff.2 ⟨rfl, ?_⟩, rfl, .refl _⟩
    exact htakes (hkey _ rfl) (by decide)
  | rating r =>
    obtain ⟨hconstructible, hnan⟩ := hr r rfl
    obtain ⟨l, hl, hback⟩ := hconstructible.exists_toLegacy
    obtain ⟨r', hr', hsame⟩ := hback hnan
    have has : (Value.legacyRating l).standsFor? = some ⟨some .rating, .rating r'⟩ := by
      rw [Value.standsFor?, LegacyRating.counterpart?, hr']
      rfl
    rw [Entry.legacyContent_rating hl]
    refine ⟨_, Value.becomes?_eq_some_iff.2 ⟨has, ?_⟩, rfl, .rating hsame⟩
    exact htakes (hkey _ rfl) (by decide)
  | extras isSealed m =>
    obtain ⟨rfl, m', hm⟩ := hx rfl
    cases hm
    refine ⟨_, Value.becomes?_eq_some_iff.2 ⟨rfl, ?_⟩, rfl, .refl _⟩
    exact Value.takes_extras_iff.2 rfl

/-! ## There and back -/

/-- Legacy entries of entries that return are kept as entries alike. -/
theorem keptEntries_of_returns {l : List (Value × Entry)} (h : ∀ e ∈ l, e.2.Returns e.1) :
    l.Forall₂ (fun e e' => e.1 = e'.1 ∧ e.2.Alike e'.2) (keptEntries (l.map legacyEntry)) := by
  induction l with
  | nil => exact .nil
  | cons e l ih =>
    obtain ⟨e', hbecomes, hkey, halike⟩ := (h e List.mem_cons_self).becomes?
    rw [List.map_cons, legacyEntry, keptEntries_cons_of_some hbecomes]
    exact .cons ⟨hkey.symm, halike⟩ (ih fun e hmem => h e (List.mem_cons_of_mem _ hmem))

theorem distinct_legacyEntry {l : List (Value × Entry)} (hd : (l.map (code ·.1)).Nodup) :
    OrderedMap.Distinct (⟨l.map legacyEntry⟩ : LegacyMetadata) := by
  rw [OrderedMap.Distinct, OrderedMap.codes, List.map_map]
  exact hd

/-- Legacy entries under distinct keys become their entries again, without a report. -/
theorem LegacyMetadata.toMetadata_of_returns (config : ConversionConfig)
    {l : List (Value × Entry)} (h : ∀ e ∈ l, e.2.Returns e.1) (hd : (l.map (code ·.1)).Nodup) :
    ∃ l', LegacyMetadata.toMetadata config ⟨l.map legacyEntry⟩ = ⟨[], .ok ⟨l'⟩⟩ ∧
      l.Forall₂ (fun e e' => e.1 = e'.1 ∧ e.2.Alike e'.2) l' := by
  refine ⟨_, toMetadata_of_kept config (distinct_legacyEntry hd) ?_ ?_, keptEntries_of_returns h⟩
  · intro e hmem
    obtain ⟨e', hmem', rfl⟩ := List.mem_map.1 hmem
    exact (h e' hmem').fits.acceptable fun r hr => ((h e' hmem').rating r hr).1
  · intro e hmem
    obtain ⟨e', hmem', rfl⟩ := List.mem_map.1 hmem
    obtain ⟨e'', hbecomes, -⟩ := (h e' hmem').becomes?
    exact ⟨e'', hbecomes⟩

namespace Metadata

variable {m : Metadata} {config : ConversionConfig} {calls : List MetadataSetter}

theorem keeps_of_not_native (hb : m.Built) (hfloats : config.keepFloatValues)
    (hextras : config.keepExtras) {key : Value} {e : Entry} (hmem : (key, e) ∈ m.toList)
    (hn : e.isNative = false) : config.keeps key e = true := by
  have htyped := (hb.fits key e hmem).typed
  cases htyped with
  | float x => simp [ConversionConfig.keeps, hfloats]
  | extras isSealed l =>
    obtain ⟨rfl, -⟩ := hb.extras key _ hmem rfl
    have htext : (Value.ofKey .extras).text? = some MetadataKey.extras.identifier := rfl
    simp [ConversionConfig.keeps, hextras, htext]
  | _ => cases hn

/-- Metadata that are built from nothing go through the legacy schema without a report if floats and
extras are kept. All entries come back, the native ones before the others. -/
theorem toLegacy_toMetadata (hfloats : config.keepFloatValues) (hextras : config.keepExtras)
    (hs : ∀ call ∈ calls, call.Sound)
    (hm : (MetadataBuilder.applyAll {} calls).build = .ok m) (hn : m.NanFree) :
    ∃ legacy final, m.toLegacy config = ⟨[], .ok legacy⟩ ∧
      LegacyMetadata.toMetadata config legacy = ⟨[], .ok final⟩ ∧
      (m.toList.filter (·.2.isNative) ++ m.toList.filter (!·.2.isNative)).Forall₂
        (fun e e' => e.1 = e'.1 ∧ e.2.Alike e'.2) final.toList := by
  have hb := Built.of_build hm
  have hsound := Sound.of_build hs hm
  have hlegacy := toLegacy_of_fits config hb.distinct hb.fits hsound
  have hlost : m.toList.filter (fun e => !config.keeps e.1 e.2 && !e.2.isNative) = [] := by
    rw [List.filter_eq_nil_iff]
    intro e hmem hcond
    rw [Bool.and_eq_true, Bool.not_eq_true', Bool.not_eq_true'] at hcond
    cases hcond.1.symm.trans (keeps_of_not_native hb hfloats hextras hmem hcond.2)
  have hkept : m.toList.filter (fun e => config.keeps e.1 e.2 && !e.2.isNative) =
      m.toList.filter (!·.2.isNative) := by
    refine List.filter_congr fun e hmem => ?_
    cases hnative : e.2.isNative with
    | true => rw [Bool.not_true, Bool.and_false]
    | false => rw [keeps_of_not_native hb hfloats hextras hmem hnative, Bool.true_and]
  rw [hlost, hkept, List.map_nil, reportDropped_nil, Traced.mk_ok_bind] at hlegacy
  have hreturns : ∀ e ∈ m.toList.filter (·.2.isNative) ++ m.toList.filter (!·.2.isNative),
      e.2.Returns e.1 := by
    intro e hmem
    have hmem : e ∈ m.toList := (List.mem_append.1 hmem).elim List.mem_of_mem_filter
      List.mem_of_mem_filter
    exact ⟨hb.fits e.1 e.2 hmem, fun r hr => ⟨hsound e.1 e.2 r hmem hr, hn e.1 e.2 r hmem hr⟩,
      hb.extras e.1 e.2 hmem⟩
  have hd := hb.distinct.nodup_filter (fun e => e.2.isNative) fun _ => true
  obtain ⟨l', hback, hl'⟩ := LegacyMetadata.toMetadata_of_returns config hreturns hd
  exact ⟨_, ⟨l'⟩, hlegacy, hback, hl'⟩

theorem toLegacy_toMetadata_in_order :
    ∃ legacy final, toLegacy ⟨true, true, true⟩ ⟨[(.ofString "gain", ⟨some .float, .real (.nan 0)⟩),
        (.ofKey .extras, ⟨some .extras, .map true .empty⟩),
        (.ofKey .rating, ⟨some .rating, .rating (.heart .none)⟩)]⟩ = ⟨[], .ok legacy⟩ ∧
      LegacyMetadata.toMetadata ⟨true, true, true⟩ legacy = ⟨[], .ok final⟩ ∧
      final.keys = [.ofKey .rating, .ofString "gain", .ofKey .extras] := by
  have hm : (MetadataBuilder.applyAll {} [.float (.ofString "gain") (.real (.nan 0)),
      .extras (.map false .empty), .rating (.ofKey .rating) (.rating (.heart .none))]).build =
    .ok ⟨[(.ofString "gain", ⟨some .float, .real (.nan 0)⟩),
      (.ofKey .extras, ⟨some .extras, .map true .empty⟩),
      (.ofKey .rating, ⟨some .rating, .rating (.heart .none)⟩)]⟩ := rfl
  have hs : ∀ call ∈ [MetadataSetter.float (.ofString "gain") (.real (.nan 0)),
      .extras (.map false .empty), .rating (.ofKey .rating) (.rating (.heart .none))],
      call.Sound := by
    simp [MetadataSetter.Sound, Rating.Constructible.heart]
  have hfloats : (⟨true, true, true⟩ : ConversionConfig).keepFloatValues := rfl
  obtain ⟨legacy, ⟨final⟩, hto, hback, hfinal⟩ := toLegacy_toMetadata hfloats rfl hs hm (by
    intro key e r hmem hr
    simp only [List.mem_cons, List.not_mem_nil, or_false, Prod.mk.injEq] at hmem
    rcases hmem with ⟨-, rfl⟩ | ⟨-, rfl⟩ | ⟨-, rfl⟩ <;> cases hr
    rfl)
  refine ⟨legacy, ⟨final⟩, hto, hback, ?_⟩
  rcases hfinal with _ | ⟨⟨h1, -⟩, _ | ⟨⟨h2, -⟩, _ | ⟨⟨h3, -⟩, _ | _⟩⟩⟩
  simp [OrderedMap.keys, ← h1, ← h2, ← h3]

end Metadata

end MediaBridge
