import MediaBridge.Conversion.Item
import MediaBridge.Proofs.Item.Fields

/-!
# Items through the legacy schema

An item with built metadata becomes a legacy item unless one of its uris is malformed, and that
becomes an item whose metadata have the display fields only. Main statement: `toLegacy_toItem`.
-/

namespace MediaBridge

open Keyed (code)

/-! ## Content at the keys of the vocabulary -/

namespace Metadata

variable {m : Metadata} {k : MetadataKey} {e : Entry}

/-- The content at a key of the vocabulary, or none. -/
def contentAt (m : Metadata) (k : MetadataKey) : Value :=
  ((m.get? (.ofKey k)).map (·.content)).getD .none

theorem Built.fits_of_get? (hb : m.Built) (h : m.get? (.ofKey k) = some e) :
    e.Fits (.ofKey k) ∧ e.kind = some k.kind := by
  obtain ⟨key, hcode, hmem⟩ := OrderedMap.exists_mem_of_get? h
  have hfits := (hb.fits key e hmem).congr hcode.symm
  exact ⟨hfits, hfits.kind_eq (declaredKind?_identifier k)⟩

/-- The getter for the declared kind of a key answers for whatever is at the key. -/
theorem Built.content_eq (hb : m.Built) (k : MetadataKey) :
    m.content k.kind (.ofKey k) = m.contentAt k := by
  rw [content, content?, contentAt]
  cases h : m.get? (.ofKey k) with
  | none => rfl
  | some e =>
    rw [Option.bind_some, if_pos (hb.fits_of_get? h).2]
    rfl

theorem Built.textAt_eq (hb : m.Built) (k : MetadataKey) (hk : k.kind = .text) :
    m.textAt (.ofKey k) = m.contentAt k := by
  rw [textAt, ← hk, hb.content_eq]

theorem Built.bitmapAt_eq (hb : m.Built) :
    m.bitmapAt (.ofKey .displayIcon) = m.contentAt .displayIcon :=
  hb.content_eq .displayIcon

theorem Built.extras_eq (hb : m.Built) : m.extras = m.contentAt .extras :=
  hb.content_eq .extras

theorem Built.asText_contentAt (hb : m.Built) (hk : k.kind = .text) :
    (m.contentAt k).asText = .ok (m.contentAt k) := by
  rw [contentAt]
  cases h : m.get? (.ofKey k) with
  | none => rfl
  | some e =>
    obtain ⟨⟨htyped, -⟩, hkind⟩ := hb.fits_of_get? h
    rw [hk] at hkind
    cases htyped <;> cases hkind
    rfl

theorem Built.asBitmap_contentAt {key : Value} (hb : m.Built) :
    (m.contentAt .displayIcon).asBitmap key = .ok (m.contentAt .displayIcon) := by
  rw [contentAt]
  cases h : m.get? (.ofKey .displayIcon) with
  | none => rfl
  | some e =>
    obtain ⟨⟨htyped, -⟩, hkind⟩ := hb.fits_of_get? h
    cases htyped <;> cases hkind
    rfl

theorem Built.asExtras_contentAt (hb : m.Built) :
    (m.contentAt .extras).asExtras = .ok (m.contentAt .extras) := by
  rw [contentAt]
  cases h : m.get? (.ofKey .extras) with
  | none => rfl
  | some e =>
    obtain ⟨key, -, hmem⟩ := OrderedMap.exists_mem_of_get? h
    obtain ⟨-, l, hl⟩ := hb.extras key e hmem (hb.fits_of_get? h).2
    rw [Option.map_some, Option.getD_some, hl]
    rfl

end Metadata

namespace Item

variable {i : Item} {k : MetadataKey}

/-- The content at a key of the vocabulary in the metadata of an item, or none. -/
def contentAt (i : Item) (k : MetadataKey) : Value :=
  (i.metadata.map (Metadata.contentAt · k)).getD .none

/-- The display fields of an item. The proper title goes before the title for display. -/
def display (i : Item) (iconUri mediaUri : Value) : Description where
  mediaId := .text i.mediaId
  title := if (i.contentAt .title).isNone then i.contentAt .displayTitle else i.contentAt .title
  subtitle := i.contentAt .displaySubtitle
  description := i.contentAt .displayDescription
  iconBitmap := i.contentAt .displayIcon
  iconUri := iconUri
  extras := i.contentAt .extras
  mediaUri := mediaUri

/-- The legacy item of an item with built metadata or none. -/
theorem toLegacy_eq (hm : ∀ m ∈ i.metadata, Metadata.Built m) :
    i.toLegacy = (do
      let iconUri ← (i.contentAt .displayIconUri).optionalUri
      let mediaUri ← (i.contentAt .mediaUri).optionalUri
      return ⟨i.display iconUri mediaUri, .plain i.flags.toInt⟩) := by
  obtain ⟨mediaId, metadata, flags⟩ := i
  cases metadata with
  | none => rfl
  | some m =>
    have hb : Metadata.Built m := hm m rfl
    have hcontent (k : MetadataKey) :
        contentAt ⟨mediaId, some m, flags⟩ k = Metadata.contentAt m k := rfl
    simp only [toLegacy, Metadata.toDescription, hb.textAt_eq .title rfl,
      hb.textAt_eq .displayTitle rfl, hb.textAt_eq .displaySubtitle rfl,
      hb.textAt_eq .displayDescription rfl, hb.textAt_eq .displayIconUri rfl,
      hb.textAt_eq .mediaUri rfl, hb.bitmapAt_eq, hb.extras_eq, hcontent]
    cases (Metadata.contentAt m .displayIconUri).optionalUri with
    | error f => rfl
    | ok iconUri => cases (Metadata.contentAt m .mediaUri).optionalUri <;> rfl

/-- What holds of no content and of the content of built metadata holds of the content of an
item. -/
theorem contentAt_of {P : Value → Prop} (hm : ∀ m ∈ i.metadata, Metadata.Built m) (hnone : P .none)
    (hsome : ∀ m : Metadata, m.Built → P (m.contentAt k)) : P (i.contentAt k) := by
  rw [contentAt]
  cases h : i.metadata with
  | none => exact hnone
  | some m => exact hsome m (hm m h)

theorem asText_contentAt (hm : ∀ m ∈ i.metadata, Metadata.Built m) (hk : k.kind = .text) :
    (i.contentAt k).asText = .ok (i.contentAt k) :=
  contentAt_of (P := fun v => v.asText = .ok v) hm rfl fun _ hb => hb.asText_contentAt hk

/-! ## Back to the new schema -/

/-- The fields of the metadata that an item comes back with. -/
def fields (i : Item) : List (MetadataKey × Value) :=
  [(.mediaId, .text i.mediaId),
    (.displayTitle,
      if (i.contentAt .title).isNone then i.contentAt .displayTitle else i.contentAt .title),
    (.displayDescription, i.contentAt .displayDescription),
    (.displaySubtitle, i.contentAt .displaySubtitle),
    (.displayIcon, i.contentAt .displayIcon),
    (.displayIconUri, (i.contentAt .displayIconUri).uriText),
    (.extras, i.contentAt .extras),
    (.mediaUri, (i.contentAt .mediaUri).uriText)]

theorem toMetadata_display {iconUri mediaUri : Value}
    (hm : ∀ m ∈ i.metadata, Metadata.Built m)
    (hicon : iconUri.canonicalUri = .ok (i.contentAt .displayIconUri).uriText)
    (hmedia : mediaUri.canonicalUri = .ok (i.contentAt .mediaUri).uriText) :
    Description.toMetadata (i.display iconUri mediaUri) = .ok ⟨fieldEntries i.fields⟩ := by
  have htitle : (i.display iconUri mediaUri).title.asText =
      .ok (i.display iconUri mediaUri).title := by
    rw [display]
    split
    · exact asText_contentAt hm rfl
    · exact asText_contentAt hm rfl
  have hbitmap := contentAt_of (P := fun v => v.asBitmap (.ofKey .displayIcon) = .ok v) hm rfl
    fun _ hb => hb.asBitmap_contentAt
  have hextras := contentAt_of (P := fun v => v.asExtras = .ok v) hm rfl
    fun _ hb => hb.asExtras_contentAt
  exact Description.toMetadata_of_fields rfl htitle (asText_contentAt hm rfl)
    (asText_contentAt hm rfl) hbitmap hicon hextras hmedia

/-- A legacy item with an identifier becomes an item if its description becomes metadata. -/
theorem toItem_eq {d : Description} {w : Word} (n : Whole) (hd : d.mediaId = .text w)
    (hw : w.isEmpty = false) :
    LegacyItem.toItem ⟨d, n⟩ = (do return some ⟨w, some (← Description.toMetadata d), n⟩) := by
  have htruthy : (Value.text w).isTruthy = true := by
    rw [Value.isTruthy, hw]
    rfl
  simp only [LegacyItem.toItem, LegacyItem.mediaId, hd, htruthy]
  cases Description.toMetadata d with
  | error f => rfl
  | ok m =>
    simp [ItemBuilder.build, ItemBuilder.effectiveMediaId, htruthy, ofValues, hw, Value.asFlags]

theorem toItem_of_toMetadata {d : Description} {w : Word} {n : Whole} {m : Metadata}
    (hd : d.mediaId = .text w) (hw : w.isEmpty = false) (h : Description.toMetadata d = .ok m) :
    LegacyItem.toItem ⟨d, n⟩ = .ok (some ⟨w, some m, n⟩) := by
  rw [toItem_eq n hd hw, h]
  rfl

/-! ## There and back -/

/-- An item goes to the legacy schema unless its icon or else its media have a malformed uri, and
comes back with its identifier, its flags and its display fields. -/
theorem toLegacy_toItem (hid : i.mediaId.isEmpty = false)
    (hm : ∀ m ∈ i.metadata, ∃ calls, (MetadataBuilder.applyAll {} calls).build = .ok m) :
    (∀ f, i.toLegacy = .error f ↔ (i.contentAt .displayIconUri).uriFault?.or
        (i.contentAt .mediaUri).uriFault? = some f) ∧
      ((i.contentAt .displayIconUri).uriFault?.or (i.contentAt .mediaUri).uriFault? = none →
        ∃ l j, i.toLegacy = .ok l ∧ LegacyItem.toItem l = .ok (some j) ∧
          j.mediaId = i.mediaId ∧ j.flags.toInt = i.flags.toInt ∧
          j.metadata = some ⟨fieldEntries i.fields⟩) := by
  have hb : ∀ m ∈ i.metadata, Metadata.Built m := fun m h => (hm m h).elim fun _ hm => .of_build hm
  have hicon : (i.contentAt .displayIconUri).asText = _ := asText_contentAt hb rfl
  have hmedia : (i.contentAt .mediaUri).asText = _ := asText_contentAt hb rfl
  rw [toLegacy_eq hb]
  cases hi : (i.contentAt .displayIconUri).uriFault? with
  | some f =>
    rw [Value.optionalUri_of_uriFault? hi, error_bind, Option.some_or]
    exact ⟨fun f' => by simp, fun h => absurd h (by simp)⟩
  | none =>
    obtain ⟨iconUri, hiconUri, hiconText⟩ := Value.exists_optionalUri hicon hi
    rw [hiconUri, ok_bind, Option.none_or]
    cases hj : (i.contentAt .mediaUri).uriFault? with
    | some f =>
      rw [Value.optionalUri_of_uriFault? hj, error_bind]
      exact ⟨fun f' => by simp, fun h => absurd h (by simp)⟩
    | none =>
      obtain ⟨mediaUri, hmediaUri, hmediaText⟩ := Value.exists_optionalUri hmedia hj
      rw [hmediaUri, ok_bind]
      have hmetadata := toMetadata_display hb hiconText hmediaText
      refine ⟨fun f' => ⟨fun h => ?_, fun h => ?_⟩, fun _ => ?_⟩
      · cases h
      · cases h
      · exact ⟨_, _, rfl, toItem_of_toMetadata rfl hid hmetadata, rfl, rfl, rfl⟩

theorem toLegacy_toItem_title :
    ∃ l j, toLegacy ⟨.plain "song", some ⟨[(.ofKey .title, ⟨some .text, .ofString "Song"⟩),
        (.ofKey .mediaUri, ⟨some .text, .ofString "HTTP://h"⟩)]⟩, .plain 2⟩ = .ok l ∧
      LegacyItem.toItem l = .ok (some j) ∧
      j.metadata = some ⟨[(.ofKey .mediaId, ⟨some .text, .ofString "song"⟩),
        (.ofKey .displayTitle, ⟨some .text, .ofString "Song"⟩),
        (.ofKey .mediaUri, ⟨some .text, .ofString "http://h"⟩)]⟩ := by
  have hid : (Word.plain "song").isEmpty = false := by decide
  have hm : ∀ m ∈ some (⟨[(.ofKey .title, ⟨some .text, .ofString "Song"⟩),
      (.ofKey .mediaUri, ⟨some .text, .ofString "HTTP://h"⟩)]⟩ : Metadata),
      ∃ calls, (MetadataBuilder.applyAll {} calls).build = .ok m := by
    intro m h
    cases h
    exact ⟨[.text (.ofKey .title) (.ofString "Song"),
      .text (.ofKey .mediaUri) (.ofString "HTTP://h")], rfl⟩
  have htrip := toLegacy_toItem (i := ⟨.plain "song", some _, .plain 2⟩) hid hm
  obtain ⟨l, j, hto, hback, -, -, hmetadata⟩ := htrip.2 rfl
  exact ⟨l, j, hto, hback, hmetadata⟩

end Item

end MediaBridge
