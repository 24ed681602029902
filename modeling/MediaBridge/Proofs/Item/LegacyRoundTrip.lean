import MediaBridge.Proofs.Item.RoundTrip
import MediaBridge.Proofs.Uri.Reparse

/-!
# Legacy items through the new schema

A legacy item with an identifier becomes an item unless one of its uris is malformed, and that
becomes a legacy item with the same fields. A uri comes back as a uri that is written as the text
the metadata have for it (`Value.Restored`). Main statement: `LegacyItem.toItem_toLegacy`.
-/

namespace MediaBridge

/-! ## Uri fields -/

namespace Value

/-- What a uri field holds: nothing, a text that is to be parsed, or a uri that was parsed. -/
inductive UriField : Value → Prop
  | none : UriField .none
  | text (w : Word) : UriField (.text w)
  | uri {s : String} {u : Uri} (h : Uri.parse s = .ok u) : UriField (.ofUri u)

/-- The uri field that is read from a stored text: none without a text or with an empty one, and
otherwise a uri that is written as the text. -/
inductive Restored : (stored field : Value) → Prop
  | none : Restored .none .none
  | empty : Restored (.ofString "") .none
  | uri (u : Uri) (h : u.text ≠ "") : Restored (.ofString u.text) (.ofUri u)

theorem Restored.exists_uri {s : String} {field : Value} (h : Restored (.ofString s) field)
    (hs : s ≠ "") : ∃ u, field = .ofUri u ∧ u.text = s := by
  generalize hstored : ofString s = stored at h
  cases h with
  | none => cases hstored
  | empty => exact absurd (Word.plain.inj (Value.text.inj hstored)) hs
  | uri u h => exact ⟨u, rfl, (Word.plain.inj (Value.text.inj hstored)).symm⟩

variable {v : Value}

theorem canonicalUri_ofUri (u : Uri) : (ofUri u).canonicalUri = .ok (.ofString u.text) := by
  have hplain : (ofUri u).canonicalUri = .text <$> (ofUri u).plain := rfl
  rw [hplain, plain_ofUri]
  rfl

/-- A parsed uri is stored as its canonical text, from which a uri with this text is read. -/
theorem exists_restored {s : String} {u : Uri} (h : Uri.parse s = .ok u) :
    ∃ field, (ofString u.text).optionalUri = .ok field ∧ Restored (.ofString u.text) field := by
  by_cases hempty : u.text = ""
  · rw [hempty]
    exact ⟨.none, rfl, .empty⟩
  · obtain ⟨u', hparse, htext⟩ := Uri.exists_parse_text h hempty
    have htruthy : (ofString u.text).isTruthy = true := by
      rw [isTruthy_ofString, Bool.not_eq_true', List.isEmpty_eq_false_iff, ne_eq,
        String.toList_eq_nil_iff]
      exact hempty
    have huri : (ofString u.text).toUri = .ok u' := by
      rw [ofString, toUri, Word.text_plain, hparse]
      rfl
    refine ⟨.ofUri u', ?_, ?_⟩
    · rw [optionalUri, htruthy, huri]
      rfl
    · rw [← htext] at hempty ⊢
      exact .uri u' hempty

/-- A uri field is malformed, or its text is stored and read as a uri field again. -/
theorem UriField.cases (h : v.UriField) :
    (∃ f, v.uriFault? = some f ∧ v.canonicalUri = .error f) ∨
      v.uriFault? = Option.none ∧ ∃ stored field, v.canonicalUri = .ok stored ∧
        stored.optionalUri = .ok field ∧ Restored stored field := by
  cases h with
  | none => exact .inr ⟨rfl, .none, .none, rfl, rfl, .none⟩
  | text w =>
    cases hw : w.isEmpty with
    | true =>
      refine .inr ⟨by simp [uriFault?, hw], .none, .none, ?_, rfl, .none⟩
      simp [canonicalUri, isTruthy, hw]
    | false =>
      cases hparse : Uri.parse w.text with
      | error e =>
        refine .inl ⟨.malformedUri (.text w) e, by simp [uriFault?, hw, hparse], ?_⟩
        simp [canonicalUri, isTruthy, hw, toUri, hparse, Except.mapError]
      | ok u =>
        obtain ⟨field, hfield, hrestored⟩ := exists_restored hparse
        refine .inr ⟨by simp [uriFault?, hw, hparse], _, field, ?_, hfield, hrestored⟩
        simp [canonicalUri, isTruthy, hw, toUri, hparse, Except.mapError]
  | @uri s u hparse =>
    obtain ⟨field, hfield, hrestored⟩ := exists_restored hparse
    exact .inr ⟨rfl, _, field, canonicalUri_ofUri u, hfield, hrestored⟩

end Value

/-! ## Fields of a description -/

namespace Value

/-- A text, or nothing. -/
def IsText (v : Value) : Prop := v = .none ∨ ∃ w, v = .text w

/-- A bitmap, or nothing. -/
def IsBitmap (v : Value) : Prop := v = .none ∨ ∃ name, v = .bitmap name

/-- A map, or nothing. -/
def IsMap (v : Value) : Prop := v = .none ∨ ∃ isSealed m, v = .map isSealed m

/-- A map with the same entries that can no longer be changed. Other values stay as they are. -/
def sealed : Value → Value
  | .map _ m => .map true m
  | v => v

variable {v key : Value}

theorem IsText.asText (h : v.IsText) : v.asText = .ok v := by
  obtain rfl | ⟨w, rfl⟩ := h <;> rfl

theorem IsBitmap.asBitmap (h : v.IsBitmap) : v.asBitmap key = .ok v := by
  obtain rfl | ⟨name, rfl⟩ := h <;> rfl

theorem IsMap.asExtras (h : v.IsMap) : v.asExtras = .ok v.sealed := by
  obtain rfl | ⟨isSealed, m, rfl⟩ := h <;> rfl

end Value

/-- A description with an identifier in which every field holds what it is meant for. -/
structure Description.Proper (d : Description) : Prop where
  mediaId : ∃ w, d.mediaId = .text w ∧ w.isEmpty = false
  title : d.title.IsText
  subtitle : d.subtitle.IsText
  description : d.description.IsText
  iconBitmap : d.iconBitmap.IsBitmap
  iconUri : d.iconUri.UriField
  extras : d.extras.IsMap
  mediaUri : d.mediaUri.UriField

/-- The fields of the metadata of a description, with the texts that are stored for its uris. -/
def Description.fields (d : Description) (iconUri mediaUri : Value) :
    List (MetadataKey × Value) :=
  [(.mediaId, d.mediaId), (.displayTitle, d.title), (.displayDescription, d.description),
    (.displaySubtitle, d.subtitle), (.displayIcon, d.iconBitmap), (.displayIconUri, iconUri),
    (.extras, d.extras.sealed), (.mediaUri, mediaUri)]

theorem Description.Proper.toMetadata_eq {d : Description} (h : d.Proper) :
    Description.toMetadata d = (do
      let iconUri ← d.iconUri.canonicalUri
      let mediaUri ← d.mediaUri.canonicalUri
      return ⟨fieldEntries (d.fields iconUri mediaUri)⟩) := by
  have hid : (if d.mediaId.isNone then .ofString "" else d.mediaId : Value).asText =
      .ok d.mediaId := by
    obtain ⟨w, hw, -⟩ := h.mediaId
    rw [hw]
    rfl
  exact Description.toMetadata_eq hid h.title.asText h.description.asText h.subtitle.asText
    h.iconBitmap.asBitmap h.extras.asExtras

/-! ## Content of built fields -/

namespace Metadata

variable {fs : List (MetadataKey × Value)} {k : MetadataKey} {v : Value}

theorem contentAt_fieldEntries_of_not_mem (h : k ∉ fs.map (·.1)) :
    contentAt ⟨fieldEntries fs⟩ k = .none := by
  have hget := (OrderedMap.get?_eq_none_iff _ _).2 (code_not_mem_fieldEntries h)
  rw [contentAt, hget]
  rfl

theorem contentAt_fieldEntries (hd : (fs.map (·.1)).Nodup) (h : (k, v) ∈ fs) :
    contentAt ⟨fieldEntries fs⟩ k = v := by
  induction fs with
  | nil => cases h
  | cons f fs ih =>
    rw [List.map_cons, List.nodup_cons] at hd
    rcases List.mem_cons.1 h with rfl | h
    · cases hv : v.isNone with
      | true =>
        have hskip : fieldEntries ((k, v) :: fs) = fieldEntries fs := by simp [fieldEntries, hv]
        rw [hskip, contentAt_fieldEntries_of_not_mem hd.1, Value.isNone_iff.1 hv]
      | false => simp [fieldEntries, hv, contentAt, OrderedMap.get?, OrderedMap.lookup]
    · have hne : f.1 ≠ k := fun heq => hd.1 (heq ▸ List.mem_map_of_mem h)
      have hcode := mt Value.code_ofKey_inj.1 hne
      rw [← ih hd.2 h]
      cases hv : f.2.isNone with
      | true => simp [fieldEntries, hv]
      | false => simp [fieldEntries, hv, contentAt, OrderedMap.get?, OrderedMap.lookup, hcode]

end Metadata

namespace Metadata.Built

variable {b b' : MetadataBuilder} {v : Value} {call : Value → MetadataSetter}

theorem applyIf (hb : b.entries.Built) (h : b.applyIf v call = .ok b') : b'.entries.Built := by
  unfold MetadataBuilder.applyIf at h
  split at h
  · cases h
    exact hb
  · exact hb.apply h

/-- The metadata of a description are built, whatever it holds. -/
theorem of_toMetadata {d : Description} {m : Metadata} (h : Description.toMetadata d = .ok m) :
    m.Built := by
  obtain ⟨b₁, h₁, h⟩ := bind_eq_ok_iff.1 h
  obtain ⟨b₂, h₂, h⟩ := bind_eq_ok_iff.1 h
  obtain ⟨b₃, h₃, h⟩ := bind_eq_ok_iff.1 h
  obtain ⟨b₄, h₄, h⟩ := bind_eq_ok_iff.1 h
  obtain ⟨b₅, h₅, h⟩ := bind_eq_ok_iff.1 h
  obtain ⟨iconUri, -, h⟩ := bind_eq_ok_iff.1 h
  obtain ⟨b₆, h₆, h⟩ := bind_eq_ok_iff.1 h
  obtain ⟨b₇, h₇, h⟩ := bind_eq_ok_iff.1 h
  obtain ⟨mediaUri, -, h⟩ := bind_eq_ok_iff.1 h
  obtain ⟨b₈, h₈, hbuild⟩ := bind_eq_ok_iff.1 h
  have hb : b₈.entries.Built :=
    (((((((empty.apply h₁).applyIf h₂).applyIf h₃).applyIf h₄).applyIf h₅).applyIf h₆).applyIf
      h₇).applyIf h₈
  cases (MetadataBuilder.build_of_fits hb.fits).symm.trans hbuild
  exact hb

end Metadata.Built

/-! ## There and back -/

section

variable {d : Description} {iconText mediaText iconUri mediaUri : Value}

/-- An item that holds the fields of a description becomes a legacy item with this description, but
for its uris, which are read from the stored texts. -/
theorem Item.toLegacy_of_fields {j : Item} (hm : ∀ m ∈ j.metadata, Metadata.Built m)
    (hid : d.mediaId = .text j.mediaId) (htitle : j.contentAt .title = .none)
    (hfields : ∀ f ∈ d.fields iconText mediaText, j.contentAt f.1 = f.2)
    (hicon : iconText.optionalUri = .ok iconUri) (hmedia : mediaText.optionalUri = .ok mediaUri) :
    j.toLegacy =
      .ok ⟨{ d with iconUri, extras := d.extras.sealed, mediaUri }, .plain j.flags.toInt⟩ := by
  simp only [Description.fields, List.forall_mem_cons] at hfields
  obtain ⟨-, hdisplayTitle, habout, hsubtitle, hbitmap, hiconText, hextras, hmediaText, -⟩ :=
    hfields
  have hdisplay : j.display iconUri mediaUri =
      { d with iconUri, extras := d.extras.sealed, mediaUri } := by
    simp only [display, htitle, hdisplayTitle, habout, hsubtitle, hbitmap, hextras, hid]
    rfl
  rw [toLegacy_eq hm, hiconText, hicon, ok_bind, hmediaText, hmedia, ok_bind, hdisplay]
  rfl

/-- The metadata of a description hold its fields, and no proper title. -/
theorem Description.Proper.contentAt_eq (h : d.Proper) {m : Metadata}
    (hm : Description.toMetadata d = .ok m) (hicon : d.iconUri.canonicalUri = .ok iconText)
    (hmedia : d.mediaUri.canonicalUri = .ok mediaText) :
    m.contentAt .title = .none ∧ ∀ f ∈ d.fields iconText mediaText, m.contentAt f.1 = f.2 := by
  rw [h.toMetadata_eq, hicon, hmedia, ok_bind, ok_bind] at hm
  cases hm
  have hnodup : ((d.fields iconText mediaText).map (·.1)).Nodup := by simp [fields]
  exact ⟨Metadata.contentAt_fieldEntries_of_not_mem (by simp [fields]),
    fun f hf => Metadata.contentAt_fieldEntries hnodup hf⟩

theorem Description.Proper.textAt_eq (h : d.Proper) {m : Metadata}
    (hm : Description.toMetadata d = .ok m) (hicon : d.iconUri.canonicalUri = .ok iconText)
    (hmedia : d.mediaUri.canonicalUri = .ok mediaText) :
    m.textAt (.ofKey .displayIconUri) = iconText ∧ m.textAt (.ofKey .mediaUri) = mediaText := by
  have hb := Metadata.Built.of_toMetadata hm
  obtain ⟨-, hfields⟩ := h.contentAt_eq hm hicon hmedia
  have hiconText := hfields (.displayIconUri, iconText) (by simp [fields])
  have hmediaText := hfields (.mediaUri, mediaText) (by simp [fields])
  exact ⟨(hb.textAt_eq _ rfl).trans hiconText, (hb.textAt_eq _ rfl).trans hmediaText⟩

end

namespace LegacyItem

variable {l : LegacyItem}

/-- A legacy item goes to the new schema unless its icon or else its media have a malformed uri, and
comes back with its identifier, its flags and its display fields. Its uris come back as uris that
are written as the texts which the metadata have for them. -/
theorem toItem_toLegacy (h : Description.Proper l.description) :
    (∀ f, toItem l = .error f ↔
        l.description.iconUri.uriFault?.or l.description.mediaUri.uriFault? = some f) ∧
      (l.description.iconUri.uriFault?.or l.description.mediaUri.uriFault? = none →
        ∃ j m l', toItem l = .ok (some j) ∧ j.metadata = some m ∧ Item.toLegacy j = .ok l' ∧
          l'.flags.toInt = l.flags.toInt ∧
          l'.description = { l.description with
            iconUri := l'.description.iconUri
            extras := l.description.extras.sealed
            mediaUri := l'.description.mediaUri } ∧
          l.description.iconUri.canonicalUri = .ok (Metadata.textAt m (.ofKey .displayIconUri)) ∧
          (Metadata.textAt m (.ofKey .displayIconUri)).Restored l'.description.iconUri ∧
          l.description.mediaUri.canonicalUri = .ok (Metadata.textAt m (.ofKey .mediaUri)) ∧
          (Metadata.textAt m (.ofKey .mediaUri)).Restored l'.description.mediaUri) := by
  obtain ⟨d, n⟩ := l
  change Description.Proper d at h
  obtain ⟨w, hd, hw⟩ := h.mediaId
  have hmetadata := h.toMetadata_eq
  rw [Item.toItem_eq n hd hw]
  rcases h.iconUri.cases with ⟨f, hf, hicon⟩ | ⟨hf, iconText, iconUri, hicon, hiconUri, hi⟩
  · rw [hmetadata, hicon, hf, error_bind, Option.some_or]
    exact ⟨fun f' => by simp, fun h => absurd h (by simp)⟩
  rcases h.mediaUri.cases with ⟨f, hg, hmedia⟩ | ⟨hg, mediaText, mediaUri, hmedia, hmediaUri, hj⟩
  · rw [hmetadata, hicon, hf, hmedia, hg, ok_bind, error_bind, Option.none_or]
    exact ⟨fun f' => by simp, fun h => absurd h (by simp)⟩
  rw [hicon, hmedia, ok_bind, ok_bind] at hmetadata
  have hb := Metadata.Built.of_toMetadata hmetadata
  obtain ⟨htitle, hfields⟩ := h.contentAt_eq hmetadata hicon hmedia
  obtain ⟨hiconText, hmediaText⟩ := h.textAt_eq hmetadata hicon hmedia
  have hlegacy := Item.toLegacy_of_fields (j := ⟨w, some _, n⟩) (by rintro _ ⟨⟩; exact hb) hd htitle
    hfields hiconUri hmediaUri
  rw [← hiconText] at hicon hi
  rw [← hmediaText] at hmedia hj
  rw [hmetadata, hf, hg, Option.none_or]
  refine ⟨fun f' => ⟨fun h => (nomatch h), fun h => (nomatch h)⟩, fun _ => ?_⟩
  exact ⟨_, _, _, rfl, rfl, hlegacy, rfl, rfl, hicon, hi, hmedia, hj⟩

theorem toItem_toLegacy_rootless :
    ∃ j l', toItem ⟨⟨.ofString "song", .ofString "Song", .none, .none, .bitmap "cover",
        .ofString "HTTP:path", .map false .empty, .ofUri ⟨"", "", "/a", "", ""⟩⟩, .plain (-1)⟩ =
        .ok (some j) ∧
      Item.toLegacy j = .ok l' ∧ l'.description.title = .ofString "Song" ∧
      ∃ u, l'.description.iconUri = .ofUri u ∧ u.text = "http:///path" := by
  have h : Description.Proper ⟨.ofString "song", .ofString "Song", .none, .none, .bitmap "cover",
      .ofString "HTTP:path", .map false .empty, .ofUri ⟨"", "", "/a", "", ""⟩⟩ := {
    mediaId := ⟨.plain "song", rfl, by decide⟩
    title := .inr ⟨_, rfl⟩
    subtitle := .inl rfl
    description := .inl rfl
    iconBitmap := .inr ⟨_, rfl⟩
    iconUri := .text _
    extras := .inr ⟨_, _, rfl⟩
    mediaUri := .uri (s := "/a") rfl }
  obtain ⟨j, m, l', hto, -, hback, -, hd, hicon, hi, -⟩ :=
    (toItem_toLegacy (l := ⟨_, .plain (-1)⟩) h).2 rfl
  have htext : (Value.ofString "HTTP:path").canonicalUri = .ok (.ofString "http:///path") := rfl
  rw [← Except.ok.inj (htext.symm.trans hicon)] at hi
  exact ⟨j, l', hto, hback, by rw [hd], hi.exists_uri (by decide)⟩

end LegacyItem

end MediaBridge
