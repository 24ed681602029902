import MediaBridge.Conversion.Description
import MediaBridge.Proofs.Metadata.Built

/-!
# Fields of descriptions

A description becomes metadata with one entry for each field that is there, in a fixed order
(`Description.toMetadata_of_fields`). The text of a uri goes through a uri and comes back in its
canonical form (`Value.exists_optionalUri`).
-/

namespace MediaBridge

open Keyed (code)

/-! ## Entries of fields -/

namespace MetadataKey

theorem identifier_inj {k k' : MetadataKey} : k.identifier = k'.identifier ↔ k = k' := by
  refine ⟨fun h => ?_, congrArg _⟩
  have hk := ofIdentifier?_identifier k
  rw [h, ofIdentifier?_identifier] at hk
  exact (Option.some.inj hk).symm

theorem identifier_ne_empty (k : MetadataKey) : k.identifier ≠ "" := by
  cases k <;> decide

end MetadataKey

theorem Value.code_ofKey_inj {k k' : MetadataKey} : code (ofKey k) = code (ofKey k') ↔ k = k' := by
  refine ⟨fun h => ?_, congrArg fun k => code (ofKey k)⟩
  have hid : k.identifier = k'.identifier := KeyCode.text.inj (Option.some.inj h)
  exact MetadataKey.identifier_inj.1 hid

theorem Value.checkKey_ofKey (k : MetadataKey) : (ofKey k).checkKey k.kind = .ok () := by
  refine checkKey_eq_ok_iff.2 ⟨k.identifier, rfl, k.identifier_ne_empty, ?_⟩
  have hbound : (ofKey k).boundKind? = some k.kind := declaredKind?_identifier k
  rw [admits, hbound]
  simp

/-- The entries of the fields that are there. -/
def fieldEntries (l : List (MetadataKey × Value)) : List (Value × Entry) :=
  l.filterMap fun f => if f.2.isNone then none else some (.ofKey f.1, ⟨some f.1.kind, f.2⟩)

theorem code_not_mem_fieldEntries {l : List (MetadataKey × Value)} {k : MetadataKey}
    (h : k ∉ l.map (·.1)) : code (Value.ofKey k) ∉ (⟨fieldEntries l⟩ : Metadata).codes := by
  intro hmem
  obtain ⟨e, he, hcode⟩ := List.mem_map.1 hmem
  obtain ⟨f, hf, hentry⟩ := List.mem_filterMap.1 he
  split at hentry <;> cases hentry
  exact h (Value.code_ofKey_inj.1 hcode ▸ List.mem_map_of_mem hf)

/-! ## Setters of fields -/

namespace MetadataSetter

variable {key v v' : Value}

theorem change_text (h : v.asText = .ok v') : (text key v).change = .ok ⟨key, .text, v'⟩ := by
  rw [change, h]
  rfl

theorem change_bitmap (h : v.asBitmap key = .ok v') :
    (bitmap key v).change = .ok ⟨key, .bitmap, v'⟩ := by
  rw [change, h]
  rfl

theorem change_extras (h : v.asExtras = .ok v') :
    (extras v).change = .ok ⟨.ofKey .extras, .extras, v'⟩ := by
  rw [change, h]
  rfl

end MetadataSetter

namespace MetadataBuilder

variable {l : List (MetadataKey × Value)} {k : MetadataKey} {v v' : Value}
  {call : Value → MetadataSetter}

/-- A setter of a new field adds its entry if the field is there. -/
theorem applyIf_field (hc : (call v).change = .ok ⟨.ofKey k, k.kind, v'⟩)
    (hv : v'.isNone = v.isNone) (hnew : k ∉ l.map (·.1)) :
    applyIf ⟨⟨fieldEntries l⟩⟩ v call = .ok ⟨⟨fieldEntries (l ++ [(k, v')])⟩⟩ := by
  unfold applyIf
  cases hnone : v.isNone with
  | true =>
    rw [hnone] at hv
    simp [fieldEntries, hv]
  | false =>
    rw [hnone] at hv
    have happly := apply_of_change (b := ⟨⟨fieldEntries l⟩⟩) hc (Value.checkKey_ofKey k) hv
      (code_not_mem_fieldEntries hnew)
    rw [if_neg (by simp), happly]
    simp [fieldEntries, hv]

theorem applyIf_text (hk : k.kind = .text) (h : v.asText = .ok v') (hnew : k ∉ l.map (·.1)) :
    applyIf ⟨⟨fieldEntries l⟩⟩ v (.text (.ofKey k)) = .ok ⟨⟨fieldEntries (l ++ [(k, v')])⟩⟩ := by
  have hc : (MetadataSetter.text (.ofKey k) v).change = _ := MetadataSetter.change_text h
  rw [← hk] at hc
  exact applyIf_field hc (Value.isNone_of_asText h) hnew

theorem applyIf_bitmap (hk : k.kind = .bitmap) (h : v.asBitmap (.ofKey k) = .ok v')
    (hnew : k ∉ l.map (·.1)) :
    applyIf ⟨⟨fieldEntries l⟩⟩ v (.bitmap (.ofKey k)) = .ok ⟨⟨fieldEntries (l ++ [(k, v')])⟩⟩ := by
  have hc := MetadataSetter.change_bitmap h
  rw [← hk] at hc
  refine applyIf_field hc ?_ hnew
  rw [Value.asBitmap_eq] at h
  exact Value.isNone_of_checked (fun _ => rfl) h

theorem applyIf_extras (h : v.asExtras = .ok v') (hnew : .extras ∉ l.map (·.1)) :
    applyIf ⟨⟨fieldEntries l⟩⟩ v .extras = .ok ⟨⟨fieldEntries (l ++ [(.extras, v')])⟩⟩ := by
  refine applyIf_field (MetadataSetter.change_extras h) ?_ hnew
  rw [Value.asExtras_eq] at h
  exact Value.isNone_of_checked (fun _ => rfl) h

theorem apply_mediaId (h : v.asText = .ok v') (hv : v.isNone = false) :
    apply {} (.text (.ofKey .mediaId) v) = .ok ⟨⟨fieldEntries [(.mediaId, v')]⟩⟩ := by
  have hfield := applyIf_text (l := []) (k := .mediaId) rfl h List.not_mem_nil
  rw [applyIf, hv] at hfield
  exact hfield

theorem build_fieldEntries (l : List (MetadataKey × Value)) :
    build ⟨⟨fieldEntries l⟩⟩ = .ok ⟨fieldEntries l⟩ := by
  have hcheck : ∀ e ∈ fieldEntries l, e.1.checkKind e.2.kind = .ok () := by
    intro e he
    obtain ⟨f, -, hentry⟩ := List.mem_filterMap.1 he
    split at hentry <;> cases hentry
    exact Value.checkKind_of_checkKey (Value.checkKey_ofKey f.1)
  rw [build, forM_eq_ok hcheck]
  rfl

end MetadataBuilder

/-! ## Uris -/

namespace Value

variable {v v' : Value}

/-- The canonical text of a uri is a text, if it is there. -/
theorem asText_canonicalUri (h : v.canonicalUri = .ok v') : v'.asText = .ok v' := by
  unfold canonicalUri at h
  split at h
  · obtain ⟨w, -, hw⟩ := bind_eq_ok_iff.1 h
    cases hw
    rfl
  · split at h
    · obtain ⟨u, -, hu⟩ := bind_eq_ok_iff.1 h
      cases hu
      rfl
    · cases h
      rfl

/-- Why the uri that a text is cannot be used: the text is not empty, and it is malformed. -/
def uriFault? (v : Value) : Option Fault :=
  match v with
  | .text w =>
    if w.isEmpty then Option.none
    else
      match Uri.parse w.text with
      | .ok _ => Option.none
      | .error e => some (.malformedUri v e)
  | _ => Option.none

/-- The canonical text of the uri that a text is, unless the text is empty. -/
def uriText (v : Value) : Value :=
  match v with
  | .text w =>
    if w.isEmpty then .none
    else
      match Uri.parse w.text with
      | .ok u => .ofString u.text
      | .error _ => .none
  | _ => .none

theorem optionalUri_of_uriFault? {f : Fault} (h : v.uriFault? = some f) :
    v.optionalUri = .error f := by
  cases v with
  | text w =>
    simp only [uriFault?] at h
    split at h
    · cases h
    · next hw =>
      split at h
      · cases h
      · next e he =>
        cases h
        have huri : (Value.text w).toUri = .error (.malformedUri (.text w) e) := by
          rw [toUri, he]
          rfl
        simp [optionalUri, isTruthy, hw, huri]
  | _ => cases h

/-- A text that can be used goes through a uri and becomes its canonical text. -/
theorem exists_optionalUri (hv : v.asText = .ok v) (h : v.uriFault? = Option.none) :
    ∃ u, v.optionalUri = .ok u ∧ u.canonicalUri = .ok v.uriText := by
  rcases asText_cases hv with rfl | ⟨w, rfl⟩
  · exact ⟨.none, rfl, rfl⟩
  · simp only [uriFault?] at h
    split at h
    · next hw =>
      refine ⟨.none, ?_, ?_⟩
      · simp [optionalUri, isTruthy, hw]
      · simp [uriText, hw]
        rfl
    · next hw =>
      split at h
      · next u hu =>
        refine ⟨.ofUri u, ?_, ?_⟩
        · have huri : (Value.text w).toUri = .ok u := by
            rw [toUri, hu]
            rfl
          simp [optionalUri, isTruthy, hw, huri]
        · have hplain : (ofUri u).canonicalUri = .text <$> (ofUri u).plain := rfl
          rw [hplain, plain_ofUri]
          simp [uriText, hw, hu]
          rfl
      · cases h

end Value

/-! ## Metadata of a description -/

section

variable {d : Description} {mediaId title about subtitle bitmap iconUri extras mediaUri : Value}

/-- A description becomes metadata with the entries of its fields, unless a uri is malformed. The
uri of the icon is looked at first. -/
theorem Description.toMetadata_eq
    (hid : (if d.mediaId.isNone then .ofString "" else d.mediaId).asText = .ok mediaId)
    (htitle : d.title.asText = .ok title) (habout : d.description.asText = .ok about)
    (hsubtitle : d.subtitle.asText = .ok subtitle)
    (hbitmap : d.iconBitmap.asBitmap (.ofKey .displayIcon) = .ok bitmap)
    (hextras : d.extras.asExtras = .ok extras) :
    Description.toMetadata d = (do
      let iconUri ← d.iconUri.canonicalUri
      let mediaUri ← d.mediaUri.canonicalUri
      return ⟨fieldEntries [(.mediaId, mediaId), (.displayTitle, title),
        (.displayDescription, about), (.displaySubtitle, subtitle), (.displayIcon, bitmap),
        (.displayIconUri, iconUri), (.extras, extras), (.mediaUri, mediaUri)]⟩) := by
  have hthere : (if d.mediaId.isNone then .ofString "" else d.mediaId : Value).isNone = false := by
    split
    · rfl
    · next h => exact Bool.eq_false_iff.2 h
  simp only [Description.toMetadata]
  rw [MetadataBuilder.apply_mediaId hid hthere, ok_bind,
    MetadataBuilder.applyIf_text rfl htitle (by simp), ok_bind,
    MetadataBuilder.applyIf_text rfl habout (by simp), ok_bind,
    MetadataBuilder.applyIf_text rfl hsubtitle (by simp), ok_bind,
    MetadataBuilder.applyIf_bitmap rfl hbitmap (by simp), ok_bind]
  cases hicon : d.iconUri.canonicalUri with
  | error f => rfl
  | ok iconUri =>
    rw [ok_bind, MetadataBuilder.applyIf_text rfl (Value.asText_canonicalUri hicon) (by simp),
      ok_bind, MetadataBuilder.applyIf_extras hextras (by simp), ok_bind, ok_bind]
    cases hmedia : d.mediaUri.canonicalUri with
    | error f => rfl
    | ok mediaUri =>
      rw [ok_bind, MetadataBuilder.applyIf_text rfl (Value.asText_canonicalUri hmedia) (by simp),
        ok_bind]
      exact MetadataBuilder.build_fieldEntries _

/-- A description becomes metadata with the entries of its fields. -/
theorem Description.toMetadata_of_fields
    (hid : (if d.mediaId.isNone then .ofString "" else d.mediaId).asText = .ok mediaId)
    (htitle : d.title.asText = .ok title) (habout : d.description.asText = .ok about)
    (hsubtitle : d.subtitle.asText = .ok subtitle)
    (hbitmap : d.iconBitmap.asBitmap (.ofKey .displayIcon) = .ok bitmap)
    (hicon : d.iconUri.canonicalUri = .ok iconUri) (hextras : d.extras.asExtras = .ok extras)
    (hmedia : d.mediaUri.canonicalUri = .ok mediaUri) :
    Description.toMetadata d = .ok ⟨fieldEntries [(.mediaId, mediaId), (.displayTitle, title),
      (.displayDescription, about), (.displaySubtitle, subtitle), (.displayIcon, bitmap),
      (.displayIconUri, iconUri), (.extras, extras), (.mediaUri, mediaUri)]⟩ := by
  rw [toMetadata_eq hid htitle habout hsubtitle hbitmap hextras, hicon, ok_bind, hmedia, ok_bind]
  rfl

end

end MediaBridge
