import MediaBridge.Item.Basic
import MediaBridge.Proofs.Metadata.Refusal

/-!
# Building items

The setters of a builder of items check nothing, so that the last call of each decides
(`ItemBuilder.setAll_eq`), and everything is checked by the build. It looks for an identifier in the
metadata before these are checked, and breaks off on an object that has none
(`ItemBuilder.breaksOff_build_iff`); what it builds is given by `ItemBuilder.build_eq_ok_iff`.
-/

namespace MediaBridge

/-! ## Setters -/

/-- A setter of a builder of items with its argument. -/
inductive ItemSetter where
  | mediaId (value : Value)
  | metadata (value : Value)

namespace ItemSetter

def update : ItemSetter → ItemBuilder → ItemBuilder
  | .mediaId value, b => { b with mediaId := value }
  | .metadata value, b => { b with metadata := value }

/-- The identifier that a call sets, if it sets one. -/
def mediaId? : ItemSetter → Option Value
  | .mediaId value => some value
  | .metadata _ => none

/-- The metadata that a call sets, if it sets any. -/
def metadata? : ItemSetter → Option Value
  | .mediaId _ => none
  | .metadata value => some value

/-- The identifier that was set last, none if there was none. -/
def lastMediaId (l : List ItemSetter) : Value := (l.filterMap mediaId?).getLastD .none

/-- The metadata that were set last, none if there were none. -/
def lastMetadata (l : List ItemSetter) : Value := (l.filterMap metadata?).getLastD .none

end ItemSetter

namespace ItemBuilder

/-- Call setters one after the other. -/
def setAll (b : ItemBuilder) (l : List ItemSetter) : ItemBuilder :=
  l.foldl (fun b setter => setter.update b) b

theorem setAll_eq (b : ItemBuilder) (l : List ItemSetter) :
    b.setAll l = ⟨b.flags, (l.filterMap ItemSetter.mediaId?).getLastD b.mediaId,
      (l.filterMap ItemSetter.metadata?).getLastD b.metadata⟩ := by
  induction l generalizing b with
  | nil => rfl
  | cons setter l ih =>
    rw [setAll, List.foldl_cons, ← setAll, ih]
    cases setter with
    | mediaId value =>
      rw [List.filterMap_cons_some (rfl : ItemSetter.mediaId? _ = some value),
        List.filterMap_cons_none (rfl : ItemSetter.metadata? _ = none), List.getLastD_cons]
      rfl
    | metadata value =>
      rw [List.filterMap_cons_some (rfl : ItemSetter.metadata? _ = some value),
        List.filterMap_cons_none (rfl : ItemSetter.mediaId? _ = none), List.getLastD_cons]
      rfl

end ItemBuilder

/-! ## Checks of an item -/

theorem Value.asFlags_eq_ok_iff {v : Value} {cause : Invalid} {n : Whole} :
    v.asFlags cause = .ok n ↔ v = .whole n := by
  cases v with
  | whole n' => exact ⟨fun h => congrArg _ (Except.ok.inj h), fun h => by cases h; rfl⟩
  | _ => exact ⟨nofun, nofun⟩

theorem Value.faultsIn_asFlags (v : Value) (cause : Invalid) :
    FaultsIn Fault.IsRefusal (v.asFlags cause) := by
  cases v with
  | whole n => exact faultsIn_ok n
  | _ => exact faultsIn_refuse cause

namespace Item

variable {mediaId metadata flags : Value} {i : Item}

theorem faultsIn_ofValues (mediaId metadata flags : Value) :
    FaultsIn Fault.IsRefusal (ofValues mediaId metadata flags) := by
  unfold ofValues
  split
  · split
    · exact faultsIn_refuse _
    · split
      · exact (flags.faultsIn_asFlags _).bind fun _ => faultsIn_ok _
      · exact (flags.faultsIn_asFlags _).bind fun _ => faultsIn_ok _
      · exact faultsIn_refuse _
  · exact faultsIn_refuse _

theorem ofValues_eq_ok_iff : ofValues mediaId metadata flags = .ok i ↔
    mediaId = .text i.mediaId ∧ i.mediaId.isEmpty = false ∧
      metadata = .ofOption .metadata i.metadata ∧ flags = .whole i.flags := by
  constructor
  · intro h
    unfold ofValues at h
    split at h
    · split at h
      · cases h
      · next w hw =>
        have hne : w.isEmpty = false := Bool.eq_false_iff.2 hw
        split at h
        · obtain ⟨n, hn, hi⟩ := bind_eq_ok_iff.1 h
          cases hi
          exact ⟨rfl, hne, rfl, Value.asFlags_eq_ok_iff.1 hn⟩
        · obtain ⟨n, hn, hi⟩ := bind_eq_ok_iff.1 h
          cases hi
          exact ⟨rfl, hne, rfl, Value.asFlags_eq_ok_iff.1 hn⟩
        · cases h
    · cases h
  · obtain ⟨w, m, n⟩ := i
    rintro ⟨rfl, hne, rfl, rfl⟩
    cases m <;> simp [ofValues, hne, Value.ofOption, Value.asFlags]

/-- An item that is built with a given identifier, metadata and flags. -/
structure BuiltFrom (mediaId metadata flags : Value) (i : Item) : Prop where
  nonempty : i.mediaId.isEmpty = false
  given (h : mediaId.isTruthy) : mediaId = .text i.mediaId
  /-- An identifier that counts as empty gives way to the one that the metadata carry. -/
  carried (h : mediaId.isTruthy = false) :
    ∃ m, i.metadata = some m ∧ Metadata.mediaId m = .text i.mediaId
  metadata : metadata = .ofOption .metadata i.metadata
  flags : flags = .whole i.flags

end Item

/-! ## The build -/

theorem Value.eq_missingPart_of_mediaId {v : Value} {f : Fault} (h : v.mediaId = .error f) :
    f = .missingPart := by
  unfold mediaId at h
  split at h <;> cases h
  rfl

namespace ItemBuilder

variable {b : ItemBuilder} {i : Item} {f : Fault}

theorem build_eq_ok_iff : b.build = .ok i ↔ i.BuiltFrom b.mediaId b.metadata b.flags := by
  constructor
  · intro h
    obtain ⟨id, hid, h⟩ := bind_eq_ok_iff.1 h
    obtain ⟨htext, hne, hmetadata, hflags⟩ := Item.ofValues_eq_ok_iff.1 h
    -- the text that stands in for an identifier that counts as empty is refused
    have hid' : id = .text i.mediaId := by
      split at htext
      · exact htext
      · have hempty := congrArg Word.isEmpty (Value.text.inj htext)
        cases hempty.trans hne
    have htruthy : id.isTruthy := by
      rw [hid', Value.isTruthy, hne]
      rfl
    unfold effectiveMediaId at hid
    split at hid
    · cases hid
      exact ⟨hne, fun _ => hid', fun h => (Bool.eq_false_iff.1 h htruthy).elim, hmetadata, hflags⟩
    · next hfallback =>
      rw [Bool.or_eq_true, not_or] at hfallback
      refine ⟨hne, fun h => (hfallback.1 h).elim, fun _ => ?_, hmetadata, hflags⟩
      rw [hmetadata] at hid hfallback
      cases hm : i.metadata with
      | none =>
        rw [hm] at hfallback
        exact (hfallback.2 rfl).elim
      | some m =>
        rw [hm] at hid
        exact ⟨m, rfl, (Except.ok.inj hid).trans hid'⟩
  · rintro ⟨hne, hgiven, hcarried, hmetadata, hflags⟩
    have hid : b.effectiveMediaId = .ok (.text i.mediaId) := by
      unfold effectiveMediaId
      cases htruthy : b.mediaId.isTruthy with
      | true => rw [Bool.true_or, if_pos rfl, hgiven htruthy]
      | false =>
        obtain ⟨m, hm, hcarries⟩ := hcarried htruthy
        rw [hmetadata, hm, ← hcarries]
        rfl
    have htruthy : (Value.text i.mediaId).isTruthy := by
      rw [Value.isTruthy, hne]
      rfl
    rw [build, hid, ok_bind, if_pos htruthy]
    exact Item.ofValues_eq_ok_iff.2 ⟨rfl, hne, hmetadata, hflags⟩

/-- A build breaks off on an object in place of the metadata that has no identifier, if one is
looked for. -/
theorem breaksOff_build_iff : BreaksOff b.build f ↔
    b.mediaId.isTruthy = false ∧ b.metadata.isNone = false ∧
      b.metadata.mediaId = .error .missingPart ∧ f = .missingPart := by
  rw [build, breaksOff_bind_iff fun _ => Item.faultsIn_ofValues _ _ _, effectiveMediaId]
  cases b.mediaId.isTruthy with
  | true => exact iff_of_false (faultsIn_ok _).not_breaksOff nofun
  | false =>
    cases b.metadata.isNone with
    | true => exact iff_of_false (faultsIn_ok _).not_breaksOff nofun
    | false =>
      constructor
      · rintro ⟨herror, -⟩
        cases Value.eq_missingPart_of_mediaId herror
        exact ⟨rfl, rfl, herror, rfl⟩
      · rintro ⟨-, -, herror, rfl⟩
        exact ⟨herror, id⟩

end ItemBuilder

end MediaBridge
