import MediaBridge.Proofs.Item.RoundTrip
import MediaBridge.Proofs.Metadata.Reachable

/-!
# Lists of items

A list is converted member by member. The first member that fails decides, and otherwise the members
that count have their counterparts in order (`convertAll_inOrder`). What becomes of a list of items
becomes a list of items with the same identifiers and flags again. Main statement:
`Item.lists_convert`.
-/

namespace MediaBridge

/-! ## Conversion in order -/

section

variable {α β γ : Type} {convert : α → Except Fault (Option β)} {counts : α → Bool}

/-- What is made of a list whose members are converted in order, of which only some count. -/
structure ConvertedInOrder (convert : α → Except Fault (Option β)) (counts : α → Bool)
    (xs : List α) (result : Except Fault (List β)) : Prop where
  fails_iff : (∃ f, result = .error f) ↔ ∃ x ∈ xs, Fails convert x
  /-- The first member that fails decides. -/
  fault_iff (f : Fault) :
    result = .error f ↔ ∃ x, IsFirst (Fails convert) xs x ∧ convert x = .error f
  /-- Exactly the members that count have a counterpart. -/
  counterparts {ys : List β} (h : result = .ok ys) :
    (xs.filter counts).Forall₂ (fun x y => convert x = .ok (some y)) ys

theorem convertAll_eq_error_iff {xs : List α} {f : Fault} :
    convertAll convert xs = .error f ↔
      ∃ x, IsFirst (Fails convert) xs x ∧ convert x = .error f := by
  rw [← mapM_eq_error_iff, convertAll]
  cases xs.mapM convert with
  | error e => simp only [error_bind, Except.error.injEq]
  | ok bs => exact ⟨nofun, nofun⟩

theorem convertAll_inOrder (hcounts : ∀ x b, convert x = .ok b → b.isSome = counts x)
    (xs : List α) : ConvertedInOrder convert counts xs (convertAll convert xs) where
  fails_iff := by
    rw [← exists_isFirst_iff]
    simp only [convertAll_eq_error_iff]
    constructor
    · rintro ⟨f, x, hx, -⟩
      exact ⟨x, hx⟩
    · rintro ⟨x, hx⟩
      obtain ⟨f, hf⟩ := hx.1
      exact ⟨f, x, hx, hf⟩
  fault_iff _ := convertAll_eq_error_iff
  counterparts {ys} h := by
    obtain ⟨bs, hbs, hys⟩ := bind_eq_ok_iff.1 h
    rw [mapM_eq_ok_iff] at hbs
    cases hys
    clear h
    induction hbs with
    | nil => exact .nil
    | @cons x b xs bs hx hrest ih =>
      have hx' := hcounts x b hx
      cases b with
      | none =>
        rw [List.filter_cons_of_neg (by simp [← hx'])]
        exact ih
      | some y =>
        rw [List.filter_cons_of_pos (by simp [← hx'])]
        exact .cons hx ih

/-- A list all of whose members have counterparts loses none of them. -/
theorem convertAll_of_forall₂ {xs : List α} {ys : List β}
    (h : xs.Forall₂ (fun x y => convert x = .ok (some y)) ys) : convertAll convert xs = .ok ys := by
  have hmap : xs.mapM convert = .ok (ys.map some) := by
    rw [mapM_eq_ok_iff, List.forall₂_map_right_iff]
    exact h
  rw [convertAll, hmap]
  simp

/-- Members that are taken on one by one are taken on in order. -/
theorem exists_forall₂ {R : α → β → Prop} {S : β → γ → Prop} {T : α → γ → Prop} {xs : List α}
    {ys : List β} (h : xs.Forall₂ R ys)
    (hstep : ∀ x ∈ xs, ∀ y, R x y → ∃ z, S y z ∧ T x z) :
    ∃ zs, ys.Forall₂ S zs ∧ xs.Forall₂ T zs := by
  induction h with
  | nil => exact ⟨[], .nil, .nil⟩
  | cons hxy _ ih =>
    obtain ⟨z, hS, hT⟩ := hstep _ List.mem_cons_self _ hxy
    obtain ⟨zs, hSs, hTs⟩ := ih fun x hx => hstep x (List.mem_cons_of_mem _ hx)
    exact ⟨z :: zs, .cons hS hSs, .cons hT hTs⟩

end

/-! ## Members that count -/

namespace Value

/-- Whether a value is a legacy item with an identifier. -/
def hasMediaId : Value → Bool
  | .legacyItem i => (LegacyItem.mediaId i).isTruthy
  | _ => false

variable {v : Value}

theorem isSome_of_toLegacyItem {l : Option LegacyItem} (h : v.toLegacyItem = .ok l) :
    l.isSome = !v.isNone := by
  cases v with
  | none =>
    cases h
    rfl
  | item i =>
    obtain ⟨l', -, hl'⟩ := bind_eq_ok_iff.1 h
    cases hl'
    rfl
  | _ => cases h

theorem isSome_of_toItem {i : Option Item} (h : v.toItem = .ok i) : i.isSome = v.hasMediaId := by
  cases v with
  | none =>
    cases h
    rfl
  | legacyItem l =>
    rw [toItem, LegacyItem.toItem] at h
    rw [hasMediaId]
    split at h
    · next hid =>
      cases h
      rw [Bool.not_eq_true'] at hid
      rw [hid]
      rfl
    · next hid =>
      obtain ⟨m, -, h⟩ := bind_eq_ok_iff.1 h
      obtain ⟨i', -, h⟩ := bind_eq_ok_iff.1 h
      cases h
      rw [Bool.not_eq_true', Bool.not_eq_false] at hid
      rw [hid]
      rfl
  | description d =>
    obtain ⟨id, -, h⟩ := bind_eq_ok_iff.1 h
    split at h
    · cases h
      rfl
    · obtain ⟨m, -, h⟩ := bind_eq_ok_iff.1 h
      cases h
  | _ =>
    obtain ⟨id, -, h⟩ := bind_eq_ok_iff.1 h
    split at h <;> cases h
    rfl

end Value

/-! ## Items there and back -/

/-- An item as it can be made: its identifier is not empty, and its metadata, if it has any, were
built. -/
structure Item.Proper (i : Item) : Prop where
  mediaId : i.mediaId.isEmpty = false
  metadata : ∀ m ∈ i.metadata, ∃ b : MetadataBuilder, b.Reachable ∧ b.build = .ok m

theorem Value.canonicalUri_of_optionalUri {v u : Value} (hv : v.asText = .ok v)
    (h : v.optionalUri = .ok u) : u.canonicalUri = .ok v.uriText := by
  cases hf : v.uriFault? with
  | some f => cases (optionalUri_of_uriFault? hf).symm.trans h
  | none =>
    obtain ⟨u', hu', hcanonical⟩ := exists_optionalUri hv hf
    cases hu'.symm.trans h
    exact hcanonical

namespace Item.Proper

variable {i : Item} {l : LegacyItem}

theorem built (h : i.Proper) : ∀ m ∈ i.metadata, Metadata.Built m := by
  intro m hm
  obtain ⟨b, hb, hbuild⟩ := h.metadata m hm
  cases (MetadataBuilder.build_of_fits hb.built.fits).symm.trans hbuild
  exact hb.built

/-- What an item becomes is an item with its identifier and its flags again. -/
theorem exists_toItem (h : i.Proper) (hl : i.toLegacy = .ok l) :
    ∃ j, LegacyItem.toItem l = .ok (some j) ∧ j.mediaId = i.mediaId ∧
      j.flags.toInt = i.flags.toInt := by
  rw [toLegacy_eq h.built] at hl
  obtain ⟨iconUri, hicon, hl⟩ := bind_eq_ok_iff.1 hl
  obtain ⟨mediaUri, hmedia, hl⟩ := bind_eq_ok_iff.1 hl
  cases hl
  have hiconText := Value.canonicalUri_of_optionalUri (asText_contentAt h.built rfl) hicon
  have hmediaText := Value.canonicalUri_of_optionalUri (asText_contentAt h.built rfl) hmedia
  have hmetadata := toMetadata_display h.built hiconText hmediaText
  exact ⟨_, toItem_of_toMetadata rfl h.mediaId hmetadata, rfl, rfl⟩

end Item.Proper

/-! ## Lists -/

namespace Item

/-- Lists are converted in order, with the first fault or without the members that do not count, and
a list of items that becomes a list of legacy items becomes a list of items with the same
identifiers and flags again. -/
theorem lists_convert :
    (∀ vs, ConvertedInOrder Value.toLegacyItem (!·.isNone) vs (Value.list vs).toLegacyItems) ∧
    (∀ vs, (∀ v ∈ vs, v = .none ∨ ∃ i : Item, v = .item i ∧ i.Proper) →
      ∀ ls, (Value.list vs).toLegacyItems = .ok ls →
        ∃ js, (Value.list (ls.map .legacyItem)).toItems = .ok js ∧
          ls.Forall₂ (fun l j => LegacyItem.toItem l = .ok (some j)) js ∧
          (vs.filter (!·.isNone)).Forall₂ (fun v j => ∃ i, v = .item i ∧
            j.mediaId = i.mediaId ∧ j.flags.toInt = i.flags.toInt) js) ∧
    ∀ vs, ConvertedInOrder Value.toItem Value.hasMediaId vs (Value.list vs).toItems := by
  have hto (vs : List Value) :
      ConvertedInOrder Value.toLegacyItem (!·.isNone) vs (Value.list vs).toLegacyItems :=
    convertAll_inOrder (fun _ _ => Value.isSome_of_toLegacyItem) vs
  refine ⟨hto, fun vs hvs ls hls => ?_, convertAll_inOrder fun _ _ => Value.isSome_of_toItem⟩
  obtain ⟨js, hjs, hsame⟩ := exists_forall₂ ((hto vs).counterparts hls)
    (S := fun l j => LegacyItem.toItem l = .ok (some j))
    (T := fun v j => ∃ i, v = .item i ∧ j.mediaId = i.mediaId ∧ j.flags.toInt = i.flags.toInt)
    fun v hv l hl => by
      obtain ⟨hmem, hcounts⟩ := List.mem_filter.1 hv
      rcases hvs v hmem with rfl | ⟨i, rfl, hi⟩
      · cases hcounts
      · obtain ⟨l', hl', heq⟩ := bind_eq_ok_iff.1 hl
        cases heq
        obtain ⟨j, hj, hid, hflags⟩ := hi.exists_toItem hl'
        exact ⟨j, hj, i, rfl, hid, hflags⟩
  refine ⟨js, ?_, hjs, hsame⟩
  exact convertAll_of_forall₂ (List.forall₂_map_left_iff.2 hjs)

theorem lists_convert_uri :
    ∃ ls js, (Value.list [.item ⟨.plain "a", none, .plain 1⟩, .none,
        .item ⟨.plain "b", some ⟨[(.ofKey .mediaUri, ⟨some .text, .ofString "HTTP://h"⟩)]⟩,
          .plain (-2)⟩]).toLegacyItems = .ok ls ∧
      (Value.list (ls.map .legacyItem)).toItems = .ok js ∧
      js.map (·.mediaId) = [.plain "a", .plain "b"] ∧ js.map (·.flags.toInt) = [1, -2] := by
  have hbuild : (({} : MetadataBuilder).applyAll
      [.text (.ofKey .mediaUri) (.ofString "HTTP://h")]).build =
      .ok ⟨[(.ofKey .mediaUri, ⟨some .text, .ofString "HTTP://h"⟩)]⟩ := rfl
  have hvs : ∀ v ∈ [Value.item ⟨.plain "a", none, .plain 1⟩, .none,
      .item ⟨.plain "b", some ⟨[(.ofKey .mediaUri, ⟨some .text, .ofString "HTTP://h"⟩)]⟩,
        .plain (-2)⟩], v = .none ∨ ∃ i : Item, v = .item i ∧ i.Proper := by
    intro v hv
    simp only [List.mem_cons, List.not_mem_nil, or_false] at hv
    rcases hv with rfl | rfl | rfl
    · exact .inr ⟨_, rfl, by decide, nofun⟩
    · exact .inl rfl
    · refine .inr ⟨_, rfl, by decide, ?_⟩
      rintro _ ⟨⟩
      exact ⟨_, .applyAll .empty _, hbuild⟩
  obtain ⟨js, hjs, -, hsame⟩ := lists_convert.2.1 _ hvs _ rfl
  change List.Forall₂ _ [Value.item _, .item _] js at hsame
  rcases hsame with _ | ⟨⟨_, hi, hid, hflags⟩, _ | ⟨⟨_, hi', hid', hflags'⟩, _ | _⟩⟩
  cases hi
  cases hi'
  refine ⟨_, _, rfl, hjs, ?_, ?_⟩
  · simp only [List.map_cons, List.map_nil, hid, hid']
  · simp only [List.map_cons, List.map_nil, hflags, hflags']
    rfl

end Item

end MediaBridge
