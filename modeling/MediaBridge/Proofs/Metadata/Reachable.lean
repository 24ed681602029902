import MediaBridge.Proofs.Metadata.Built

/-!
# Builders that come about

A builder of metadata starts empty or with the entries of metadata that were built before, and every
run of calls keeps up the invariant of built metadata, which is more than the last check of a build
asks for. Main statement: `MetadataBuilder.Reachable.exists_build`.
-/

namespace MediaBridge

/-! ## The key for extras -/

theorem declaredKind?_eq_extras_iff {s : String} :
    declaredKind? s = some .extras ↔ s = MetadataKey.extras.identifier := by
  constructor
  · intro h
    obtain ⟨k, hk, hkind⟩ := Option.map_eq_some_iff.1 h
    rw [← MetadataKey.identifier_of_ofIdentifier? hk]
    cases k <;> first | rfl | cases hkind
  · rintro rfl
    exact declaredKind?_identifier .extras

/-- One key is bound to extras. -/
theorem Value.boundKind?_eq_extras_iff {key : Value} :
    key.boundKind? = some .extras ↔ key.text? = some MetadataKey.extras.identifier := by
  rw [boundKind?, Option.bind_eq_some_iff]
  simp only [declaredKind?_eq_extras_iff, exists_eq_right]

/-! ## Builders -/

namespace MetadataBuilder

/-- The builders that come about: empty ones, ones that start with what such a builder has built,
and what calls make of them, failed calls included. -/
inductive Reachable : MetadataBuilder → Prop
  | empty : Reachable {}
  | ofSource {b : MetadataBuilder} {source : Metadata} (h : Reachable b)
    (hsource : b.build = .ok source) : Reachable (ofSource source)
  | applyAll {b : MetadataBuilder} (h : Reachable b) (calls : List MetadataSetter) :
    Reachable (b.applyAll calls)

variable {b : MetadataBuilder}

theorem Reachable.built (h : b.Reachable) : b.entries.Built := by
  induction h with
  | empty => exact .empty
  | ofSource _ hsource ih =>
    cases (build_of_fits ih.fits).symm.trans hsource
    exact ih
  | applyAll _ calls ih => exact ih.applyAll calls

/-- A builder that comes about always builds. In what it builds every key is a text that is not
empty and occurs once, a key of the vocabulary has its declared kind, all content is of the kind of
its tag, and extras are at the key for extras only. -/
theorem Reachable.exists_build (h : b.Reachable) :
    ∃ m, b.build = .ok m ∧ m.Distinct ∧ ∀ key e, (key, e) ∈ m.toList →
      key.IsName ∧ (∀ kind, key.boundKind? = some kind → e.kind = some kind) ∧ e.Typed ∧
        (e.kind = some .extras → key.text? = some MetadataKey.extras.identifier) := by
  have hbuilt := h.built
  refine ⟨b.entries, build_of_fits hbuilt.fits, hbuilt.distinct, fun key e hmem => ?_⟩
  have hfits := hbuilt.fits key e hmem
  refine ⟨hfits.isName, fun kind => hfits.kind_eq, hfits.typed, fun hkind => ?_⟩
  obtain ⟨rfl, -⟩ := hbuilt.extras key e hmem hkind
  rfl

theorem exists_build_restarted :
    ∃ m, ((ofSource ⟨[(.ofKey .title, ⟨some .text, .ofString "a"⟩)]⟩).applyAll
        [.long (.ofKey .title) (.ofInt 3), .float (.ofInt 1) (.real .one), .extras (.ofInt 5),
          .extras (.map false .empty), .text (.ofString "") (.ofInt 4)]).build = .ok m ∧
      m.toList = [(.ofKey .title, ⟨some .text, .ofString "a"⟩),
        (.ofKey .extras, ⟨some .extras, .map true .empty⟩)] ∧ m.Distinct := by
  have hsource : (({} : MetadataBuilder).applyAll
      [.text (.ofKey .title) (.ofString "a")]).build =
      .ok ⟨[(.ofKey .title, ⟨some .text, .ofString "a"⟩)]⟩ := rfl
  have h := (Reachable.ofSource (.applyAll .empty _) hsource).applyAll
    [.long (.ofKey .title) (.ofInt 3), .float (.ofInt 1) (.real .one), .extras (.ofInt 5),
      .extras (.map false .empty), .text (.ofString "") (.ofInt 4)]
  obtain ⟨m, hm, hdistinct, -⟩ := h.exists_build
  refine ⟨m, hm, ?_, hdistinct⟩
  cases hm
  rfl

end MetadataBuilder

end MediaBridge
