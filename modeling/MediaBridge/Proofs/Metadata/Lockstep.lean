import Mathlib.Data.List.Forall2
import MediaBridge.Proofs.Metadata.ToLegacy

/-!
# Builders of the two schemas side by side

A setter of the new schema and the corresponding setter of the legacy schema fail with the same
fault or keep the bags of their builders in step: the legacy bag has the legacy content of every
entry, in order (`MetadataBuilder.toLegacy_apply`). Main statement:
`MetadataBuilder.toLegacy_build`, building and converting commute.
-/

namespace MediaBridge

/-! ## Corresponding setters -/

/-- A setter of the legacy schema is given the key and the value of a setter of the new schema, or
the legacy rating of its rating. -/
inductive MetadataSetter.Corresponds : MetadataSetter → LegacyMetadataSetter → Prop
  | text (key value : Value) : Corresponds (.text key value) (.text key value)
  | long (key value : Value) : Corresponds (.long key value) (.long key value)
  | bitmap (key value : Value) : Corresponds (.bitmap key value) (.bitmap key value)
  | rating (key : Value) {value : Value} {log : List LogRecord} {l : Option LegacyRating}
    (h : value.ratingToLegacy = ⟨log, .ok l⟩) :
    Corresponds (.rating key value) (.rating key (.ofOption .legacyRating l))

/-- What is stored in the legacy schema in place of what is stored in the new schema. -/
def Change.toLegacy (c : Change) : Change :=
  { c with value := Entry.legacyContent ⟨some c.kind, c.value⟩ }

namespace MetadataSetter

variable {call : MetadataSetter} {call' : LegacyMetadataSetter} {c : Change}

/-- Content that is the same in both schemas is stored in both. -/
theorem change_eq_of_legacyContent {x : Except Fault Value} (key : Value) (kind : ValueKind)
    (h : ∀ v, x = .ok v → Entry.legacyContent ⟨some kind, v⟩ = v) :
    (do return ⟨key, kind, ← x⟩ : Except Fault Change) =
      Change.toLegacy <$> (do return ⟨key, kind, ← x⟩) := by
  cases x with
  | error f => rfl
  | ok v =>
    change Except.ok _ = Except.ok _
    rw [Change.toLegacy, h v rfl]

/-- Corresponding setters refuse their values with the same fault, or store what corresponds. -/
theorem Corresponds.change_eq (h : call.Corresponds call') (hs : call.Sound) :
    call'.change = Change.toLegacy <$> call.change := by
  cases h with
  | text key value =>
    refine change_eq_of_legacyContent key .text fun v hv => ?_
    obtain rfl | ⟨w, rfl⟩ := Value.asText_cases hv <;> rfl
  | long key value =>
    refine change_eq_of_legacyContent key .long fun v hv => ?_
    rw [Value.asLong_eq] at hv
    obtain rfl | ⟨n, -, rfl⟩ := Value.checked_cases hv <;> rfl
  | bitmap key value =>
    refine change_eq_of_legacyContent key .bitmap fun v hv => ?_
    rw [Value.asBitmap_eq] at hv
    obtain rfl | ⟨name, -, rfl⟩ := Value.checked_cases hv <;> rfl
  | @rating key value log l h =>
    cases value with
    | none =>
      cases h
      rfl
    | rating r =>
      have hconstructible : r.Constructible := hs
      obtain ⟨l', hl', -⟩ := hconstructible.exists_toLegacy
      cases hl'.symm.trans h
      change Except.ok _ = Except.ok _
      rw [Change.toLegacy, Entry.legacyContent_rating hl']
    | _ => cases h

theorem isNone_toLegacy (h : call.change = .ok c) (hs : call.Sound) :
    c.toLegacy.value.isNone = c.value.isNone := by
  obtain ⟨key, kind, value⟩ := c
  cases value with
  | rating r =>
    rw [rating_of_change h rfl] at hs
    have hconstructible : r.Constructible := hs
    obtain ⟨l, hl, -⟩ := hconstructible.exists_toLegacy
    rw [Change.toLegacy, Entry.legacyContent_rating hl]
    rfl
  | _ => rfl

/-- The legacy schema knows the kind of what a setter stores if it knows the setter. -/
theorem Corresponds.isNative (h : call.Corresponds call') (hc : call.change = .ok c) :
    Entry.isNative ⟨some c.kind, c.value⟩ = true := by
  cases h <;>
  · obtain ⟨v, -, hv⟩ := bind_eq_ok_iff.1 hc
    cases hv
    rfl

end MetadataSetter

/-! ## One call -/

namespace MetadataBuilder

variable {b b' : MetadataBuilder} {call : MetadataSetter} {call' : LegacyMetadataSetter}
  {c : Change} {calls : List MetadataSetter} {calls' : List LegacyMetadataSetter}

/-- The builder of the legacy schema with the legacy content of every entry. -/
def toLegacy (b : MetadataBuilder) : LegacyMetadataBuilder :=
  ⟨b.entries.mapValues Entry.legacyContent⟩

theorem toLegacy_store (hv : c.toLegacy.value.isNone = c.value.isNone) :
    b.toLegacy.store c.toLegacy = toLegacy <$> b.store c := by
  rw [store_eq, LegacyMetadataBuilder.store_eq, hv]
  change (c.key.checkKey c.kind >>= _) = _
  cases c.key.checkKey c.kind with
  | error f => rfl
  | ok =>
    cases c.value.isNone with
    | true =>
      have herase := OrderedMap.mapValues_erase Entry.legacyContent b.entries c.key
      exact congrArg (fun raw => Except.ok (LegacyMetadataBuilder.mk raw)) herase.symm
    | false =>
      have hinsert := OrderedMap.mapValues_insert Entry.legacyContent b.entries c.key
        ⟨some c.kind, c.value⟩
      exact congrArg (fun raw => Except.ok (LegacyMetadataBuilder.mk raw)) hinsert.symm

/-- Corresponding calls fail with the same fault or keep the builders in step. -/
theorem toLegacy_apply (h : call.Corresponds call') (hs : call.Sound) (b : MetadataBuilder) :
    b.toLegacy.apply call' = toLegacy <$> b.apply call := by
  rw [apply, LegacyMetadataBuilder.apply, h.change_eq hs]
  cases hc : call.change with
  | error f => rfl
  | ok c => exact toLegacy_store (MetadataSetter.isNone_toLegacy hc hs)

/-! ## A run -/

/-- Any number of corresponding calls, failed ones included, keep the builders in step. -/
theorem toLegacy_applyAll (h : calls.Forall₂ MetadataSetter.Corresponds calls')
    (hs : ∀ call ∈ calls, call.Sound) (b : MetadataBuilder) :
    b.toLegacy.applyAll calls' = (b.applyAll calls).toLegacy := by
  induction h generalizing b with
  | nil => rfl
  | @cons call call' calls calls' h _ ih =>
    have hrest : ∀ call ∈ calls, call.Sound :=
      fun call hmem => hs call (List.mem_cons_of_mem _ hmem)
    have hstep : (b.toLegacy.apply call').toOption.getD b.toLegacy =
        ((b.apply call).toOption.getD b).toLegacy := by
      rw [toLegacy_apply h (hs call List.mem_cons_self)]
      cases b.apply call <;> rfl
    change ((b.toLegacy.apply call').toOption.getD b.toLegacy).applyAll calls' = _
    rw [hstep]
    exact ih hrest _

theorem isNative_apply (h : call.Corresponds call') (hb : ∀ e ∈ b.entries.toList, e.2.isNative)
    (happly : b.apply call = .ok b') : ∀ e ∈ b'.entries.toList, e.2.isNative := by
  intro e hmem
  rcases mem_apply happly hmem with hmem | ⟨c, hc, -, -, -, he, -⟩
  · exact hb e hmem
  · rw [he]
    exact h.isNative hc

theorem isNative_applyAll (h : calls.Forall₂ MetadataSetter.Corresponds calls')
    (hb : ∀ e ∈ b.entries.toList, e.2.isNative) :
    ∀ e ∈ (b.applyAll calls).entries.toList, e.2.isNative := by
  have hcalls : ∀ call ∈ calls, ∃ call', call.Corresponds call' :=
    ((List.forall₂_and_left _ _).1 (h.imp fun _ _ h => ⟨⟨_, h⟩, h⟩)).1
  refine applyAll_preserves (P := fun b => ∀ e ∈ b.entries.toList, e.2.isNative) ?_ hb
  intro call hmem b b' hb happly
  obtain ⟨call', h⟩ := hcalls call hmem
  exact isNative_apply h hb happly

end MetadataBuilder

/-- Native metadata become legacy metadata with the legacy content of every entry, in order and
without a report. -/
theorem Metadata.toLegacy_of_native {m : Metadata} (hb : m.Built) (hs : m.Sound)
    (hn : ∀ e ∈ m.toList, e.2.isNative) (config : ConversionConfig) :
    m.toLegacy config = ⟨[], .ok (m.mapValues Entry.legacyContent)⟩ := by
  have hnative : m.toList.filter (·.2.isNative) = m.toList := List.filter_eq_self.2 hn
  have hothers (p : Value × Entry → Bool) :
      m.toList.filter (fun e => p e && !e.2.isNative) = [] := by
    refine List.filter_eq_nil_iff.2 fun e hmem hp => ?_
    rw [hn e hmem, Bool.not_true, Bool.and_false] at hp
    cases hp
  rw [toLegacy_of_fits config hb.distinct hb.fits hs, hnative, hothers, hothers, List.append_nil]
  rfl

namespace MetadataBuilder

variable {calls : List MetadataSetter} {calls' : List LegacyMetadataSetter}

/-- Building and converting commute: in a run of corresponding calls every call fails in both
schemas with the same fault or in none, and the metadata that are built become the legacy metadata
that are built. -/
theorem toLegacy_build (h : calls.Forall₂ MetadataSetter.Corresponds calls')
    (hs : ∀ call ∈ calls, call.Sound) :
    (∀ n call call', calls[n]? = some call → calls'[n]? = some call' → ∀ f,
        ((applyAll {} (calls.take n)).apply call = .error f ↔
          (LegacyMetadataBuilder.applyAll {} (calls'.take n)).apply call' = .error f)) ∧
      ∃ m : Metadata, (applyAll {} calls).build = .ok m ∧
        ∀ config, m.toLegacy config =
          ⟨[], .ok (LegacyMetadataBuilder.applyAll {} calls').build⟩ := by
  have hempty : toLegacy {} = {} := rfl
  constructor
  · intro n call call' hcall hcall' f
    obtain ⟨hlt, rfl⟩ := List.getElem?_eq_some_iff.1 hcall
    obtain ⟨hlt', rfl⟩ := List.getElem?_eq_some_iff.1 hcall'
    have hbefore : ∀ call ∈ calls.take n, call.Sound := fun call hmem =>
      hs call (List.mem_of_mem_take hmem)
    have hrun := toLegacy_applyAll (List.forall₂_take n h) hbefore {}
    have hstep := toLegacy_apply (h.get hlt hlt') (hs _ (List.getElem_mem hlt))
      (applyAll {} (calls.take n))
    rw [← hempty, hrun]
    simp only [List.get_eq_getElem] at hstep
    rw [hstep]
    cases (applyAll {} (calls.take n)).apply calls[n] with
    | error f' => simp
    | ok b => simp
  · have hb : Metadata.Built (applyAll {} calls).entries := Metadata.Built.empty.applyAll calls
    have hsound : Metadata.Sound (applyAll {} calls).entries := Metadata.Sound.empty.applyAll hs
    have hnative := isNative_applyAll (b := {}) h fun e hmem => absurd hmem List.not_mem_nil
    refine ⟨_, build_of_fits hb.fits, fun config => ?_⟩
    rw [Metadata.toLegacy_of_native hb hsound hnative, ← hempty, toLegacy_applyAll h hs]
    rfl

theorem toLegacy_build_reinserted :
    (LegacyMetadataBuilder.applyAll {} [.text (.ofString "a") (.ofInt 3),
          .rating (.ofString "b") (.legacyRating ⟨.plain 6, notRated⟩),
          .text (.ofString "a") .none]).apply (.long (.ofKey .title) (.ofInt 4)) =
        .error (.invalid (.wrongKind (.ofKey .title) .text .long)) ∧
      ∃ m : Metadata, (applyAll {} [.text (.ofString "a") (.ofInt 3),
          .rating (.ofString "b") (.rating ⟨.percentage, none⟩), .text (.ofString "a") .none,
          .long (.ofKey .title) (.ofInt 4), .long (.ofString "a") (.ofInt 5)]).build = .ok m ∧
        m.toLegacy {} = ⟨[], .ok ⟨[(.ofString "b", .legacyRating ⟨.plain 6, notRated⟩),
          (.ofString "a", .ofInt 5)]⟩⟩ := by
  have hunrated : (Value.rating ⟨.percentage, none⟩).ratingToLegacy =
      ⟨[], .ok (some ⟨.plain 6, notRated⟩)⟩ := rfl
  have h : [MetadataSetter.text (.ofString "a") (.ofInt 3),
      .rating (.ofString "b") (.rating ⟨.percentage, none⟩), .text (.ofString "a") .none,
      .long (.ofKey .title) (.ofInt 4), .long (.ofString "a") (.ofInt 5)].Forall₂
        MetadataSetter.Corresponds [.text (.ofString "a") (.ofInt 3),
      .rating (.ofString "b") (.legacyRating ⟨.plain 6, notRated⟩), .text (.ofString "a") .none,
      .long (.ofKey .title) (.ofInt 4), .long (.ofString "a") (.ofInt 5)] :=
    .cons (.text _ _) (.cons (.rating _ hunrated)
      (.cons (.text _ _) (.cons (.long _ _) (.cons (.long _ _) .nil))))
  have hrating : Rating.Constructible ⟨.percentage, none⟩ := Rating.constructible_iff.2 (.inl rfl)
  obtain ⟨hfaults, m, hm, hlegacy⟩ := toLegacy_build h (by simp [MetadataSetter.Sound, hrating])
  exact ⟨(hfaults 3 _ _ rfl rfl _).1 rfl, m, hm, hlegacy {}⟩

end MetadataBuilder

end MediaBridge
