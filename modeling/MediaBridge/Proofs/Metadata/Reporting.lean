import MediaBridge.Proofs.Metadata.ToLegacy

/-!
# Conversions with and without reports

A conversion of metadata looks at the switch for reports once, between its passes. With the switch
on, a dropped key that is no text makes it fail; nothing else depends on the switch. Main statement:
`ConversionConfig.result_eq_iff`.
-/

namespace MediaBridge

/-! ## Reports -/

variable {c c' : ConversionConfig} {direction : String} {keys : List Value}

theorem keyTexts_eq (keys : List Value) :
    keyTexts keys = if keys.all (·.text?.isSome) then .ok (keys.filterMap (·.text?))
      else .error .unsuitable := by
  induction keys with
  | nil => rfl
  | cons key keys ih =>
    rw [keyTexts, List.mapM_cons, ← keyTexts, ih, List.all_cons, List.filterMap_cons]
    cases key.text? with
    | none => rfl
    | some s =>
      cases keys.all (·.text?.isSome) with
      | false => rfl
      | true => rfl

/-- What is reported about dropped keys: one record with their number and their texts, if there are
any and the configuration says so. -/
def ConversionConfig.dropRecords (c : ConversionConfig) (direction : String) (keys : List Value) :
    List LogRecord :=
  if keys = [] ∨ c.logDroppedKeys = false then []
  else [⟨metadataLogger, direction ++ ": dropped " ++ toString keys.length ++
    " unsupported value(s): " ++ ", ".intercalate (keys.filterMap (·.text?))⟩]

theorem reportDropped_of_texts (h : ∀ key ∈ keys, key.text?.isSome) :
    reportDropped direction keys c = ⟨c.dropRecords direction keys, .ok ()⟩ := by
  have hall : keys.all (·.text?.isSome) = true := List.all_eq_true.2 h
  rw [reportDropped, ConversionConfig.dropRecords, keyTexts_eq, if_pos hall]
  cases c.logDroppedKeys with
  | false => simp [Traced.pure_def]
  | true =>
    cases keys with
    | nil => rfl
    | cons key keys => simp [Traced.report]

theorem result_reportDropped : (reportDropped direction keys c).result =
    if c.logDroppedKeys && !keys.all (·.text?.isSome) then .error .unsuitable else .ok () := by
  rw [reportDropped]
  cases hlog : c.logDroppedKeys with
  | false => simp
  | true =>
    cases keys with
    | nil => rfl
    | cons key keys =>
      simp only [List.isEmpty_cons, Bool.not_false, Bool.true_and, if_true, Traced.result_bind,
        Traced.result_liftM, keyTexts_eq]
      cases List.all (key :: keys) (·.text?.isSome) with
      | false => rfl
      | true => rfl

/-- Two runs that report the same keys, one of them with the switch on, have the same result if and
only if all these keys are texts. -/
theorem reported_eq_iff {α β : Type} {pass : Except Fault α} {keys : α → List Value}
    {rest : α → Except Fault β} (hlog : c.logDroppedKeys ≠ c'.logDroppedKeys)
    (hrest : ∀ d, pass = .ok d → rest d ≠ .error .unsuitable) :
    (do
      let d ← pass
      (reportDropped direction (keys d) c).result
      rest d) = (do
      let d ← pass
      (reportDropped direction (keys d) c').result
      rest d) ↔ ∀ key, (∃ d, pass = .ok d ∧ key ∈ keys d) → key.text?.isSome := by
  cases pass with
  | error f => exact iff_of_true rfl fun _ => nofun
  | ok d =>
    have hd := hrest d rfl
    simp only [ok_bind, result_reportDropped, Except.ok.injEq, exists_eq_left', ← List.all_eq_true]
    revert hlog
    cases (keys d).all (·.text?.isSome) with
    | true => simp
    | false =>
      cases c.logDroppedKeys <;> cases c'.logDroppedKeys <;> simp [hd, eq_comm]

/-! ## To the legacy schema -/

/-- Whether an entry is lost on the way to the legacy schema: a rating that has no counterpart, or
an entry of a kind that is neither native nor kept. -/
def Entry.IsLost (config : ConversionConfig) (key : Value) (e : Entry) : Prop :=
  match e.kind with
  | some .rating => e.content.ratingToLegacy.result = .ok none
  | some .text | some .long | some .bitmap => False
  | _ => config.keeps key e = false

namespace LegacyDraft

variable {d d' : LegacyDraft} {key key' : Value} {e : Entry} {l : List (Value × Entry)}

/-- The keys that are reported after the pass over all entries. -/
def lost (d : LegacyDraft) (config : ConversionConfig) : List Value :=
  d.dropped ++ (d.skipped.filter fun e => !config.keeps e.1 e.2).map (·.1)

/-- What follows the report: the skipped entries that are kept are added. -/
def finish (d : LegacyDraft) (config : ConversionConfig) : Except Fault LegacyMetadata :=
  let kept := d.skipped.filter fun e => config.keeps e.1 e.2
  LegacyMetadata.extend d.bag.build (.ofList (kept.map fun e => (e.1, e.2.content)))

theorem finish_ne_unsuitable : d.finish c ≠ .error .unsuitable := by
  intro h
  obtain ⟨⟨key, value⟩, -, m, hstep⟩ := exists_of_foldlM_eq_error h
  cases value <;> cases hstep

theorem bag_of_apply {call : LegacyMetadataSetter}
    (h : (do return { d with bag := ← d.bag.apply call } : Traced LegacyDraft).result = .ok d') :
    ∃ b, d' = { d with bag := b } := by
  rw [Traced.result_bind, Traced.result_liftM] at h
  obtain ⟨b, -, hb⟩ := bind_eq_ok_iff.1 h
  exact ⟨b, (Except.ok.inj hb).symm⟩

/-- Everything that taking an entry into account does. -/
theorem add_cases (h : (d.add key e).result = .ok d') :
    (∃ b, d' = { d with bag := b }) ∧ (∀ c, ¬ e.IsLost c key) ∨
    d' = { d with dropped := d.dropped ++ [key] } ∧ (∀ c, e.IsLost c key) ∨
    d' = { d with skipped := d.skipped ++ [(key, e)] } ∧
      ∀ c, e.IsLost c key ↔ c.keeps key e = false := by
  obtain ⟨kind, content⟩ := e
  cases kind with
  | none => exact .inr (.inr ⟨(Except.ok.inj h).symm, fun _ => Iff.rfl⟩)
  | some kind =>
    cases kind with
    | text | bitmap | long => exact .inl ⟨bag_of_apply h, fun _ => id⟩
    | float | extras => exact .inr (.inr ⟨(Except.ok.inj h).symm, fun _ => Iff.rfl⟩)
    | rating =>
      simp only [add, Traced.result_bind] at h
      obtain ⟨o, ho, h⟩ := bind_eq_ok_iff.1 h
      cases o with
      | none => exact .inr (.inl ⟨(Except.ok.inj h).symm, fun _ => ho⟩)
      | some r =>
        refine .inl ⟨bag_of_apply h, fun _ hlost => ?_⟩
        cases ho.symm.trans hlost

theorem mem_lost_add (h : (d.add key e).result = .ok d') :
    key' ∈ d'.lost c ↔ key' ∈ d.lost c ∨ key' = key ∧ e.IsLost c key := by
  rcases add_cases h with ⟨⟨b, rfl⟩, hlost⟩ | ⟨rfl, hlost⟩ | ⟨rfl, hlost⟩
  · simp [lost, hlost c]
  · simp only [lost, hlost c, List.mem_append, List.mem_singleton, and_true]
    exact or_right_comm
  · rw [hlost c]
    cases hkeeps : c.keeps key e with
    | false => simp [lost, hkeeps, or_assoc]
    | true => simp [lost, hkeeps]

end LegacyDraft

theorem ConversionConfig.keeps_congr (hfloats : c.keepFloatValues = c'.keepFloatValues)
    (hextras : c.keepExtras = c'.keepExtras) : c.keeps = c'.keeps := by
  funext key e
  rw [keeps, keeps, hfloats, hextras]

namespace Metadata

/-- The pass over all entries. -/
def firstPass (m : Metadata) : Except Fault LegacyDraft :=
  m.toList.foldlM (fun d e => (d.add e.1 e.2).result) {}

/-- Whether a key is dropped on the way to the legacy schema: no entry is refused, and an entry with
this key is lost. -/
def Drops (config : ConversionConfig) (m : Metadata) (key : Value) : Prop :=
  (∃ draft, m.firstPass = .ok draft) ∧ ∃ e, (key, e) ∈ m.toList ∧ e.IsLost config key

theorem drops_iff {m : Metadata} {key : Value} :
    m.Drops c key ↔ ∃ d, m.firstPass = .ok d ∧ key ∈ d.lost c := by
  have hlost {d : LegacyDraft} (hd : m.firstPass = .ok d) :=
    foldlM_iff (P := fun d => key ∈ LegacyDraft.lost d c)
      (Q := fun e => key = e.1 ∧ e.2.IsLost c e.1) (fun _ _ _ => LegacyDraft.mem_lost_add) hd
  constructor
  · rintro ⟨⟨d, hd⟩, e, hmem, he⟩
    exact ⟨d, hd, (hlost hd).2 (.inr ⟨(key, e), hmem, rfl, he⟩)⟩
  · rintro ⟨d, hd, hkey⟩
    rcases (hlost hd).1 hkey with hkey | ⟨e, hmem, rfl, he⟩
    · cases hkey
    · exact ⟨⟨d, hd⟩, e.2, hmem, he⟩

theorem result_toLegacy (m : Metadata) : (m.toLegacy c).result = (do
    let d ← m.firstPass
    (reportDropped "metadata -> legacy" (d.lost c) c).result
    d.finish c) := by
  rw [toLegacy, firstPass, ← Traced.result_foldlM]
  simp only [Traced.result_bind, List.partition_eq_filter_filter]
  rfl

theorem result_toLegacy_eq_iff (hfloats : c.keepFloatValues = c'.keepFloatValues)
    (hextras : c.keepExtras = c'.keepExtras) (hlog : c.logDroppedKeys ≠ c'.logDroppedKeys)
    (m : Metadata) :
    (m.toLegacy c).result = (m.toLegacy c').result ↔ ∀ key, m.Drops c key → key.text?.isSome := by
  have hkeeps := ConversionConfig.keeps_congr hfloats hextras
  have hlost (d : LegacyDraft) : d.lost c' = d.lost c := by
    rw [LegacyDraft.lost, LegacyDraft.lost, hkeeps]
  have hfinish (d : LegacyDraft) : d.finish c' = d.finish c := by
    rw [LegacyDraft.finish, LegacyDraft.finish, hkeeps]
  rw [result_toLegacy, result_toLegacy]
  simp only [hlost, hfinish]
  rw [reported_eq_iff hlog fun d _ => LegacyDraft.finish_ne_unsuitable]
  simp only [drops_iff]

end Metadata

/-! ## To the new schema -/

/-- Whether a value is lost on the way to the new schema: its kind is unknown or not the one its key
is bound to, or it is a rating that has no counterpart. -/
def Value.IsLost (key value : Value) : Prop :=
  match value with
  | .text _ => key.admits .text = false
  | .whole _ => key.admits .long = false
  | .real _ => key.admits .float = false
  | .bitmap _ => key.admits .bitmap = false
  | .legacyRating r => key.admits .rating = false ∨ r.toRating.result = .ok Option.none
  | .map _ _ => key.text? ≠ some MetadataKey.extras.identifier
  | _ => True

namespace MetadataDraft

variable {d d' : MetadataDraft} {key key' value : Value}

theorem bag_of_apply {call : MetadataSetter}
    (h : (do return { d with bag := ← d.bag.apply call } : Traced MetadataDraft).result = .ok d') :
    ∃ call b, d.bag.apply call = .ok b ∧ d' = { d with bag := b } := by
  rw [Traced.result_bind, Traced.result_liftM] at h
  obtain ⟨b, happly, hb⟩ := bind_eq_ok_iff.1 h
  exact ⟨call, b, happly, (Except.ok.inj hb).symm⟩

/-- Everything that taking an entry into account does. -/
theorem add_cases (h : (d.add key value).result = .ok d') :
    (∃ call b, d.bag.apply call = .ok b ∧ d' = { d with bag := b }) ∧ ¬ Value.IsLost key value ∨
    d' = { d with dropped := d.dropped ++ [key] } ∧ Value.IsLost key value := by
  cases value with
  | text | whole | real | bitmap =>
    simp only [add] at h
    split at h
    · next hadmits => exact .inl ⟨bag_of_apply h, by simp [Value.IsLost, hadmits]⟩
    · next hadmits => exact .inr ⟨(Except.ok.inj h).symm, by simpa [Value.IsLost] using hadmits⟩
  | legacyRating r =>
    simp only [add] at h
    split at h
    · next hadmits =>
      rw [Traced.result_bind] at h
      obtain ⟨o, ho, h⟩ := bind_eq_ok_iff.1 h
      cases o with
      | none => exact .inr ⟨(Except.ok.inj h).symm, .inr ho⟩
      | some r => exact .inl ⟨bag_of_apply h, by simp [Value.IsLost, hadmits, ho]⟩
    · next hadmits => exact .inr ⟨(Except.ok.inj h).symm, .inl (Bool.eq_false_iff.2 hadmits)⟩
  | map =>
    simp only [add] at h
    split at h
    · next hkey => exact .inl ⟨bag_of_apply h, fun hlost => hlost hkey⟩
    · next hkey => exact .inr ⟨(Except.ok.inj h).symm, hkey⟩
  | _ => exact .inr ⟨(Except.ok.inj h).symm, trivial⟩

theorem mem_dropped_add (h : (d.add key value).result = .ok d') :
    key' ∈ d'.dropped ↔ key' ∈ d.dropped ∨ key' = key ∧ Value.IsLost key value := by
  rcases add_cases h with ⟨⟨call, b, -, rfl⟩, hlost⟩ | ⟨rfl, hlost⟩
  · simp [hlost]
  · simp [hlost]

theorem built_add (hd : d.bag.entries.Built) (h : (d.add key value).result = .ok d') :
    d'.bag.entries.Built := by
  rcases add_cases h with ⟨⟨call, b, happly, rfl⟩, -⟩ | ⟨rfl, -⟩
  · exact hd.apply happly
  · exact hd

end MetadataDraft

namespace LegacyMetadata

/-- The pass over all entries. -/
def firstPass (m : LegacyMetadata) : Except Fault MetadataDraft :=
  m.toList.foldlM (fun d e => (d.add e.1 e.2).result) {}

/-- Whether a key is dropped on the way to the new schema: no entry is refused, and the value of an
entry with this key is lost. -/
def Drops (m : LegacyMetadata) (key : Value) : Prop :=
  (∃ draft, m.firstPass = .ok draft) ∧ ∃ value, (key, value) ∈ m.toList ∧ key.IsLost value

variable {m : LegacyMetadata} {d : MetadataDraft} {key : Value}

theorem drops_iff : m.Drops key ↔ ∃ d, m.firstPass = .ok d ∧ key ∈ d.dropped := by
  have hdropped {d : MetadataDraft} (hd : m.firstPass = .ok d) :=
    foldlM_iff (P := fun d : MetadataDraft => key ∈ d.dropped)
      (Q := fun e => key = e.1 ∧ e.1.IsLost e.2) (fun _ _ _ => MetadataDraft.mem_dropped_add) hd
  constructor
  · rintro ⟨⟨d, hd⟩, value, hmem, hlost⟩
    exact ⟨d, hd, (hdropped hd).2 (.inr ⟨(key, value), hmem, rfl, hlost⟩)⟩
  · rintro ⟨d, hd, hkey⟩
    rcases (hdropped hd).1 hkey with hkey | ⟨e, hmem, rfl, hlost⟩
    · cases hkey
    · exact ⟨⟨d, hd⟩, e.2, hmem, hlost⟩

theorem build_of_firstPass (h : m.firstPass = .ok d) : d.bag.build = .ok d.bag.entries := by
  have hbuilt := foldlM_preserves (P := fun d : MetadataDraft => d.bag.entries.Built)
    (fun _ _ _ _ => MetadataDraft.built_add) .empty h
  exact MetadataBuilder.build_of_fits hbuilt.fits

theorem result_toMetadata (m : LegacyMetadata) : (m.toMetadata c).result = (do
    let d ← m.firstPass
    (reportDropped "legacy -> metadata" d.dropped c).result
    d.bag.build) := by
  rw [toMetadata, firstPass, ← Traced.result_foldlM]
  simp only [Traced.result_bind]
  rfl

theorem result_toMetadata_eq_iff (hlog : c.logDroppedKeys ≠ c'.logDroppedKeys)
    (m : LegacyMetadata) :
    (m.toMetadata c).result = (m.toMetadata c').result ↔ ∀ key, m.Drops key → key.text?.isSome := by
  rw [result_toMetadata, result_toMetadata, reported_eq_iff hlog fun d hd => by
    rw [build_of_firstPass hd]
    nofun]
  simp only [drops_iff]

end LegacyMetadata

/-! ## Both conversions -/

/-- Configurations that differ in the switch for reports only give a conversion the same result if
and only if every key that it drops is a text. -/
theorem ConversionConfig.result_eq_iff (hfloats : c.keepFloatValues = c'.keepFloatValues)
    (hextras : c.keepExtras = c'.keepExtras) (hlog : c.logDroppedKeys ≠ c'.logDroppedKeys)
    (m : Metadata) (l : LegacyMetadata) :
    ((m.toLegacy c).result = (m.toLegacy c').result ↔
      ∀ key, m.Drops c key → key.text?.isSome) ∧
    ((l.toMetadata c).result = (l.toMetadata c').result ↔
      ∀ key, l.Drops key → key.text?.isSome) :=
  ⟨Metadata.result_toLegacy_eq_iff hfloats hextras hlog m,
    LegacyMetadata.result_toMetadata_eq_iff hlog l⟩

theorem ConversionConfig.result_eq_of_texts :
    (Metadata.toLegacy ⟨false, true, true⟩
        ⟨[(.ofString "gain", ⟨some .float, .real .one⟩)]⟩).result =
      (Metadata.toLegacy ⟨false, true, false⟩
        ⟨[(.ofString "gain", ⟨some .float, .real .one⟩)]⟩).result ∧
    (LegacyMetadata.toMetadata ⟨false, true, true⟩ ⟨[(.ofString "flag", .bool true)]⟩).result =
      (LegacyMetadata.toMetadata ⟨false, true, false⟩
        ⟨[(.ofString "flag", .bool true)]⟩).result := by
  obtain ⟨hm, hl⟩ := @result_eq_iff ⟨false, true, true⟩ ⟨false, true, false⟩ rfl rfl (by decide)
    ⟨[(.ofString "gain", ⟨some .float, .real .one⟩)]⟩ ⟨[(.ofString "flag", .bool true)]⟩
  refine ⟨hm.2 ?_, hl.2 ?_⟩
  · rintro key ⟨-, e, hmem, -⟩
    cases List.mem_singleton.1 hmem
    rfl
  · rintro key ⟨-, value, hmem, -⟩
    cases List.mem_singleton.1 hmem
    rfl

/-- A dropped key that is no text makes a conversion fail if it is to be reported. -/
theorem LegacyMetadata.result_toMetadata_ne :
    (LegacyMetadata.toMetadata ⟨true, true, false⟩ ⟨[(.ofInt 1, .none)]⟩).result = .ok .empty ∧
    (LegacyMetadata.toMetadata ⟨true, true, true⟩ ⟨[(.ofInt 1, .none)]⟩).result =
      .error .unsuitable :=
  ⟨rfl, rfl⟩

end MediaBridge
