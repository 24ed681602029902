import MediaBridge.Proofs.Metadata.Partition
import MediaBridge.Proofs.Metadata.RoundTrip

/-!
# Legacy metadata through the new schema

Legacy metadata go to the new schema and back. Every entry that survives is the legacy content of an
entry that this content stands for again (`Entry.Settled`), so that the result goes there and back
unchanged. Main statement: `LegacyMetadata.normalize_normalize`.
-/

namespace MediaBridge

open Keyed (code)

/-! ## Values -/

/-- What becomes of a value of the legacy schema that survives: maps are sealed, a rating is equal
to the one it comes from, and one with a not-a-number becomes the unrated one of its style. -/
inductive Value.NormalizesTo : Value → Value → Prop
  | text (w : Word) : NormalizesTo (.text w) (.text w)
  | whole (n : Whole) : NormalizesTo (.whole n) (.whole n)
  | real (x : Double) : NormalizesTo (.real x) (.real x)
  | bitmap (name : String) : NormalizesTo (.bitmap name) (.bitmap name)
  | map (isSealed : Bool) (m : OrderedMap Value Value) :
    NormalizesTo (.map isSealed m) (.map true m)
  | rating {l l' : LegacyRating} (hsame : (Number.real l.value).isNan = false → l'.same l)
    (hnan : (Number.real l.value).isNan → l' = ⟨.plain l.style.toInt, notRated⟩) :
    NormalizesTo (.legacyRating l) (.legacyRating l')

namespace Value

variable {key key' value : Value} {e : Entry}

theorem takes_congr (h : key.text? = key'.text?) (kind : Option ValueKind) :
    key.takes kind = key'.takes kind := by
  rw [takes, takes, boundKind?, boundKind?, h]

theorem newKey_newKey (key : Value) (e : Entry) : (key.newKey e).newKey e = key.newKey e := by
  unfold newKey
  split <;> rfl

/-- The legacy content of what a value stands for is that value in normal form, and stands for the
same. -/
theorem standsFor?_legacyContent (h : value.standsFor? = some e)
    (hr : ∀ l, value = .legacyRating l → l.Constructible) :
    e.legacyContent.standsFor? = some e ∧ value.NormalizesTo e.legacyContent := by
  cases value with
  | text w =>
    cases h
    exact ⟨rfl, .text w⟩
  | whole n =>
    cases h
    exact ⟨rfl, .whole n⟩
  | real x =>
    cases h
    exact ⟨rfl, .real x⟩
  | bitmap name =>
    cases h
    exact ⟨rfl, .bitmap name⟩
  | map isSealed m =>
    cases h
    exact ⟨rfl, .map isSealed m⟩
  | legacyRating l =>
    obtain ⟨r, hcounterpart, rfl⟩ := Option.map_eq_some_iff.1 h
    have hl := hr l rfl
    obtain ⟨l', hto, hback, hsame, hnan⟩ :=
      hl.exists_toLegacy (hl.toRating_of_counterpart? hcounterpart)
    rw [Entry.legacyContent_rating hto, standsFor?, LegacyRating.counterpart?, hback]
    exact ⟨rfl, .rating hsame hnan⟩
  | _ => cases h

theorem constructible_of_standsFor? {r : Rating} (h : value.standsFor? = some e)
    (hr : ∀ l, value = .legacyRating l → l.Constructible) (he : e.content = .rating r) :
    r.Constructible := by
  cases value with
  | legacyRating l =>
    obtain ⟨r', hcounterpart, rfl⟩ := Option.map_eq_some_iff.1 h
    cases he
    have hl := hr l rfl
    exact hl.constructible_of_toRating (hl.toRating_of_counterpart? hcounterpart)
  | text w | whole n | real x | bitmap name | map isSealed m =>
    cases h
    cases he
  | _ => cases h

theorem not_isLost_of_becomes? (h : key.becomes? value = some e) : ¬ key.IsLost value := by
  obtain ⟨has, htakes⟩ := becomes?_eq_some_iff.1 h
  have hadmits {kind : ValueKind} (hkind : e.kind = some kind) : key.admits kind :=
    admits_of_takes (hkind ▸ htakes)
  cases value with
  | text w =>
    cases has
    simp [IsLost, hadmits rfl]
  | whole n =>
    cases has
    simp [IsLost, hadmits rfl]
  | real x =>
    cases has
    simp [IsLost, hadmits rfl]
  | bitmap name =>
    cases has
    simp [IsLost, hadmits rfl]
  | map isSealed m =>
    cases has
    exact not_not_intro (takes_extras_iff.1 htakes)
  | legacyRating l =>
    obtain ⟨r, hcounterpart, rfl⟩ := Option.map_eq_some_iff.1 has
    rintro (hrefused | hdropped)
    · cases hrefused.symm.trans (hadmits rfl)
    · rw [LegacyRating.counterpart?, hdropped] at hcounterpart
      cases hcounterpart
  | _ => cases has

end Value

/-! ## Settled entries -/

/-- An entry that goes to the legacy schema and back unchanged. -/
structure Entry.Settled (key : Value) (e : Entry) : Prop where
  fits : e.Fits key
  rating : ∀ r, e.content = .rating r → r.Constructible
  becomes : key.becomes? e.legacyContent = some e
  newKey : key.newKey e = key

namespace Entry

variable {key value : Value} {e : Entry} {config : ConversionConfig}

/-- What a value becomes is settled. -/
theorem settled_of_becomes? (h : key.becomes? value = some e) (ha : key.Acceptable value) :
    e.Settled (key.newKey e) := by
  obtain ⟨has, htakes⟩ := Value.becomes?_eq_some_iff.1 h
  have hcontent := (Value.standsFor?_legacyContent has ha.rating).1
  have htakes' : (key.newKey e).takes e.kind :=
    (Value.takes_congr (Value.text?_newKey htakes) _).trans htakes
  exact ⟨Value.fits_of_becomes? h (ha.name e h),
    fun r => Value.constructible_of_standsFor? has ha.rating,
    Value.becomes?_eq_some_iff.2 ⟨hcontent, htakes'⟩, Value.newKey_newKey key e⟩

theorem Settled.acceptable (h : e.Settled key) : key.Acceptable e.legacyContent :=
  h.fits.acceptable h.rating

theorem Settled.not_isLost (h : e.Settled key) (hp : e.passage config key ≠ .dropped) :
    ¬ e.IsLost config key := by
  obtain ⟨⟨htyped, -⟩, hr, -, -⟩ := h
  have hpassage : e.passage config key = _ := htyped.passage_eq
  cases htyped with
  | text w | long n | bitmap name => exact id
  | float x | extras isSealed m =>
    intro hlost
    have hkeeps : config.keeps key _ = false := hlost
    rw [hkeeps] at hpassage
    exact hp hpassage
  | rating r =>
    intro hlost
    obtain ⟨l, hto, -⟩ := (hr r rfl).exists_toLegacy
    have hnone : r.toLegacy.result = .ok none := hlost
    rw [hto] at hnone
    cases hnone

end Entry

/-- Metadata under distinct keys with settled entries. -/
structure Metadata.Settled (m : Metadata) : Prop where
  distinct : m.Distinct
  entry : ∀ e ∈ m.toList, e.2.Settled e.1

theorem keptEntries_of_settled {l : List (Value × Entry)} (h : ∀ e ∈ l, e.2.Settled e.1) :
    keptEntries (l.map legacyEntry) = l := by
  induction l with
  | nil => rfl
  | cons e l ih =>
    have he := h e List.mem_cons_self
    rw [List.map_cons, legacyEntry, keptEntries_cons_of_some he.becomes, he.newKey,
      ih fun e hmem => h e (List.mem_cons_of_mem _ hmem)]

namespace Metadata

variable {m : Metadata} {config : ConversionConfig}

theorem Settled.sound (h : m.Settled) : m.Sound := fun key e r hmem =>
  (h.entry (key, e) hmem).rating r

theorem Settled.wellTyped (h : m.Settled) : m.WellTyped :=
  .of_fits h.distinct fun key e hmem => (h.entry (key, e) hmem).fits

/-- Settled entries that are passed on are settled. -/
theorem Settled.passed (h : m.Settled) (config : ConversionConfig) :
    Settled ⟨m.passed config⟩ where
  distinct := by
    have hdistinct := h.wellTyped.distinct_passed config
    rw [OrderedMap.Distinct, OrderedMap.codes, List.map_map] at hdistinct
    exact hdistinct
  entry e hmem := h.entry e (mem_passed.1 hmem).1

theorem passing_passing (m : Metadata) (config : ConversionConfig) (p q : Passage) :
    Metadata.passing ⟨m.passing config p⟩ config q = if p = q then m.passing config p else [] := by
  rw [passing]
  split
  · next h =>
    refine List.filter_eq_self.2 fun e hmem => ?_
    rw [← h, decide_eq_true_iff]
    exact (mem_passing.1 hmem).2
  · next h =>
    refine List.filter_eq_nil_iff.2 fun e hmem hq => ?_
    rw [decide_eq_true_iff] at hq
    exact h ((mem_passing.1 hmem).2.symm.trans hq)

theorem passing_passed (m : Metadata) (config : ConversionConfig) (q : Passage) :
    Metadata.passing ⟨m.passed config⟩ config q =
      if q = .dropped then [] else m.passing config q := by
  have happend : Metadata.passing ⟨m.passed config⟩ config q =
      Metadata.passing ⟨m.passing config .native⟩ config q ++
        Metadata.passing ⟨m.passing config .extension⟩ config q := List.filter_append ..
  rw [happend, passing_passing, passing_passing]
  cases q <;> simp

/-- All of what was passed on once is passed on again, in the same order. -/
theorem passed_passed (m : Metadata) (config : ConversionConfig) :
    Metadata.passed ⟨m.passed config⟩ config = m.passed config := by
  rw [passed, passing_passed, passing_passed]
  rfl

/-- Settled metadata come back from the legacy schema as they are. -/
theorem Settled.toMetadata_legacy (h : m.Settled) (config : ConversionConfig) :
    LegacyMetadata.toMetadata config ⟨m.toList.map legacyEntry⟩ = ⟨[], .ok m⟩ := by
  have hto := LegacyMetadata.toMetadata_of_kept config (distinct_legacyEntry h.distinct)
    (fun e hmem => by
      obtain ⟨e', hmem', rfl⟩ := List.mem_map.1 hmem
      exact (h.entry e' hmem').acceptable)
    (fun e hmem => by
      obtain ⟨e', hmem', rfl⟩ := List.mem_map.1 hmem
      exact ⟨_, (h.entry e' hmem').becomes⟩)
  rw [keptEntries_of_settled h.entry] at hto
  exact hto

/-- What was passed on once is not dropped the second time, and becomes the same again. -/
theorem Settled.toLegacy_passed (h : m.Settled) (config : ConversionConfig) :
    Metadata.toLegacy config ⟨m.passed config⟩ =
      ⟨[], .ok ⟨(m.passed config).map legacyEntry⟩⟩ := by
  have hpassed := h.passed config
  rw [toLegacy_of_wellTyped hpassed.wellTyped hpassed.sound, passing_passed, passed_passed]
  rfl

end Metadata

/-! ## Normal legacy metadata -/

namespace LegacyMetadata

variable {m : LegacyMetadata}

/-- Legacy metadata as they come back from the new schema. -/
def normalize (config : ConversionConfig) (m : LegacyMetadata) : Traced LegacyMetadata := do
  (← m.toMetadata config).toLegacy config

theorem exists_of_mem_keptEntries {l : List (Value × Value)} {e : Value × Entry}
    (h : e ∈ keptEntries l) :
    ∃ e' ∈ l, e'.1.becomes? e'.2 = some e.2 ∧ e.1 = e'.1.newKey e.2 := by
  obtain ⟨e', hmem, he⟩ := List.mem_filterMap.1 h
  obtain ⟨e'', hbecomes, rfl⟩ := Option.map_eq_some_iff.1 he
  exact ⟨e', hmem, hbecomes, rfl⟩

theorem codes_keptEntries (l : List (Value × Value)) :
    ((keptEntries l).map (code ·.1)).Sublist (l.map (code ·.1)) := by
  induction l with
  | nil => exact .slnil
  | cons e l ih =>
    obtain ⟨key, value⟩ := e
    cases h : key.becomes? value with
    | none =>
      rw [keptEntries_cons_of_none h]
      exact ih.cons _
    | some e =>
      rw [keptEntries_cons_of_some h, List.map_cons, List.map_cons,
        Value.code_newKey (Value.becomes?_eq_some_iff.1 h).2]
      exact ih.cons_cons _

/-- The kept entries of acceptable ones are settled. -/
theorem settled_keptEntries (hd : m.Distinct) (h : ∀ e ∈ m.toList, e.1.Acceptable e.2) :
    Metadata.Settled ⟨keptEntries m.toList⟩ where
  distinct := hd.sublist (codes_keptEntries _)
  entry e hmem := by
    obtain ⟨e', hmem', hbecomes, hkey⟩ := exists_of_mem_keptEntries hmem
    rw [hkey]
    exact Entry.settled_of_becomes? hbecomes (h e' hmem')

/-- The entries that are kept and then passed on come back, and what either way drops is
reported. -/
theorem normalize_of_acceptable (config : ConversionConfig) (hd : m.Distinct)
    (h : ∀ e ∈ m.toList, e.1.Acceptable e.2) :
    m.normalize config =
      ⟨ratingRecords m.toList ++ config.dropRecords "legacy -> metadata" (droppedKeys m.toList) ++
        config.dropRecords "metadata -> legacy"
          ((Metadata.passing ⟨keptEntries m.toList⟩ config .dropped).map (·.1)),
        .ok ⟨(Metadata.passed ⟨keptEntries m.toList⟩ config).map legacyEntry⟩⟩ := by
  have hsettled := settled_keptEntries hd h
  rw [normalize, toMetadata_of_acceptable config hd h, Traced.bind_ok,
    Metadata.toLegacy_of_wellTyped hsettled.wellTyped hsettled.sound config]

/-- Normalisation is idempotent. Legacy metadata under texts that are not empty come back with
entries of their own, in normal form. What comes back comes back as it is the next time, and neither
way drops a key of it. -/
theorem normalize_normalize (hd : m.Distinct) (hnames : ∀ key ∈ m.keys, key.IsName)
    (hs : m.Sound) (config : ConversionConfig) :
    ∃ (records : List LogRecord) (n : LegacyMetadata), m.normalize config = ⟨records, .ok n⟩ ∧
      (∀ e ∈ n.toList, ∃ e' ∈ m.toList, e.1.text? = e'.1.text? ∧ e'.2.NormalizesTo e.2) ∧
      n.normalize config = ⟨[], .ok n⟩ ∧
      ∃ mid, n.toMetadata config = ⟨[], .ok mid⟩ ∧ (∀ key, ¬ n.Drops key) ∧
        ∀ key, ¬ mid.Drops config key := by
  have hacceptable : ∀ e ∈ m.toList, e.1.Acceptable e.2 := fun e hmem =>
    hs.acceptable hmem (hnames e.1 (List.mem_map_of_mem hmem))
  have hsettled := settled_keptEntries hd hacceptable
  have hpassed := hsettled.passed config
  have hback := hpassed.toMetadata_legacy config
  refine ⟨_, _, normalize_of_acceptable config hd hacceptable, ?_, ?_, _, hback, ?_, ?_⟩
  · intro e hmem
    obtain ⟨⟨key, e⟩, hmem', rfl⟩ := List.mem_map.1 hmem
    obtain ⟨e', hmem'', hbecomes, hkey⟩ :=
      exists_of_mem_keptEntries (Metadata.mem_passed.1 hmem').1
    obtain ⟨has, htakes⟩ := Value.becomes?_eq_some_iff.1 hbecomes
    have hcontent := Value.standsFor?_legacyContent has (hacceptable e' hmem'').rating
    refine ⟨e', hmem'', ?_, hcontent.2⟩
    exact (congrArg Value.text? hkey).trans (Value.text?_newKey htakes)
  · rw [normalize, hback, Traced.mk_ok_bind, hsettled.toLegacy_passed]
  · rintro key ⟨-, value, hmem, hlost⟩
    obtain ⟨⟨key, e⟩, hmem', he⟩ := List.mem_map.1 hmem
    cases he
    exact Value.not_isLost_of_becomes? (hpassed.entry _ hmem').becomes hlost
  · rintro key ⟨-, e, hmem, hlost⟩
    exact (hpassed.entry _ hmem).not_isLost (Metadata.mem_passed.1 hmem).2 hlost

theorem normalize_normalize_mixed :
    ∃ n : LegacyMetadata,
      (normalize {} ⟨[(.ofString "gain", .real .one), (.ofString "flag", .bool true),
        (.ofString "r", .legacyRating ⟨.plain 3, .nan 0⟩)]⟩).result = .ok n ∧
      n.keys = [.ofString "r", .ofString "gain"] ∧ n.normalize {} = ⟨[], .ok n⟩ := by
  have hd : OrderedMap.Distinct (⟨[(.ofString "gain", .real .one), (.ofString "flag", .bool true),
      (.ofString "r", .legacyRating ⟨.plain 3, .nan 0⟩)]⟩ : LegacyMetadata) := by
    unfold OrderedMap.Distinct
    decide
  have hrating : LegacyRating.ofValues (.ofInt 3) (.real (.nan 0)) = .ok ⟨.plain 3, .nan 0⟩ := rfl
  obtain ⟨records, n, hn, -, hagain, -⟩ := normalize_normalize hd (by
    intro key hkey
    simp only [OrderedMap.keys, List.map_cons, List.map_nil, List.mem_cons, List.not_mem_nil,
      or_false] at hkey
    rcases hkey with rfl | rfl | rfl <;> exact ⟨_, rfl, by decide⟩) (by
    intro key l hmem
    simp only [List.mem_cons, Prod.mk.injEq, reduceCtorEq, and_false, false_or, List.not_mem_nil,
      or_false, Value.legacyRating.injEq] at hmem
    rw [hmem.2]
    exact .ofValues hrating) {}
  have hresult := congrArg Traced.result hn
  refine ⟨n, hresult, ?_, hagain⟩
  cases hresult
  rfl

end LegacyMetadata

end MediaBridge
