import Mathlib.Data.List.Forall2
import MediaBridge.Proofs.Metadata.Reachable
import MediaBridge.Proofs.Metadata.Reporting
import MediaBridge.Proofs.Rating.FromLegacy

/-!
# Legacy metadata in the new schema

What becomes of an entry of the legacy schema depends on the entry alone (`Value.becomes?`): it is
kept with the kind of its value if its key takes that kind, and dropped otherwise. One pass over
distinct keys does this to all entries, in order (`toMetadata_of_acceptable`). Main statement:
`LegacyMetadata.toMetadata_partition`.
-/

namespace MediaBridge

open Keyed (code)

/-! ## What becomes of an entry -/

namespace Value

variable {key value : Value} {kind : ValueKind} {e : Entry} {l : LegacyRating}

/-- The entry that a value of the legacy schema stands for, if the new schema has one for it. -/
def standsFor? : Value → Option Entry
  | .text w => some ⟨some .text, .text w⟩
  | .whole n => some ⟨some .long, .whole n⟩
  | .real x => some ⟨some .float, .real x⟩
  | .bitmap name => some ⟨some .bitmap, .bitmap name⟩
  | .legacyRating l => l.counterpart?.map fun r => ⟨some .rating, .rating r⟩
  | .map _ m => some ⟨some .extras, .map true m⟩
  | _ => Option.none

/-- Whether a key takes content of a kind: a key of the vocabulary takes its declared kind, and a
custom key takes all kinds but extras. -/
def takes (key : Value) (kind : Option ValueKind) : Bool :=
  match key.boundKind? with
  | some declared => kind = some declared
  | Option.none => kind ≠ some .extras

/-- What becomes of a value under a key, none if it is dropped. -/
def becomes? (key value : Value) : Option Entry := value.standsFor?.filter (key.takes ·.kind)

/-- The records of a rating that is dropped on its own account. -/
def ratingRecords (key value : Value) : List LogRecord :=
  match value with
  | .legacyRating l => if key.takes (some .rating) then l.toRating.log else []
  | _ => []

theorem takes_eq_admits (h : kind ≠ .extras) : key.takes (some kind) = key.admits kind := by
  rw [takes, admits]
  cases key.boundKind? with
  | none => simpa using h
  | some declared => simp [eq_comm]

theorem takes_extras_iff :
    key.takes (some .extras) ↔ key.text? = some MetadataKey.extras.identifier := by
  rw [← boundKind?_eq_extras_iff, takes]
  cases key.boundKind? with
  | none => simp
  | some declared => simp [eq_comm]

theorem admits_of_takes (h : key.takes (some kind)) : key.admits kind := by
  rw [takes] at h
  rw [admits]
  cases hbound : key.boundKind? with
  | none => simp
  | some declared =>
    rw [hbound] at h
    simpa [eq_comm] using h

theorem becomes?_eq_some_iff :
    key.becomes? value = some e ↔ value.standsFor? = some e ∧ key.takes e.kind := by
  rw [becomes?, Option.filter_eq_some_iff]

theorem typed_of_standsFor? (h : value.standsFor? = some e) : e.Typed := by
  cases value with
  | text w | whole n | real x | bitmap name | map isSealed m =>
    cases h
    constructor
  | legacyRating l =>
    obtain ⟨r, -, rfl⟩ := Option.map_eq_some_iff.1 h
    exact .rating r
  | _ => cases h

/-- The key of a kept entry: extras go under the key of the vocabulary, which is the same key. -/
def newKey (key : Value) (e : Entry) : Value :=
  if e.kind = some .extras then .ofKey .extras else key

theorem text?_newKey (h : key.takes e.kind) : (key.newKey e).text? = key.text? := by
  rw [newKey]
  split
  · next hkind =>
    rw [hkind] at h
    exact (takes_extras_iff.1 h).symm
  · rfl

theorem code_newKey (h : key.takes e.kind) : code (key.newKey e) = code key := by
  rw [newKey]
  split
  · next hkind =>
    rw [hkind] at h
    exact (code?_eq_text_iff.2 (takes_extras_iff.1 h)).symm
  · rfl

theorem fits_of_becomes? (h : key.becomes? value = some e) (hname : key.IsName) :
    e.Fits (key.newKey e) := by
  obtain ⟨has, htakes⟩ := becomes?_eq_some_iff.1 h
  have hfits : e.Fits key := by
    refine ⟨typed_of_standsFor? has, fun kind hkind => ?_⟩
    rw [Option.mem_def.1 hkind] at htakes
    exact checkKey_iff_isName.2 ⟨hname, admits_of_takes htakes⟩
  exact hfits.congr (code_newKey htakes)

end Value

/-! ## One entry -/

/-- What an entry needs so that it is kept or dropped but not refused. -/
structure Value.Acceptable (key value : Value) : Prop where
  text : key.text?.isSome
  name : ∀ e, key.becomes? value = some e → key.IsName
  rating : ∀ l, value = .legacyRating l → l.Constructible

theorem Value.ratingRecords_of_some {key value : Value} {e : Entry}
    (h : key.becomes? value = some e) (hacceptable : key.Acceptable value) :
    key.ratingRecords value = [] := by
  cases value with
  | legacyRating l =>
    obtain ⟨r, hr, -⟩ := Option.map_eq_some_iff.1 (Value.becomes?_eq_some_iff.1 h).1
    rw [Value.ratingRecords, (hacceptable.rating l rfl).toRating_of_counterpart? hr, ite_self]
  | _ => rfl

namespace MetadataDraft

variable {d : MetadataDraft} {key value : Value} {e : Entry} {l : List (Value × Value)}

def push (d : MetadataDraft) (key : Value) (e : Entry) : MetadataDraft :=
  { d with bag := ⟨⟨d.bag.entries.toList ++ [(key, e)]⟩⟩ }

def drop (d : MetadataDraft) (key : Value) : MetadataDraft :=
  { d with dropped := d.dropped ++ [key] }

theorem push_of_change (d : MetadataDraft) (call : MetadataSetter) {c : Change}
    (hc : call.change = .ok c) (hk : c.key.checkKey c.kind = .ok ()) (hv : c.value.isNone = false)
    (hnew : code c.key ∉ d.bag.entries.codes) :
    (do return { d with bag := ← d.bag.apply call } : Traced MetadataDraft) =
      ⟨[], .ok (d.push c.key ⟨some c.kind, c.value⟩)⟩ := by
  rw [MetadataBuilder.apply_of_change hc hk hv hnew, Traced.liftM_ok_bind]
  rfl

theorem add_of_some (h : key.becomes? value = some e) (hacceptable : key.Acceptable value)
    (hnew : code key ∉ d.bag.entries.codes) :
    d.add key value = ⟨[], .ok (d.push (key.newKey e) e)⟩ := by
  obtain ⟨has, htakes⟩ := Value.becomes?_eq_some_iff.1 h
  have hname := hacceptable.name e h
  have hadmits {kind : ValueKind} (hkind : e.kind = some kind) : key.admits kind :=
    Value.admits_of_takes (hkind ▸ htakes)
  have hkey {kind : ValueKind} (hkind : e.kind = some kind) : key.checkKey kind = .ok () :=
    Value.checkKey_iff_isName.2 ⟨hname, hadmits hkind⟩
  cases value with
  | text w =>
    cases has
    have hpush := d.push_of_change (.text key (.text w)) rfl (hkey rfl) rfl hnew
    exact (if_pos (hadmits rfl)).trans hpush
  | whole n =>
    cases has
    have hpush := d.push_of_change (.long key (.whole n)) rfl (hkey rfl) rfl hnew
    exact (if_pos (hadmits rfl)).trans hpush
  | real x =>
    cases has
    have hpush := d.push_of_change (.float key (.real x)) rfl (hkey rfl) rfl hnew
    exact (if_pos (hadmits rfl)).trans hpush
  | bitmap name =>
    cases has
    have hpush := d.push_of_change (.bitmap key (.bitmap name)) rfl (hkey rfl) rfl hnew
    exact (if_pos (hadmits rfl)).trans hpush
  | legacyRating l =>
    obtain ⟨r, hr, rfl⟩ := Option.map_eq_some_iff.1 has
    have hto := (hacceptable.rating l rfl).toRating_of_counterpart? hr
    have hpush := d.push_of_change (.rating key (.rating r)) rfl (hkey rfl) rfl hnew
    simp only [add, hadmits rfl, if_true, hto, Traced.mk_ok_bind]
    exact hpush
  | map isSealed m =>
    cases has
    have htext := Value.takes_extras_iff.1 htakes
    have hcode := Value.code_newKey htakes
    have hpush := d.push_of_change (.extras (.map isSealed m)) rfl rfl rfl (hcode ▸ hnew)
    exact (if_pos htext).trans hpush
  | _ => cases has

theorem add_of_none (h : key.becomes? value = none) (hacceptable : key.Acceptable value) :
    d.add key value = ⟨key.ratingRecords value, .ok (d.drop key)⟩ := by
  have hadmits {kind : ValueKind} {content : Value}
      (has : value.standsFor? = some ⟨some kind, content⟩) (hkind : kind ≠ .extras) :
      ¬ key.admits kind := by
    rw [← Value.takes_eq_admits hkind]
    intro htakes
    cases h.symm.trans (Value.becomes?_eq_some_iff.2 ⟨has, htakes⟩)
  cases value with
  | text w => exact if_neg (hadmits rfl (by decide))
  | whole n => exact if_neg (hadmits rfl (by decide))
  | real x => exact if_neg (hadmits rfl (by decide))
  | bitmap name => exact if_neg (hadmits rfl (by decide))
  | legacyRating l =>
    rw [Value.ratingRecords, Value.takes_eq_admits (by decide)]
    rcases (hacceptable.rating l rfl).toRating_cases with ⟨r, hto⟩ | ⟨text, hto⟩
    · have has : (Value.legacyRating l).standsFor? = some ⟨some .rating, .rating r⟩ := by
        rw [Value.standsFor?, LegacyRating.counterpart?, hto]
        rfl
      rw [if_neg (hadmits has (by decide))]
      exact if_neg (hadmits has (by decide))
    · cases hrating : key.admits .rating with
      | false => simp [add, hrating, drop, Traced.pure_def]
      | true => simp [add, hrating, hto, drop, Traced.pure_def, Traced.bind_ok]
  | map isSealed m =>
    refine if_neg fun htext => ?_
    have htakes := Value.takes_extras_iff.2 htext
    cases h.symm.trans (Value.becomes?_eq_some_iff.2 ⟨rfl, htakes⟩)
  | _ => rfl

end MetadataDraft

/-! ## All entries -/

/-- The kept ones of a list of entries, in order. -/
def keptEntries (l : List (Value × Value)) : List (Value × Entry) :=
  l.filterMap fun e => (e.1.becomes? e.2).map fun e' => (e.1.newKey e', e')

/-- The keys of the dropped ones of a list of entries, in order. -/
def droppedKeys (l : List (Value × Value)) : List Value :=
  (l.filter fun e => (e.1.becomes? e.2).isNone).map (·.1)

/-- The records of the ratings that are dropped on their own account, in order. -/
def ratingRecords (l : List (Value × Value)) : List LogRecord :=
  l.flatMap fun e => e.1.ratingRecords e.2

section

variable {key value : Value} {e : Entry} {l : List (Value × Value)}

theorem keptEntries_cons_of_some (h : key.becomes? value = some e) :
    keptEntries ((key, value) :: l) = (key.newKey e, e) :: keptEntries l := by
  rw [keptEntries, List.filterMap_cons, h, Option.map_some]
  rfl

theorem keptEntries_cons_of_none (h : key.becomes? value = none) :
    keptEntries ((key, value) :: l) = keptEntries l := by
  rw [keptEntries, List.filterMap_cons, h, Option.map_none]
  rfl

theorem droppedKeys_cons_of_some (h : key.becomes? value = some e) :
    droppedKeys ((key, value) :: l) = droppedKeys l := by
  rw [droppedKeys, List.filter_cons_of_neg (by simp [h])]
  rfl

theorem droppedKeys_cons_of_none (h : key.becomes? value = none) :
    droppedKeys ((key, value) :: l) = key :: droppedKeys l := by
  rw [droppedKeys, List.filter_cons_of_pos (by simp [h]), List.map_cons]
  rfl

theorem ratingRecords_cons_of_some (h : key.becomes? value = some e)
    (hacceptable : key.Acceptable value) : ratingRecords ((key, value) :: l) = ratingRecords l := by
  rw [ratingRecords, List.flatMap_cons, Value.ratingRecords_of_some h hacceptable]
  rfl

/-- Entries that are all kept leave no trace in the reports. -/
theorem reports_of_kept (ha : ∀ e ∈ l, e.1.Acceptable e.2)
    (hk : ∀ e ∈ l, ∃ e', e.1.becomes? e.2 = some e') :
    droppedKeys l = [] ∧ ratingRecords l = [] := by
  constructor
  · rw [droppedKeys, List.map_eq_nil_iff, List.filter_eq_nil_iff]
    intro e hmem
    obtain ⟨e', he⟩ := hk e hmem
    simp [he]
  · rw [ratingRecords, List.flatMap_eq_nil_iff]
    intro e hmem
    obtain ⟨e', he⟩ := hk e hmem
    exact Value.ratingRecords_of_some he (ha e hmem)

theorem mem_droppedKeys (h : key ∈ droppedKeys l) : ∃ value, (key, value) ∈ l := by
  obtain ⟨e, hmem, rfl⟩ := List.mem_map.1 h
  exact ⟨e.2, List.mem_of_mem_filter hmem⟩

theorem fits_of_mem_keptEntries (h : ∀ e ∈ l, e.1.Acceptable e.2) {e : Value × Entry}
    (hmem : e ∈ keptEntries l) : e.2.Fits e.1 := by
  obtain ⟨e', hmem', he⟩ := List.mem_filterMap.1 hmem
  obtain ⟨e'', hbecomes, rfl⟩ := Option.map_eq_some_iff.1 he
  exact Value.fits_of_becomes? hbecomes ((h e' hmem').name e'' hbecomes)

/-- The kept entries have the keys of the entries that they come from. -/
theorem forall₂_keptEntries (l : List (Value × Value)) :
    (l.filter fun e => (e.1.becomes? e.2).isSome).Forall₂
      (fun e e' => e'.1.text? = e.1.text? ∧ e.1.becomes? e.2 = some e'.2) (keptEntries l) := by
  induction l with
  | nil => exact .nil
  | cons e l ih =>
    obtain ⟨key, value⟩ := e
    cases h : key.becomes? value with
    | none =>
      rw [List.filter_cons_of_neg (by simp [h]), keptEntries_cons_of_none h]
      exact ih
    | some e' =>
      rw [List.filter_cons_of_pos (by simp [h]), keptEntries_cons_of_some h]
      exact .cons ⟨Value.text?_newKey (Value.becomes?_eq_some_iff.1 h).2, h⟩ ih

end

/-- Entries under new keys are kept or dropped one after the other. -/
theorem MetadataDraft.foldlM_add {d : MetadataDraft} {l : List (Value × Value)}
    (h : ∀ e ∈ l, e.1.Acceptable e.2)
    (hnew : (d.bag.entries.codes ++ l.map (code ·.1)).Nodup) :
    l.foldlM (fun d e => d.add e.1 e.2) d = ⟨ratingRecords l, .ok {
      bag := ⟨⟨d.bag.entries.toList ++ keptEntries l⟩⟩
      dropped := d.dropped ++ droppedKeys l }⟩ := by
  -- the keys of the bag are those of entries before, so the next key is a new one
  induction l generalizing d with
  | nil => simp [keptEntries, droppedKeys, ratingRecords, Traced.pure_def]
  | cons e l ih =>
    obtain ⟨key, value⟩ := e
    have hacceptable := h (key, value) List.mem_cons_self
    have hrest : ∀ e ∈ l, e.1.Acceptable e.2 := fun e hmem => h e (List.mem_cons_of_mem _ hmem)
    rw [List.foldlM_cons]
    cases hbecomes : key.becomes? value with
    | some e =>
      have hcode := Value.code_newKey (Value.becomes?_eq_some_iff.1 hbecomes).2
      have hpush : ((d.push (key.newKey e) e).bag.entries.codes ++ l.map (code ·.1)).Nodup := by
        rw [push, OrderedMap.codes_mk_append, List.append_assoc, hcode]
        exact hnew
      rw [add_of_some hbecomes hacceptable (OrderedMap.not_mem_of_nodup hnew), Traced.mk_ok_bind,
        ih hrest hpush, keptEntries_cons_of_some hbecomes, droppedKeys_cons_of_some hbecomes,
        ratingRecords_cons_of_some hbecomes hacceptable]
      simp [push]
    | none =>
      have hdrop : ((d.drop key).bag.entries.codes ++ l.map (code ·.1)).Nodup :=
        hnew.sublist (List.Sublist.append_left (List.sublist_cons_self _ _) _)
      rw [add_of_none hbecomes hacceptable, Traced.bind_ok, ih hrest hdrop,
        keptEntries_cons_of_none hbecomes, droppedKeys_cons_of_none hbecomes]
      simp [drop, ratingRecords]

namespace LegacyMetadata

variable {m : LegacyMetadata}

/-- Legacy metadata become the new metadata with the kept entries, and the dropped keys are
reported. -/
theorem toMetadata_of_acceptable (config : ConversionConfig) (hd : m.Distinct)
    (h : ∀ e ∈ m.toList, e.1.Acceptable e.2) :
    m.toMetadata config =
      ⟨ratingRecords m.toList ++ config.dropRecords "legacy -> metadata" (droppedKeys m.toList),
        .ok ⟨keptEntries m.toList⟩⟩ := by
  have hfold := MetadataDraft.foldlM_add (d := {}) h hd
  have htexts : ∀ key ∈ droppedKeys m.toList, key.text?.isSome := by
    intro key hmem
    obtain ⟨value, hmem⟩ := mem_droppedKeys hmem
    exact (h (key, value) hmem).text
  have hbuild := MetadataBuilder.build_of_fits (b := ⟨⟨keptEntries m.toList⟩⟩) fun key e hmem =>
    fits_of_mem_keptEntries h (e := (key, e)) hmem
  rw [toMetadata]
  change (m.toList.foldlM (fun d e => d.add e.1 e.2) ({} : MetadataDraft) >>= _) = _
  rw [hfold, Traced.bind_ok]
  simp only [OrderedMap.toList_empty, List.nil_append, reportDropped_of_texts htexts,
    Traced.bind_ok, hbuild, Traced.log_liftM, Traced.result_liftM, List.append_nil]

theorem toMetadata_of_kept (config : ConversionConfig) (hd : m.Distinct)
    (h : ∀ e ∈ m.toList, e.1.Acceptable e.2)
    (hk : ∀ e ∈ m.toList, ∃ e', e.1.becomes? e.2 = some e') :
    m.toMetadata config = ⟨[], .ok ⟨keptEntries m.toList⟩⟩ := by
  obtain ⟨hdropped, hrecords⟩ := reports_of_kept h hk
  rw [toMetadata_of_acceptable config hd h, hdropped, hrecords]
  rfl

def Sound (m : LegacyMetadata) : Prop :=
  ∀ key l, (key, .legacyRating l) ∈ m.toList → l.Constructible

theorem Sound.acceptable (hs : m.Sound) {key value : Value} (hmem : (key, value) ∈ m.toList)
    (hname : key.IsName) : key.Acceptable value := by
  refine ⟨hname.isSome_text?, fun _ _ => hname, ?_⟩
  rintro l rfl
  exact hs key l hmem

end LegacyMetadata

theorem logger_of_mem_ratingRecords {l : List (Value × Value)} {record : LogRecord}
    (h : ∀ e ∈ l, e.1.Acceptable e.2) (hmem : record ∈ ratingRecords l) :
    record.logger = ratingLogger := by
  obtain ⟨⟨key, value⟩, hmem', hrecord⟩ := List.mem_flatMap.1 hmem
  cases value with
  | legacyRating l =>
    rw [Value.ratingRecords] at hrecord
    split at hrecord
    · rcases ((h _ hmem').rating l rfl).toRating_cases with ⟨r, hr⟩ | ⟨text, hr⟩
      · rw [hr] at hrecord
        cases hrecord
      · rw [hr] at hrecord
        cases List.mem_singleton.1 hrecord
        rfl
    · cases hrecord
  | _ => cases hrecord

namespace LegacyMetadata

variable {m : LegacyMetadata}

/-- Legacy metadata under texts that are not empty always have a counterpart. Each entry is kept or
dropped on its own account: the kept ones are the entries of the counterpart, in order, and the keys
of the others are reported, in order. -/
theorem toMetadata_partition (hd : m.Distinct) (hnames : ∀ key ∈ m.keys, key.IsName)
    (hs : m.Sound) (config : ConversionConfig) :
    ∃ (records : List LogRecord) (final : Metadata),
      m.toMetadata config = ⟨records ++ config.dropRecords "legacy -> metadata"
        ((m.toList.filter fun e => (e.1.becomes? e.2).isNone).map (·.1)), .ok final⟩ ∧
      (∀ record ∈ records, record.logger = ratingLogger) ∧
      (m.toList.filter fun e => (e.1.becomes? e.2).isSome).Forall₂
        (fun e e' => e'.1.text? = e.1.text? ∧ e.1.becomes? e.2 = some e'.2) final.toList := by
  have hacceptable : ∀ e ∈ m.toList, e.1.Acceptable e.2 := fun e hmem =>
    hs.acceptable hmem (hnames e.1 (List.mem_map_of_mem hmem))
  refine ⟨_, _, toMetadata_of_acceptable config hd hacceptable, ?_, forall₂_keptEntries _⟩
  exact fun record hmem => logger_of_mem_ratingRecords hacceptable hmem

theorem toMetadata_partition_mixed :
    ∃ (records : List LogRecord) (final : Metadata),
      toMetadata {} ⟨[(.ofString "a", .ofString "x"), (.ofString "flag", .bool true),
          (.ofKey .extras, .map false .empty), (.ofKey .title, .ofInt 3),
          (.ofString "r", .legacyRating ⟨.plain 9, notRated⟩)]⟩ =
        ⟨records ++ ConversionConfig.dropRecords {} "legacy -> metadata"
          [.ofString "flag", .ofKey .title, .ofString "r"], .ok final⟩ ∧
      final.keys.map Value.text? = [some "a", some MetadataKey.extras.identifier] := by
  have hd : OrderedMap.Distinct (⟨[(.ofString "a", .ofString "x"), (.ofString "flag", .bool true),
      (.ofKey .extras, .map false .empty), (.ofKey .title, .ofInt 3),
      (.ofString "r", .legacyRating ⟨.plain 9, notRated⟩)]⟩ : LegacyMetadata) := by
    unfold OrderedMap.Distinct
    decide
  have hunrated : LegacyRating.unrated (.ofInt 9) = .ok ⟨.plain 9, notRated⟩ := rfl
  obtain ⟨records, ⟨final⟩, hto, -, hkept⟩ := toMetadata_partition hd (by
    intro key hkey
    simp only [OrderedMap.keys, List.map_cons, List.map_nil, List.mem_cons, List.not_mem_nil,
      or_false] at hkey
    rcases hkey with rfl | rfl | rfl | rfl | rfl <;> exact ⟨_, rfl, by decide⟩) (by
    intro key l hmem
    simp only [List.mem_cons, Prod.mk.injEq, reduceCtorEq, and_false, false_or, List.not_mem_nil,
      or_false, Value.ofString, Value.ofInt, Value.legacyRating.injEq] at hmem
    rw [hmem.2]
    exact .unrated hunrated) {}
  refine ⟨records, ⟨final⟩, hto, ?_⟩
  rcases hkept with _ | ⟨⟨hfirst, -⟩, _ | ⟨⟨hsecond, -⟩, _ | _⟩⟩
  simp only [OrderedMap.keys, List.map_cons, List.map_nil, hfirst, hsecond]
  rfl

end LegacyMetadata

end MediaBridge
