import MediaBridge.Conversion.Metadata
import MediaBridge.Proofs.Metadata.Built
import MediaBridge.Proofs.Rating.RoundTrip

/-!
# Metadata in the legacy schema

Entries that fit their keys become legacy entries in two passes: first the native ones, in order,
and then the ones that are kept as extensions, in order (`toLegacy_of_fits`).
-/

namespace MediaBridge

open Keyed (code)

/-! ## Entries -/

/-- Whether the legacy schema knows the kind of an entry. -/
def Entry.isNative (e : Entry) : Bool :=
  e.kind ≠ some .float && e.kind ≠ some .extras

/-- The content of an entry in the legacy schema. -/
def Entry.legacyContent (e : Entry) : Value :=
  match e.content with
  | .rating r => .ofOption .legacyRating (r.toLegacy.result.toOption.bind id)
  | .map _ m => .map true m
  | v => v

theorem Entry.legacyContent_rating {kind : Option ValueKind} {r : Rating} {l : LegacyRating}
    (h : r.toLegacy = ⟨[], .ok (some l)⟩) :
    Entry.legacyContent ⟨kind, .rating r⟩ = .legacyRating l := by
  simp only [legacyContent, h]
  rfl

/-- An entry of the legacy schema, under the same key. -/
def legacyEntry (e : Value × Entry) : Value × Value := (e.1, e.2.legacyContent)

/-! ## The first pass -/

namespace LegacyMetadataBuilder

variable {b : LegacyMetadataBuilder} {c : Change}

theorem store_eq (b : LegacyMetadataBuilder) (c : Change) :
    b.store c = (do
      c.key.checkKey c.kind
      return ⟨if c.value.isNone then b.raw.erase c.key else b.raw.insert c.key c.value⟩) := by
  obtain ⟨key, kind, value⟩ := c
  cases value <;> rfl

/-- A value under a new key goes last. -/
theorem apply_of_change {call : LegacyMetadataSetter} (hc : call.change = .ok c)
    (hk : c.key.checkKey c.kind = .ok ()) (hv : c.value.isNone = false)
    (hnew : code c.key ∉ b.raw.codes) :
    b.apply call = .ok ⟨⟨b.raw.toList ++ [(c.key, c.value)]⟩⟩ := by
  rw [apply, hc, ok_bind, store_eq, hk, ok_bind, hv, ← OrderedMap.insert_of_not_mem hnew]
  rfl

end LegacyMetadataBuilder

namespace LegacyDraft

variable {d : LegacyDraft} {key : Value} {e : Entry} {l : List (Value × Entry)}

/-- A draft with one more native entry. -/
def push (d : LegacyDraft) (key value : Value) : LegacyDraft :=
  { d with bag := ⟨⟨d.bag.raw.toList ++ [(key, value)]⟩⟩ }

/-- A draft with one more entry, which is native or skipped. -/
def step (d : LegacyDraft) (key : Value) (e : Entry) : LegacyDraft :=
  if e.isNative then d.push key e.legacyContent
  else { d with skipped := d.skipped ++ [(key, e)] }

/-- A setter of the legacy bag under a new key adds a native entry. -/
theorem push_of_change (d : LegacyDraft) (call : LegacyMetadataSetter) {c : Change}
    (hc : call.change = .ok c) (hk : c.key.checkKey c.kind = .ok ()) (hv : c.value.isNone = false)
    (hnew : code c.key ∉ d.bag.raw.codes) :
    (do return { d with bag := ← d.bag.apply call } : Traced LegacyDraft) =
      ⟨[], .ok (d.push c.key c.value)⟩ := by
  rw [LegacyMetadataBuilder.apply_of_change hc hk hv hnew, Traced.liftM_ok_bind]
  rfl

theorem add_of_fits (hf : e.Fits key) (hr : ∀ r, e.content = .rating r → r.Constructible)
    (hnew : code key ∉ d.bag.raw.codes) : d.add key e = ⟨[], .ok (d.step key e)⟩ := by
  obtain ⟨htyped, hkey⟩ := hf
  cases htyped with
  | text w => exact d.push_of_change (.text key (.text w)) rfl (hkey _ rfl) rfl hnew
  | long n => exact d.push_of_change (.long key (.whole n)) rfl (hkey _ rfl) rfl hnew
  | bitmap name => exact d.push_of_change (.bitmap key (.bitmap name)) rfl (hkey _ rfl) rfl hnew
  | rating r =>
    obtain ⟨l, hl, -⟩ := (hr r rfl).exists_toLegacy
    have hpush := d.push_of_change (.rating key (.legacyRating l)) rfl (hkey _ rfl) rfl hnew
    have hcontent : Entry.legacyContent ⟨some .rating, .rating r⟩ = .legacyRating l :=
      Entry.legacyContent_rating hl
    rw [step, hcontent]
    simp only [add, Value.ratingToLegacy, hl, Traced.mk_ok_bind]
    exact hpush
  -- nothing is converted in the first pass
  | float x => rfl
  | extras isSealed m => rfl

/-- Entries under new keys are native or skipped, in order. -/
theorem foldlM_add (hf : ∀ key e, (key, e) ∈ l → e.Fits key)
    (hr : ∀ key e r, (key, e) ∈ l → e.content = .rating r → r.Constructible)
    (hnew : (d.bag.raw.codes ++ l.map (code ·.1)).Nodup) :
    l.foldlM (fun d e => d.add e.1 e.2) d = ⟨[], .ok {
      bag := ⟨⟨d.bag.raw.toList ++ (l.filter (·.2.isNative)).map legacyEntry⟩⟩
      skipped := d.skipped ++ l.filter (!·.2.isNative)
      dropped := d.dropped }⟩ := by
  induction l generalizing d with
  | nil => simp; rfl
  | cons e l ih =>
    have hadd := add_of_fits (hf e.1 e.2 List.mem_cons_self)
      (fun r => hr e.1 e.2 r List.mem_cons_self) (OrderedMap.not_mem_of_nodup hnew)
    have hf' : ∀ key e, (key, e) ∈ l → e.Fits key :=
      fun key e hmem => hf key e (List.mem_cons_of_mem _ hmem)
    have hr' : ∀ key e r, (key, e) ∈ l → e.content = .rating r → r.Constructible :=
      fun key e r hmem => hr key e r (List.mem_cons_of_mem _ hmem)
    rw [List.foldlM_cons, hadd, Traced.mk_ok_bind, step]
    rw [List.map_cons] at hnew
    cases hn : e.2.isNative with
    | true =>
      have hpush : ((d.push e.1 e.2.legacyContent).bag.raw.codes ++ l.map (code ·.1)).Nodup := by
        rw [push, OrderedMap.codes_mk_append, List.append_assoc]
        exact hnew
      rw [if_pos rfl, ih hf' hr' hpush]
      simp [hn, push, legacyEntry]
    | false =>
      have hskip := hnew.sublist (List.Sublist.append_left (List.sublist_cons_self _ _) _)
      rw [if_neg (by simp), ih (d := ⟨d.bag, d.skipped ++ [e], d.dropped⟩) hf' hr' hskip]
      simp [hn]

end LegacyDraft

/-! ## The second pass -/

namespace LegacyMetadata

variable {m : LegacyMetadata} {l : List (Value × Entry)}

theorem asExtension_of_typed {key : Value} {e : Entry} (h : e.Typed) (hn : e.isNative = false) :
    asExtension key e.content = .ok e.legacyContent := by
  cases h with
  | float x => rfl
  | extras isSealed m => rfl
  | _ => cases hn

theorem extend_cons (m : LegacyMetadata) (key value : Value) (l : List (Value × Value)) :
    m.extend ⟨(key, value) :: l⟩ = (do
      let value ← asExtension key value
      extend (m.insert key value) ⟨l⟩) := by
  rw [extend, List.foldlM_cons]
  change (asExtension key value >>= fun value => pure (m.insert key value)) >>= _ = _
  cases asExtension key value <;> rfl

/-- Extension entries under new keys go last, in order. -/
theorem extend_of_nodup (ht : ∀ e ∈ l, e.2.Typed ∧ e.2.isNative = false)
    (hnew : (m.codes ++ l.map (code ·.1)).Nodup) :
    m.extend ⟨l.map fun e => (e.1, e.2.content)⟩ = .ok ⟨m.toList ++ l.map legacyEntry⟩ := by
  induction l generalizing m with
  | nil => simp [extend]; rfl
  | cons e l ih =>
    obtain ⟨htyped, hn⟩ := ht e List.mem_cons_self
    have hrest := fun e' hmem => ht e' (List.mem_cons_of_mem _ hmem)
    have hinsert := OrderedMap.insert_of_not_mem (v := e.2.legacyContent)
      (OrderedMap.not_mem_of_nodup hnew)
    have hpush : ((⟨m.toList ++ [(e.1, e.2.legacyContent)]⟩ : LegacyMetadata).codes ++
        l.map (code ·.1)).Nodup := by
      rw [OrderedMap.codes_mk_append, List.append_assoc]
      exact hnew
    rw [List.map_cons, extend_cons, asExtension_of_typed htyped hn, ok_bind, hinsert,
      ih hrest hpush]
    simp [legacyEntry]

end LegacyMetadata

/-! ## Both passes -/

theorem reportDropped_nil (direction : String) (config : ConversionConfig) :
    reportDropped direction [] config = ⟨[], .ok ()⟩ := rfl

namespace Metadata

variable {m : Metadata}

/-- Metadata whose entries fit their keys become legacy metadata under every configuration. -/
theorem toLegacy_of_fits (config : ConversionConfig) (hd : m.Distinct)
    (hf : ∀ key e, (key, e) ∈ m.toList → e.Fits key)
    (hs : m.Sound) :
    m.toLegacy config = (do
      reportDropped "metadata -> legacy"
        ((m.toList.filter fun e => !config.keeps e.1 e.2 && !e.2.isNative).map (·.1)) config
      return ⟨(m.toList.filter (·.2.isNative) ++
        m.toList.filter fun e => config.keeps e.1 e.2 && !e.2.isNative).map legacyEntry⟩) := by
  have hfold := LegacyDraft.foldlM_add (d := {}) hf hs hd
  have hnodup := hd.nodup_filter (fun e => e.2.isNative) fun e => config.keeps e.1 e.2
  have hkept : ∀ e ∈ m.toList.filter (fun e => config.keeps e.1 e.2 && !e.2.isNative),
      e.2.Typed ∧ e.2.isNative = false := by
    intro e hmem
    obtain ⟨hmem, hcond⟩ := List.mem_filter.1 hmem
    rw [Bool.and_eq_true, Bool.not_eq_true'] at hcond
    exact ⟨(hf e.1 e.2 hmem).typed, hcond.2⟩
  rw [toLegacy]
  change (m.toList.foldlM (fun d e => d.add e.1 e.2) ({} : LegacyDraft) >>= _) = _
  rw [hfold, Traced.mk_ok_bind]
  simp only [List.nil_append, List.partition_eq_filter_filter, List.filter_filter]
  generalize m.toList.filter (fun e => config.keeps e.1 e.2 && !e.2.isNative) = kept at *
  have hextend := LegacyMetadata.extend_of_nodup
    (m := ⟨(m.toList.filter (·.2.isNative)).map legacyEntry⟩) hkept
    (by simpa [OrderedMap.codes, legacyEntry, Function.comp_def] using hnodup)
  rw [List.map_append, List.nodup_append] at hnodup
  rw [OrderedMap.ofList_of_nodup (by simpa [Function.comp_def] using hnodup.2.1), List.map_append]
  exact congrArg _ (funext fun _ => congrArg liftM hextend)

end Metadata

end MediaBridge
