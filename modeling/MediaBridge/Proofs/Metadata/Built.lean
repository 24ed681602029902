import MediaBridge.Metadata.Legacy
import MediaBridge.Proofs.OrderedMap
import MediaBridge.Proofs.Rating.Constructible

/-!
# Built metadata

What the setters of a builder keep up: no key occurs twice, every entry fits its key, and extras are
sealed maps at the key for extras. Main statements: `Metadata.Built.apply` for one call,
`Metadata.Built.applyAll` for any number of them, and `MetadataBuilder.build_of_fits`.
-/

namespace MediaBridge

/-! ## Keys that may hold a kind -/

namespace Value

variable {key key' : Value} {kind : ValueKind}

theorem checkKind_text (w : Word) :
    (text w).checkKind (some kind) = .ok () ↔ (text w).admits kind := by
  simp only [checkKind, canBeKey, code?, Option.isSome_some, Bool.not_true, Bool.false_eq_true,
    if_false, admits, Bool.or_eq_true, decide_eq_true_eq]
  split
  · next h => simp [h]
  · next declared given h hgiven =>
    cases hgiven
    rw [h]
    split
    · next heq => simp [heq]
    · next hne => simpa [refuse] using hne
  · next hgiven => cases hgiven

theorem checkKey_eq_ok_iff :
    key.checkKey kind = .ok () ↔ ∃ s, key.text? = some s ∧ s ≠ "" ∧ key.admits kind := by
  cases key with
  | text w =>
    simp only [checkKey, text?]
    split
    · next h => simp [h, refuse]
    · next h => simp [h, checkKind_text]
  | _ => simp [checkKey, text?, refuse]

/-- A text that is not empty. -/
def IsName (key : Value) : Prop := ∃ s, key.text? = some s ∧ s ≠ ""

theorem IsName.isSome_text? (h : key.IsName) : key.text?.isSome := by
  obtain ⟨s, hs, -⟩ := h
  rw [hs]
  rfl

theorem checkKey_iff_isName : key.checkKey kind = .ok () ↔ key.IsName ∧ key.admits kind := by
  rw [checkKey_eq_ok_iff]
  constructor
  · rintro ⟨s, hs, hne, hadmits⟩
    exact ⟨⟨s, hs, hne⟩, hadmits⟩
  · rintro ⟨⟨s, hs, hne⟩, hadmits⟩
    exact ⟨s, hs, hne, hadmits⟩

theorem checkKey_congr (h : key.text? = key'.text?) (hk : key.checkKey kind = .ok ()) :
    key'.checkKey kind = .ok () := by
  rw [checkKey_eq_ok_iff] at hk ⊢
  rw [← h, admits, boundKind?, ← h]
  exact hk

theorem checkKind_of_checkKey (h : key.checkKey kind = .ok ()) :
    key.checkKind (some kind) = .ok () := by
  obtain ⟨s, hs, -, hadmits⟩ := checkKey_eq_ok_iff.1 h
  cases key with
  | text w => exact (checkKind_text w).2 hadmits
  | _ => cases hs

theorem text?_eq_of_code (hc : key'.code? = key.code?) : key'.text? = key.text? := by
  ext s
  rw [← code?_eq_text_iff, hc, code?_eq_text_iff]

end Value

/-! ## Entries that fit their keys -/

/-- The content of an entry is of the kind of its tag. -/
inductive Entry.Typed : Entry → Prop
  | text (w : Word) : Typed ⟨some .text, .text w⟩
  | long (n : Whole) : Typed ⟨some .long, .whole n⟩
  | float (x : Double) : Typed ⟨some .float, .real x⟩
  | bitmap (name : String) : Typed ⟨some .bitmap, .bitmap name⟩
  | rating (r : Rating) : Typed ⟨some .rating, .rating r⟩
  | extras (isSealed : Bool) (m : OrderedMap Value Value) : Typed ⟨some .extras, .map isSealed m⟩

/-- An entry fits a key that may hold its kind if it has the content for it. -/
structure Entry.Fits (key : Value) (e : Entry) : Prop where
  typed : e.Typed
  checkKey : ∀ kind ∈ e.kind, key.checkKey kind = .ok ()

theorem Entry.Fits.checkKind {key : Value} {e : Entry} (h : e.Fits key) :
    key.checkKind e.kind = .ok () := by
  obtain ⟨htyped, hkey⟩ := h
  cases htyped <;> exact Value.checkKind_of_checkKey (hkey _ rfl)

theorem Entry.Fits.isName {key : Value} {e : Entry} (h : e.Fits key) : key.IsName := by
  obtain ⟨htyped, hkey⟩ := h
  cases htyped <;> exact (Value.checkKey_iff_isName.1 (hkey _ rfl)).1

theorem Entry.Fits.congr {key key' : Value} {e : Entry} (h : e.Fits key)
    (hc : key'.code? = key.code?) : e.Fits key' := by
  refine ⟨h.typed, fun kind hkind => ?_⟩
  have hkey := h.checkKey kind hkind
  exact Value.checkKey_congr (Value.text?_eq_of_code hc).symm hkey

/-- The kind of an entry at a key of the vocabulary is the declared one. -/
theorem Entry.Fits.kind_eq {key : Value} {e : Entry} {kind : ValueKind} (h : e.Fits key)
    (hb : key.boundKind? = some kind) : e.kind = some kind := by
  obtain ⟨htyped, hkey⟩ := h
  cases htyped <;>
  · obtain ⟨-, -, -, hadmits⟩ := Value.checkKey_eq_ok_iff.1 (hkey _ rfl)
    rw [Value.admits, hb] at hadmits
    simpa [eq_comm] using hadmits

/-! ## Setters -/

namespace Value

/-- What the setters have in common that take one kind of value only: nothing stays nothing, a value
of that kind is stored, and anything else is refused. -/
def checked {α : Type} (get? : Value → Option α) (put : α → Value) (cause : Invalid) (v : Value) :
    Except Fault Value :=
  if v.isNone then .ok .none
  else
    match get? v with
    | some a => .ok (put a)
    | Option.none => refuse cause

def whole? : Value → Option Whole
  | .whole n => some n
  | _ => Option.none

def bitmap? : Value → Option String
  | .bitmap name => some name
  | _ => Option.none

def rating? : Value → Option Rating
  | .rating r => some r
  | _ => Option.none

def legacyRating? : Value → Option LegacyRating
  | .legacyRating l => some l
  | _ => Option.none

def map? : Value → Option (OrderedMap Value Value)
  | .map _ m => some m
  | _ => Option.none

theorem asLong_eq (v key : Value) : v.asLong key = v.checked whole? .whole (.notLong key) := by
  cases v <;> rfl

theorem asBitmap_eq (v key : Value) :
    v.asBitmap key = v.checked bitmap? .bitmap (.notBitmap key) := by
  cases v <;> rfl

theorem asRating_eq (v key : Value) :
    v.asRating key = v.checked rating? .rating (.notRating key) := by
  cases v <;> rfl

theorem asLegacyRating_eq (v key : Value) :
    v.asLegacyRating key = v.checked legacyRating? .legacyRating (.notLegacyRating key) := by
  cases v <;> rfl

theorem asExtras_eq (v : Value) : v.asExtras = v.checked map? (.map true) .extrasNotMap := by
  cases v <;> rfl

theorem rating?_eq_some_iff {v : Value} {r : Rating} : v.rating? = some r ↔ v = .rating r := by
  cases v <;> simp [rating?]

theorem legacyRating?_eq_some_iff {v : Value} {l : LegacyRating} :
    v.legacyRating? = some l ↔ v = .legacyRating l := by
  cases v <;> simp [legacyRating?]

variable {v v' key : Value}

section

variable {α : Type} {get? : Value → Option α} {put : α → Value} {cause : Invalid}

theorem checked_cases (h : v.checked get? put cause = .ok v') :
    v' = .none ∨ ∃ a, get? v = some a ∧ v' = put a := by
  unfold checked at h
  split at h
  · exact .inl (Except.ok.inj h).symm
  · split at h
    · next a ha => exact .inr ⟨a, ha, (Except.ok.inj h).symm⟩
    · cases h

theorem isNone_of_checked (hput : ∀ a, (put a).isNone = false)
    (h : v.checked get? put cause = .ok v') : v'.isNone = v.isNone := by
  unfold checked at h
  split at h
  · next hnone =>
    cases h
    exact hnone.symm
  · next hsome =>
    split at h
    · next a _ =>
      cases h
      rw [hput, Bool.eq_false_iff.2 hsome]
    · cases h

end

theorem asText_cases (h : v.asText = .ok v') : v' = .none ∨ ∃ w, v' = .text w := by
  unfold asText at h
  split at h
  · exact .inl (Except.ok.inj h).symm
  · exact .inr ⟨_, (Except.ok.inj h).symm⟩
  · obtain ⟨w, -, hw⟩ := bind_eq_ok_iff.1 h
    exact .inr ⟨w, (Except.ok.inj hw).symm⟩

theorem asFloat_cases (h : v.asFloat key = .ok v') : v' = .none ∨ ∃ x, v' = .real x := by
  unfold asFloat at h
  split at h
  · exact .inl (Except.ok.inj h).symm
  · exact .inr ⟨_, (Except.ok.inj h).symm⟩
  · obtain ⟨x, -, hx⟩ := bind_eq_ok_iff.1 h
    exact .inr ⟨x, (Except.ok.inj hx).symm⟩
  · cases h

/-! A setter stores nothing only if it is given nothing. -/

theorem isNone_iff : v.isNone ↔ v = .none := by
  cases v <;> simp [isNone]

theorem isNone_of_asText (h : v.asText = .ok v') : v'.isNone = v.isNone := by
  unfold asText at h
  split at h
  · cases h
    rfl
  · cases h
    rfl
  · next hnone _ =>
    obtain ⟨w, -, hw⟩ := bind_eq_ok_iff.1 h
    cases hw
    exact (Bool.eq_false_iff.2 (mt isNone_iff.1 hnone)).symm

theorem isNone_of_asFloat (h : v.asFloat key = .ok v') : v'.isNone = v.isNone := by
  unfold asFloat at h
  split at h
  · cases h
    rfl
  · cases h
    rfl
  · obtain ⟨x, -, hx⟩ := bind_eq_ok_iff.1 h
    cases hx
    rfl
  · cases h

end Value

namespace MetadataSetter

variable {call : MetadataSetter} {c : Change}

/-- A setter stores content of the kind of its tag. -/
theorem typed_of_change (h : call.change = .ok c) (hv : c.value ≠ .none) :
    Entry.Typed ⟨some c.kind, c.value⟩ := by
  cases call with
  | text key value =>
    obtain ⟨v, has, hc⟩ := bind_eq_ok_iff.1 h
    cases hc
    obtain ⟨w, rfl⟩ := (Value.asText_cases has).resolve_left hv
    exact .text w
  | long key value =>
    obtain ⟨v, has, hc⟩ := bind_eq_ok_iff.1 h
    cases hc
    rw [Value.asLong_eq] at has
    obtain ⟨n, -, rfl⟩ := (Value.checked_cases has).resolve_left hv
    exact .long n
  | float key value =>
    obtain ⟨v, has, hc⟩ := bind_eq_ok_iff.1 h
    cases hc
    obtain ⟨x, rfl⟩ := (Value.asFloat_cases has).resolve_left hv
    exact .float x
  | bitmap key value =>
    obtain ⟨v, has, hc⟩ := bind_eq_ok_iff.1 h
    cases hc
    rw [Value.asBitmap_eq] at has
    obtain ⟨name, -, rfl⟩ := (Value.checked_cases has).resolve_left hv
    exact .bitmap name
  | rating key value =>
    obtain ⟨v, has, hc⟩ := bind_eq_ok_iff.1 h
    cases hc
    rw [Value.asRating_eq] at has
    obtain ⟨r, -, rfl⟩ := (Value.checked_cases has).resolve_left hv
    exact .rating r
  | extras value =>
    obtain ⟨v, has, hc⟩ := bind_eq_ok_iff.1 h
    cases hc
    rw [Value.asExtras_eq] at has
    obtain ⟨m, -, rfl⟩ := (Value.checked_cases has).resolve_left hv
    exact .extras true m

/-- Extras are stored at the key for extras only, as a sealed map. -/
theorem extras_of_change (h : call.change = .ok c) (hk : c.kind = .extras) (hv : c.value ≠ .none) :
    c.key = .ofKey .extras ∧ ∃ m, c.value = .map true m := by
  cases call with
  | extras value =>
    obtain ⟨v, has, hc⟩ := bind_eq_ok_iff.1 h
    cases hc
    rw [Value.asExtras_eq] at has
    obtain ⟨m, -, hm⟩ := (Value.checked_cases has).resolve_left hv
    exact ⟨rfl, m, hm⟩
  | _ =>
    obtain ⟨v, -, hc⟩ := bind_eq_ok_iff.1 h
    cases hc
    cases hk

/-- A rating is stored as it was given. -/
theorem rating_of_change {r : Rating} (h : call.change = .ok c) (hr : c.value = .rating r) :
    call = .rating c.key (.rating r) := by
  have htyped := typed_of_change h (by simp [hr])
  cases call with
  | rating key value =>
    obtain ⟨v, has, hc⟩ := bind_eq_ok_iff.1 h
    cases hc
    rw [Value.asRating_eq] at has
    rcases Value.checked_cases has with rfl | ⟨r', hr', rfl⟩
    · cases hr
    · cases hr
      cases Value.rating?_eq_some_iff.1 hr'
      rfl
  | _ =>
    obtain ⟨v, -, hc⟩ := bind_eq_ok_iff.1 h
    cases hc
    cases hr
    cases htyped

end MetadataSetter

/-! ## Calls of a builder -/

namespace MetadataBuilder

variable {b b' : MetadataBuilder} {call : MetadataSetter} {calls : List MetadataSetter}

theorem store_eq (b : MetadataBuilder) (c : Change) :
    b.store c = (do
      c.key.checkKey c.kind
      return ⟨if c.value.isNone then b.entries.erase c.key
        else b.entries.insert c.key ⟨some c.kind, c.value⟩⟩) := by
  obtain ⟨key, kind, value⟩ := c
  cases value <;> rfl

/-- Everything that a successful call of a setter does. -/
theorem apply_cases (h : b.apply call = .ok b') :
    ∃ c, call.change = .ok c ∧ c.key.checkKey c.kind = .ok () ∧
      (c.value = .none ∧ b'.entries = b.entries.erase c.key ∨
        c.value ≠ .none ∧ b'.entries = b.entries.insert c.key ⟨some c.kind, c.value⟩) := by
  obtain ⟨c, hc, hstore⟩ := bind_eq_ok_iff.1 h
  obtain ⟨_, hkey, hstore⟩ := bind_eq_ok_iff.1 hstore
  refine ⟨c, hc, hkey, ?_⟩
  split at hstore
  · next hv =>
    cases hstore
    exact .inl ⟨hv, rfl⟩
  · next hv =>
    cases hstore
    exact .inr ⟨hv, rfl⟩

/-- A value under a new key goes last. -/
theorem apply_of_change {c : Change} (hc : call.change = .ok c)
    (hk : c.key.checkKey c.kind = .ok ()) (hv : c.value.isNone = false)
    (hnew : Keyed.code c.key ∉ b.entries.codes) :
    b.apply call = .ok ⟨⟨b.entries.toList ++ [(c.key, ⟨some c.kind, c.value⟩)]⟩⟩ := by
  rw [apply, hc, ok_bind, store_eq, hk, ok_bind, hv, ← OrderedMap.insert_of_not_mem hnew]
  rfl

/-- An entry after a call was there before, or it is what the setter stores. -/
theorem mem_apply {e : Value × Entry} (h : b.apply call = .ok b') (he : e ∈ b'.entries.toList) :
    e ∈ b.entries.toList ∨ ∃ c, call.change = .ok c ∧ c.key.checkKey c.kind = .ok () ∧
      c.value ≠ .none ∧ e.1.code? = c.key.code? ∧ e.2 = ⟨some c.kind, c.value⟩ ∧
      (e.1 = c.key ∨ ∃ e', (e.1, e') ∈ b.entries.toList) := by
  obtain ⟨c, hc, hkey, ⟨-, hb⟩ | ⟨hv, hb⟩⟩ := apply_cases h
  · rw [hb] at he
    exact .inl (OrderedMap.mem_of_mem_erase he)
  · rw [hb] at he
    exact (OrderedMap.mem_insert he).imp_right fun h => ⟨c, hc, hkey, hv, h⟩

/-- What every successful call keeps up holds after any number of calls. -/
theorem applyAll_preserves {P : MetadataBuilder → Prop}
    (hstep : ∀ call ∈ calls, ∀ b b' : MetadataBuilder, P b → b.apply call = .ok b' → P b')
    (hb : P b) : P (b.applyAll calls) :=
  foldl_getD_preserves hstep hb

end MetadataBuilder

/-! ## The invariant -/

/-- What the setters of a builder keep up. -/
structure Metadata.Built (m : Metadata) : Prop where
  distinct : m.Distinct
  fits : ∀ key e, (key, e) ∈ m.toList → e.Fits key
  extras : ∀ key e, (key, e) ∈ m.toList → e.kind = some .extras →
    key = .ofKey .extras ∧ ∃ l, e.content = .map true l

namespace Metadata.Built

variable {b b' : MetadataBuilder} {call : MetadataSetter}

theorem empty : Built .empty :=
  ⟨OrderedMap.distinct_empty, fun _ _ h => absurd h List.not_mem_nil,
    fun _ _ h => absurd h List.not_mem_nil⟩

theorem apply (hb : b.entries.Built) (h : b.apply call = .ok b') : b'.entries.Built := by
  refine ⟨?_, fun key e hmem => ?_, fun key e hmem hkind => ?_⟩
  · obtain ⟨c, -, -, ⟨-, hb'⟩ | ⟨-, hb'⟩⟩ := MetadataBuilder.apply_cases h
    · exact hb' ▸ hb.distinct.erase _
    · exact hb' ▸ hb.distinct.insert _ _
  · rcases MetadataBuilder.mem_apply h hmem with hmem | ⟨c, hc, hkey, hv, hcode, he, -⟩
    · exact hb.fits key e hmem
    · cases he
      have hfits : Entry.Fits c.key ⟨some c.kind, c.value⟩ :=
        ⟨MetadataSetter.typed_of_change hc hv, fun kind hk => by cases hk; exact hkey⟩
      exact hfits.congr hcode
  · rcases MetadataBuilder.mem_apply h hmem with hmem | ⟨c, hc, hkey, hv, hcode, he, hold⟩
    · exact hb.extras key e hmem hkind
    · cases he
      obtain ⟨hextras, hmap⟩ := MetadataSetter.extras_of_change hc (Option.some.inj hkind) hv
      rcases hold with hold | ⟨e', hmem'⟩
      · exact ⟨hold.trans hextras, hmap⟩
      · have htext := Value.text?_eq_of_code hcode
        have hbound : key.boundKind? = some .extras := by
          rw [Value.boundKind?, htext, hextras]
          rfl
        have hkind' := (hb.fits key e' hmem').kind_eq hbound
        exact ⟨(hb.extras key e' hmem' hkind').1, hmap⟩

/-- Any number of calls keep up what one call does. -/
theorem applyAll (hb : b.entries.Built) (calls : List MetadataSetter) :
    (b.applyAll calls).entries.Built :=
  MetadataBuilder.applyAll_preserves (P := fun b => b.entries.Built)
    (fun _ _ _ _ hb h => hb.apply h) hb

end Metadata.Built

namespace MetadataBuilder

theorem build_of_checkKind {b : MetadataBuilder}
    (h : ∀ e ∈ b.entries.toList, e.1.checkKind e.2.kind = .ok ()) : b.build = .ok b.entries := by
  rw [build, forM_eq_ok fun e hmem => h e hmem]
  rfl

/-- Entries that fit their keys pass the last check. -/
theorem build_of_fits {b : MetadataBuilder}
    (h : ∀ key e, (key, e) ∈ b.entries.toList → e.Fits key) : b.build = .ok b.entries :=
  build_of_checkKind fun e hmem => (h e.1 e.2 hmem).checkKind

end MetadataBuilder

/-- Metadata that are built from nothing. -/
theorem Metadata.Built.of_build {m : Metadata} {calls : List MetadataSetter}
    (h : (MetadataBuilder.applyAll {} calls).build = .ok m) : m.Built := by
  have hb : (MetadataBuilder.applyAll {} calls).entries.Built := Built.empty.applyAll calls
  cases (MetadataBuilder.build_of_fits hb.fits).symm.trans h
  exact hb

/-! ## Ratings -/

/-- A rating that is given to a setter is constructible. -/
def MetadataSetter.Sound : MetadataSetter → Prop
  | .rating _ (.rating r) => r.Constructible
  | _ => True

/-- The ratings in metadata are constructible. -/
def Metadata.Sound (m : Metadata) : Prop :=
  ∀ key e r, (key, e) ∈ m.toList → e.content = .rating r → r.Constructible

namespace Metadata.Sound

variable {b b' : MetadataBuilder} {call : MetadataSetter} {calls : List MetadataSetter}

theorem empty : Sound .empty := fun _ _ _ h => absurd h List.not_mem_nil

theorem apply (hb : b.entries.Sound) (hs : call.Sound) (h : b.apply call = .ok b') :
    b'.entries.Sound := by
  intro key e r hmem hr
  rcases MetadataBuilder.mem_apply h hmem with hmem | ⟨c, hc, -, -, -, he, -⟩
  · exact hb key e r hmem hr
  · cases he
    rw [MetadataSetter.rating_of_change hc hr] at hs
    exact hs

theorem applyAll (hb : b.entries.Sound) (hs : ∀ call ∈ calls, call.Sound) :
    (b.applyAll calls).entries.Sound :=
  MetadataBuilder.applyAll_preserves (P := fun b => b.entries.Sound)
    (fun call hmem _ _ hb h => hb.apply (hs call hmem) h) hb

theorem of_build {m : Metadata} (hs : ∀ call ∈ calls, call.Sound)
    (h : (MetadataBuilder.applyAll {} calls).build = .ok m) : m.Sound := by
  have hb : (MetadataBuilder.applyAll {} calls).entries.Built := Built.empty.applyAll calls
  have hsound : (MetadataBuilder.applyAll {} calls).entries.Sound := empty.applyAll hs
  cases (MetadataBuilder.build_of_fits hb.fits).symm.trans h
  exact hsound

end Metadata.Sound

end MediaBridge
