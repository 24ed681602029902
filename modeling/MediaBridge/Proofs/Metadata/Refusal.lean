import MediaBridge.Proofs.Metadata.BuilderClass
import MediaBridge.Proofs.Rating.Range

/-!
# Refusals

A setter refuses what it finds wrong. Two setters convert their value before they have found it
right, and break off where the conversion does: a uri that was not parsed may have no text, and an
integer may be beyond the range of double-precision numbers. An integer with too many digits has no
text either, but is refused. Main statements:
`BuilderClass.Lawful.breaksOff_apply_iff`, and for the conversions of each class
`MetadataSetter.breaksOff_coerced_iff` and `LegacyMetadataSetter.breaksOff_coerced_iff`.
-/

namespace MediaBridge

variable {α β : Type}

/-! ## Faults that are no refusals -/

/-- Whether a fault says that an argument was found wrong. -/
def Fault.IsRefusal : Fault → Prop
  | .invalid _ | .malformedUri .. => True
  | _ => False

/-- Whether an operation fails in a certain way only, if it fails. -/
def FaultsIn (p : Fault → Prop) (r : Except Fault α) : Prop := ∀ f, r = .error f → p f

/-- Whether an operation fails otherwise than by a refusal. -/
def BreaksOff (r : Except Fault α) (f : Fault) : Prop := r = .error f ∧ ¬ f.IsRefusal

section

variable {p : Fault → Prop} {x : Except Fault α} {g : α → Except Fault β} {f : Fault}

theorem faultsIn_ok (a : α) : FaultsIn p (.ok a) := nofun

theorem faultsIn_error_iff : FaultsIn p (.error f : Except Fault α) ↔ p f :=
  ⟨fun h => h f rfl, by rintro h _ ⟨⟩; exact h⟩

theorem FaultsIn.mono {q : Fault → Prop} (hx : FaultsIn p x) (h : ∀ f, p f → q f) : FaultsIn q x :=
  fun f hf => h f (hx f hf)

theorem faultsIn_refuse (cause : Invalid) :
    FaultsIn Fault.IsRefusal (refuse cause : Except Fault α) :=
  faultsIn_error_iff.2 trivial

theorem FaultsIn.bind (hx : FaultsIn p x) (hg : ∀ a, FaultsIn p (g a)) : FaultsIn p (x >>= g) := by
  cases x with
  | error f => exact faultsIn_error_iff.2 (hx f rfl)
  | ok a => exact hg a

theorem FaultsIn.map (hx : FaultsIn p x) (k : α → β) : FaultsIn p (k <$> x) :=
  hx.bind fun a => faultsIn_ok (k a)

theorem FaultsIn.not_breaksOff (hx : FaultsIn Fault.IsRefusal x) : ¬ BreaksOff x f :=
  fun ⟨hf, hr⟩ => hr (hx f hf)

/-- What only refuses after a step does not break off, unless that step does. -/
theorem breaksOff_bind_iff (hg : ∀ a, FaultsIn Fault.IsRefusal (g a)) :
    BreaksOff (x >>= g) f ↔ BreaksOff x f := by
  cases x with
  | error f' => simp [BreaksOff]
  | ok a => exact iff_of_false (hg a).not_breaksOff (faultsIn_ok a).not_breaksOff

theorem breaksOff_map_iff (k : α → β) : BreaksOff (k <$> x) f ↔ BreaksOff x f :=
  breaksOff_bind_iff fun a => faultsIn_ok (k a)

end

/-! ## Uris without a text -/

/-- Whether the components of a uri are texts, as those of a parsed one are. -/
structure UriOf.IsTextual (u : UriOf Value) : Prop where
  scheme : u.scheme.text?.isSome
  authority : u.authority.text?.isSome
  path : u.path.text?.isSome
  query : u.query.text?.isSome
  fragment : u.fragment.text?.isSome

/-- The faults of an operation that does not go with a value: it is not defined for values of that
kind, or these lack a part that it needs. -/
inductive Fault.IsMismatch : Fault → Prop
  | unsuitable : IsMismatch .unsuitable
  | missingPart : IsMismatch .missingPart

theorem Fault.IsMismatch.not_isRefusal {f : Fault} (h : f.IsMismatch) : ¬ f.IsRefusal := by
  cases h <;> exact id

/-- The faults of writing a value out. -/
inductive Fault.StopsWriting (f : Fault) : Prop
  | refusal (h : f.IsRefusal)
  | mismatch (h : f.IsMismatch)

theorem Value.faultsIn_component (v : Value) : FaultsIn Fault.IsMismatch v.component := by
  unfold component
  split
  · exact faultsIn_ok _
  · split
    · exact faultsIn_error_iff.2 .unsuitable
    · exact faultsIn_ok _

namespace UriOf

variable {u : UriOf Value} {scheme : Except Fault Word}

theorem isMismatch_schemeFault (u : UriOf Value) : u.schemeFault.IsMismatch := by
  unfold schemeFault
  dsimp only
  split_ifs
  · exact .unsuitable
  · exact .missingPart
  · exact .unsuitable

theorem faultsIn_writeSlashed (path : List Char) (hs : FaultsIn Fault.StopsWriting scheme) :
    FaultsIn Fault.StopsWriting (u.writeSlashed path scheme) := by
  have hrest (cs : List Char) : FaultsIn Fault.IsMismatch (do
      let query ← u.query.component
      let fragment ← u.fragment.component
      return Word.plain (String.ofList (cs ++ Uri.Parts.text ⟨[], [], path, query, fragment⟩))) :=
    u.query.faultsIn_component.bind fun _ => u.fragment.faultsIn_component.bind fun _ =>
      faultsIn_ok _
  unfold writeSlashed
  dsimp only
  split
  · exact (hs.map _).bind fun cs => (hrest cs).mono fun _ => .mismatch
  · exact (hrest []).mono fun _ => .mismatch

theorem faultsIn_writeJoined (scheme path : Word) :
    FaultsIn Fault.IsMismatch (u.writeJoined scheme path) := by
  refine u.authority.faultsIn_component.bind fun _ => u.query.faultsIn_component.bind fun _ =>
    u.fragment.faultsIn_component.bind fun _ => ?_
  split <;> exact faultsIn_ok _

theorem faultsIn_write (hs : FaultsIn Fault.StopsWriting scheme) :
    FaultsIn Fault.StopsWriting (u.write scheme) := by
  unfold write
  split
  · split
    · exact faultsIn_writeSlashed _ hs
    · split
      · exact (faultsIn_writeJoined _ _).mono fun _ => .mismatch
      · exact faultsIn_error_iff.2 (.mismatch u.isMismatch_schemeFault)
  · split_ifs
    · exact faultsIn_error_iff.2 (.mismatch .missingPart)
    · exact faultsIn_error_iff.2 (.mismatch .unsuitable)
    · exact faultsIn_error_iff.2 (.mismatch u.isMismatch_schemeFault)

theorem component_of_isSome {v : Value} (h : v.text?.isSome) : ∃ cs, v.component = .ok cs := by
  cases v with
  | text w => exact ⟨_, rfl⟩
  | _ => cases h

/-- A uri whose components are texts is written. -/
theorem IsTextual.exists_write (h : u.IsTextual) (w : Word) : ∃ w', u.write (.ok w) = .ok w' := by
  obtain ⟨hscheme, hauthority, hpath, hquery, hfragment⟩ := h
  obtain ⟨scheme, authority, path, query, fragment⟩ := u
  obtain ⟨a, ha⟩ := component_of_isSome hauthority
  obtain ⟨q, hq⟩ := component_of_isSome hquery
  obtain ⟨g, hg⟩ := component_of_isSome hfragment
  cases path with
  | text path =>
    cases scheme with
    | text scheme =>
      simp only [write]
      split
      · simp only [writeSlashed, hq, hg, ok_bind]
        split <;> exact ⟨_, rfl⟩
      · simp only [writeJoined, ha, hq, hg, ok_bind]
        split <;> exact ⟨_, rfl⟩
    | _ => cases hscheme
  | _ => cases hpath

theorem IsTextual.exists_plain (h : u.IsTextual) : ∃ w, (Value.uri u).plain = .ok w := by
  obtain ⟨scheme, authority, path, query, fragment⟩ := u
  obtain ⟨w, hw⟩ : ∃ w, scheme.plain = .ok w := by
    cases scheme with
    | text w => exact ⟨_, rfl⟩
    | _ => cases h.scheme
  rw [Value.plain, hw]
  exact h.exists_write w

end UriOf

namespace Value

variable {v : Value} {f : Fault}

theorem faultsIn_written (s : Option String) : FaultsIn Fault.IsRefusal (written s) := by
  cases s with
  | some s => exact faultsIn_ok _
  | none => exact faultsIn_refuse _

theorem uri_or_faultsIn_plain (v : Value) :
    (∃ u, v = .uri u) ∨ FaultsIn Fault.IsRefusal v.plain := by
  cases v with
  | uri u => exact .inl ⟨u, rfl⟩
  | text _ | conversion _ | settings _ => exact .inr (faultsIn_ok _)
  | _ => exact .inr (faultsIn_written _)

theorem faultsIn_plain (v : Value) : FaultsIn Fault.StopsWriting v.plain := by
  -- only a uri goes on to another value, which is its scheme
  induction v using Value.plain.induct with
  | case4 scheme authority path query fragment ih =>
    rw [plain]
    exact UriOf.faultsIn_write ih
  | case7 v _ _ _ hne =>
    rcases v.uri_or_faultsIn_plain with ⟨u, rfl⟩ | h
    · exact absurd rfl (hne _ _ _ _ _)
    · exact h.mono fun _ => .refusal
  | case2 | case3 => exact (faultsIn_written _).mono fun _ => .refusal
  | _ => exact faultsIn_ok _

/-- Whether a value has no text: it is a uri with a component that is none, and the operation that
writes it out does not go with that component. -/
def Unwritable (v : Value) (f : Fault) : Prop :=
  ∃ u, v = .uri u ∧ ¬ u.IsTextual ∧ f.IsMismatch ∧ v.plain = .error f

theorem unwritable_iff : v.Unwritable f ↔ BreaksOff v.plain f := by
  refine ⟨fun ⟨_, _, _, hf, h⟩ => ⟨h, hf.not_isRefusal⟩, fun ⟨h, hf⟩ => ?_⟩
  rcases uri_or_faultsIn_plain v with ⟨u, rfl⟩ | hrefuses
  · refine ⟨u, rfl, fun hu => ?_, ?_, h⟩
    · obtain ⟨w, hw⟩ := hu.exists_plain
      cases hw.symm.trans h
    · rcases faultsIn_plain _ f h with hrefusal | hmismatch
      · exact absurd hrefusal hf
      · exact hmismatch
  · exact absurd ⟨h, hf⟩ hrefuses.not_breaksOff

end Value

/-! ## Conversions of setters -/

namespace Value

variable {v key : Value} {kind : ValueKind} {f : Fault}

theorem faultsIn_checkKey : FaultsIn Fault.IsRefusal (key.checkKey kind) := by
  cases key with
  | text w =>
    simp only [checkKey, text?, checkKind, canBeKey, code?, Option.isSome_some, Bool.not_true,
      Bool.false_eq_true, if_false]
    split
    · exact faultsIn_refuse _
    · split
      · exact faultsIn_ok _
      · split
        · exact faultsIn_ok _
        · exact faultsIn_refuse _
      · next h => cases h
  | _ => exact faultsIn_refuse _

theorem breaksOff_asText_iff : BreaksOff v.asText f ↔ v.Unwritable f := by
  rw [unwritable_iff]
  unfold asText
  split
  · exact iff_of_false (faultsIn_ok _).not_breaksOff (faultsIn_written _).not_breaksOff
  · exact iff_of_false (faultsIn_ok _).not_breaksOff (faultsIn_ok _).not_breaksOff
  · exact breaksOff_map_iff _

theorem faultsIn_checked {α : Type} {get? : Value → Option α} {put : α → Value} {cause : Invalid} :
    FaultsIn Fault.IsRefusal (v.checked get? put cause) := by
  unfold checked
  split
  · exact faultsIn_ok _
  · split
    · exact faultsIn_ok _
    · exact faultsIn_refuse _

/-- An integer is converted without a look at its size. -/
theorem breaksOff_asFloat_iff : BreaksOff (v.asFloat key) f ↔
    ∃ n, v = .whole n ∧ (Number.whole n).toDouble? = Option.none ∧ f = .outOfRange := by
  cases v with
  | whole n =>
    have hn : (Value.whole n).number? = some (.whole n) := rfl
    rw [asFloat, toDouble_of_number? hn]
    cases h : (Number.whole n).toDouble? with
    | none =>
      constructor
      · rintro ⟨⟨⟩, -⟩
        exact ⟨n, rfl, h, rfl⟩
      · rintro ⟨_, -, -, rfl⟩
        exact ⟨rfl, id⟩
    | some x =>
      refine iff_of_false (faultsIn_ok _).not_breaksOff ?_
      rintro ⟨_, ⟨⟩, hnone, -⟩
      cases h.symm.trans hnone
  | none => exact iff_of_false (faultsIn_ok _).not_breaksOff nofun
  | real x => exact iff_of_false (faultsIn_ok _).not_breaksOff nofun
  | _ => exact iff_of_false (faultsIn_refuse _).not_breaksOff nofun

end Value

/-! ## Calls of setters -/

/-- The calls that break off, each with its fault: a value that has no text is given as one, or an
integer beyond the range of double-precision numbers as one of them. -/
inductive MetadataSetter.BreaksOff : MetadataSetter → Fault → Prop
  | text {key value : Value} {f : Fault} (h : value.Unwritable f) : BreaksOff (.text key value) f
  | float {key : Value} {n : Whole} (h : (Number.whole n).toDouble? = none) :
    BreaksOff (.float key (.whole n)) .outOfRange

theorem MetadataSetter.breaksOff_coerced_iff {call : MetadataSetter} {f : Fault} :
    MediaBridge.BreaksOff call.coerced f ↔ call.BreaksOff f := by
  cases call with
  | text key value =>
    rw [coerced, Value.breaksOff_asText_iff]
    refine ⟨.text, ?_⟩
    rintro ⟨h⟩
    exact h
  | float key value =>
    rw [coerced, Value.breaksOff_asFloat_iff]
    constructor
    · rintro ⟨n, rfl, hn, rfl⟩
      exact .float hn
    · intro h
      cases h with
      | @float _ n hn => exact ⟨n, rfl, hn, rfl⟩
  | long key value =>
    rw [coerced, Value.asLong_eq]
    exact iff_of_false Value.faultsIn_checked.not_breaksOff (by rintro ⟨⟩)
  | bitmap key value =>
    rw [coerced, Value.asBitmap_eq]
    exact iff_of_false Value.faultsIn_checked.not_breaksOff (by rintro ⟨⟩)
  | rating key value =>
    rw [coerced, Value.asRating_eq]
    exact iff_of_false Value.faultsIn_checked.not_breaksOff (by rintro ⟨⟩)
  | extras value =>
    rw [coerced, Value.asExtras_eq]
    exact iff_of_false Value.faultsIn_checked.not_breaksOff (by rintro ⟨⟩)

/-- The calls that break off, each with its fault: a value that has no text is given as one. -/
inductive LegacyMetadataSetter.BreaksOff : LegacyMetadataSetter → Fault → Prop
  | text {key value : Value} {f : Fault} (h : value.Unwritable f) : BreaksOff (.text key value) f

theorem LegacyMetadataSetter.breaksOff_coerced_iff {call : LegacyMetadataSetter} {f : Fault} :
    MediaBridge.BreaksOff call.coerced f ↔ call.BreaksOff f := by
  cases call with
  | text key value =>
    rw [coerced, Value.breaksOff_asText_iff]
    refine ⟨.text, ?_⟩
    rintro ⟨h⟩
    exact h
  | long key value =>
    rw [coerced, Value.asLong_eq]
    exact iff_of_false Value.faultsIn_checked.not_breaksOff (by rintro ⟨⟩)
  | bitmap key value =>
    rw [coerced, Value.asBitmap_eq]
    exact iff_of_false Value.faultsIn_checked.not_breaksOff (by rintro ⟨⟩)
  | rating key value =>
    rw [coerced, Value.asLegacyRating_eq]
    exact iff_of_false Value.faultsIn_checked.not_breaksOff (by rintro ⟨⟩)

/-- Apart from the conversion of its value a call only refuses. -/
theorem BuilderClass.Lawful.breaksOff_apply_iff {c : BuilderClass} (hc : c.Lawful) {b : c.State}
    {call : c.Call} {f : Fault} : BreaksOff (c.apply b call) f ↔ BreaksOff (c.coerced call) f := by
  rw [hc.apply_eq, breaksOff_map_iff, update]
  exact breaksOff_bind_iff fun _ => Value.faultsIn_checkKey.bind fun _ => faultsIn_ok _

end MediaBridge
