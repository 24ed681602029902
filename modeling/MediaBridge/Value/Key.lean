import MediaBridge.Value.Basic

/-!
# Values as keys

Which values can be keys of a map, and which of them are the same key. Numbers are told apart by
their value only, so that one, one as a double-precision number and true are one key; texts are
told apart by their characters.
-/

namespace MediaBridge

/-- What a key is told apart by. -/
inductive KeyCode where
  | none
  | number (p : Position)
  | nan (payload : Nat)
  | text (s : String)
  | builder (id : Nat)
  | pair (first second : KeyCode)
deriving DecidableEq

namespace KeyCode

def ofDouble : Double → KeyCode
  | .nan payload => .nan payload
  | .infinite negative => .number (if negative then .bottom else .top)
  | .finite negative units => .number (.point (if negative then -units else units))

def ofInt (n : Int) : KeyCode := .number (.ofInt n)

def ofNumber : Number → KeyCode
  | .whole n => ofInt n.toInt
  | .real x => ofDouble x

/-- The code of an object of the named type with parts. -/
def object (type : String) (parts : List KeyCode) : KeyCode :=
  parts.foldr .pair (.text type)

end KeyCode

namespace Value

mutual

/-- The code of a value that can be a key. Values that can change, or contain one that can, have
none. -/
def code? : Value → Option KeyCode
  | .none => some .none
  | .bool b => some (.ofInt (if b then 1 else 0))
  | .whole n => some (.ofInt n.toInt)
  | .real x => some (.ofDouble x)
  | .text w => some (.text w.text)
  | .pair first second => do
    some (.object "pair" [← first.code?, ← second.code?])
  | .uri ⟨scheme, authority, path, query, fragment⟩ => do
    some (.object "uri" [← scheme.code?, ← authority.code?, ← path.code?, ← query.code?,
      ← fragment.code?])
  | .rating r =>
    some (.object "rating" [.text r.style.identifier, (r.value.map .ofNumber).getD .none])
  | .legacyRating r => some (.object "legacy rating" [.ofInt r.style.toInt, .ofDouble r.value])
  | .entry ⟨kind, content⟩ =>
    content.code?.map fun c =>
      .object "entry" [(kind.map (.text ·.identifier)).getD .none, c]
  | .description d => (fieldsCode? d).map fun c => .object "description" [c]
  | .item ⟨mediaId, .none, flags⟩ => some (.object "item" [.text mediaId.text, .ofInt flags.toInt])
  | .legacyItem ⟨d, flags⟩ =>
    (fieldsCode? d).map fun c => .object "legacy item" [.ofInt flags.toInt, c]
  | .builder id => some (.builder id)
  | _ => Option.none
termination_by structural v => v

def fieldsCode? : DescriptionOf Value → Option KeyCode
  | ⟨mediaId, title, subtitle, about, iconBitmap, iconUri, extras, mediaUri⟩ => do
    some (.object "fields" [← mediaId.code?, ← title.code?, ← subtitle.code?, ← about.code?,
      ← iconBitmap.code?, ← iconUri.code?, ← extras.code?, ← mediaUri.code?])
termination_by structural d => d

end

instance : Keyed Value := { Code := Option KeyCode, code := code? }

def canBeKey (v : Value) : Bool := v.code?.isSome

/-- A text is the same key as exactly the texts with its characters. -/
theorem code?_eq_text_iff {v : Value} {s : String} :
    v.code? = some (.text s) ↔ v.text? = some s := by
  constructor
  · intro h
    cases v with
    | text w => simpa [code?, text?] using h
    | real x => cases x <;> simp [code?, KeyCode.ofDouble] at h
    | item i => obtain ⟨_, _ | _, _⟩ := i <;> simp [code?, KeyCode.object] at h
    | _ => simp [code?, KeyCode.ofInt, KeyCode.object, Option.bind_eq_some_iff] at h
  · intro h
    cases v <;> simp_all [code?, text?]

end Value

end MediaBridge
