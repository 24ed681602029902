import MediaBridge.Fault

/-!
# Plain texts

What is stored when a value is turned into a text. That is the literal for most values, and the
characters for a text. A uri is written out, which its components may prevent if it was not parsed.
An integer with too many digits has no text, and neither has a value in which one is to be shown.
Main statement: `plain_ofUri`, a uri with texts as components is written as its canonical text.
-/

namespace MediaBridge

def spacedFields (fields : List (String × String)) : String :=
  " ".intercalate (fields.map fun f => f.1 ++ "=" ++ f.2)

namespace Value

/-- The characters of a component of a uri: a text, or nothing in place of a value that counts as
empty. -/
def component (v : Value) : Except Fault (List Char) :=
  match v with
  | .text w => .ok w.text.toList
  | _ => if v.isTruthy then .error .unsuitable else .ok []

/-- Whether a value is a text with characters. -/
def isWritten (v : Value) : Bool := v.text?.isSome && v.isTruthy

@[simp] theorem component_ofString (s : String) : (ofString s).component = .ok s.toList := rfl

end Value

namespace UriOf

/-- Whether a uri has nothing but a path. -/
def isPath (u : UriOf Value) : Bool :=
  !u.scheme.isTruthy && !u.authority.isTruthy && !u.query.isTruthy && !u.fragment.isTruthy

/-- A uri without authority whose path starts with two slashes. Its scheme may be any value, of
which the plain text is given. -/
def writeSlashed (u : UriOf Value) (path : List Char) (scheme : Except Fault Word) :
    Except Fault Word := do
  let scheme ← if u.scheme.isTruthy then (·.text.toList ++ [':']) <$> scheme else .ok []
  let query ← u.query.component
  let fragment ← u.fragment.component
  return .plain (String.ofList (scheme ++ Uri.Parts.text ⟨[], [], path, query, fragment⟩))

/-- Any other uri with a text as its scheme. A path alone stays the word it is. -/
def writeJoined (u : UriOf Value) (scheme path : Word) : Except Fault Word := do
  let authority ← u.authority.component
  let query ← u.query.component
  let fragment ← u.fragment.component
  if u.isPath then return path
  else
    return .plain (String.ofList
      (Uri.Parts.text ⟨scheme.text.toList, authority, path.text.toList, query, fragment⟩))

/-- Why a uri whose scheme is no text cannot be written: a text does not go with the scheme, any
other component has no text, and no component at all makes no text. -/
def schemeFault (u : UriOf Value) : Fault :=
  let others := [u.authority, u.path, u.query, u.fragment]
  if others.any Value.isWritten then .unsuitable
  else if (u.scheme :: others).any Value.isTruthy then .missingPart
  else .unsuitable

/-- The text of a uri, given the plain text of its scheme. -/
def write (u : UriOf Value) (scheme : Except Fault Word) : Except Fault Word :=
  match u.path, u.scheme with
  | .text path, s =>
    if !u.authority.isTruthy && Uri.startsWithSlashes path.text.toList then
      u.writeSlashed path.text.toList scheme
    else
      match s with
      | .text s => u.writeJoined s path
      | _ => .error u.schemeFault
  | _, s =>
    if !u.authority.isTruthy then .error .missingPart
    else if s.text?.isSome then .error .unsuitable
    else .error u.schemeFault

end UriOf

namespace Value

/-- A text that a value was to be written as. -/
def written (s : Option String) : Except Fault Word :=
  match s with
  | some s => .ok (.plain s)
  | Option.none => refuse .tooLongToWrite

def plain : Value → Except Fault Word
  | .text w => .ok (.plain w.text)
  | .whole n => written (Text.decimal? n.toInt)
  | .map _ m => written (Value.map false m).literal?
  | .uri ⟨scheme, authority, path, query, fragment⟩ =>
    UriOf.write ⟨scheme, authority, path, query, fragment⟩ scheme.plain
  | .conversion c => .ok (.plain (spacedFields c.fieldLiterals))
  | .settings s => .ok (.plain (spacedFields s.fieldLiterals))
  | v => written v.literal?
termination_by structural v => v

def plainText (v : Value) : Except Fault String := (·.text) <$> v.plain

@[simp] theorem isTruthy_ofString (s : String) : (ofString s).isTruthy = !s.toList.isEmpty := by
  by_cases h : s = "" <;> simp [ofString, isTruthy, Word.isEmpty, h]

theorem writeJoined_ofString (u : Uri)
    (hslashes : ¬(u.authority.toList = [] ∧ Uri.startsWithSlashes u.path.toList)) :
    (UriOf.map ofString u).writeJoined (.plain u.scheme) (.plain u.path) = .ok (.plain u.text) := by
  obtain ⟨scheme, authority, path, query, fragment⟩ := u
  simp only [UriOf.writeJoined, UriOf.map, component_ofString, UriOf.isPath, isTruthy_ofString,
    Word.text_plain, Uri.text, Uri.parts]
  by_cases h : scheme.toList = [] ∧ authority.toList = [] ∧ query.toList = [] ∧
      fragment.toList = []
  · obtain ⟨hs, ha, hq, hf⟩ := h
    have hpath : Uri.startsWithSlashes path.toList = false := by simpa [ha] using hslashes
    simp [hs, ha, hq, hf, hpath, Uri.Parts.text, Uri.schemeText, Uri.hierarchyText, Uri.delimited,
      Uri.hierarchicalSchemes, pure, Except.pure, bind, Except.bind]
  · simp only [bind, Except.bind, pure, Except.pure]
    rw [if_neg]
    simpa [and_assoc] using h

/-- A uri with texts as components is written as its canonical text. -/
theorem plain_ofUri (u : Uri) : (ofUri u).plain = .ok (.plain u.text) := by
  have hj := writeJoined_ofString u
  obtain ⟨scheme, authority, path, query, fragment⟩ := u
  have hp (s : String) : (ofString s).plain = .ok (.plain s) := rfl
  have hw (s : String) : ofString s = .text (.plain s) := rfl
  simp only [UriOf.map] at hj
  simp only [ofUri, UriOf.map, plain, hp]
  simp only [UriOf.write, isTruthy_ofString, hw path, hw scheme, Word.text_plain]
  simp only [← hw]
  split
  · next h =>
    simp only [Bool.not_not, Bool.and_eq_true, List.isEmpty_iff] at h
    by_cases hc : scheme.toList = [] <;>
    simp [h, hc, UriOf.writeSlashed, Uri.text, Uri.parts, UriOf.map, Uri.Parts.text,
      Uri.schemeText, Uri.hierarchyText, pure, Except.pure, bind, Except.bind, Functor.map,
      Except.map]
  · next h => exact hj (by simpa using h)

end Value

end MediaBridge
