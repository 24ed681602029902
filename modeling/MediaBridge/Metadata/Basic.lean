import MediaBridge.Metadata.KeyKind

/-!
# Metadata of the new schema

Typed entries under keys, in order, with getters that answer for one kind of content only.
-/

namespace MediaBridge

namespace Metadata

/-- Metadata with the given entries, each of which must be typed and fit its key. -/
def ofEntries (m : OrderedMap Value Value) : Except Fault Metadata := do
  let entries ← m.toList.mapM fun (key, value) => do
    match value with
    | .entry e =>
      key.checkKind e.kind
      return (key, e)
    | _ => refuse (.notEntry key)
  return ⟨entries⟩

/-- The content at a key if it has the given kind. -/
def content? (m : Metadata) (key : Value) (kind : ValueKind) : Option Value :=
  (m.get? key).bind fun e => if e.kind = some kind then some e.content else none

/-- The content at a key if it has the given kind, or else none. -/
def content (m : Metadata) (kind : ValueKind) (key : Value) : Value :=
  (m.content? key kind).getD .none

/-- The content at a key if it has the given kind and is there, or else a default. -/
def contentOr (m : Metadata) (kind : ValueKind) (default : Value) (key : Value) : Value :=
  let v := m.content kind key
  if v.isNone then default else v

def textAt (m : Metadata) (key : Value) : Value := m.content .text key

def longAt (m : Metadata) (key : Value) : Value := m.contentOr .long (.ofInt 0) key

def floatAt (m : Metadata) (key : Value) : Value := m.contentOr .float (.real .zero) key

def bitmapAt (m : Metadata) (key : Value) : Value := m.content .bitmap key

def ratingAt (m : Metadata) (key : Value) : Value := m.content .rating key

def extras (m : Metadata) : Value := m.content .extras (.ofKey .extras)

def mediaId (m : Metadata) : Value := m.textAt (.ofKey .mediaId)

end Metadata

end MediaBridge
