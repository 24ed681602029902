/-!
# Uris

A uri as five components, and its canonical text. Components are cut out of a text and put
together again as lists of characters.
-/

namespace MediaBridge

structure UriOf (α : Type) where
  scheme : α
  authority : α
  path : α
  query : α
  fragment : α
deriving DecidableEq, Inhabited

def UriOf.map {α β : Type} (f : α → β) (u : UriOf α) : UriOf β :=
  ⟨f u.scheme, f u.authority, f u.path, f u.query, f u.fragment⟩

/-- A uri split into its components. An absent component is empty. -/
abbrev Uri := UriOf String

namespace Uri

abbrev Parts := UriOf (List Char)

def parts (u : Uri) : Parts := UriOf.map String.toList u

def ofParts (p : Parts) : Uri := UriOf.map String.ofList p

@[simp] theorem parts_ofParts (p : Parts) : (ofParts p).parts = p := by
  simp [parts, ofParts, UriOf.map]

@[simp] theorem ofParts_parts (u : Uri) : ofParts u.parts = u := by
  simp [parts, ofParts, UriOf.map]

/-- The schemes whose uris are written with an authority, even an empty one. -/
def hierarchicalSchemes : List (List Char) :=
  ["ftp", "http", "gopher", "nntp", "telnet", "imap", "wais", "file", "mms", "https", "shttp",
    "snews", "prospero", "rtsp", "rtsps", "rtspu", "rsync", "svn", "svn+ssh", "sftp", "nfs", "git",
    "git+ssh", "ws", "wss"].map String.toList

def startsWithSlashes : List Char → Bool
  | '/' :: '/' :: _ => true
  | _ => false

/-- A delimiter and a component, or nothing if the component is empty. -/
def delimited (delimiter : Char) (component : List Char) : List Char :=
  if component.isEmpty then [] else delimiter :: component

/-- The scheme with its colon, if there is one. -/
def schemeText (scheme : List Char) : List Char :=
  if scheme.isEmpty then [] else scheme ++ [':']

/-- The authority and the path. Two slashes announce an authority, so an empty one is written out
before a path that starts with two slashes itself. -/
def hierarchyText (p : Parts) : List Char :=
  if p.authority.isEmpty && startsWithSlashes p.path then '/' :: '/' :: p.path
  else if !p.authority.isEmpty || hierarchicalSchemes.contains p.scheme then
    let slash := if p.path.isEmpty || p.path.head? == some '/' then [] else ['/']
    '/' :: '/' :: p.authority ++ slash ++ p.path
  else p.path

def Parts.text (p : Parts) : List Char :=
  schemeText p.scheme ++ hierarchyText p ++ delimited '?' p.query ++ delimited '#' p.fragment

/-- The canonical text of a uri. -/
def text (u : Uri) : String := String.ofList u.parts.text

def isAbsolute (u : Uri) : Bool := u.scheme ≠ ""

@[simp] theorem toList_text (u : Uri) : u.text.toList = u.parts.text := by simp [text]

end Uri

end MediaBridge
