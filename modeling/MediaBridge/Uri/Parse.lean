import MediaBridge.Uri.Authority
import MediaBridge.Uri.Basic

/-!
# Parsing uris

A text is cut into a scheme, an authority, a path, a query and a fragment at the first delimiters,
and then only the authority can be at fault.
-/

namespace MediaBridge.Uri

/-- Control characters, the space and the delete character never occur in a uri. -/
def isForbidden (c : Char) : Bool := c.toNat ≤ 0x20 || c.toNat == 0x7f

def isLetter (c : Char) : Bool := ('a' ≤ c && c ≤ 'z') || ('A' ≤ c && c ≤ 'Z')

def isSchemeChar (c : Char) : Bool := isLetter c || c.isDigit || c == '+' || c == '-' || c == '.'

/-- Whether a text is a scheme, that is, starts with a letter and has scheme characters only. -/
def isScheme (cs : List Char) : Bool := cs.head?.any isLetter && cs.all isSchemeChar

/-- Cut off the scheme at the first colon, if what precedes it is one. It is lowered. -/
def cutScheme (cs : List Char) : List Char × List Char :=
  let scheme := before ':' cs
  if cs.contains ':' && isScheme scheme then (scheme.map Char.toLower, after ':' cs) else ([], cs)

def isAuthorityEnd (c : Char) : Bool := c == '/' || c == '?' || c == '#'

/-- Cut off the authority, if two slashes announce one. -/
def cutAuthority : List Char → List Char × List Char
  | '/' :: '/' :: cs => (cs.takeWhile (!isAuthorityEnd ·), cs.dropWhile (!isAuthorityEnd ·))
  | cs => ([], cs)

/-- Cut a text into the components of a uri. -/
def cut (cs : List Char) : Parts :=
  let (scheme, rest) := cutScheme cs
  let (authority, rest) := cutAuthority rest
  let main := before '#' rest
  { scheme, authority, path := before '?' main, query := after '?' main, fragment := after '#' rest }

def parse (s : String) : Except Flaw Uri :=
  if s.toList.isEmpty then .error .empty
  else if s.toList.any isForbidden then .error .forbiddenCharacter
  else do
    let p := cut s.toList
    checkAuthority p.authority
    return ofParts p

end MediaBridge.Uri
