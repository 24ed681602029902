import MediaBridge.Text.Quoted
import MediaBridge.Uri.Address

/-!
# Authorities

The conditions on the authority of a uri: brackets enclose an address, no character turns into a
delimiter under compatibility decomposition, and the port is a number in range.
-/

namespace MediaBridge.Uri

inductive Flaw where
  | notText
  | empty
  | forbiddenCharacter
  | brackets
  | futureAddress
  | notAddress (host : List Char)
  | bracketedAddress4
  | foldedDelimiter (authority : List Char)
  | portNotNumber (port : List Char)
  | portTooLong (digits : Nat)
  | portOutOfRange
deriving DecidableEq

def Flaw.message : Flaw → String
  | .notText => "uri must be a string"
  | .empty => "empty uri"
  | .forbiddenCharacter => "control character or whitespace in uri"
  | .brackets => "Invalid IPv6 URL"
  | .futureAddress => "IPvFuture address is invalid"
  | .notAddress host =>
    Text.quoted (String.ofList host) ++ " does not appear to be an IPv4 or IPv6 address"
  | .bracketedAddress4 => "An IPv4 address cannot be in brackets"
  | .foldedDelimiter authority =>
    "netloc '" ++ String.ofList authority ++ "' contains invalid characters under NFKC normalization"
  | .portNotNumber port =>
    "Port could not be cast to integer value as " ++ Text.quoted (String.ofList port)
  | .portTooLong digits => Text.tooManyDigits digits
  | .portOutOfRange => "Port out of range 0-65535"

/-- The host and port of an authority, without user information. -/
def hostAndPort (authority : List Char) : List Char := afterLast '@' authority

/-- What stands between the brackets must be an address of version 6 or of a future one. -/
def checkBracketedHost (host : List Char) : Except Flaw Unit :=
  if host.head? = some 'v' then
    if isFutureAddress host then .ok () else .error .futureAddress
  else if isAddress4 host then .error .bracketedAddress4
  else if isAddress6 host then .ok ()
  else .error (.notAddress host)

/-- Brackets come in pairs, around the whole host. -/
def checkBrackets (authority : List Char) : Except Flaw Unit :=
  if authority.contains '[' != authority.contains ']' then .error .brackets
  else if authority.contains '[' then
    let hostPort := hostAndPort authority
    if hostPort.contains '[' then
      let bracketed := after '[' hostPort
      let rest := after ']' bracketed
      if !(before '[' hostPort).isEmpty then .error .brackets
      else if !rest.isEmpty && rest.head? != some ':' then .error .brackets
      else checkBracketedHost (before ']' bracketed)
    else checkBracketedHost (before ':' hostPort)
  else .ok ()

/-- The characters whose compatibility decomposition contains a delimiter of uris. -/
def foldingCharacters : List Char :=
  ['\u2047', '\u2048', '\u2049', '\u2100', '\u2101', '\u2105', '\u2106', '\u2a74', '\ufe13',
    '\ufe16', '\ufe55', '\ufe56', '\ufe5f', '\ufe6b', '\uff03', '\uff0f', '\uff1a', '\uff1f',
    '\uff20']

/-- No character of the authority turns into a delimiter. -/
def checkFolding (authority : List Char) : Except Flaw Unit :=
  if authority.any foldingCharacters.contains then .error (.foldedDelimiter authority) else .ok ()

/-- The text of the port, empty if there is none. -/
def portText (authority : List Char) : List Char :=
  let hostPort := hostAndPort authority
  if hostPort.contains '[' then after ':' (after ']' (after '[' hostPort)) else after ':' hostPort

def maxPort : Nat := 65535

/-- A port is a decimal number in range. -/
def checkPort (authority : List Char) : Except Flaw Unit :=
  let port := portText authority
  if port.isEmpty then .ok ()
  else if !port.all Char.isDigit then .error (.portNotNumber port)
  else if Text.maxDigits < port.length then .error (.portTooLong port.length)
  else if maxPort < decimalValue port then .error .portOutOfRange
  else .ok ()

def checkAuthority (authority : List Char) : Except Flaw Unit := do
  checkBrackets authority
  checkFolding authority
  checkPort authority

end MediaBridge.Uri
