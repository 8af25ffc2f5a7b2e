import CallGraph.Error

/-! Addresses of graph servers: a scheme, a host and perhaps a port. -/
namespace CallGraph.Remote

def schemes : List String :=
  ["", "bolt", "bolt+s", "bolt+ssc", "neo4j", "neo4j+s", "neo4j+ssc"]

/-- Schemes whose addresses need a host, which may follow any number of slashes. -/
def webSchemes : List String :=
  ["http", "https", "ws", "wss", "ftp"]

/-- The scheme used when an address has none. -/
def defaultScheme : String := "bolt"

structure Address where
  scheme : String
  host : String
  port? : Option Nat
  deriving DecidableEq, Repr

namespace Address

/-- Whether a character may stand in a scheme after its first letter. -/
private def isSchemeChar (c : Char) : Bool :=
  c.isAlphanum || c = '+' || c = '-' || c = '.'

/-- The scheme before the first colon in small letters, and what follows the colon. -/
private def splitScheme? (s : List Char) : Option (String × List Char) :=
  match s.span (· ≠ ':') with
  | (first :: more, _ :: rest) =>
    if first.isAlpha ∧ more.all isSchemeChar then
      some (String.ofList ((first :: more).map Char.toLower), rest)
    else none
  | _ => none

private def isByte (s : List Char) : Bool :=
  !s.isEmpty && s.length ≤ 3 && s.all Char.isDigit && (s.length = 1 || s.head? ≠ some '0') &&
    s.foldl (fun n c => n * 10 + (c.toNat - '0'.toNat)) 0 < 256

/-- Four numbers separated by dots. -/
private def isIpv4 (s : List Char) : Bool :=
  let parts := s.splitOn '.'
  parts.length = 4 && parts.all isByte

/-- Whether a text is a group of one to four digits in base sixteen. -/
private def isGroup (s : List Char) : Bool :=
  !s.isEmpty && s.length ≤ 4 &&
    s.all fun c => c.isDigit || ('a' ≤ c.toLower && c.toLower ≤ 'f')

/-- The number of groups that parts between colons stand for; the last may be four bytes. -/
private def groupCount? (parts : List (List Char)) : Option Nat :=
  match parts.reverse with
  | [] => some 0
  | last :: before =>
    if !before.all isGroup then none
    else if isGroup last then some parts.length
    else if isIpv4 last then some (parts.length + 1)
    else none

/-- The texts before and after the first double colon. -/
private def splitDouble? : List Char → Option (List Char × List Char)
  | ':' :: ':' :: rest => some ([], rest)
  | c :: rest => (splitDouble? rest).map fun (before, after) => (c :: before, after)
  | [] => none

private def colonParts (s : List Char) : List (List Char) :=
  if s.isEmpty then [] else s.splitOn ':'

/-- Eight groups, or fewer around one double colon. -/
private def isIpv6 (s : List Char) : Bool :=
  match splitDouble? s with
  | none => groupCount? (colonParts s) = some 8
  | some (before, after) =>
    match groupCount? (colonParts before), groupCount? (colonParts after) with
    | some m, some n => m + n < 8 && !before.contains '.'
    | _, _ => false

/-- The port after the colon that follows a host. -/
private def portOf (s : List Char) : Except AddressFault (Option Nat) :=
  match s with
  | [] => .ok none
  | _ :: digits =>
    if digits.isEmpty then .ok none
    else if !digits.all Char.isDigit then .error .port
    else
      let n := digits.foldl (fun n c => n * 10 + (c.toNat - '0'.toNat)) 0
      if n ≤ 65535 then .ok (some n) else .error .port

/-- The characters that no host may have. -/
private def hostExclusions : List Char :=
  ['\x00', ' ', '<', '>', '[', ']', '\\', '^', '|']

/-- The host and the port after the two slashes, without a user before them. -/
private def authority (s : List Char) : Except AddressFault (String × Option Nat) :=
  let whole := s.takeWhile fun c => c ≠ '/' ∧ c ≠ '?' ∧ c ≠ '#'
  let place := (whole.splitOn '@').getLast?.getD []
  match place with
  | '[' :: inner =>
    match inner.span (· ≠ ']') with
    | (address, _ :: rest) =>
      if isIpv6 address then (portOf rest).map fun port => (String.ofList address, port)
      else .error .ipv6
    | (_, []) => .error .ipv6
  | _ =>
    let host := place.takeWhile (· ≠ ':')
    if host.any hostExclusions.contains then .error .hostCharacter
    else (portOf (place.dropWhile (· ≠ ':'))).map fun port => (String.ofList host, port)

/-- The host and the port of an address with a scheme; no host if there are no two slashes. -/
private def withScheme (scheme : String) (rest : List Char) : Except AddressFault (Option Address) :=
  if webSchemes.contains scheme then
    (authority (rest.dropWhile fun c => c = '/' ∨ c = '\\')).bind fun (host, port?) =>
      if host.isEmpty then .error .noHost else .ok (some ⟨scheme, host, port?⟩)
  else
    match rest with
    | '/' :: '/' :: rest =>
      (authority rest).map fun (host, port?) =>
        if host.isEmpty then none else some ⟨scheme, host, port?⟩
    | _ => .ok none

/-- An address without control characters and spaces at its ends, line breaks and tabs. -/
private def cleaned (s : List Char) : List Char :=
  let blank : Char → Bool := fun c => c.toNat ≤ 32
  let text := ((s.dropWhile blank).reverse.dropWhile blank).reverse
  text.filter fun c => c ≠ '\t' ∧ c ≠ '\n' ∧ c ≠ '\r'

/-- Reads an address; one without a scheme or without a host gets the default scheme in front. -/
def parse (text : String) : Except RemoteError Address :=
  let bare : Except RemoteError Address :=
    match withScheme defaultScheme (cleaned ("//".toList ++ text.toList)) with
    | .error fault => .error (.address fault)
    | .ok none => .error (.address .noHost)
    | .ok (some address) => .ok address
  let found : Except RemoteError Address :=
    match splitScheme? (cleaned text.toList) with
    | none => bare
    | some (scheme, rest) =>
      match withScheme scheme rest with
      | .error fault => .error (.address fault)
      | .ok none => bare
      | .ok (some address) => .ok address
  found.bind fun address =>
    if schemes.contains address.scheme then .ok address
    else .error (.unsupportedScheme address.scheme)

end Address
end CallGraph.Remote
