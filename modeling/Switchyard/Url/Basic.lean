import Switchyard.Url.Host
/-!
# Addresses

Absolute addresses: scheme, host, port and path, as far as origins are compared by them. The
special schemes have default ports, take backslashes for slashes and always have a path. Hosts are
no stricter than `Host` says: labels behind `xn--` are taken as they are.
-/

namespace Switchyard

/-- How the text behind a scheme is read. -/
inductive SchemeKind where
  | special
  | file
  | other
  deriving DecidableEq, Repr

/-- An absolute address. The path is a list of segments, each behind a slash. -/
structure Url where
  scheme : String
  host : Option Host
  port : Option Nat
  path : List (List Char)
  hasQuery : Bool
  hasFragment : Bool
  deriving DecidableEq, Repr

namespace Url

def schemeKind : String → SchemeKind
  | "http" | "https" | "ws" | "wss" | "ftp" => .special
  | "file" => .file
  | _ => .other

def defaultPort? : String → Option Nat
  | "http" | "ws" => some 80
  | "https" | "wss" => some 443
  | "ftp" => some 21
  | _ => none

def effectivePort? (u : Url) : Option Nat := u.port.or (defaultPort? u.scheme)

def readScheme? (s : List Char) : Option (String × List Char) :=
  match s.span fun c => c.isAlphanum || c = '+' || c = '-' || c = '.' with
  | (c :: name, ':' :: rest) =>
    if c.isAlpha then some (String.ofList ((c :: name).map Char.toLower), rest) else none
  | _ => none

private def isSlash (kind : SchemeKind) (c : Char) : Bool :=
  c = '/' || (kind != .other && c = '\\')

private def endsAuthority (kind : SchemeKind) (c : Char) : Bool :=
  isSlash kind c || c = '?' || c = '#'

private def isSingleDot (s : List Char) : Bool :=
  s = ['.'] || s.map Char.toLower = "%2e".toList

private def isDoubleDot (s : List Char) : Bool :=
  let l := s.map Char.toLower
  l = "..".toList || l = "%2e%2e".toList || l = "%2e.".toList || l = ".%2e".toList

/-- Cuts a path into segments, each with a mark whether a slash follows it. -/
private def cutPath (kind : SchemeKind) : List Char → List (List Char × Bool)
  | [] => [([], false)]
  | c :: rest =>
    if isSlash kind c then ([], true) :: cutPath kind rest
    else
      match cutPath kind rest with
      | [] => [([c], false)]
      | (segment, slash) :: more => (c :: segment, slash) :: more

/-- Adds a segment to a path held last first; dots stay where they are or go up. -/
private def addSegment (path : List (List Char)) (s : List Char × Bool) : List (List Char) :=
  if isDoubleDot s.1 then if s.2 then path.tail else [] :: path.tail
  else if isSingleDot s.1 then if s.2 then path else [] :: path
  else s.1 :: path

def readPath (kind : SchemeKind) (s : List Char) : List (List Char) :=
  ((cutPath kind s).foldl addSegment []).reverse

private def pathAfterAuthority (kind : SchemeKind) : List Char → List (List Char)
  | [] => if kind = .other then [] else [[]]
  | c :: rest => if isSlash kind c then readPath kind rest else readPath kind (c :: rest)

private def dropUserInfo (authority : List Char) : List Char :=
  ((Text.cutLast '@' authority).map (·.2)).getD authority

/-- Cuts host and port apart at the first colon outside brackets. -/
private def cutPort (inBrackets : Bool) : List Char → List Char × Option (List Char)
  | [] => ([], none)
  | c :: rest =>
    if c = ':' && !inBrackets then ([], some rest)
    else
      let (host, port) := cutPort (if c = '[' then true else if c = ']' then false else inBrackets) rest
      (c :: host, port)

/-- Reads a port; one that the scheme implies is left out. -/
private def readPort? (scheme : String) (s : List Char) : Option (Option Nat) :=
  if s.isEmpty then some none
  else
    match Text.decimal? s with
    | none => none
    | some n =>
      if 65535 < n then none
      else some (if defaultPort? scheme = some n then none else some n)

private def splitTail (s : List Char) : List Char × Bool × Bool :=
  let (body, rest) := s.span fun c => c != '?' && c != '#'
  match rest with
  | '?' :: after => (body, true, after.contains '#')
  | '#' :: _ => (body, false, true)
  | _ => (body, false, false)

/-- Reads what stands behind the two slashes of an address with an authority. -/
private def readAuthority? (scheme : String) (kind : SchemeKind) (s : List Char) : Option Url := do
  let (authority, rest) := s.span fun c => !endsAuthority kind c
  let (hostText, portText) := cutPort false (dropUserInfo authority)
  let host ← if kind = .special then Host.parse? hostText else Host.parseText? hostText
  if hostText.isEmpty && kind = .special then none
  let port ← match portText with
    | none => some none
    | some p => readPort? scheme p
  let (path, hasQuery, hasFragment) := splitTail rest
  return {
    scheme
    host := if hostText.isEmpty then none else some host
    port
    path := pathAfterAuthority kind path
    hasQuery
    hasFragment }

private def isDriveLetter (s : List Char) : Bool :=
  match s with
  | [c, d] => c.isAlpha && (d = ':' || d = '|')
  | _ => false

/-- Reads what stands behind the scheme of a file address. Only two slashes bring a host, and the
local one and that of a path on a drive are left out. -/
private def readFile? (s : List Char) : Option Url := do
  let (body, hasQuery, hasFragment) := splitTail s
  let bare (path : List (List Char)) : Url :=
    { scheme := "file", host := none, port := none, path, hasQuery, hasFragment }
  match body with
  | a :: b :: rest =>
    if isSlash .file a && isSlash .file b then
      let (hostText, after) := rest.span fun c => !isSlash .file c
      if hostText.isEmpty || isDriveLetter hostText then
        return bare (pathAfterAuthority .file rest)
      else
        let host ← Host.parse? hostText
        let path := pathAfterAuthority .file after
        let dropped := host = .domain "localhost" || (path.head?.any isDriveLetter)
        return { bare path with host := if dropped then none else some host }
    else return bare (pathAfterAuthority .file body)
  | _ => return bare (pathAfterAuthority .file body)

/-- Reads an address. Controls and blanks at its ends and tabs and line ends anywhere are dropped;
without a scheme it is refused. -/
def parse? (text : String) : Option Url := do
  let trimmed := Text.trimWhile (fun c => c.toNat ≤ 0x20) text.toList
  let s := trimmed.filter fun c => c != '\t' && c != '\n' && c != '\r'
  let (scheme, rest) ← readScheme? s
  match schemeKind scheme with
  | .special => readAuthority? scheme .special (rest.dropWhile (isSlash .special))
  | .file => readFile? rest
  | .other =>
    match rest with
    | '/' :: '/' :: authority => readAuthority? scheme .other authority
    | _ =>
      let (path, hasQuery, hasFragment) := splitTail rest
      return { scheme, host := none, port := none, path := [path], hasQuery, hasFragment }

/-- True for an address that names an origin only: a host, and at most a slash behind it. -/
def isBareOrigin (u : Url) : Bool :=
  u.host.isSome && (u.path == [] || u.path == [[]]) && !u.hasQuery && !u.hasFragment

def sameOrigin (a b : Url) : Bool :=
  a.scheme == b.scheme &&
    (match a.host, b.host with
      | some h, some k => h.same k
      | _, _ => false) &&
    a.effectivePort? == b.effectivePort?

end Url

end Switchyard
