import Timetable.Url.Host

/-!
# Addresses

An address has a scheme and a path, and may have an authority, a query and a fragment. Reading
brings it into its normal form: letters of the scheme and the host in lower case, dots in the path
resolved, and every part percent-encoded.
-/

namespace Timetable

/-- Who serves an address. -/
structure Url.Authority where
  /-- The name and password of a user, encoded. -/
  user : String
  password : String
  host : Url.Host
  /-- None for the usual port of the scheme. -/
  port : Option Nat
  deriving DecidableEq, Repr

/-- An address in normal form. -/
structure Url where
  scheme : String
  authority : Option Url.Authority
  path : String
  query : Option String
  fragment : Option String
  deriving DecidableEq, Repr

namespace Url

/-- How a scheme treats the part behind its colon. -/
inductive Family where
  /-- Always with a host, and with backslashes as good as slashes. -/
  | network
  | file
  | other
  deriving DecidableEq, Repr

/-- The family of a scheme. -/
def family (scheme : String) : Family :=
  if scheme ∈ ["http", "https", "ws", "wss", "ftp"] then .network
  else if scheme = "file" then .file
  else .other

/-- The usual port of a scheme. -/
def usualPort (scheme : String) : Option Nat :=
  if scheme ∈ ["http", "ws"] then some 80
  else if scheme ∈ ["https", "wss"] then some 443
  else if scheme = "ftp" then some 21
  else none

/-- Whether a character ends a part of a path. -/
def isSlash (f : Family) (c : Char) : Bool := c = '/' || (f ≠ .other && c = '\\')

/-- Whether a character ends the authority. -/
def endsAuthority (f : Family) (c : Char) : Bool := isSlash f c || c = '?' || c = '#'

/-! ## The authority -/

/-- The parts of a text before and behind its last `@`. -/
def splitUser (s : List Char) : Option (List Char × List Char) :=
  if s.contains '@' then
    let behind := (s.reverse.takeWhile (· ≠ '@')).reverse
    some (s.take (s.length - behind.length - 1), behind)
  else none

/-- The characters of a host, up to a colon that is in no brackets. -/
def hostChars : Bool → List Char → List Char
  | _, [] => []
  | inside, c :: rest =>
    if c = ':' && !inside then []
    else c :: hostChars (if c = '[' then true else if c = ']' then false else inside) rest

/-- Reads a port behind its colon. The usual port of a scheme is left out. -/
def readPort (scheme : String) (s : List Char) : Except Error (Option Nat) :=
  match s.mapM Text.digit? with
  | none => .error .badPort
  | some [] => .ok none
  | some digits =>
    let port := Text.ofDigits 10 digits
    if 65535 < port then .error .badPort
    else if usualPort scheme = some port then .ok none
    else .ok (some port)

/-- Reads the name and password of a user. -/
def readUser (s : List Char) : String × String :=
  (String.ofList (encode inUser (s.takeWhile (· ≠ ':'))),
   String.ofList (encode inUser ((s.dropWhile (· ≠ ':')).drop 1)))

/-- Reads an authority. -/
def readAuthority (scheme : String) (s : List Char) : Except Error Authority := do
  let (user, server) := match splitUser s with
    | some (user, server) => (readUser user, server)
    | none => (("", ""), s)
  let network := family scheme = .network
  let hostText := hostChars false server
  let portText := server.drop hostText.length
  if hostText.isEmpty && (network || !portText.isEmpty || user ≠ ("", "")) then throw .emptyHost
  let host ← if network then readHost hostText else readPlainHost hostText
  let port ← match portText with
    | ':' :: digits => readPort scheme digits
    | _ => pure none
  return ⟨user.1, user.2, host, port⟩

/-! ## The path -/

/-- Whether a part of a path stands for the path itself. -/
def isDot (part : List Char) : Bool :=
  String.ofList (part.map Char.toLower) ∈ [".", "%2e"]

/-- Whether a part of a path stands for the path above. -/
def isDoubleDot (part : List Char) : Bool :=
  String.ofList (part.map Char.toLower) ∈ ["..", ".%2e", "%2e.", "%2e%2e"]

/-- The parts of a text between slashes. -/
def pathParts (f : Family) (s : List Char) : List (List Char) :=
  splitOn '/' (s.map fun c => if isSlash f c then '/' else c)

/-- Resolves dots; `done` holds the parts so far, the last one first. -/
def resolveDots (done : List (List Char)) : List (List Char) → List (List Char)
  | [] => done.reverse
  | [last] =>
    if isDoubleDot last then ([] :: done.drop 1).reverse
    else if isDot last then ([] :: done).reverse
    else (last :: done).reverse
  | part :: rest =>
    if isDoubleDot part then resolveDots (done.drop 1) rest
    else if isDot part then resolveDots done rest
    else resolveDots (part :: done) rest

/-- The path of a text without its first slash. -/
def readPath (f : Family) (s : List Char) : String :=
  let parts := resolveDots [] ((pathParts f s).map (encode inPath))
  let parts := if f = .file then parts.dropWhile fun part => part.isEmpty && 1 < parts.length
    else parts
  String.ofList ('/' :: List.intercalate ['/'] parts)

/-! ## The whole address -/

/-- Reads the scheme of an address, up to its colon. -/
def readScheme (s : List Char) : Option (String × List Char) :=
  let name := s.takeWhile fun c => c.isAlphanum || "+-.".toList.contains c
  match name, s.drop name.length with
  | c :: _, ':' :: rest =>
    if c.isAlpha then some (String.ofList (name.map Char.toLower), rest) else none
  | _, _ => none

/-- Splits the query and the fragment off. -/
def splitTail (s : List Char) : List Char × Option (List Char) × Option (List Char) :=
  let beforeFragment := s.takeWhile (· ≠ '#')
  let fragment := (s.drop beforeFragment.length).drop 1
  let path := beforeFragment.takeWhile (· ≠ '?')
  let query := (beforeFragment.drop path.length).drop 1
  (path,
   if path.length < beforeFragment.length then some query else none,
   if beforeFragment.length < s.length then some fragment else none)

/-- The characters that are encoded in the query of a family. -/
def inQueryOf (f : Family) (c : Char) : Bool := inQuery c || (f ≠ .other && c = '\'')

/-- Makes an address of its parts; `rest` is the query and the fragment. -/
def assemble (scheme : String) (authority : Option Authority) (path : String)
    (query fragment : Option (List Char)) : Url where
  scheme := scheme
  authority := authority
  path := path
  query := query.map fun q => String.ofList (encode (inQueryOf (family scheme)) q)
  fragment := fragment.map fun q => String.ofList (encode inFragment q)

/-- Reads what stands behind the two slashes before an authority. -/
def readServed (scheme : String) (s : List Char) : Except Error Url := do
  let f := family scheme
  let authority ← readAuthority scheme (s.takeWhile (!endsAuthority f ·))
  let (path, query, fragment) := splitTail (s.dropWhile (!endsAuthority f ·))
  let path := match path with
    | [] => if f = .other then "" else "/"
    | c :: rest => readPath f (if isSlash f c then rest else c :: rest)
  return assemble scheme (some authority) path query fragment

/-- Reads what stands behind the colon of a file address. A host `localhost` is none. -/
def readFile (s : List Char) : Except Error Url := do
  let slashes := (s.takeWhile (isSlash .file)).length
  let rest := s.drop (min 2 slashes)
  let hostText := if slashes < 2 then [] else rest.takeWhile (!endsAuthority .file ·)
  let host ← if hostText.isEmpty then pure (Host.name "") else readHost hostText
  let host := if host = .name "localhost" then Host.name "" else host
  let (path, query, fragment) := splitTail (rest.drop hostText.length)
  let path := match path with
    | [] => "/"
    | c :: rest => readPath .file (if isSlash .file c then rest else c :: rest)
  return assemble "file" (some ⟨"", "", host, none⟩) path query fragment

/-- Reads what stands behind the colon of an address without a known scheme. -/
def readOther (scheme : String) (s : List Char) : Except Error Url :=
  match s with
  | '/' :: '/' :: rest => readServed scheme rest
  | s =>
    let (path, query, fragment) := splitTail s
    let path := match path with
      | '/' :: rest => readPath .other rest
      | path => String.ofList (encode isControl path)
    .ok (assemble scheme none path query fragment)

/-- The characters of a text that count: none beyond a blank at its ends, and no tabs and line
ends. -/
def significant (s : List Char) : List Char :=
  let isEdge : Char → Bool := fun c => c.toNat ≤ 0x20
  ((s.dropWhile isEdge).reverse.dropWhile isEdge).reverse.filter fun c =>
    !"\t\n\r".toList.contains c

/-- Reads an address. -/
def read (s : String) : Except Error Url :=
  match readScheme (significant s.toList) with
  | none => .error .noScheme
  | some (scheme, rest) =>
    match family scheme with
    | .network => readServed scheme (rest.dropWhile (isSlash .network))
    | .file => readFile rest
    | .other => readOther scheme rest

/-- The text of an authority. -/
def Authority.text (a : Authority) : String :=
  let password := if a.password = "" then "" else ":" ++ a.password
  let user := if a.user = "" ∧ a.password = "" then "" else a.user ++ password ++ "@"
  let port := match a.port with
    | some n => ":" ++ toString n
    | none => ""
  user ++ a.host.text ++ port

/-- The path with the query, as a request asks for it. -/
def target (u : Url) : String :=
  u.path ++ (match u.query with | some q => "?" ++ q | none => "")

/-- The text of an address. -/
def text (u : Url) : String :=
  let authority := match u.authority with
    | some a => "//" ++ a.text
    | none => if "//".toList.isPrefixOf u.path.toList then "/." else ""
  u.scheme ++ ":" ++ authority ++ u.target
    ++ (match u.fragment with | some f => "#" ++ f | none => "")

/-- The same address without the name and password of a user. -/
def withoutUser (u : Url) : Url :=
  { u with authority := u.authority.map fun a => { a with user := "", password := "" } }

/-- Whether other addresses can extend this one: it has a path of parts. -/
def isExtensible (u : Url) : Bool := u.authority.isSome || u.path.toList.head? = some '/'

/-- The same address with a slash at the end of its path. -/
def asFolder (u : Url) : Url :=
  if u.path.toList.getLast? = some '/' then u else { u with path := u.path ++ "/" }

/-- The address of `parts` in the folder of `u`. The parts need no encoding. -/
def extend (u : Url) (parts : String) : Except Error Url :=
  if u.isExtensible then
    let folder := (u.path.toList.reverse.dropWhile (· ≠ '/')).reverse
    .ok { u with path := String.ofList folder ++ parts, query := none, fragment := none }
  else .error .cannotExtend

end Url

end Timetable
