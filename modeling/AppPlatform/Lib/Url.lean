import AppPlatform.Lib.Urlencoded

/-!
# URLs

The basic URL parser against a base of the scheme `http` or `https`, on the bytes of its input, and the serializer. A state of the
parser is a function of the input that is left. The host parser, which needs the tables of Unicode, is a parameter.
-/

/-- How the host parser reads a host, in the form in which the host is serialized; the flag says that the scheme is special. -/
abbrev HostParser := Bool → Js.Bytes → Option Js.Bytes

inductive UrlPath where
  /-- An opaque path. -/
  | text (path : Js.Bytes)
  | list (segments : List Js.Bytes)
  deriving DecidableEq

structure Url where
  scheme : Js.Bytes
  username : Js.Bytes
  password : Js.Bytes
  host : Option Js.Bytes
  port : Option ℕ
  path : UrlPath
  query : Option Js.Bytes
  fragment : Option Js.Bytes
  deriving DecidableEq

namespace Url
open Js Percent

def isLower (b : UInt8) : Bool := 97 ≤ b && b ≤ 122

def isUpper (b : UInt8) : Bool := 65 ≤ b && b ≤ 90

def isDigit (b : UInt8) : Bool := 48 ≤ b && b ≤ 57

def isLetter (b : UInt8) : Bool := isUpper b || isLower b

def lower (b : UInt8) : UInt8 := if isUpper b then b + 32 else b

def isSchemeByte (b : UInt8) : Bool := isLetter b || isDigit b || (ascii "+-.").contains b

def controlSet (b : UInt8) : Bool := b < 0x20 || 0x7E < b

def fragmentSet (b : UInt8) : Bool := controlSet b || (ascii " \"<>`").contains b

def querySet (special : Bool) (b : UInt8) : Bool := controlSet b || (ascii " \"#<>").contains b || special && b = byte '\''

def pathSet (b : UInt8) : Bool := querySet false b || (ascii "?^`\x7b\x7d").contains b

def userinfoSet (b : UInt8) : Bool := pathSet b || (ascii "/:;=@[\\]|").contains b

def isSlash (special : Bool) (b : UInt8) : Bool := b = byte '/' || special && b = byte '\\'

/-- The path or what stands before it ends here. -/
def isEnd (b : UInt8) : Bool := b = byte '?' || b = byte '#'

def isTrimmed (b : UInt8) : Bool := b ≤ 0x20

def isDropped (b : UInt8) : Bool := b = 9 || b = 10 || b = 13

def clean (input : Bytes) : Bytes := ((input.dropWhile isTrimmed).rdropWhile isTrimmed).filter fun b => !isDropped b

/-- The default port of a special scheme, which `file` has not. -/
def specialPort (scheme : Bytes) : Option (Option ℕ) :=
  if scheme = ascii "http" || scheme = ascii "ws" then some (some 80)
  else if scheme = ascii "https" || scheme = ascii "wss" then some (some 443)
  else if scheme = ascii "ftp" then some (some 21)
  else if scheme = ascii "file" then some none
  else none

def isSpecial (scheme : Bytes) : Bool := (specialPort scheme).isSome

def isFile (scheme : Bytes) : Bool := scheme = ascii "file"

/-- The scheme, and what follows the colon. -/
def schemeOf (input : Bytes) : Option (Bytes × Bytes) :=
  match input.dropWhile isSchemeByte with
  | [] => none
  | c :: rest => if c = byte ':' && input.head?.any isLetter then some ((input.takeWhile isSchemeByte).map lower, rest) else none

def isDot (segment : Bytes) : Bool := segment.map lower ∈ [ascii ".", ascii "%2e"]

def isDoubleDot (segment : Bytes) : Bool := segment.map lower ∈ [ascii "..", ascii ".%2e", ascii "%2e.", ascii "%2e%2e"]

def isDrive : Bytes → Bool
  | [a, b] => isLetter a && (b = byte ':' || b = byte '|')
  | _ => false

def isNormalDrive : Bytes → Bool
  | [a, b] => isLetter a && b = byte ':'
  | _ => false

def normalDrive (segment : Bytes) : Bytes := if isDrive segment then segment.set 1 (byte ':') else segment

def shorten (file : Bool) : List Bytes → List Bytes
  | [] => []
  | [segment] => if file && isNormalDrive segment then [segment] else []
  | path => path.dropLast

/-- The end of a segment; `last` says that no slash follows. -/
def push (file : Bool) (path : List Bytes) (segment : Bytes) (last : Bool) : List Bytes :=
  if isDoubleDot segment then if last then shorten file path ++ [[]] else shorten file path
  else if isDot segment then if last then path ++ [[]] else path
  else path ++ [if file && path.isEmpty then normalDrive segment else segment]

def pushAll (file : Bool) (path : List Bytes) : List Bytes → List Bytes
  | [] => path
  | [segment] => push file path segment true
  | segment :: rest => pushAll file (push file path segment false) rest

def readSegments (special file : Bool) (path : List Bytes) (input : Bytes) : List Bytes :=
  pushAll file path ((input.splitOnP (isSlash special)).map (encode pathSet))

/-! ### The states of the parser -/

def readQuery (special : Bool) : Bytes → Option Bytes
  | [] => none
  | c :: rest => if c = byte '?' then some (encode (querySet special) (rest.takeWhile (· ≠ byte '#'))) else none

def readFragment (input : Bytes) : Option Bytes :=
  match input.dropWhile (· ≠ byte '#') with
  | [] => none
  | _ :: rest => some (encode fragmentSet rest)

/-- What follows the path. -/
def finish (u : Url) (rest : Bytes) : Url := { u with query := readQuery (isSpecial u.scheme) rest, fragment := readFragment rest }

def readPath (u : Url) (path : List Bytes) (input : Bytes) : Url :=
  finish { u with path := .list (readSegments (isSpecial u.scheme) (isFile u.scheme) path (input.takeWhile fun b => !isEnd b)) }
    (input.dropWhile fun b => !isEnd b)

def startPath (u : Url) : Bytes → Url
  | [] => if isSpecial u.scheme then readPath u [] [] else finish { u with path := .list [] } []
  | c :: rest =>
    if isSlash (isSpecial u.scheme) c then readPath u [] rest
    else if !isSpecial u.scheme && isEnd c then finish { u with path := .list [] } (c :: rest)
    else readPath u [] (c :: rest)

/-- The host, and what follows the first colon outside brackets. -/
def splitPort : Bool → Bytes → Bytes × Option Bytes
  | _, [] => ([], none)
  | inside, c :: rest =>
    if c = byte ':' && !inside then ([], some rest)
    else
      let split := splitPort (if c = byte '[' then true else if c = byte ']' then false else inside) rest
      (c :: split.1, split.2)

def readPort (scheme : Bytes) (digits : Bytes) : Option (Option ℕ) :=
  if digits.all isDigit then
    if digits = [] then some none
    else
      let port := natOf (latin1 digits)
      if 65535 < port then none else some (if specialPort scheme = some (some port) then none else some port)
  else none

def readHost (host : HostParser) (scheme : Bytes) (input : Bytes) : Option Bytes :=
  if input = [] then if isSpecial scheme then none else some [] else host (isSpecial scheme) input

def readAuthority (host : HostParser) (scheme : Bytes) (input : Bytes) : Option Url :=
  let inside b := !(isSlash (isSpecial scheme) b || isEnd b)
  let whole := input.takeWhile inside
  let credentials := (whole.rdropWhile (· ≠ byte '@')).dropLast
  let split := splitPort false (whole.rtakeWhile (· ≠ byte '@'))
  if split.1 = [] && (whole.contains (byte '@') || split.2.isSome) then none
  else
    (readHost host scheme split.1).bind fun h =>
      (split.2.elim (some none) (readPort scheme)).map fun port =>
        startPath
          { scheme
            username := encode userinfoSet (credentials.takeWhile (· ≠ byte ':'))
            password := encode userinfoSet (credentials.dropWhile (· ≠ byte ':')).tail
            host := some h
            port
            path := .list []
            query := none
            fragment := none }
          (input.dropWhile inside)

def bare (scheme : Bytes) (host : Option Bytes) : Url := ⟨scheme, [], [], host, none, .list [], none, none⟩

def readFileHost (host : HostParser) (scheme : Bytes) (input : Bytes) : Option Url :=
  let inside b := !(isSlash true b || isEnd b)
  let h := input.takeWhile inside
  if isDrive h then some (readPath (bare scheme (some [])) [] input)
  else if h = [] then some (startPath (bare scheme (some [])) (input.dropWhile inside))
  else
    (host true h).map fun h =>
      startPath (bare scheme (some (if h = ascii "localhost" then [] else h))) (input.dropWhile inside)

def readFile (host : HostParser) (scheme : Bytes) (input : Bytes) : Option Url :=
  match input with
  | [] => some (readPath (bare scheme (some [])) [] [])
  | c :: rest =>
    if isSlash true c then
      match rest with
      | [] => some (readPath (bare scheme (some [])) [] [])
      | d :: more => if isSlash true d then readFileHost host scheme more else some (readPath (bare scheme (some [])) [] (d :: more))
    else some (readPath (bare scheme (some [])) [] (c :: rest))

/-- What follows the colon of a scheme that is not special. -/
def readOther (host : HostParser) (scheme : Bytes) (input : Bytes) : Option Url :=
  match input with
  | c :: rest =>
    if c = byte '/' then
      match rest with
      | d :: more => if d = byte '/' then readAuthority host scheme more else some (readPath (bare scheme none) [] (d :: more))
      | [] => some (readPath (bare scheme none) [] [])
    else some (readText c rest)
  | [] => some (finish { bare scheme none with path := .text [] } [])
where
  /-- Opaque path state. -/
  readText (c : UInt8) (rest : Bytes) : Url :=
    finish { bare scheme none with path := .text (encode controlSet ((c :: rest).takeWhile fun b => !isEnd b)) }
      ((c :: rest).dropWhile fun b => !isEnd b)

def segments : UrlPath → List Bytes
  | .text _ => []
  | .list segments => segments

def readRelative (host : HostParser) (base : Url) (input : Bytes) : Option Url :=
  match input with
  | [] => some { base with fragment := none }
  | c :: rest =>
    if isSlash true c then
      match rest with
      | [] => some (readPath base [] [])
      | d :: more =>
        if isSlash true d then readAuthority host base.scheme (more.dropWhile (isSlash true)) else some (readPath base [] (d :: more))
    else if c = byte '?' then some (finish base (c :: rest))
    else if c = byte '#' then some { base with fragment := readFragment (c :: rest) }
    else some (readPath base (shorten false (segments base.path)) (c :: rest))

def readAbsolute (host : HostParser) (base : Url) (scheme : Bytes) (rest : Bytes) : Option Url :=
  if isFile scheme then readFile host scheme rest
  else if isSpecial scheme then
    if scheme = base.scheme && !(ascii "//").isPrefixOf rest then readRelative host base rest
    else readAuthority host scheme (rest.dropWhile (isSlash true))
  else readOther host scheme rest

def parse (host : HostParser) (base : Url) (input : Bytes) : Option Url :=
  match schemeOf (clean input) with
  | some (scheme, rest) => readAbsolute host base scheme rest
  | none => readRelative host base (clean input)

def pathname (u : Url) : Bytes :=
  match u.path with
  | .text path => path
  | .list segments => segments.flatMap (byte '/' :: ·)

def credentials (u : Url) : Bytes :=
  if u.username = [] && u.password = [] then []
  else u.username ++ (if u.password = [] then [] else byte ':' :: u.password) ++ [byte '@']

def portText : Option ℕ → Bytes
  | none => []
  | some port => byte ':' :: utf8 (natText port)

/-- What stands between the scheme and the path. -/
def authority (u : Url) : Bytes :=
  match u.host, u.path with
  | some h, _ => ascii "//" ++ credentials u ++ h ++ portText u.port
  | none, .list ([] :: _ :: _) => ascii "/."
  | none, _ => []

def queryText : Option Bytes → Bytes
  | none => []
  | some query => byte '?' :: query

def fragmentText : Option Bytes → Bytes
  | none => []
  | some fragment => byte '#' :: fragment

def href (u : Url) : Bytes :=
  u.scheme ++ byte ':' :: (authority u ++ pathname u ++ queryText u.query ++ fragmentText u.fragment)

/-- `url.search` -/
def search (u : Url) : Bytes := if u.query.getD [] = [] then [] else queryText u.query

/-- `url.hash` -/
def hash (u : Url) : Bytes := if u.fragment.getD [] = [] then [] else fragmentText u.fragment

/-- `url.searchParams` -/
def params (u : Url) : Urlencoded.Params := Urlencoded.parse (u.query.getD [])

/-- What `url.searchParams` writes back: an empty list leaves no query. -/
def withParams (u : Url) (params : Urlencoded.Params) : Url :=
  { u with query := if params = [] then none else some (Urlencoded.serialize params) }

end Url
