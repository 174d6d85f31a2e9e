import FlowAudit.Text.Character
import FlowAudit.Web.Ipv6
import FlowAudit.Web.Percent

namespace FlowAudit.Web

/-- Who asks; what has been decoded is kept as bytes. -/
structure User where
  name : List UInt8
  password : Option (List UInt8) := none
  deriving Inhabited, Repr, DecidableEq

structure Url where
  scheme : String := ""
  /-- What follows the scheme when that is not a slash. -/
  rootless : List Char := []
  user : Option User := none
  host : List UInt8 := []
  /-- Whether there is a scheme and a path, and no place for a host. -/
  omitHost : Bool := false
  /-- The path as it is written. -/
  path : List Char := []
  query : List Char := []
  /-- Whether a question mark stands before an empty query. -/
  forceQuery : Bool := false
  /-- The fragment as it is written. -/
  fragment : List Char := []
  deriving Inhabited, Repr, DecidableEq

namespace Url

def cut (x : Char) : List Char → List Char × Option (List Char)
  | [] => ([], none)
  | c :: rest =>
    if c == x then ([], some rest)
    else
      let (before, after) := cut x rest
      (c :: before, after)

def cutLast (x : Char) (cs : List Char) : Option (List Char × List Char) :=
  match cut x cs.reverse with
  | (_, none) => none
  | (after, some before) => some (before.reverse, after.reverse)

def scheme? (whole : List Char) (seen : List Char) : List Char → Option (List Char × List Char)
  | [] => some ([], whole)
  | c :: rest =>
    if c.isAlpha then scheme? whole (c :: seen) rest
    else if c.isDigit || c == '+' || c == '-' || c == '.' then
      if seen.isEmpty then some ([], whole) else scheme? whole (c :: seen) rest
    else if c == ':' then if seen.isEmpty then none else some (seen.reverse, rest)
    else some ([], whole)

def isUserInfo (c : Char) : Bool := c.isAlphanum || "-._:~!$&'()*+,;=%@".toList.contains c

def isOptionalPort : List Char → Bool
  | [] => true
  | ':' :: digits => digits.all Char.isDigit
  | _ => false

def cutZone : List Char → Option (List Char × List Char)
  | '%' :: '2' :: '5' :: rest => some ([], '%' :: '2' :: '5' :: rest)
  | [] => none
  | c :: rest => (cutZone rest).map fun (before, zone) => (c :: before, zone)

/-- The bytes of an address in brackets, without them; a zone follows the first `%25`. -/
def bracketed? (cs : List Char) : Option (List UInt8) :=
  let bytes := match cutZone cs with
    | some (address, zone) => do
      return (← Percent.unescape? .host address) ++ (← Percent.unescape? .zone zone)
    | none => Percent.unescape? .host cs
  bytes.filter fun bytes => Ipv6.isAddress (bytes.map fun b => Char.ofNat b.toNat)

/-- The host with its port. An opening bracket stands only before an address, at the very start. -/
def host? (cs : List Char) : Option (List UInt8) :=
  match cutLast '[' cs with
  | some ([], inner) =>
    match cutLast ']' inner with
    | some (address, port) => do
      let bytes ← bracketed? address
      if isOptionalPort port then
        return 0x5B :: bytes ++ (← Percent.unescape? .host (']' :: port))
      else none
    | none => none
  | some _ => none
  | none =>
    match cutLast ':' cs with
    | some (_, port) =>
      if port.all Char.isDigit then Percent.unescape? .host cs else none
    | none => Percent.unescape? .host cs

def user? (cs : List Char) : Option User :=
  if !cs.all isUserInfo then none
  else match cut ':' cs with
    | (name, none) => do return { name := ← Percent.unescape? .user name }
    | (name, some password) => do
      return {
        name := ← Percent.unescape? .user name
        password := some (← Percent.unescape? .user password) }

/-- The path as it is written when it may be written so, and else as it is encoded. -/
def canonical (p : Part) (cs : List Char) (bytes : List UInt8) : List Char :=
  if cs.all fun c => p.keeps c || "!$&'()*+,;=:@[]%".toList.contains c then cs
  else Percent.escape p bytes

def isControl (c : Char) : Bool := c.toNat < 0x20 || c.toNat == 0x7F

def authority? (u : Url) (cs : List Char) : Option Url :=
  match cutLast '@' cs with
  | none => do return { u with host := ← host? cs }
  | some (user, host) => do
    let host ← host? host
    return { u with user := some (← user? user), host := host }

def hierarchy? (u : Url) (rest : List Char) : Option Url := do
  if rest.head? != some '/' then
    if u.scheme != "" then return { u with rootless := rest }
    if (cut '/' rest).1.contains ':' then none
  let startsWith (n : Nat) := rest.take n == List.replicate n '/'
  let (u, rest) ←
    if startsWith 2 && (u.scheme != "" || !startsWith 3) then do
      let u ← u.authority? ((rest.drop 2).takeWhile (· != '/'))
      some (u, (rest.drop 2).dropWhile (· != '/'))
    else some ({ u with omitHost := u.scheme != "" }, rest)
  let bytes ← Percent.unescape? .path rest
  return { u with path := canonical .path rest bytes }

def whole? (cs : List Char) : Option Url := do
  if cs.any isControl then none
  if cs == ['*'] then return { path := ['*'] }
  let (scheme, rest) ← scheme? cs [] cs
  let u : Url := { scheme := Text.lower (String.ofList scheme) }
  match cut '?' rest with
  | (rest, none) => hierarchy? u rest
  | (rest, some []) => hierarchy? { u with forceQuery := true } rest
  | (rest, some query) => hierarchy? { u with query := query } rest

def parse? (s : String) : Option Url := do
  match cut '#' s.toList with
  | (cs, none) => whole? cs
  | (cs, some fragment) =>
    let u ← whole? cs
    let bytes ← Percent.unescape? .fragment fragment
    return { u with fragment := canonical .fragment fragment bytes }

def userText (u : User) : List Char :=
  Percent.escape .user u.name ++
    match u.password with
    | some password => ':' :: Percent.escape .user password
    | none => []

def authorityText (u : Url) : List Char :=
  if u.scheme == "" && u.host.isEmpty && u.user.isNone then []
  else if u.omitHost && u.host.isEmpty && u.user.isNone then []
  else
    (if !u.host.isEmpty || !u.path.isEmpty || u.user.isSome then ['/', '/'] else []) ++
      (match u.user with
        | some user => userText user ++ ['@']
        | none => []) ++
      Percent.escape .host u.host

def text (u : Url) : String :=
  let start := if u.scheme == "" then [] else u.scheme.toList ++ [':']
  let middle :=
    if !u.rootless.isEmpty then u.rootless
    else
      let authority := authorityText u
      let slash := !u.path.isEmpty && u.path.head? != some '/' && !u.host.isEmpty
      let dot := start.isEmpty && authority.isEmpty && (cut '/' u.path).1.contains ':'
      authority ++ (if slash then ['/'] else []) ++ (if dot then ['.', '/'] else []) ++ u.path
  let query := if u.forceQuery || !u.query.isEmpty then '?' :: u.query else []
  let fragment := if u.fragment.isEmpty then [] else '#' :: u.fragment
  String.ofList (start ++ middle ++ query ++ fragment)

end Url

end FlowAudit.Web
