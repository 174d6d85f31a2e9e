import FlowAudit.Text.Numeral
import FlowAudit.Text.Utf8

namespace FlowAudit.Web

/-- The parts of a URL, which differ in what they have to encode. -/
inductive Part where
  | user
  | host
  | zone
  | path
  | query
  | fragment
  deriving Inhabited, Repr, DecidableEq

namespace Part

def keeps (p : Part) (c : Char) : Bool :=
  c.isAlphanum || "-_.~".toList.contains c ||
    match p with
    | user => "$&+,;=".toList.contains c
    | host | zone => "!$&'()*+,;=:[]<>\"".toList.contains c
    | path => "$&+,/:;=@".toList.contains c
    | query => false
    | fragment => "$&+,/:;=?@!()*".toList.contains c

end Part

namespace Percent

def upperHex (n : Nat) : Char := (Text.hexDigit n).toUpper

def escapeByte (p : Part) (b : UInt8) : List Char :=
  let c := Char.ofNat b.toNat
  if b < 0x80 && p.keeps c then [c]
  else if p = .query && c == ' ' then ['+']
  else ['%', upperHex (b.toNat / 16), upperHex (b.toNat % 16)]

def escape (p : Part) (bytes : List UInt8) : List Char := bytes.flatMap (escapeByte p)

def escapeText (p : Part) (s : String) : String :=
  String.ofList (escape p (Text.Utf8.encode s.toList))

def hexValue? (c : Char) : Option Nat :=
  match Text.digitValue? c with
  | some d => if d < 16 then some d else none
  | none => none

/-- Whether a part may have the byte encoded. In a host only a percent sign and what is not ASCII may
be; in a zone, also what it may hold anyway, and a space. -/
def mayEncode (p : Part) (b : Nat) : Bool :=
  match p with
  | .host => 0x80 ≤ b || b == 0x25
  | .zone => b == 0x25 || b == 0x20 || (b < 0x80 && Part.host.keeps (Char.ofNat b))
  | _ => true

def unescape? (p : Part) : List Char → Option (List UInt8)
  | [] => some []
  | '%' :: x :: y :: rest => do
    let b := 16 * (← hexValue? x) + (← hexValue? y)
    if mayEncode p b then return b.toUInt8 :: (← unescape? p rest) else none
  | c :: rest =>
    if c == '%' then none
    else if c == '+' && p = .query then (unescape? p rest).map (0x20 :: ·)
    else if (p = .host || p = .zone) && c.toNat < 0x80 && !p.keeps c then none
    else (unescape? p rest).map (Text.Utf8.encodeChar c ++ ·)

end Percent

end FlowAudit.Web
