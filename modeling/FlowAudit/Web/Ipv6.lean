import FlowAudit.Text.Numeral

namespace FlowAudit.Web.Ipv6

def isHexDigit (c : Char) : Bool := c.isDigit || ('a' ≤ c && c ≤ 'f') || ('A' ≤ c && c ≤ 'F')

def isOctet (cs : List Char) : Bool :=
  (cs.length ≤ 1 || cs.head? != some '0') && (Text.readDigits? 10 cs).any (· < 256)

def isDotted (cs : List Char) : Bool :=
  let octets := cs.splitOn '.'
  octets.length == 4 && octets.all isOctet

/-- How many groups there are and whether a run of them is left out, after `used` of them. The fuel
is at least the length of the text. -/
def groups? (fuel used : Nat) (hasGap : Bool) (cs : List Char) : Option (Nat × Bool) :=
  match fuel with
  | 0 => none
  | fuel + 1 =>
    let (digits, rest) := cs.span isHexDigit
    if 8 ≤ used || digits.isEmpty || 4 < digits.length then none
    else match rest with
      | [] => some (used + 1, hasGap)
      | '.' :: _ =>
        if used ≤ 6 && (hasGap || used == 6) && isDotted cs then some (used + 2, hasGap) else none
      | [':'] => none
      | [':', ':'] => if hasGap then none else some (used + 1, true)
      | ':' :: ':' :: rest => if hasGap then none else groups? fuel (used + 1) true rest
      | ':' :: rest => groups? fuel (used + 1) hasGap rest
      | _ => none

/-- Whether the text is an address without a zone. A run that is left out has at least one group. -/
def isBare (cs : List Char) : Bool :=
  let total := match cs with
    | [':', ':'] => some (0, true)
    | ':' :: ':' :: rest => groups? cs.length 0 true rest
    | cs => groups? (cs.length + 1) 0 false cs
  total.any fun (n, hasGap) => if hasGap then n < 8 else n == 8

/-- Whether the text is an address, with a zone that is not empty or without one. -/
def isAddress (cs : List Char) : Bool :=
  match cs.span (· != '%') with
  | (address, []) => isBare address
  | (address, _ :: zone) => isBare address && !zone.isEmpty

end FlowAudit.Web.Ipv6
