import FlowAudit.Decimal.Double

namespace FlowAudit.Duration

def units : List (String × Nat) := [
  ("ns", 1),
  ("us", 1000),
  ("µs", 1000),
  ("μs", 1000),
  ("ms", 1000000),
  ("s", 1000000000),
  ("m", 60000000000),
  ("h", 3600000000000)]

def limit : Nat := 0x8000000000000000

def isNumeric (c : Char) : Bool := c.isDigit || c == '.'

def rounded (n : Nat) : Nat := ((Double.ofNat? n).map fun d => d.truncate.toNat).getD n

/-- The number that the digits of a fraction make, and what divides it: a power of ten, rounded at each
digit. Digits that would take the number past its limit do not count. -/
def fractionDigits (number divisor : Nat) : List Char → Nat × Nat
  | [] => (number, divisor)
  | c :: rest =>
    let more := number * 10 + (c.toNat - '0'.toNat)
    if (limit - 1) / 10 < number || limit < more then (number, divisor)
    else fractionDigits more (rounded (divisor * 10)) rest

/-- The fraction with the given digits of a unit, without what is smaller than a nanosecond. -/
def fractionOf (unit : Nat) (digits : List Char) : Nat :=
  let (number, divisor) := fractionDigits 0 1 digits
  let product := do
    (← Double.ofNat? number).mul? (← Double.ofFraction? false unit divisor)
  (product.map fun d => d.truncate.toNat).getD 0

def term? (cs : List Char) : Option (Nat × List Char) := do
  let (whole, cs) := cs.span Char.isDigit
  let (fraction, cs) := match cs with
    | '.' :: rest => rest.span Char.isDigit
    | cs => ([], cs)
  if whole.isEmpty && fraction.isEmpty then none
  let (unit, rest) := cs.span fun c => !isNumeric c
  let (_, size) ← units.find? (·.1 == String.ofList unit)
  let n := ((Text.readDigits? 10 whole).getD 0) * size
  if limit < n then none
  let n := n + fractionOf size fraction
  if limit < n then none else some (n, rest)

/-- The sum of the terms, of which there is at least one. It is taken in 64 bits, and is refused past
half their range. -/
def terms? (fuel total : Nat) (cs : List Char) : Option Nat :=
  match fuel with
  | 0 => none
  | fuel + 1 => do
    let (n, rest) ← term? cs
    let total := (total + n) % (2 * limit)
    if limit < total then none
    else if rest.isEmpty then some total
    else terms? fuel total rest

/-- The span of a text such as `1h30m` or `-1.5s`. Only zero needs no unit. -/
def parse? (s : String) : Option Int := do
  let (negative, cs) := Text.splitSign s.toList
  if cs == ['0'] then return 0
  let n ← terms? (cs.length + 1) 0 cs
  if negative then return -(n : Int)
  if n < limit then return n else none

end FlowAudit.Duration
