import FlowAudit.Text.Numeral

namespace FlowAudit.Text

def splitSign : List Char → Bool × List Char
  | '-' :: rest => (true, rest)
  | '+' :: rest => (false, rest)
  | cs => (false, cs)

def baseLetter? (c : Char) : Option Nat :=
  if c == 'x' || c == 'X' then some 16
  else if c == 'b' || c == 'B' then some 2
  else if c == 'o' || c == 'O' then some 8
  else none

/-- The base of a literal and its digits. A zero in front stands for base 8. -/
def splitBase : List Char → Nat × List Char
  | '0' :: x :: d :: rest =>
    match baseLetter? x with
    | some base => (base, d :: rest)
    | none => (8, x :: d :: rest)
  | '0' :: rest => (8, rest)
  | cs => (10, cs)

def readBased? (cs : List Char) : Option Nat :=
  if cs == ['0'] then some 0
  else
    let (base, digits) := splitBase cs
    readDigits? base digits

/-- Whether every underscore stands between two digits. The flags tell what comes before. -/
def underscoresDivide (isDigit : Char → Bool) (afterDigit afterUnderscore : Bool) :
    List Char → Bool
  | [] => !afterUnderscore
  | c :: rest =>
    if c == '_' then afterDigit && underscoresDivide isDigit false true rest
    else if isDigit c then underscoresDivide isDigit true false rest
    else !afterUnderscore && underscoresDivide isDigit false false rest

/-- Whether the underscores of a literal without a sign divide its digits; the mark of a base counts
as one. -/
def underscoresFit : List Char → Bool
  | '0' :: x :: rest =>
    match baseLetter? x with
    | some base =>
      underscoresDivide (fun c => if base == 16 then (digitValue? c).any (· < 16) else c.isDigit)
        true false rest
    | none => underscoresDivide Char.isDigit true false (x :: rest)
  | cs => underscoresDivide Char.isDigit false false cs

def readLiteral? (cs : List Char) : Option Int := do
  let (negative, cs) := splitSign cs
  if !underscoresFit cs then none
  let n ←
    if cs == ['0'] then some 0
    else
      let (base, digits) := splitBase cs
      readDigits? base (digits.filter (· != '_'))
  return if negative then -(n : Int) else n

end FlowAudit.Text
