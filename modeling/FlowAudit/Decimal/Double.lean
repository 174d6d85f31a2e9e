import FlowAudit.Text.Literal

namespace FlowAudit

inductive Double where
  | nan
  | infinite (negative : Bool)
  /-- `mantissa * 2 ^ exponent`, with a mantissa below `2 ^ 53`. -/
  | finite (negative : Bool) (mantissa : Nat) (exponent : Int)
  deriving Inhabited, Repr, DecidableEq

namespace Double

def bits (n : Nat) : Nat := if n == 0 then 0 else Nat.log2 n + 1

def minExponent : Int := -1074
def maxExponent : Int := 971

/-- The quotient rounded to the nearest whole number, a half to the even one. -/
def roundDiv (a b : Nat) : Nat :=
  let q := a / b
  let r := 2 * (a % b)
  if b < r || (r == b && q % 2 == 1) then q + 1 else q

def scale (a b : Nat) (e : Int) : Nat × Nat :=
  if 0 ≤ e then (a, b * Nat.pow 2 e.toNat) else (a * Nat.pow 2 (-e).toNat, b)

/-- The nearest double to the fraction `a / b` of positive numbers, or nothing past the largest. -/
def ofFraction? (negative : Bool) (a b : Nat) : Option Double :=
  let guess := (bits a : Int) - bits b - 53
  let (x, y) := scale a b guess
  let e := max (if x < 0x20000000000000 * y then guess else guess + 1) minExponent
  let (x, y) := scale a b e
  let m := roundDiv x y
  let (m, e) := if m == 0x20000000000000 then (0x10000000000000, e + 1) else (m, e)
  if maxExponent < e then none else some (finite negative m e)

def ofNat? (n : Nat) : Option Double :=
  if n == 0 then some (finite false 0 minExponent) else ofFraction? false n 1

def mul? : Double → Double → Option Double
  | finite s m e, finite t n f =>
    if m * n == 0 then some (finite (s != t) 0 minExponent)
    else
      let (a, b) := scale (m * n) 1 (-(e + f))
      ofFraction? (s != t) a b
  | _, _ => none

def ofDecimal? (negative : Bool) (digits : Nat) (exponent : Int) : Option Double :=
  let size := ((Nat.toDigits 10 digits).length : Int) + exponent
  if digits == 0 || size < -400 then some (finite negative 0 minExponent)
  else if 400 < size then none
  else if 0 ≤ exponent then ofFraction? negative (digits * Nat.pow 10 exponent.toNat) 1
  else ofFraction? negative digits (Nat.pow 10 (-exponent).toNat)

/-- The double of a literal: digits with at most one point among them, and an exponent. -/
def ofLiteral? (cs : List Char) : Option Double := do
  let (negative, cs) := Text.splitSign cs
  let (whole, cs) := cs.span Char.isDigit
  let (fraction, cs) := match cs with
    | '.' :: rest => rest.span Char.isDigit
    | cs => ([], cs)
  let digits ← Text.readDigits? 10 (whole ++ fraction)
  let exponent ← match cs with
    | [] => some (0 : Int)
    | e :: rest =>
      if e != 'e' && e != 'E' then none
      else match rest with
        | '-' :: ds => (Text.readDigits? 10 ds).map fun n => -(n : Int)
        | '+' :: ds => (Text.readDigits? 10 ds).map Int.ofNat
        | ds => (Text.readDigits? 10 ds).map Int.ofNat
  ofDecimal? negative digits (exponent - fraction.length)

def ofDividedLiteral? (cs : List Char) : Option Double :=
  if Text.underscoresFit cs then ofLiteral? (cs.filter (· != '_')) else none

/-- Whether `d * 10 ^ k` lies among the numbers whose nearest double is `m * 2 ^ e`. -/
def reads (m : Nat) (e : Int) (d : Nat) (k : Int) : Bool :=
  -- Everything is a multiple of `10 ^ k` and of `2 ^ (e - 2)`, scaled to whole numbers.
  let (ten, ten') := if 0 ≤ k then (Nat.pow 10 k.toNat, 1) else (1, Nat.pow 10 (-k).toNat)
  let (two, two') := if 2 ≤ e then (Nat.pow 2 (e - 2).toNat, 1) else (1, Nat.pow 2 (2 - e).toNat)
  let x := d * ten * two'
  let low := (4 * m - (if m == 0x10000000000000 && minExponent < e then 1 else 2)) * two * ten'
  let high := (4 * m + 2) * two * ten'
  if m % 2 == 0 then low ≤ x && x ≤ high else low < x && x < high

def leading (a b : Nat) : Int :=
  if b ≤ a then ((Nat.toDigits 10 (a / b)).length : Int) - 1
  else
    let size := (Nat.toDigits 10 (b / a)).length
    if b ≤ a * Nat.pow 10 (size - 1) then 1 - (size : Int) else -(size : Int)

/-- The multiple of `10 ^ k` nearest to `m * 2 ^ e` among those whose nearest double it is. -/
def onGrid? (m : Nat) (e k : Int) : Option Nat :=
  let (a, b) := scale m 1 (-e)
  let (a, b) := if 0 ≤ k then (a, b * Nat.pow 10 k.toNat) else (a * Nat.pow 10 (-k).toNat, b)
  let d := a / b
  let below := reads m e d k
  let above := reads m e (d + 1) k
  if below && (!above || 2 * (a % b) ≤ b) then some d
  else if above then some (d + 1)
  else none

/-- The decimal with the fewest digits whose nearest double is `m * 2 ^ e`, as digits and a power of
ten; seventeen digits always suffice. -/
def shortest (m : Nat) (e : Int) : Nat × Int :=
  if m == 0 then (0, 0)
  else
    let (a, b) := scale m 1 (-e)
    let top := leading a b
    let found := (List.range 17).findSome? fun (n : Nat) =>
      (onGrid? m e (top - n)).map fun d => (d, top - (n : Int))
    found.getD (0, 0)

def shortestDigits (m : Nat) (e : Int) : List Char × Int :=
  let (d, k) := shortest m e
  let digits := Nat.toDigits 10 d
  let point := (digits.length : Int) + k
  let kept := (digits.reverse.dropWhile (· == '0')).reverse
  (if kept.isEmpty then ['0'] else kept, if d == 0 then 1 else point)

def positional (digits : List Char) (point : Int) : List Char :=
  if point ≤ 0 then '0' :: '.' :: List.replicate (-point).toNat '0' ++ digits
  else
    let n := point.toNat
    if digits.length ≤ n then digits ++ List.replicate (n - digits.length) '0'
    else digits.take n ++ '.' :: digits.drop n

def scientific (digits : List Char) (point : Int) : List Char :=
  let fraction := digits.drop 1
  let e := point - 1
  digits.take 1 ++ (if fraction.isEmpty then [] else '.' :: fraction) ++
    'e' :: (if e < 0 then '-' else '+') :: Nat.toDigits 10 e.natAbs

/-- The shortest decimal form, with an exponent from `10 ^ 21` on and below `10 ^ -6`. A number that
is not finite has none. -/
def jsonText? : Double → Option String
  | finite negative m e =>
    let (digits, point) := shortestDigits m e
    let text := if m != 0 && (21 < point || point < -5) then scientific digits point
      else positional digits point
    some (String.ofList (if negative then '-' :: text else text))
  | _ => none

def plainText : Double → String
  | nan => "NaN"
  | infinite negative => if negative then "-Inf" else "+Inf"
  | finite negative m e =>
    let (digits, point) := shortestDigits m e
    let text := positional digits point
    String.ofList (if negative then '-' :: text else text)

def truncate : Double → Int
  | finite negative m e =>
    let (a, b) := scale m 1 (-e)
    let n : Int := (a / b : Nat)
    if negative then -n else n
  | _ => 0

end Double

end FlowAudit
