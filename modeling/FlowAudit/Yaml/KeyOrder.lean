import FlowAudit.Json.Basic
import FlowAudit.Text.Letter
import FlowAudit.Text.Numeral

namespace FlowAudit.Yaml

def leadingNumber (start : Int) (cs : List Char) : Int × Nat :=
  let digits := cs.takeWhile Text.isDigit
  (digits.foldl (fun n d => wrap64 (n * 10 + ((d.toNat : Int) - 48))) start, digits.length)

/-- Whether a number has begun before the place where two keys part; `passed` holds the characters
before it, the nearest first. -/
def hasBegun (passed : List Char) : Bool := (passed.takeWhile Text.isDigit).any (· != '0')

def keyBefore (passed : List Char) : List Char → List Char → Bool
  | [], [] => false
  | [], _ :: _ => true
  | _ :: _, [] => false
  | a :: as, b :: bs =>
    if a == b then keyBefore (a :: passed) as bs
    else if Text.isLetter a && Text.isLetter b then a < b
    else if Text.isLetter a || Text.isLetter b then Text.isLetter b
    else
      let start : Int := if (a == '0' || b == '0') && hasBegun passed then 1 else 0
      let (m, i) := leadingNumber start (a :: as)
      let (n, k) := leadingNumber start (b :: bs)
      if m != n then m < n else if i != k then i < k else a < b

mutual

def inKeyOrder : Json → Json
  | .arr items => .arr (itemsInKeyOrder items)
  | .obj members =>
    .obj ((membersInKeyOrder members).mergeSort fun a b => !keyBefore [] b.1.toList a.1.toList)
  | j => j

def itemsInKeyOrder : List Json → List Json
  | [] => []
  | j :: rest => inKeyOrder j :: itemsInKeyOrder rest

def membersInKeyOrder : List (String × Json) → List (String × Json)
  | [] => []
  | (k, j) :: rest => (k, inKeyOrder j) :: membersInKeyOrder rest

end

end FlowAudit.Yaml
