namespace FlowAudit

inductive Json where
  | null
  | bool (b : Bool)
  | num (literal : String)
  | str (s : String) (isEscaped : Bool := false)
  | arr (items : List Json)
  | obj (members : List (String × Json))
  deriving Inhabited, Repr, BEq

namespace Json

def maxNesting : Nat := 10000

def ofNat (n : Nat) : Json := .num (String.ofList (Nat.toDigits 10 n))

def ofInt : Int → Json
  | .ofNat n => ofNat n
  | .negSucc n => .num (String.ofList ('-' :: Nat.toDigits 10 (n + 1)))

def ofText (s : String) : Json := .str s

def strings (items : List String) : Json := .arr (items.map ofText)

def isNull : Json → Bool
  | .null => true
  | _ => false

mutual

def nesting : Json → Nat
  | .arr items => nestingIn items + 1
  | .obj members => nestingBelow members + 1
  | _ => 0

def nestingIn : List Json → Nat
  | [] => 0
  | j :: rest => max (nesting j) (nestingIn rest)

def nestingBelow : List (String × Json) → Nat
  | [] => 0
  | (_, j) :: rest => max (nesting j) (nestingBelow rest)

end

mutual

/-- The number of arrays and objects that stand one inside another, without those that hold nothing: these
are written at once, however deep they stand. -/
def filledNesting : Json → Nat
  | .arr [] => 0
  | .obj [] => 0
  | .arr items => filledNestingIn items + 1
  | .obj members => filledNestingBelow members + 1
  | _ => 0

def filledNestingIn : List Json → Nat
  | [] => 0
  | j :: rest => max (filledNesting j) (filledNestingIn rest)

def filledNestingBelow : List (String × Json) → Nat
  | [] => 0
  | (_, j) :: rest => max (filledNesting j) (filledNestingBelow rest)

end

def tooDeep? (depth : Nat) (j : Json) : Option String :=
  if maxNesting < depth + j.nesting then some "exceeded max depth" else none

/-- The value of the last member with the name. -/
def get? (name : String) : Json → Option Json
  | .obj members => (members.reverse.find? (·.1 == name)).map (·.2)
  | _ => none

end Json

end FlowAudit
