import FlowAudit.Text.Numeral

namespace FlowAudit.Health

inductive Status where
  | pass
  | warn
  | fail
  | unknown
  deriving Inhabited, Repr, DecidableEq

namespace Status

def name : Status → String
  | pass => "pass"
  | warn => "warn"
  | fail => "fail"
  | unknown => "unknown"

def symbol : Status → String
  | pass => "✓"
  | warn => "⚠"
  | fail => "✗"
  | unknown => "?"

end Status

/-- The result of one check. -/
structure Check where
  category : String
  name : String
  status : Status
  message : String
  details : String := ""
  /-- What to do about it. -/
  hint : String := ""
  deriving Inhabited, Repr, DecidableEq

/-- The results of all checks, in the order in which they were made. -/
structure Report where
  checks : List Check := []
  deriving Inhabited, Repr, DecidableEq

def Check.lines (verbose : Bool) (c : Check) : List String :=
  ("  " ++ c.status.symbol ++ " " ++ c.message) ::
    (if verbose && c.details != "" then (c.details.splitOn "\n").map ("      " ++ ·) else []) ++
    (if c.status ≠ .pass && c.hint != "" then ["      Fix: " ++ c.hint] else [])

namespace Report

variable (r : Report)

def add (c : Check) : Report := ⟨r.checks ++ [c]⟩

def count (s : Status) : Nat := (r.checks.filter (·.status = s)).length

def hasErrors : Bool := 0 < r.count .fail

def find? (name : String) : Option Check := r.checks.find? (·.name == name)

def categories : List String :=
  r.checks.foldl (fun seen c => if seen.contains c.category then seen else seen ++ [c.category]) []

def toText (verbose : Bool) : String :=
  let section_ (category : String) :=
    "" :: category :: (r.checks.filter (·.category == category)).flatMap (·.lines verbose)
  let n (s : Status) := Text.decimal (r.count s)
  let summary := "Summary: " ++ n .pass ++ " passed, " ++ n .warn ++ " warnings, " ++ n .fail ++ " errors"
  String.join ((r.categories.flatMap section_ ++ ["", summary]).map (· ++ "\n"))

end Report

end FlowAudit.Health
