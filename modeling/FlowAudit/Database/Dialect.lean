import FlowAudit.Failure
import FlowAudit.Text.Character

namespace FlowAudit

inductive Dialect where
  | postgres
  | sqlite
  deriving Inhabited, Repr, DecidableEq

namespace Dialect

def name : Dialect → String
  | postgres => "postgres"
  | sqlite => "sqlite"

def ofDriver (driver : String) : Except Failure Dialect :=
  match Text.lower (Text.trim driver) with
  | "" | "postgres" | "postgresql" | "pq" => .ok postgres
  | "sqlite" | "sqlite3" => .ok sqlite
  | _ =>
    .error (.plain ("unsupported store driver " ++ Text.quote driver ++ " (want postgres or sqlite)"))

/-- The question marks outside quotes as numbered places, from the one after `n` on. -/
def numbered (inQuote : Bool) (n : Nat) : List Char → List Char
  | [] => []
  | c :: rest =>
    if c == '\'' then c :: numbered (!inQuote) n rest
    else if c == '?' && !inQuote then
      '$' :: Nat.toDigits 10 (n + 1) ++ numbered inQuote (n + 1) rest
    else c :: numbered inQuote n rest

def rebind (d : Dialect) (query : String) : String :=
  match d with
  | postgres => String.ofList (numbered false 0 query.toList)
  | sqlite => query

end Dialect

end FlowAudit
