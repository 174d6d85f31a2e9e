import FlowAudit.Text.Numeral

namespace FlowAudit.Database

inductive Error where
  | closed
  | notDatabase
  | noTable (name : String)
  | duplicate (table column : String)
  /-- A time that was stored with a zone that cannot be read back. -/
  | unreadableTime (index : Nat) (column : String)
  /-- A number that has grown past 64 bits. -/
  | unreadableNumber (index : Nat) (column : String)
  deriving Inhabited, Repr, DecidableEq

def Error.message : Error → String
  | closed => "sql: database is closed"
  | notDatabase => "file is not a database (26)"
  | noTable name => "SQL logic error: no such table: " ++ name ++ " (1)"
  | duplicate table column =>
    "constraint failed: UNIQUE constraint failed: " ++ table ++ "." ++ column ++ " (1555)"
  | unreadableTime index column =>
    "sql: Scan error on column index " ++ Text.decimal index ++ ", name \"" ++ column ++
      "\": unsupported Scan, storing driver.Value type string into type *time.Time"
  | unreadableNumber index column =>
    "sql: Scan error on column index " ++ Text.decimal index ++ ", name \"" ++ column ++
      "\": converting driver.Value type float64 (\"9.223372036854776e+18\") to a int: invalid syntax"

end FlowAudit.Database
