import FlowAudit.Database.Basic
import FlowAudit.Database.Dialect

namespace FlowAudit

/-- The statements that a run is saved with, in the order in which they are given. -/
inductive Statement where
  | findTable
  | findLatest
  | begin
  | makeTable
  | makeIndex
  | addRow
  | commit
  deriving Inhabited, Repr, DecidableEq

def Statement.task : Statement → String
  | findTable => "checking " ++ Database.runsTable ++ " table"
  | findLatest => "querying last run"
  | begin => "starting transaction"
  | makeTable | makeIndex => "applying runs DDL"
  | addRow => "inserting run record"
  | commit => "committing run"

/-- What goes wrong with single statements for a reason that lies outside of the tables: a connection that
is lost, a disk that is full, a caller that gives up after the statement before. -/
abbrev Faults : Type := Statement → Option Failure

def Faults.none : Faults := fun _ => .none

/-- The system that keeps the tables. Rows are sorted by orders of its own. -/
structure Engine where
  dialect : Dialect
  /-- The answer to a statement in a dialect that is not understood. -/
  refuse? : Dialect → Statement → Option Failure
  /-- The answer to a row whose identifier is taken. -/
  duplicate : Failure
  /-- Times are kept in multiples of so many nanoseconds. -/
  precision : Nat
  timeLe : Time → Time → Bool
  textLe : String → String → Bool
  /-- The time read from a column, of which the index and the name are given. -/
  readTime : Nat → String → Time → Except Failure Time
  timeLe_trans : ∀ t u v, timeLe t u = true → timeLe u v = true → timeLe t v = true
  timeLe_total : ∀ t u, (timeLe t u || timeLe u t) = true
  textLe_trans : ∀ a b c, textLe a b = true → textLe b c = true → textLe a c = true
  textLe_total : ∀ a b, (textLe a b || textLe b a) = true
  textLe_antisymm : ∀ a b, textLe a b = true → textLe b a = true → a = b

namespace Engine

/-- Times are kept as texts and sorted as such. Statements are understood in either dialect, but there is
no list of tables where PostgreSQL has one. -/
def sqlite : Engine where
  dialect := .sqlite
  refuse?
    | .postgres, .findTable => some (.database (.noTable "pg_class"))
    | _, _ => none
  duplicate := .database (.duplicate Database.runsTable "id")
  precision := 1
  timeLe t u := t.storedText ≤ u.storedText
  textLe a b := a ≤ b
  readTime index column t := t.readBack "" index column
  timeLe_trans _ _ _ h h' := decide_eq_true (String.le_trans (of_decide_eq_true h) (of_decide_eq_true h'))
  timeLe_total t u := by simpa using String.le_total t.storedText u.storedText
  textLe_trans _ _ _ h h' := decide_eq_true (String.le_trans (of_decide_eq_true h) (of_decide_eq_true h'))
  textLe_total a b := by simpa using String.le_total a b
  textLe_antisymm _ _ h h' := String.le_antisymm (of_decide_eq_true h) (of_decide_eq_true h')

/-- Times are kept as numbers of microseconds, and texts sorted by their characters. -/
def postgres : Engine where
  dialect := .postgres
  refuse?
    | .sqlite, .findTable => some (.plain "pq: relation \"sqlite_master\" does not exist")
    | .sqlite, .findLatest | .sqlite, .addRow => some (.plain "pq: syntax error at end of input")
    | _, _ => none
  duplicate := .plain ("pq: duplicate key value violates unique constraint \"" ++ Database.runsTable ++ "_pkey\"")
  precision := 1000
  timeLe t u := !u.before t
  textLe a b := a ≤ b
  readTime _ _ t := .ok t.toUtc
  timeLe_trans t u v h h' := by
    simp only [Time.before, Bool.not_eq_true', Bool.or_eq_false_iff, Bool.and_eq_false_iff] at h h' ⊢
    simp only [decide_eq_false_iff_not, beq_eq_false_iff_ne] at h h' ⊢
    omega
  timeLe_total t u := by
    simp only [Time.before, Bool.or_eq_true, Bool.not_eq_true', Bool.or_eq_false_iff, Bool.and_eq_false_iff]
    simp only [decide_eq_false_iff_not, beq_eq_false_iff_ne]
    omega
  textLe_trans _ _ _ h h' := decide_eq_true (String.le_trans (of_decide_eq_true h) (of_decide_eq_true h'))
  textLe_total a b := by simpa using String.le_total a b
  textLe_antisymm _ _ h h' := String.le_antisymm (of_decide_eq_true h) (of_decide_eq_true h')

instance : Inhabited Engine := ⟨sqlite⟩

/-- Whether the first of two runs was stored later, or at the same time under a greater identifier. -/
def isLater (e : Engine) (a b : Run) : Bool :=
  e.timeLe b.createdAt a.createdAt && (!e.timeLe a.createdAt b.createdAt || e.textLe b.id a.id)

def latestFirst (e : Engine) (runs : List Run) : List Run := runs.mergeSort e.isLater

def newest? (e : Engine) (runs : List Run) : Option Run :=
  (runs.mergeSort fun a b => e.timeLe b.createdAt a.createdAt).head?

end Engine

end FlowAudit
