import FlowAudit.Database.Dialect
import FlowAudit.Proofs.Sql.Reading

namespace FlowAudit

namespace Sql

/-- A query as it is read with regard to literals only. -/
structure Query where
  symbols : List Symbol
  /-- The text of a literal at the end that no quote ends. -/
  pending : Option (List Char)
  deriving DecidableEq

def opened (text : List Char) : List Char := '\'' :: Store.doubled text

def Symbol.written : Symbol → List Char
  | char c => [c]
  | literal text => opened text ++ ['\'']

def Symbol.literal? : Symbol → Option (List Char)
  | char _ => none
  | literal text => some text

namespace Query

def append (ss : List Symbol) (q : Query) : Query := { q with symbols := ss ++ q.symbols }

def read : Option (List Char) → List Char → Query
  | pending, [] => ⟨[], pending⟩
  | none, c :: cs => if c = '\'' then read (some []) cs else (read none cs).append [.char c]
  | some text, '\'' :: '\'' :: cs => read (some (text ++ ['\''])) cs
  | some text, c :: cs =>
    if c = '\'' then (read none cs).append [.literal text] else read (some (text ++ [c])) cs

def ofString (s : String) : Query := read none s.toList

def written (q : Query) : List Char := q.symbols.flatMap Symbol.written ++ q.pending.elim [] opened

def literals (q : Query) : List (List Char) := q.symbols.filterMap Symbol.literal? ++ q.pending.toList

def mark : Symbol := .char '?'

/-- The symbols with the `k`-th mark replaced by the characters for `k`. -/
def replaceMarks (place : Nat → List Char) (ss : List Symbol) : List Symbol :=
  (ss.mapIdx fun i s ↦ if s = mark then (place ((ss.take (i + 1)).count mark)).map .char else [s]).flatten

def withPlaces (place : Nat → List Char) (q : Query) : Query :=
  { q with symbols := replaceMarks place q.symbols }

section Reading

variable {text : List Char} {c : Char} {plain rest : List Char}

theorem read_char (h : c ≠ '\'') : read none (c :: rest) = (read none rest).append [.char c] := by
  rw [read, if_neg h]

theorem read_plain (h : '\'' ∉ plain) :
    read none (plain ++ rest) = (read none rest).append (plain.map .char) := by
  induction plain with
  | nil => rfl
  | cons c plain ih =>
    rw [List.mem_cons, not_or] at h
    rw [List.cons_append, read_char (Ne.symm h.1), ih h.2]
    rfl

theorem read_literal_char (h : c ≠ '\'') : read (some text) (c :: rest) = read (some (text ++ [c])) rest := by
  rw [read, if_neg h]
  intro rest' hc
  exact absurd hc h

theorem read_literal_end (h : rest.head? ≠ some '\'') :
    read (some text) ('\'' :: rest) = (read none rest).append [.literal text] := by
  rw [read, if_pos rfl]
  intro rest' _ hrest
  apply h
  rw [hrest, List.head?_cons]

theorem written_append (ss : List Symbol) (q : Query) :
    (q.append ss).written = ss.flatMap Symbol.written ++ q.written := by
  simp [append, written]

theorem opened_append (text cs : List Char) : opened (text ++ cs) = opened text ++ Store.doubled cs := by
  simp [opened, Store.doubled]

/-- Nothing is lost in reading. -/
theorem written_read (pending : Option (List Char)) (cs : List Char) :
    (read pending cs).written = pending.elim [] opened ++ cs := by
  fun_induction read pending cs with
  | case1 pending => simp [written]
  | case2 cs ih => exact ih
  | case3 c cs hc ih =>
    rw [written_append, ih]
    simp [Symbol.written]
  | case4 text cs ih =>
    rw [ih, Option.elim_some, opened_append]
    simp [Store.doubled]
  | case5 text cs hsingle ih =>
    rw [written_append, ih]
    simp [Symbol.written]
  | case6 text c cs hdoubled hc ih =>
    rw [ih, Option.elim_some, opened_append]
    simp [Store.doubled, hc]

theorem written_ofString (s : String) : (ofString s).written = s.toList := written_read none s.toList

end Reading

section Marks

variable {place : Nat → List Char} {s : Symbol} {ss : List Symbol}

theorem replaceMarks_mark_cons (place : Nat → List Char) (ss : List Symbol) :
    replaceMarks place (mark :: ss) = (place 1).map .char ++ replaceMarks (fun k ↦ place (k + 1)) ss := by
  simp [replaceMarks, List.mapIdx_cons]

theorem replaceMarks_cons (h : s ≠ mark) (ss : List Symbol) :
    replaceMarks place (s :: ss) = s :: replaceMarks place ss := by
  simp [replaceMarks, List.mapIdx_cons, h]

theorem replaceMarks_eq_self (h : mark ∉ ss) : replaceMarks place ss = ss := by
  induction ss with
  | nil => rfl
  | cons s ss ih =>
    rw [List.mem_cons, not_or] at h
    rw [replaceMarks_cons (Ne.symm h.1), ih h.2]

theorem mark_not_mem_replaceMarks (h : ∀ k, '?' ∉ place k) (ss : List Symbol) :
    mark ∉ replaceMarks place ss := by
  -- Behind a mark the places are those from the second one on.
  induction ss generalizing place with
  | nil => simp [replaceMarks]
  | cons s ss ih =>
    by_cases hs : s = mark
    · have hplace : mark ∉ (place 1).map .char := by simp [mark, h 1]
      rw [hs, replaceMarks_mark_cons, List.mem_append, not_or]
      exact ⟨hplace, ih fun k ↦ h (k + 1)⟩
    · rw [replaceMarks_cons hs, List.mem_cons, not_or]
      exact ⟨Ne.symm hs, ih h⟩

theorem filterMap_literal?_replaceMarks (place : Nat → List Char) (ss : List Symbol) :
    (replaceMarks place ss).filterMap Symbol.literal? = ss.filterMap Symbol.literal? := by
  induction ss generalizing place with
  | nil => rfl
  | cons s ss ih =>
    by_cases hs : s = mark
    · have hplace : ((place 1).map Symbol.char).filterMap Symbol.literal? = [] := by simp [Symbol.literal?]
      rw [hs, replaceMarks_mark_cons, List.filterMap_append, hplace, ih]
      rfl
    · rw [replaceMarks_cons hs, List.filterMap_cons, List.filterMap_cons, ih]

theorem withPlaces_append_mark (place : Nat → List Char) (q : Query) :
    (q.append [mark]).withPlaces place =
      (q.withPlaces fun k ↦ place (k + 1)).append ((place 1).map .char) := by
  simp [append, withPlaces, replaceMarks_mark_cons]

theorem withPlaces_append (h : s ≠ mark) (place : Nat → List Char) (q : Query) :
    (q.append [s]).withPlaces place = (q.withPlaces place).append [s] := by
  simp [append, withPlaces, replaceMarks_cons h]

theorem literals_withPlaces (place : Nat → List Char) (q : Query) :
    (q.withPlaces place).literals = q.literals := by
  rw [literals, withPlaces, filterMap_literal?_replaceMarks, literals]

end Marks

end Query

end Sql

namespace Dialect

open Sql Sql.Query

def numberedPlace (k : Nat) : List Char := '$' :: Nat.toDigits 10 k

theorem not_mem_numberedPlace {c : Char} (hdollar : c ≠ '$') (hdigit : ¬c.isDigit) (k : Nat) :
    c ∉ numberedPlace k := by
  rw [numberedPlace, List.mem_cons, not_or]
  exact ⟨hdollar, fun hmem ↦ hdigit (Text.isDigit_of_mem_toDigits hmem)⟩

section Numbering

variable {inQuote : Bool} {n : Nat} {c : Char} {cs : List Char}

theorem numbered_quote : numbered inQuote n ('\'' :: cs) = '\'' :: numbered (!inQuote) n cs := rfl

theorem numbered_mark : numbered false n ('?' :: cs) = numberedPlace (n + 1) ++ numbered false (n + 1) cs := rfl

theorem numbered_char (hquote : c ≠ '\'') (hmark : c = '?' → inQuote = true) :
    numbered inQuote n (c :: cs) = c :: numbered inQuote n cs := by
  rw [numbered, if_neg (by simpa using hquote), if_neg (by simpa using hmark)]

theorem head?_numbered (h : cs.head? ≠ some '\'') : (numbered inQuote n cs).head? ≠ some '\'' := by
  cases cs with
  | nil => exact h
  | cons c cs =>
    have hc : c ≠ '\'' := by simpa using h
    rw [numbered, if_neg (by simpa using hc)]
    split <;> simp [hc]

/-- Numbered places are read where the marks were, and all else is read as before. -/
theorem read_numbered (pending : Option (List Char)) (n : Nat) (cs : List Char) :
    Query.read pending (numbered pending.isSome n cs) =
      (Query.read pending cs).withPlaces fun k ↦ numberedPlace (n + k) := by
  -- The reader takes a doubled quote in one step and the numbering in two, out of the literal and back.
  fun_induction Query.read pending cs generalizing n with
  | case1 pending => simp [numbered, Query.read, withPlaces, replaceMarks]
  | case2 cs ih =>
    rw [Option.isSome_none, numbered_quote, Query.read, if_pos rfl]
    exact ih n
  | case3 c cs hc ih =>
    rw [Option.isSome_none] at ih ⊢
    by_cases hmark : c = '?'
    · subst hmark
      have hplain : '\'' ∉ numberedPlace (n + 1) := not_mem_numberedPlace (by decide) (by decide) _
      change _ = ((Query.read none cs).append [mark]).withPlaces _
      rw [numbered_mark, Query.read_plain hplain, ih (n + 1), withPlaces_append_mark]
      simp only [Nat.add_assoc, Nat.add_comm 1]
    · have hsymbol : Symbol.char c ≠ mark := fun h ↦ hmark (Symbol.char.inj h)
      rw [numbered_char hc fun h ↦ absurd h hmark, Query.read_char hc, ih n, withPlaces_append hsymbol]
  | case4 text cs ih =>
    rw [Option.isSome_some, numbered_quote, numbered_quote, Query.read]
    exact ih n
  | case5 text cs hsingle ih =>
    have hhead : cs.head? ≠ some '\'' := by
      intro h
      obtain ⟨cs', hcs⟩ := List.head?_eq_some_iff.mp h
      exact hsingle cs' rfl hcs
    rw [Option.isSome_some, numbered_quote, Query.read_literal_end (head?_numbered hhead),
      withPlaces_append (by simp [mark]), ← ih n]
    rfl
  | case6 text c cs hdoubled hc ih =>
    rw [Option.isSome_some, numbered_char hc fun _ ↦ rfl, Query.read_literal_char hc]
    exact ih n

end Numbering

theorem ofString_rebind (q : String) :
    ofString (postgres.rebind q) = (ofString q).withPlaces numberedPlace := by
  have hread := read_numbered none 0 q.toList
  simp only [Nat.zero_add] at hread
  rw [ofString, rebind, String.toList_ofList]
  exact hread

theorem toList_rebind (q : String) :
    (postgres.rebind q).toList = ((ofString q).withPlaces numberedPlace).written := by
  rw [← ofString_rebind, written_ofString]

theorem rebind_rebind (q : String) : postgres.rebind (postgres.rebind q) = postgres.rebind q := by
  have hmarks : mark ∉ (ofString (postgres.rebind q)).symbols := by
    rw [ofString_rebind]
    exact mark_not_mem_replaceMarks (not_mem_numberedPlace (by decide) (by decide)) _
  have hsame : (ofString (postgres.rebind q)).withPlaces numberedPlace = ofString (postgres.rebind q) := by
    rw [withPlaces, replaceMarks_eq_self hmarks]
  rw [← String.toList_inj, toList_rebind (postgres.rebind q), hsame, written_ofString]

/-- A query with numbered places is the query with the `k`-th question mark outside literals replaced by a
dollar sign and the numeral of `k`, and nothing else is changed: so the literals are those of the query, the
one that may be open at the end included, and to number the places again changes nothing. Where places are not
numbered the query stays as it is. -/
theorem places_numbered_in_order (q : String) :
    (ofString q).written = q.toList ∧
    (postgres.rebind q).toList = ((ofString q).withPlaces numberedPlace).written ∧
    postgres.rebind (postgres.rebind q) = postgres.rebind q ∧
    (ofString (postgres.rebind q)).literals = (ofString q).literals ∧
    sqlite.rebind q = q := by
  refine ⟨written_ofString q, toList_rebind q, rebind_rebind q, ?_, rfl⟩
  rw [ofString_rebind, literals_withPlaces]

/-- Marks in a literal with a doubled quote, side by side, and in a literal that stays open. -/
example : postgres.rebind "'it''s ?' = ? OR ?? <> '?" = "'it''s ?' = $1 OR $2$3 <> '?" := by decide

end Dialect

end FlowAudit
