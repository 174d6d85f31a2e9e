import FlowAudit.Proofs.Text.Numeral
import FlowAudit.Store.Statements
import FlowAudit.Text.Character
import Mathlib.Data.List.DropRight

namespace FlowAudit.Sql

/-- What a script is made of besides comments. -/
inductive Symbol where
  | char (c : Char)
  | literal (text : List Char)
  deriving DecidableEq

/-- Where in a script its reader is. -/
inductive Place where
  | outside
  | comment
  /-- In a literal, of which the text was read so far. -/
  | literal (text : List Char)

def read : Place → List Char → Option (List Symbol)
  | .outside, [] | .comment, [] => some []
  | .literal _, [] => none
  | .outside, c :: cs =>
    if c = '\'' then read (.literal []) cs
    else if c = '-' ∧ cs.head? = some '-' then read .comment cs
    else (read .outside cs).map (.char c :: ·)
  | .comment, c :: cs =>
    if c = '\n' then (read .outside cs).map (.char c :: ·) else read .comment cs
  | .literal text, '\'' :: '\'' :: cs => read (.literal (text ++ ['\''])) cs
  | .literal text, c :: cs =>
    if c = '\'' then (read .outside cs).map (.literal text :: ·) else read (.literal (text ++ [c])) cs

def Symbol.isBlank : Symbol → Bool
  | char c => Text.isBlank c
  | literal _ => false

def trim (ss : List Symbol) : List Symbol := (ss.dropWhile Symbol.isBlank).rdropWhile Symbol.isBlank

def parts (mark : Char) (ss : List Symbol) : List (List Symbol) := (ss.splitOn (.char mark)).map trim

def statements (script : String) : Option (List (List Symbol)) :=
  (read .outside script.toList).map fun ss ↦ (parts ';' ss).filter (· ≠ [])

def plain (s : String) : List Symbol := s.toList.map .char

section Values

def text? : List Symbol → Option String
  | [.literal cs] => some (String.ofList cs)
  | _ => none

def chars? (ss : List Symbol) : Option (List Char) :=
  ss.mapM fun
    | .char c => some c
    | .literal _ => none

def whole? (ss : List Symbol) : Option Int := do
  match ← chars? ss with
  | '-' :: ds => (Text.readDigits? 10 ds).map fun (n : Nat) ↦ -(n : Int)
  | ds => (Text.readDigits? 10 ds).map fun (n : Nat) ↦ (n : Int)

def flag? (ss : List Symbol) : Option Bool :=
  if ss = plain "true" then some true else if ss = plain "false" then some false else none

def columnNames : List String :=
  ["id", "flow_name", "flow_version", "checksum", "analyzer_version", "bulkification_score", "should_bulkify",
    "cumulative_complexity", "result", "created_at"]

def row? : List (List Symbol) → Option Run
  | [id, flow, flowVersion, checksum, analyzerVersion, score, shouldBulkify, cumulativeComplexity, result,
      createdAt] => do
    return {
      id := ← text? id, flow := ← text? flow, flowVersion := ← whole? flowVersion
      checksum := ← text? checksum, analyzerVersion := ← text? analyzerVersion, score := ← whole? score
      shouldBulkify := ← flag? shouldBulkify, cumulativeComplexity := ← whole? cumulativeComplexity
      result := ← text? result, createdAt := ← Time.ofText? (← text? createdAt) }
  | _ => none

end Values

def insertInto : String := "INSERT INTO flowscope_runs (" ++ ", ".intercalate columnNames ++ ")\nVALUES ("

def Inserts (statement : List Symbol) (row : Run) : Prop :=
  ∃ values, statement = plain insertInto ++ values ++ plain ")" ∧ row? (parts ',' values) = some row

section Reading

variable {cs rest : List Char} {text : List Char}

theorem read_comment (h : '\n' ∉ cs) :
    read .comment (cs ++ '\n' :: rest) = (read .outside rest).map (.char '\n' :: ·) := by
  induction cs with
  | nil => simp [read]
  | cons c cs ih =>
    rw [List.mem_cons, not_or] at h
    rw [List.cons_append, read, if_neg (Ne.symm h.1), ih h.2]

theorem read_comment_line (h : '\n' ∉ cs) :
    read .outside ('-' :: '-' :: cs ++ '\n' :: rest) = (read .outside rest).map (.char '\n' :: ·) := by
  have hdash : '\n' ∉ '-' :: cs := by simp [h]
  rw [List.cons_append, read, if_neg (by decide), if_pos ⟨rfl, rfl⟩]
  exact read_comment hdash

theorem read_char {c : Char} (hquote : c ≠ '\'') (hdash : c = '-' → rest.head? ≠ some '-') :
    read .outside (c :: rest) = (read .outside rest).map (.char c :: ·) := by
  rw [read, if_neg hquote, if_neg fun h ↦ hdash h.1 h.2]

theorem read_plain (h : ∀ c ∈ cs, c ≠ '\'' ∧ c ≠ '-') :
    read .outside (cs ++ rest) = (read .outside rest).map (cs.map .char ++ ·) := by
  induction cs with
  | nil => simp
  | cons c cs ih =>
    obtain ⟨hc, hcs⟩ := List.forall_mem_cons.1 h
    rw [List.cons_append, read_char hc.1 fun h ↦ absurd h hc.2, ih hcs, Option.map_map]
    rfl

theorem read_literal_char {c : Char} (h : c ≠ '\'') :
    read (.literal text) (c :: cs) = read (.literal (text ++ [c])) cs := by
  rw [read, if_neg h]
  rintro cs' rfl
  exact absurd rfl h

theorem read_literal_end (h : rest.head? ≠ some '\'') :
    read (.literal text) ('\'' :: rest) = (read .outside rest).map (.literal text :: ·) := by
  rw [read, if_pos rfl]
  rintro cs' - rfl
  exact h rfl

theorem doubled_cons (c : Char) (cs : List Char) :
    Store.doubled (c :: cs) = if c = '\'' then c :: c :: Store.doubled cs else c :: Store.doubled cs := by
  by_cases h : c = '\'' <;> simp [Store.doubled, h]

theorem doubled_eq_self (h : '\'' ∉ cs) : Store.doubled cs = cs := by
  induction cs with
  | nil => rfl
  | cons c cs ih =>
    rw [List.mem_cons, not_or] at h
    rw [doubled_cons, if_neg (Ne.symm h.1), ih h.2]

/-- A literal in which quotes are doubled is read as the text that it was written for. -/
theorem read_literal (h : rest.head? ≠ some '\'') :
    read (.literal text) (Store.doubled cs ++ '\'' :: rest) =
      (read .outside rest).map (.literal (text ++ cs) :: ·) := by
  induction cs generalizing text with
  | nil => simpa [Store.doubled] using read_literal_end h
  | cons c cs ih =>
    rw [doubled_cons]
    split
    · next hc =>
      subst hc
      rw [List.cons_append, List.cons_append, read, ih, List.append_assoc, List.singleton_append]
    · next hc =>
      rw [List.cons_append, read_literal_char hc, ih, List.append_assoc, List.singleton_append]

theorem exists_of_read_literal {ss : List Symbol} (h : read (.literal text) cs = some ss) :
    ∃ body rest ss', cs = Store.doubled body ++ '\'' :: rest ∧ ss = .literal (text ++ body) :: ss' := by
  generalize hplace : Place.literal text = place at h
  fun_induction read place cs generalizing text with
  | case1 | case2 | case4 | case5 | case6 | case7 | case8 => cases hplace
  | case3 => cases h
  | case9 text' cs ih =>
    obtain rfl := Place.literal.inj hplace
    obtain ⟨body, rest, ss', rfl, rfl⟩ := ih rfl h
    exact ⟨'\'' :: body, rest, ss', by simp [doubled_cons], by simp⟩
  | case10 text' cs hne ih =>
    obtain rfl := Place.literal.inj hplace
    obtain ⟨ss', -, rfl⟩ := Option.map_eq_some_iff.1 h
    exact ⟨[], cs, ss', by simp [Store.doubled], by simp⟩
  | case11 text' c cs hne hc ih =>
    obtain rfl := Place.literal.inj hplace
    obtain ⟨body, rest, ss', rfl, rfl⟩ := ih rfl h
    exact ⟨c :: body, rest, ss', by simp [doubled_cons, hc], by simp⟩

theorem not_mem_of_doubled {rest' : List Char}
    (h : Store.doubled cs ++ '\'' :: rest = cs ++ '\'' :: ',' :: rest') : '\'' ∉ cs := by
  -- Each quote of the text leaves one more before what is still to be compared.
  have hextra (k : Nat) (cs : List Char) :
      List.replicate (k + 1) '\'' ++ Store.doubled cs ++ '\'' :: rest ≠ cs ++ '\'' :: ',' :: rest' := by
    induction cs generalizing k with
    | nil => cases k <;> simp [Store.doubled, List.replicate_succ]
    | cons c cs ih =>
      intro heq
      rw [List.replicate_succ, List.cons_append, List.cons_append, List.cons_append, List.cons.injEq] at heq
      obtain ⟨rfl, heq⟩ := heq
      refine ih (k + 1) ?_
      rw [← heq, doubled_cons, if_pos rfl]
      simp [List.replicate_succ', List.append_assoc]
  induction cs with
  | nil => simp
  | cons c cs ih =>
    rw [doubled_cons] at h
    split at h
    · next hc =>
      subst hc
      simp only [List.cons_append, List.cons.injEq, true_and] at h
      exact absurd h (hextra 0 cs)
    · next hc =>
      simp only [List.cons_append, List.cons.injEq, true_and] at h
      simpa [Ne.symm hc] using ih h

end Reading

section Parts

variable {mark : Char} {s : Symbol} {ss tt : List Symbol}

theorem parts_append_mark (h : .char mark ∉ ss) (tt : List Symbol) :
    parts mark (ss ++ .char mark :: tt) = trim ss :: parts mark tt := by
  rw [parts, List.splitOn_append_cons_self, List.splitOn_eq_singleton h, List.singleton_append,
    List.map_cons, parts]

theorem parts_of_not_mem (h : .char mark ∉ ss) : parts mark ss = [trim ss] := by
  rw [parts, List.splitOn_eq_singleton h, List.map_singleton]

theorem trim_append_of_blank (h : ∀ s ∈ ss, s.isBlank = true) (tt : List Symbol) :
    trim (ss ++ tt) = trim tt := by
  rw [trim, List.dropWhile_append_of_pos h, trim]

theorem trim_cons (h : s.isBlank = false) (ss : List Symbol) :
    trim (s :: ss) = (s :: ss).rdropWhile Symbol.isBlank := by
  rw [trim, List.dropWhile_cons_of_neg (by simp [h])]

theorem trim_eq_self (h : ∀ s ∈ ss, s.isBlank = false) : trim ss = ss := by
  cases ss with
  | nil => rfl
  | cons s ss =>
    rw [trim_cons (h s List.mem_cons_self), List.rdropWhile_eq_self_iff]
    intro hne
    simp [h _ (List.getLast_mem hne)]

theorem trim_of_ends (hfirst : ∃ s ∈ ss.head?, s.isBlank = false)
    (hlast : ∃ s ∈ ss.getLast?, s.isBlank = false) : trim ss = ss := by
  obtain ⟨s, hs, hblank⟩ := hfirst
  obtain ⟨s', hs', hblank'⟩ := hlast
  cases ss with
  | nil => rfl
  | cons first ss =>
    obtain rfl := Option.some_inj.1 hs
    rw [trim_cons hblank, List.rdropWhile_eq_self_iff]
    intro hne
    rw [List.getLast?_eq_some_getLast hne, Option.mem_some_iff] at hs'
    simp [hs', hblank']

theorem exists_rdropWhile_literal (ss : List Symbol) (text : List Char) (tt : List Symbol) :
    ∃ tt', (ss ++ .literal text :: tt).rdropWhile Symbol.isBlank = ss ++ .literal text :: tt' := by
  induction tt using List.reverseRecOn with
  | nil => exact ⟨[], List.rdropWhile_concat_neg _ _ _ (by simp [Symbol.isBlank])⟩
  | append_singleton tt s ih =>
    obtain ⟨tt', htt'⟩ := ih
    have hassoc : ss ++ .literal text :: (tt ++ [s]) = (ss ++ .literal text :: tt) ++ [s] := by simp
    rw [hassoc, List.rdropWhile_concat]
    split
    · exact ⟨tt', htt'⟩
    · exact ⟨tt ++ [s], hassoc.symm⟩

theorem parts_append_of_blank (h : ∀ s ∈ ss, s.isBlank = true) (hmark : Text.isBlank mark = false)
    (tt : List Symbol) : parts mark (ss ++ tt) = parts mark tt := by
  have hfree : .char mark ∉ ss := by
    intro hmem
    have hblank : Text.isBlank mark = true := h _ hmem
    simp [hmark] at hblank
  by_cases hmem : .char mark ∈ tt
  · obtain ⟨before, after, rfl, hbefore⟩ := List.eq_append_cons_of_mem hmem
    rw [← List.append_assoc, parts_append_mark (by simp [hfree, hbefore]), trim_append_of_blank h,
      parts_append_mark hbefore]
  · rw [parts_of_not_mem (by simp [hfree, hmem]), trim_append_of_blank h, parts_of_not_mem hmem]

/-- The first part of what begins with no blank has all that stands up to a literal before the first
mark. -/
theorem exists_parts_literal (hss : ∀ s ∈ ss.head?, s.isBlank = false) (hmark : .char mark ∉ ss)
    (text : List Char) (tt : List Symbol) :
    ∃ tt' rest, parts mark (ss ++ .literal text :: tt) = (ss ++ .literal text :: tt') :: rest := by
  have htrim (tt : List Symbol) :
      ∃ tt', trim (ss ++ .literal text :: tt) = ss ++ .literal text :: tt' := by
    obtain ⟨tt', htt'⟩ := exists_rdropWhile_literal ss text tt
    refine ⟨tt', ?_⟩
    rw [← htt']
    cases ss with
    | nil => exact trim_cons rfl tt
    | cons s ss => exact trim_cons (hss s rfl) _
  by_cases hmem : .char mark ∈ tt
  · obtain ⟨before, after, rfl, hbefore⟩ := List.eq_append_cons_of_mem hmem
    obtain ⟨tt', htt'⟩ := htrim before
    have hassoc : ss ++ .literal text :: (before ++ .char mark :: after) =
        (ss ++ .literal text :: before) ++ .char mark :: after := by simp
    exact ⟨tt', parts mark after, by
      rw [hassoc, parts_append_mark (by simp [hmark, hbefore]), htt']⟩
  · obtain ⟨tt', htt'⟩ := htrim tt
    exact ⟨tt', [], by rw [parts_of_not_mem (by simp [hmark, hmem]), htt']⟩

theorem parts_cons_comma (h : ∀ s ∈ ss, s.isBlank = false ∧ s ≠ .char ',') (tt : List Symbol) :
    parts ',' (ss ++ plain ", " ++ tt) = ss :: parts ',' tt := by
  have hcomma : ss ++ plain ", " ++ tt = ss ++ .char ',' :: ([.char ' '] ++ tt) := by simp [plain]
  rw [hcomma, parts_append_mark fun hmem ↦ (h _ hmem).2 rfl, trim_eq_self fun s hs ↦ (h s hs).1,
    parts_append_of_blank (by decide) (by decide)]

theorem not_mem_intercalate {sss : List (List Symbol)} (htt : s ∉ tt) (h : ∀ ss ∈ sss, s ∉ ss) :
    s ∉ tt.intercalate sss := by
  induction sss with
  | nil => simp
  | cons ss sss ih =>
    obtain ⟨hss, hsss⟩ := List.forall_mem_cons.1 h
    cases sss with
    | nil => simpa using hss
    | cons ss' sss =>
      rw [List.intercalate_cons_cons, List.mem_append, List.mem_append]
      simp only [not_or]
      exact ⟨⟨hss, htt⟩, ih hsss⟩

theorem parts_intercalate {sss : List (List Symbol)} (hne : sss ≠ [])
    (h : ∀ ss ∈ sss, ∀ s ∈ ss, s.isBlank = false ∧ s ≠ .char ',') :
    parts ',' ((plain ", ").intercalate sss) = sss := by
  induction sss with
  | nil => exact absurd rfl hne
  | cons ss sss ih =>
    obtain ⟨hss, hsss⟩ := List.forall_mem_cons.1 h
    cases sss with
    | nil =>
      rw [List.intercalate_singleton, parts_of_not_mem fun hmem ↦ (hss _ hmem).2 rfl,
        trim_eq_self fun s hs ↦ (hss s hs).1]
    | cons ss' sss =>
      rw [List.intercalate_cons_cons, parts_cons_comma hss, ih (List.cons_ne_nil _ _) hsss]

end Parts

section Written

variable {s : String}

/-- A text that is read as the symbols, as long as no quote follows. -/
def Written (s : String) (ss : List Symbol) : Prop :=
  ∀ rest : List Char, rest.head? ≠ some '\'' →
    read .outside (s.toList ++ rest) = (read .outside rest).map (ss ++ ·)

theorem written_plain (h : ∀ c ∈ s.toList, c ≠ '\'' ∧ c ≠ '-') : Written s (plain s) :=
  fun _ _ ↦ read_plain h

theorem written_quoteText (s : String) : Written (Store.quoteText s) [.literal s.toList] := by
  intro rest hrest
  have hlist : (Store.quoteText s).toList ++ rest = '\'' :: (Store.doubled s.toList ++ '\'' :: rest) := by
    simp [Store.quoteText]
  rw [hlist, read, if_pos rfl, read_literal hrest, List.nil_append]
  rfl

theorem written_quoted (h : '\'' ∉ s.toList) : Written ("'" ++ s ++ "'") [.literal s.toList] := by
  have hquoted : "'" ++ s ++ "'" = Store.quoteText s := by
    rw [Store.quoteText, doubled_eq_self h, String.ofList_toList]
  rw [hquoted]
  exact written_quoteText s

theorem isDigit_of_mem_decimal {n : Nat} {c : Char} (h : c ∈ (Text.decimal n).toList) : c.isDigit := by
  rw [Text.decimal, String.toList_ofList] at h
  exact Text.isDigit_of_mem_toDigits h

theorem written_decimalInt (n : Int) : Written (Text.decimalInt n) (plain (Text.decimalInt n)) := by
  have hdigits (n : Nat) : ∀ c ∈ (Text.decimal n).toList, c ≠ '\'' ∧ c ≠ '-' := by
    intro c hc
    have hdigit := isDigit_of_mem_decimal hc
    constructor <;> rintro rfl <;> revert hdigit <;> decide
  rw [Text.decimalInt]
  split
  · intro rest hrest
    -- A digit follows the sign, so it begins no comment.
    have hlist : ("-" ++ Text.decimal n.natAbs).toList = '-' :: (Text.decimal n.natAbs).toList := by simp
    have hhead : ((Text.decimal n.natAbs).toList ++ rest).head? ≠ some '-' := by
      cases hcs : (Text.decimal n.natAbs).toList with
      | nil => simp [Text.decimal, Nat.toDigits_ne_nil] at hcs
      | cons c cs => simpa using (hdigits n.natAbs c (hcs ▸ List.mem_cons_self)).2
    rw [plain, hlist, List.cons_append, read_char (by decide) fun _ ↦ hhead, read_plain (hdigits _),
      Option.map_map]
    rfl
  · exact written_plain (hdigits _)

theorem written_intercalate {vs : List String} {sss : List (List Symbol)} (h : List.Forall₂ Written vs sss) :
    Written (", ".intercalate vs) ((plain ", ").intercalate sss) := by
  induction h with
  | nil => exact fun rest _ ↦ by simp
  | @cons v ss vs sss hv hvs ih =>
    cases hvs with
    | nil => simpa using hv
    | @cons v' ss' vs sss hv' hvs =>
      intro rest hrest
      rw [String.intercalate_cons_cons, List.intercalate_cons_cons, String.toList_append,
        String.toList_append, List.append_assoc, List.append_assoc, hv _ (by simp),
        read_plain (by simp), ih rest hrest, Option.map_map, Option.map_map]
      congr 1
      funext tt
      simp [plain]

theorem chars?_plain (s : String) : chars? (plain s) = some s.toList := by
  have hmap (cs : List Char) : chars? (cs.map .char) = some cs := by
    induction cs with
    | nil => rfl
    | cons c cs ih =>
      rw [chars?, List.map_cons, List.mapM_cons, ← chars?, ih]
      rfl
  exact hmap s.toList

theorem whole?_decimalInt (n : Int) : whole? (plain (Text.decimalInt n)) = some n := by
  have hread (n : Nat) : Text.readDigits? 10 (Text.decimal n).toList = some n := by
    rw [Text.decimal, String.toList_ofList, Text.readDigits?_of_isDigit Nat.toDigits_ne_nil
      fun c ↦ Text.isDigit_of_mem_toDigits, Nat.ofDigitChars_ten_toDigits]
  rw [whole?, chars?_plain, Text.decimalInt]
  split
  · next hn =>
    have hlist : ("-" ++ Text.decimal n.natAbs).toList = '-' :: (Text.decimal n.natAbs).toList := by simp
    simp only [hlist, Option.bind_eq_bind, Option.bind_some, hread, Option.map_some]
    congr 1
    omega
  · next hn =>
    simp only [Option.bind_eq_bind, Option.bind_some]
    split
    · next ds hds =>
      have hdash : '-' ∈ (Text.decimal n.natAbs).toList := by simp [hds]
      exact absurd (isDigit_of_mem_decimal hdash) (by decide)
    · rw [hread, Option.map_some]
      congr 1
      omega

theorem text?_checksum {id flow flowVersion checksum : List Symbol} {rest : List (List Symbol)} {row : Run}
    (h : row? (id :: flow :: flowVersion :: checksum :: rest) = some row) :
    text? checksum = some row.checksum := by
  generalize hvalues : id :: flow :: flowVersion :: checksum :: rest = values at h
  unfold row? at h
  split at h
  · obtain ⟨rfl, rfl, rfl, rfl, -⟩ : _ ∧ _ ∧ _ ∧ _ ∧ _ := by simpa using hvalues
    simp only [Option.bind_eq_bind, Option.bind_eq_some_iff] at h
    obtain ⟨id, -, flow, -, version, -, checksum, hchecksum, _, -, _, -, _, -, _, -, _, -, _, -, _, -, h⟩ := h
    rw [hchecksum, ← Option.some_inj.1 h]
  · cases h

end Written

end FlowAudit.Sql
