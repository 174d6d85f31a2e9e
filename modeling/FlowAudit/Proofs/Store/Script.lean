import FlowAudit.Proofs.Sql.Reading
import FlowAudit.Proofs.Store.History
import FlowAudit.Proofs.Text.Lower
import FlowAudit.Proofs.Time.Text

namespace FlowAudit

section Quotes

variable {c : Char}

theorem Uuid.ne_quote_of_isHex (h : isHex c = true) : c.toLower ≠ '\'' := by
  intro hquote
  rw [Text.eq_of_toLower_eq hquote (by decide)] at h
  revert h
  decide

theorem Uuid.quote_not_mem {s id : String} (h : normalize? s = some id) : '\'' ∉ id.toList := by
  have hgrouped {cs ds : List Char} (h : readGrouped? cs = some ds) : ∀ c ∈ ds, isHex c = true := by
    rw [readGrouped?] at h
    split at h
    · next hds =>
      obtain rfl := Option.some_inj.1 h
      simp only [Bool.and_eq_true, List.all_eq_true] at hds
      exact hds.1.2
    · cases h
  obtain ⟨ds, hds, rfl⟩ := Option.map_eq_some_iff.1 h
  have hhex : ∀ c ∈ ds, isHex c = true := by
    split at hds
    · exact hgrouped hds
    · split at hds
      · exact hgrouped hds
      · cases hds
    · split at hds
      · exact hgrouped hds
      · cases hds
    · split at hds
      · next hcs =>
        obtain rfl := Option.some_inj.1 hds
        simp only [Bool.and_eq_true, List.all_eq_true] at hcs
        exact hcs.2
      · cases hds
    · cases hds
  have hmap : '\'' ∉ ds.map Char.toLower := by
    simp only [List.mem_map, not_exists, not_and]
    exact fun c hc ↦ ne_quote_of_isHex (hhex c hc)
  simp only [String.toList_ofList, grouped, List.mem_append, List.mem_cons, not_or]
  have htake (k l : Nat) : '\'' ∉ ((ds.map Char.toLower).drop k).take l :=
    fun hmem ↦ hmap (List.mem_of_mem_drop (List.mem_of_mem_take hmem))
  exact ⟨⟨⟨⟨htake 0 8, by decide, htake 8 4⟩, by decide, htake 12 4⟩, by decide, htake 16 4⟩, by decide,
    fun hmem ↦ hmap (List.mem_of_mem_drop hmem)⟩

theorem Time.quote_not_mem (t : Time) : '\'' ∉ t.text.toList := by
  have hpadded (w n : Nat) : '\'' ∉ (Text.padded w n).toList := fun hmem ↦
    absurd (Text.isDigit_of_mem_padded hmem) (by decide)
  have hpad (w : Nat) (n : Int) : '\'' ∉ (pad w n).toList := by
    rw [pad, String.toList_append, List.mem_append, not_or]
    exact ⟨by split <;> decide, hpadded w _⟩
  have hfraction : '\'' ∉ (fraction t.nanos).toList := by
    rw [toList_fraction]
    split
    · simp
    · exact List.not_mem_cons_of_ne_of_not_mem (by decide) fun hmem ↦
        absurd (isDigit_of_mem_decimals hmem) (by decide)
  have hzone : '\'' ∉ (zoneText t.offset).toList := by
    rw [zoneText]
    split
    · decide
    · simp only [String.toList_append, List.mem_append, not_or]
      exact ⟨⟨⟨by split <;> decide, hpadded _ _⟩, by decide⟩, hpadded _ _⟩
  simp only [text, clockText, String.toList_append, List.mem_append, not_or]
  simp [hpad, hfraction, hzone]

end Quotes

namespace Store

open Sql

variable {r : Record}

def columns (r : Record) : List (List Symbol) := [
  [.literal r.id.toList],
  [.literal r.flow.toList],
  plain (Text.decimalInt r.flowVersion),
  [.literal r.checksum.toList],
  [.literal analyzerVersion.toList],
  plain (Text.decimalInt r.score),
  plain (if r.shouldBulkify then "true" else "false"),
  plain (Text.decimalInt r.cumulativeComplexity),
  [.literal r.analysis.toJson.compact.toList],
  [.literal r.createdAt.text.toList]]

theorem written_columns (hid : '\'' ∉ r.id.toList) (hchecksum : '\'' ∉ r.checksum.toList) :
    List.Forall₂ Written (writtenValues r) (columns r) := by
  have hflag : Written (if r.shouldBulkify then "true" else "false")
      (plain (if r.shouldBulkify then "true" else "false")) := by
    split <;> exact written_plain (by simp)
  have hversion : Written ("'" ++ analyzerVersion ++ "'") [.literal analyzerVersion.toList] :=
    written_quoted (by decide)
  exact .cons (written_quoted hid) <| .cons (written_quoteText _) <| .cons (written_decimalInt _) <|
    .cons (written_quoted hchecksum) <| .cons hversion <| .cons (written_decimalInt _) <| .cons hflag <|
    .cons (written_decimalInt _) <| .cons (written_quoteText _) <|
    .cons (written_quoted r.createdAt.quote_not_mem) .nil

theorem isBlank_of_isDigit {c : Char} (h : c.isDigit) : Text.isBlank c = false := by
  have hrange := Text.isDigit_iff.1 h
  simp only [Text.isBlank, Bool.or_eq_false_iff, Bool.and_eq_false_iff, decide_eq_false_iff_not,
    beq_eq_false_iff_ne]
  omega

theorem columns_closed (r : Record) :
    ∀ ss ∈ columns r, ∀ s ∈ ss, s.isBlank = false ∧ s ≠ .char ',' ∧ s ≠ .char ';' := by
  have hliteral (text : List Char) : ∀ s ∈ [Symbol.literal text],
      s.isBlank = false ∧ s ≠ .char ',' ∧ s ≠ .char ';' := by simp [Symbol.isBlank]
  have hdecimal (n : Int) : ∀ s ∈ plain (Text.decimalInt n),
      s.isBlank = false ∧ s ≠ .char ',' ∧ s ≠ .char ';' := by
    intro s hs
    obtain ⟨c, hc, rfl⟩ := List.mem_map.1 hs
    obtain rfl | hdigit : c = '-' ∨ c.isDigit := by
      rw [Text.decimalInt] at hc
      split at hc
      · rw [String.toList_append, List.mem_append] at hc
        exact hc.imp (fun hc ↦ by simpa using hc) isDigit_of_mem_decimal
      · exact .inr (isDigit_of_mem_decimal hc)
    · decide
    · refine ⟨isBlank_of_isDigit hdigit, ?_, ?_⟩ <;> rintro ⟨⟩ <;> revert hdigit <;> decide
  have hflag : ∀ s ∈ plain (if r.shouldBulkify then "true" else "false"),
      s.isBlank = false ∧ s ≠ .char ',' ∧ s ≠ .char ';' := by
    split <;> decide
  intro ss hss
  simp only [columns, List.mem_cons, List.not_mem_nil, or_false] at hss
  obtain rfl | rfl | rfl | rfl | rfl | rfl | rfl | rfl | rfl | rfl := hss
  exacts [hliteral _, hliteral _, hdecimal _, hliteral _, hliteral _, hdecimal _, hflag, hdecimal _,
    hliteral _, hliteral _]

theorem row?_columns (hversion : r.analyzerVersion = analyzerVersion)
    (htime : Time.ofText? r.createdAt.text = some r.createdAt) :
    row? (columns r) = some r.toRun := by
  have hflag : flag? (plain (if r.shouldBulkify then "true" else "false")) = some r.shouldBulkify := by
    cases r.shouldBulkify <;> decide
  simp [row?, columns, text?, whole?_decimalInt, hflag, htime, Record.toRun, hversion]

section Opening

/-- A statement or its beginning without quotes, comments and marks in it and without blanks around it. -/
structure IsBare (s : String) : Prop where
  bare : ∀ c ∈ s.toList, c ≠ '\'' ∧ c ≠ '-' ∧ c ≠ ';'
  first : ∃ a ∈ (plain s).head?, a.isBlank = false
  last : ∃ a ∈ (plain s).getLast?, a.isBlank = false

theorem IsBare.of_toList {s : String} {cs : List Char} (h : s.toList = cs)
    (hbare : cs.all (fun c ↦ c != '\'' && c != '-' && c != ';') = true)
    (hfirst : cs.head?.any (fun c ↦ !Text.isBlank c) = true)
    (hlast : cs.getLast?.any (fun c ↦ !Text.isBlank c) = true) : IsBare s := by
  subst h
  refine ⟨fun c hc ↦ ?_, ?_, ?_⟩
  · simpa [and_assoc] using List.all_eq_true.1 hbare c hc
  · obtain ⟨c, hc, hblank⟩ := (Option.any_eq_true _ _).1 hfirst
    exact ⟨.char c, by simp [plain, hc], by simpa [Symbol.isBlank] using hblank⟩
  · obtain ⟨c, hc, hblank⟩ := (Option.any_eq_true _ _).1 hlast
    exact ⟨.char c, by simp [plain, hc], by simpa [Symbol.isBlank] using hblank⟩

theorem IsBare.trimmed {s : String} (h : IsBare s) : trim (plain s) = plain s :=
  trim_of_ends h.first h.last

theorem IsBare.nonempty {s : String} (h : IsBare s) : plain s ≠ [] := by
  obtain ⟨a, ha, -⟩ := h.first
  exact List.ne_nil_of_mem (List.mem_of_mem_head? ha)

theorem IsBare.mark_not_mem {s : String} (h : IsBare s) : .char ';' ∉ plain s := by
  intro hmem
  obtain ⟨c, hc, hmark⟩ := List.mem_map.1 hmem
  exact (h.bare c hc).2.2 (Symbol.char.inj hmark)

theorem IsBare.read_append {s : String} (h : IsBare s) (rest : List Char) :
    read .outside (s.toList ++ rest) = (read .outside rest).map (plain s ++ ·) :=
  read_plain fun c hc ↦ ⟨(h.bare c hc).1, (h.bare c hc).2.1⟩

theorem toList_append_eq {s t : String} {cs ds : List Char} (hs : s.toList = cs) (ht : t.toList = ds) :
    (s ++ t).toList = cs ++ ds := by
  rw [String.toList_append, hs, ht]

theorem isBare_runsSchema : IsBare runsSchema :=
  .of_toList (toList_append_eq (toList_append_eq (toList_append_eq (toList_append_eq
    String.toList_ofList String.toList_ofList) String.toList_ofList) String.toList_ofList)
    String.toList_ofList) (by decide +kernel) (by decide +kernel) (by decide)

theorem isBare_runsIndex : IsBare runsIndex :=
  .of_toList String.toList_ofList (by decide) (by decide) (by decide)

theorem isBare_insertHead : IsBare insertHead :=
  .of_toList (toList_append_eq String.toList_ofList String.toList_ofList) (by decide) (by decide) (by decide)

theorem insertHead_eq : insertHead = insertInto := by
  decide +kernel

variable {comments sqls : List String} {head : String}

theorem parts_line_breaks (n : Nat) (tt : List Symbol) :
    parts ';' (List.replicate n (.char '\n') ++ tt) = parts ';' tt :=
  parts_append_of_blank (fun s hs ↦ List.eq_of_mem_replicate hs ▸ by decide) (by decide) tt

theorem read_comments (h : ∀ text ∈ comments, '\n' ∉ text.toList) (rest : List Char) :
    read .outside ((String.join (comments.map comment)).toList ++ rest) =
      (read .outside rest).map (List.replicate comments.length (.char '\n') ++ ·) := by
  induction comments with
  | nil => simp
  | cons text comments ih =>
    obtain ⟨htext, hcomments⟩ := List.forall_mem_cons.1 h
    have hlist : (String.join ((text :: comments).map comment)).toList ++ rest =
        '-' :: '-' :: (' ' :: text.toList) ++
          '\n' :: ((String.join (comments.map comment)).toList ++ rest) := by
      simp [comment]
    rw [hlist, read_comment_line (by simpa using htext), ih hcomments, Option.map_map]
    rfl

theorem read_sqls (h : ∀ s ∈ sqls, IsBare s) (rest : List Char) :
    read .outside ((String.join (sqls.map (· ++ ";\n\n"))).toList ++ rest) =
      (read .outside rest).map ((sqls.flatMap fun s ↦ plain s ++ plain ";\n\n") ++ ·) := by
  induction sqls with
  | nil => simp
  | cons s sqls ih =>
    obtain ⟨hs, hsqls⟩ := List.forall_mem_cons.1 h
    rw [List.map_cons, String.join_cons, String.toList_append, String.toList_append, List.append_assoc,
      List.append_assoc, hs.read_append, read_plain (by simp), ih hsqls, Option.map_map, Option.map_map]
    refine congrArg (Option.map · _) (funext fun tt ↦ ?_)
    simp [plain]

theorem parts_sqls (h : ∀ s ∈ sqls, IsBare s) (tt : List Symbol) :
    parts ';' ((sqls.flatMap fun s ↦ plain s ++ plain ";\n\n") ++ tt) = sqls.map plain ++ parts ';' tt := by
  induction sqls with
  | nil => rfl
  | cons s sqls ih =>
    obtain ⟨hs, hsqls⟩ := List.forall_mem_cons.1 h
    have hsplit : ((s :: sqls).flatMap fun s ↦ plain s ++ plain ";\n\n") ++ tt = plain s ++ .char ';' ::
        (plain "\n\n" ++ ((sqls.flatMap fun s ↦ plain s ++ plain ";\n\n") ++ tt)) := by
      simp [plain]
    rw [hsplit, parts_append_mark hs.mark_not_mem, hs.trimmed, parts_append_of_blank (by decide) (by decide),
      ih hsqls, List.map_cons, List.cons_append]

/-- The statements of a script come first, and what is in its values decides about the others. -/
theorem statements_script (hcomments : ∀ text ∈ comments, '\n' ∉ text.toList)
    (hsqls : ∀ s ∈ sqls, IsBare s) (hhead : IsBare head) (values : List String) :
    statements (script comments sqls head values) =
      (read .outside ((", ".intercalate values).toList ++ ");\n".toList)).map fun tt ↦
        sqls.map plain ++ (parts ';' (plain head ++ tt)).filter (· ≠ []) := by
  have hscript : (script comments sqls head values).toList =
      (String.join (comments.map comment)).toList ++ ("\n".toList ++
        ((String.join (sqls.map (· ++ ";\n\n"))).toList ++ (head.toList ++
          ((", ".intercalate values).toList ++ ");\n".toList)))) := by
    simp only [script, String.toList_append, List.append_assoc]
  rw [statements, hscript, read_comments hcomments, read_plain (by simp), read_sqls hsqls,
    hhead.read_append]
  simp only [Option.map_map]
  refine congrArg (Option.map · _) (funext fun tt ↦ ?_)
  have hkept : (sqls.map plain).filter (· ≠ []) = sqls.map plain := by
    simp only [List.filter_eq_self, List.mem_map, decide_eq_true_eq]
    rintro _ ⟨s, hs, rfl⟩
    exact (hsqls s hs).nonempty
  simp only [Function.comp_apply]
  rw [parts_line_breaks, parts_append_of_blank (by decide) (by decide),
    parts_sqls hsqls, List.filter_append, hkept]

theorem statements_of_line_break {before values : List String} {line sql : String}
    (hbefore : ∀ text ∈ before, '\n' ∉ text.toList) (hline : '\n' ∉ line.toList) (hsql : IsBare sql)
    {sss : List (List Symbol)}
    (h : statements (script (before ++ (line ++ "\n" ++ sql ++ ";") :: comments) sqls head values) =
      some sss) : sss.head? = some (plain sql) := by
  obtain ⟨rest, hrest⟩ : ∃ rest,
      (script (before ++ (line ++ "\n" ++ sql ++ ";") :: comments) sqls head values).toList =
        (String.join ((before ++ [line]).map comment)).toList ++
          (sql.toList ++ (";\n".toList ++ rest)) := by
    simp only [script, List.map_append, List.map_cons, List.map_nil, String.join_append, String.join_cons,
      String.join_nil, String.append_empty, comment, String.toList_append, List.append_assoc]
    exact ⟨_, rfl⟩
  have hcomments : ∀ text ∈ before ++ [line], '\n' ∉ text.toList := by
    simpa [or_imp, forall_and, hline] using hbefore
  rw [statements, hrest, read_comments hcomments, hsql.read_append, read_plain (by simp)] at h
  obtain ⟨_, hread, rfl⟩ := Option.map_eq_some_iff.1 h
  simp only [Option.map_map, Option.map_eq_some_iff, Function.comp_apply] at hread
  obtain ⟨tt, -, rfl⟩ := hread
  have hsplit : plain sql ++ (";\n".toList.map Symbol.char ++ tt) =
      plain sql ++ .char ';' :: ([.char '\n'] ++ tt) := by
    simp
  rw [parts_line_breaks, hsplit, parts_append_mark hsql.mark_not_mem, hsql.trimmed,
    List.filter_cons_of_pos (by simpa using hsql.nonempty), List.head?_cons]

theorem statements_plan (hflow : '\n' ∉ r.flow.toList) (hchecksum : '\n' ∉ r.checksum.toList) :
    statements (plan r) =
      (read .outside ((", ".intercalate (writtenValues r)).toList ++ ");\n".toList)).map fun tt ↦
        schema.map plain ++ (parts ';' (plain insertHead ++ tt)).filter (· ≠ []) := by
  refine statements_script (fun text htext ↦ ?_) (fun s hs ↦ ?_) isBare_insertHead (writtenValues r)
  · simp only [List.mem_cons, List.not_mem_nil, or_false] at htext
    obtain rfl | rfl | rfl | rfl := htext
    · simp
    · simpa using hflow
    · simpa using hchecksum
    · simp [analyzerVersion]
  · simp only [schema, List.mem_cons, List.not_mem_nil, or_false] at hs
    obtain rfl | rfl := hs
    · exact isBare_runsSchema
    · exact isBare_runsIndex

end Opening

section Values

def leading (r : Record) : List Symbol :=
  [.literal r.id.toList] ++ plain ", " ++ ([.literal r.flow.toList] ++ plain ", " ++
    (plain (Text.decimalInt r.flowVersion) ++ plain ", "))

theorem exists_read_values (hid : '\'' ∉ r.id.toList) (rest : List Char) :
    ∃ tail, read .outside ((", ".intercalate (writtenValues r)).toList ++ rest) =
      (read (.literal []) (r.checksum.toList ++ '\'' :: ',' :: tail)).map (leading r ++ ·) := by
  obtain ⟨later, hlater⟩ : ∃ later, (", ".intercalate (writtenValues r)).toList =
      ("'" ++ r.id ++ "'").toList ++ (", ".toList ++ ((quoteText r.flow).toList ++ (", ".toList ++
        ((Text.decimalInt r.flowVersion).toList ++ (", ".toList ++
          '\'' :: (r.checksum.toList ++ '\'' :: ',' :: later)))))) := by
    simp only [writtenValues, String.intercalate_cons_cons, String.toList_append, List.append_assoc]
    exact ⟨_, rfl⟩
  refine ⟨later ++ rest, ?_⟩
  simp only [hlater, List.append_assoc, List.cons_append]
  rw [written_quoted hid _ (by simp), read_plain (by simp), written_quoteText _ _ (by simp),
    read_plain (by simp), written_decimalInt _ _ (by simp), read_plain (by simp), Sql.read,
    if_pos rfl]
  simp only [Option.map_map]
  refine congrArg (Option.map · _) (funext fun tt ↦ ?_)
  simp [leading, plain]

theorem mark_not_mem_leading (r : Record) : .char ';' ∉ leading r := by
  have hversion := columns_closed r (plain (Text.decimalInt r.flowVersion)) (by simp [columns])
  simp only [leading, List.mem_append, not_or]
  exact ⟨⟨by simp, by decide⟩, ⟨by simp, by decide⟩, fun hmem ↦ (hversion _ hmem).2.2 rfl, by decide⟩

theorem parts_leading (r : Record) (tt : List Symbol) :
    parts ',' (leading r ++ tt) = [.literal r.id.toList] :: [.literal r.flow.toList] ::
      plain (Text.decimalInt r.flowVersion) :: parts ',' tt := by
  have hclosed (ss : List Symbol) (hss : ss ∈ columns r) : ∀ s ∈ ss, s.isBlank = false ∧ s ≠ .char ',' :=
    fun s hs ↦ ⟨(columns_closed r ss hss s hs).1, (columns_closed r ss hss s hs).2.1⟩
  rw [leading, List.append_assoc, parts_cons_comma (hclosed _ (by simp [columns])), List.append_assoc,
    parts_cons_comma (hclosed _ (by simp [columns])), parts_cons_comma (hclosed _ (by simp [columns]))]

theorem exists_of_append_parenthesis {ss tt values : List Symbol} {text : List Char}
    (h : ss ++ .literal text :: tt = values ++ plain ")") : ∃ tt', values = ss ++ .literal text :: tt' := by
  cases tt using List.reverseRecOn with
  | nil => simpa [plain] using (List.append_inj' h rfl).2
  | append_singleton tt' b =>
    have hlast : (ss ++ .literal text :: tt') ++ [b] = values ++ plain ")" := by simpa using h
    exact ⟨tt', (List.append_inj' hlast rfl).1.symm⟩

end Values

theorem exists_insert (hid : '\'' ∉ r.id.toList) (hversion : r.analyzerVersion = analyzerVersion)
    (htime : Time.ofText? r.createdAt.text = some r.createdAt) (hflow : '\n' ∉ r.flow.toList)
    (hline : '\n' ∉ r.checksum.toList) (hchecksum : '\'' ∉ r.checksum.toList) :
    ∃ insert, statements (plan r) = some [plain runsSchema, plain runsIndex, insert] ∧
      Inserts insert r.toRun := by
  have hread : read .outside ((", ".intercalate (writtenValues r)).toList ++ ");\n".toList) =
      some ((plain ", ").intercalate (columns r) ++ plain ");\n") := by
    rw [written_intercalate (written_columns hid hchecksum) _ (by simp)]
    rfl
  have hmark : .char ';' ∉ plain insertHead ++ (plain ", ").intercalate (columns r) ++ plain ")" := by
    simp only [List.mem_append, not_or]
    exact ⟨⟨isBare_insertHead.mark_not_mem, not_mem_intercalate (by decide) fun ss hss hmem ↦
      (columns_closed r ss hss _ hmem).2.2 rfl⟩, by decide⟩
  have hends : trim (plain insertHead ++ (plain ", ").intercalate (columns r) ++ plain ")") =
      plain insertHead ++ (plain ", ").intercalate (columns r) ++ plain ")" := by
    obtain ⟨a, ha, hblank⟩ := isBare_insertHead.first
    refine trim_of_ends ⟨a, ?_, hblank⟩ ⟨.char ')', by simp [plain], by decide⟩
    rw [List.append_assoc, List.head?_append, ha, Option.some_or]
    rfl
  have hsplit : plain insertHead ++ ((plain ", ").intercalate (columns r) ++ plain ");\n") =
      (plain insertHead ++ (plain ", ").intercalate (columns r) ++ plain ")") ++ .char ';' :: plain "\n" := by
    simp [plain]
  refine ⟨plain insertHead ++ (plain ", ").intercalate (columns r) ++ plain ")", ?_,
    (plain ", ").intercalate (columns r), by rw [insertHead_eq], ?_⟩
  · rw [statements_plan hflow hline, hread, Option.map_some, hsplit, parts_append_mark hmark, hends,
      List.filter_cons_of_pos (by simp [plain])]
    rfl
  · rw [parts_intercalate (by simp [columns]) fun ss hss s hs ↦ ?_, row?_columns hversion htime]
    exact ⟨(columns_closed r ss hss s hs).1, (columns_closed r ss hss s hs).2.1⟩

theorem quote_not_mem_of_insert {insert : List Symbol} (hid : '\'' ∉ r.id.toList)
    (hflow : '\n' ∉ r.flow.toList) (hline : '\n' ∉ r.checksum.toList)
    (h : statements (plan r) = some [plain runsSchema, plain runsIndex, insert])
    (hinserts : Inserts insert r.toRun) : '\'' ∉ r.checksum.toList := by
  obtain ⟨tail, htail⟩ := exists_read_values hid ");\n".toList
  rw [statements_plan hflow hline, htail, Option.map_map] at h
  obtain ⟨_, hread, h⟩ := Option.map_eq_some_iff.1 h
  obtain ⟨body, rest, ss, hbody, hss⟩ := exists_of_read_literal hread
  rw [List.nil_append] at hss
  subst hss
  -- The statement goes on at least to the literal that was read where the checksum stands.
  obtain ⟨a, ha, hblank⟩ := isBare_insertHead.first
  have hfirst : ∀ s ∈ (plain insertHead ++ leading r).head?, s.isBlank = false := by
    intro s hs
    rw [List.head?_append, ha, Option.some_or, Option.mem_some_iff] at hs
    exact hs ▸ hblank
  have hmark : .char ';' ∉ plain insertHead ++ leading r := by
    simp [isBare_insertHead.mark_not_mem, mark_not_mem_leading]
  obtain ⟨tt, later, hparts⟩ := exists_parts_literal hfirst hmark body ss
  rw [Function.comp_apply, ← List.append_assoc, hparts, List.filter_cons_of_pos (by simp)] at h
  obtain ⟨rfl, -⟩ : plain insertHead ++ leading r ++ .literal body :: tt = insert ∧ _ := by
    simpa [schema] using h
  obtain ⟨values, hvalues, hrow⟩ := hinserts
  rw [← insertHead_eq, List.append_assoc, List.append_assoc, List.append_right_inj] at hvalues
  obtain ⟨tt', rfl⟩ := exists_of_append_parenthesis hvalues
  rw [parts_leading] at hrow
  obtain ⟨tt'', later', hparts'⟩ := @exists_parts_literal ',' [] (by simp) (by simp) body tt'
  rw [List.nil_append, List.nil_append] at hparts'
  rw [hparts'] at hrow
  have hchecksum := text?_checksum hrow
  cases tt'' with
  | cons => cases hchecksum
  | nil =>
    obtain rfl : body = r.checksum.toList := by
      rw [← show String.ofList body = r.checksum from Option.some_inj.1 hchecksum, String.toList_ofList]
    exact not_mem_of_doubled hbody.symm

/-- A trial with identifiers as they are used and a clock in use. If neither the name of the flow nor the
checksum has a line break in it, the script makes the table and its index and then inserts one row, which is
that of the record, if and only if no quote is in the checksum: quotes, dashes and semicolons anywhere else
in the record make no difference. But a line break in the name of the flow ends its comment. -/
theorem script_inserts_record_iff {idOf : Nat → String} {s : Store} {q : Request}
    (hid : ∀ n, Uuid.normalize? (idOf n) = some (idOf n)) (hnow : q.now.IsReading)
    (h : (s.answer idOf q).1 = .ok (.planned r)) :
    ('\n' ∉ r.flow.toList → '\n' ∉ r.checksum.toList →
      ((∃ insert, statements (plan r) = some [plain runsSchema, plain runsIndex, insert] ∧
        Inserts insert r.toRun) ↔ '\'' ∉ r.checksum.toList)) ∧
    ∀ line sql : String, r.flow = line ++ "\n" ++ sql ++ ";" → '\n' ∉ line.toList → IsBare sql →
      ∀ sss, statements (plan r) = some sss → sss.head? = some (plain sql) := by
  obtain ⟨a, rfl⟩ : ∃ a, r = recordOf idOf s q a := by
    obtain ⟨heffect, -⟩ := answer_effect idOf s q
    rw [h] at heffect
    generalize (s.answer idOf q).2.database = db at heffect
    cases heffect
    exact ⟨_, rfl⟩
  have hquote := Uuid.quote_not_mem (hid s.issued)
  have htime : Time.ofText? q.now.text = some q.now := by
    rw [Time.ofText?_text hnow.nanos_lt (Time.unwritable?_eq_none_iff.2
      ⟨hnow.year_nonneg, hnow.year_le, by simp [hnow.utc]⟩), Time.inMinutes_eq_self_iff.2 (by simp [hnow.utc])]
  refine ⟨fun hflow hchecksum ↦ ⟨?_, exists_insert hquote rfl htime hflow hchecksum⟩,
    fun line sql hflow hline hsql sss hsss ↦ ?_⟩
  · rintro ⟨insert, hstatements, hinserts⟩
    exact quote_not_mem_of_insert hquote hflow hchecksum hstatements hinserts
  · rw [plan, hflow, ← String.append_assoc, ← String.append_assoc, ← String.append_assoc] at hsss
    exact @statements_of_line_break _ _ _ ["flowscope run (dry-run)"] _ ("Flow: " ++ line) sql (by simp)
      (by simpa using hline) hsql sss hsss

def trial (flow checksum : String) : Request :=
  { analysis := some (.node { name := flow } []), checksum := checksum, options.isDryRun := true
    now := { seconds := 0 } }

/-- A quote and dashes are harmless in the name of a flow, but not a quote in a checksum and a line break in
the name. -/
theorem trials_of_marks :
    (∃ r insert, (answer twoIds {} (trial "It's; -- all" "ab")).1 = .ok (.planned r) ∧
      statements (plan r) = some [plain runsSchema, plain runsIndex, insert] ∧ Inserts insert r.toRun) ∧
    (∃ r, (answer twoIds {} (trial "All" "it's")).1 = .ok (.planned r) ∧
      ¬∃ insert, statements (plan r) = some [plain runsSchema, plain runsIndex, insert] ∧
        Inserts insert r.toRun) ∧
    ∃ r, (answer twoIds {} (trial "All\nDROP TABLE flowscope_runs;" "ab")).1 = .ok (.planned r) ∧
      ∀ sss, statements (plan r) = some sss → sss.head? = some (plain "DROP TABLE flowscope_runs") := by
  have hnow : ({ seconds := 0 } : Time).IsReading := by decide
  have hanswer (flow checksum : String) : (answer twoIds {} (trial flow checksum)).1 =
      .ok (.planned (recordOf twoIds {} (trial flow checksum) (.node { name := flow } []))) := rfl
  refine ⟨?_, ⟨_, hanswer _ _, ?_⟩, _, hanswer _ _, ?_⟩
  · obtain ⟨insert, hinsert⟩ := ((script_inserts_record_iff normalize?_twoIds hnow
      (hanswer "It's; -- all" "ab")).1 (by decide) (by decide)).2 (by decide)
    exact ⟨_, insert, hanswer _ _, hinsert⟩
  · exact ((script_inserts_record_iff normalize?_twoIds hnow (hanswer _ _)).1 (by decide) (by decide)).not.2
      (by decide)
  · exact (script_inserts_record_iff normalize?_twoIds hnow (hanswer _ _)).2 "All" "DROP TABLE flowscope_runs"
      (by decide) (by decide) (.of_toList String.toList_ofList (by decide) (by decide) (by decide))

end Store

end FlowAudit
