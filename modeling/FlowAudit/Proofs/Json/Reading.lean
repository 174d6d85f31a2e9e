import FlowAudit.Json.Printer
import FlowAudit.Json.Reader
import FlowAudit.Proofs.Success
import FlowAudit.Proofs.Text.Numeral

namespace FlowAudit.Json

def isEscaped (c : Char) : Bool := escapeChar c != [c]

mutual

def chars : Json → List Char
  | .null => "null".toList
  | .bool true => "true".toList
  | .bool false => "false".toList
  | .num literal => literal.toList
  | .str s _ => (quoteString s).toList
  | .arr items => '[' :: charsIn items ++ [']']
  | .obj members => '{' :: charsBelow members ++ ['}']

def charsIn : List Json → List Char
  | [] => []
  | [j] => chars j
  | j :: rest => chars j ++ ',' :: charsIn rest

def charsBelow : List (String × Json) → List Char
  | [] => []
  | [(name, j)] => (quoteString name).toList ++ ':' :: chars j
  | (name, j) :: rest => (quoteString name).toList ++ ':' :: chars j ++ ',' :: charsBelow rest

end

mutual

/-- The value as it is read back: of every string it is known whether it has escapes. -/
def reread : Json → Json
  | .str s _ => .str s (s.toList.any isEscaped)
  | .arr items => .arr (rereadIn items)
  | .obj members => .obj (rereadBelow members)
  | .null => .null
  | .bool b => .bool b
  | .num literal => .num literal

def rereadIn : List Json → List Json
  | [] => []
  | j :: rest => reread j :: rereadIn rest

def rereadBelow : List (String × Json) → List (String × Json)
  | [] => []
  | (name, j) :: rest => (name, reread j) :: rereadBelow rest

end

mutual

theorem toList_compactAfter (before : String) : ∀ j : Json,
    (compactAfter before j).toList = before.toList ++ j.chars
  | .null | .bool true | .bool false | .num _ | .str _ _ => by
    simp [compactAfter, chars]
  | .arr items => by simp [compactAfter, chars, toList_compactItems]
  | .obj members => by simp [compactAfter, chars, toList_compactMembers]

theorem toList_compactItems (before : String) : ∀ items : List Json,
    (compactItems before items).toList = before.toList ++ charsIn items
  | [] => by simp [compactItems, charsIn]
  | [j] => by simp [compactItems, charsIn, toList_compactAfter]
  | j :: k :: rest => by
    simp [compactItems, charsIn, toList_compactAfter, toList_compactItems _ (k :: rest)]

theorem toList_compactMembers (before : String) : ∀ members : List (String × Json),
    (compactMembers before members).toList = before.toList ++ charsBelow members
  | [] => by simp [compactMembers, charsBelow]
  | [(name, j)] => by simp [compactMembers, charsBelow, toList_compactAfter]
  | (name, j) :: m :: rest => by
    simp [compactMembers, charsBelow, toList_compactAfter, toList_compactMembers _ (m :: rest)]

end

theorem toList_compact (j : Json) : j.compact.toList = j.chars := by
  simp [compact, toList_compactAfter]

section Strings

variable {c : Char} {cs rest : List Char}

def Piece.StandsFor (c : Char) : Piece → Prop
  | .char d => d = c
  | .unit n => n = c.toNat

theorem not_surrogate (c : Char) :
    isHighSurrogate c.toNat = false ∧ isLowSurrogate c.toNat = false := by
  have hvalid : c.toNat < 0xD800 ∨ 0xDFFF < c.toNat ∧ c.toNat < 0x110000 := c.valid
  simp only [isHighSurrogate, isLowSurrogate, Bool.and_eq_false_iff, decide_eq_false_iff_not]
  omega

theorem joinPieces_unit (acc : List Char) (c : Char) (ps : List Piece) :
    joinPieces acc (.unit c.toNat :: ps) = joinPieces (c :: acc) ps := by
  have hlone : joinPieces.loneUnit c.toNat = c := by simp [joinPieces.loneUnit, not_surrogate]
  cases ps with
  | nil => simp [joinPieces, hlone]
  | cons p ps => cases p <;> simp [joinPieces, hlone, not_surrogate]

theorem joinPieces_of_standsFor {ps : List Piece} (h : List.Forall₂ Piece.StandsFor cs ps)
    (acc : List Char) : joinPieces acc ps = cs.reverse ++ acc := by
  induction h generalizing acc with
  | nil => rfl
  | @cons c p cs ps hp hps ih =>
    rw [List.reverse_cons, List.append_assoc, List.singleton_append, ← ih]
    cases p with
    | char d => rw [joinPieces, show d = c from hp]
    | unit n => rw [show n = c.toNat from hp, joinPieces_unit]

/-- A character is written as an escape of one letter, as one of four digits, or as it is. -/
theorem escapeChar_cases (c : Char) :
    (∃ e, escapeChar c = ['\\', e] ∧ e ≠ 'u' ∧ simpleEscape? e = some c) ∨
    (escapeChar c = '\\' :: 'u' :: Text.hex 4 c.toNat ∧ c.toNat < 0x10000) ∨
    (escapeChar c = [c] ∧ c ≠ '"' ∧ c ≠ '\\' ∧ 0x20 ≤ c.toNat) := by
  have hofNat {n : Nat} (h : (c.toNat == n) = true) : c = Char.ofNat n := by
    rw [← beq_iff_eq.mp h, Char.ofNat_toNat]
  simp only [escapeChar]
  split
  · next h =>
    obtain h | h := Bool.or_eq_true_iff.mp h <;> obtain rfl := beq_iff_eq.mp h <;>
      exact .inl ⟨_, rfl, by decide, rfl⟩
  split
  · next h => exact .inl ⟨_, rfl, by decide, (hofNat h).symm ▸ rfl⟩
  split
  · next h => exact .inl ⟨_, rfl, by decide, (hofNat h).symm ▸ rfl⟩
  split
  · next h => exact .inl ⟨_, rfl, by decide, (hofNat h).symm ▸ rfl⟩
  split
  · next h => exact .inl ⟨_, rfl, by decide, (hofNat h).symm ▸ rfl⟩
  split
  · next h => exact .inl ⟨_, rfl, by decide, (hofNat h).symm ▸ rfl⟩
  split
  · next h =>
    refine .inr (.inl ⟨rfl, ?_⟩)
    simp only [Bool.or_eq_true, decide_eq_true_eq, beq_iff_eq] at h
    obtain ((((h | rfl) | rfl) | rfl) | h) | h := h <;> first | decide | omega
  · next hquote _ _ _ _ _ h =>
    simp only [Bool.or_eq_true, decide_eq_true_eq, beq_iff_eq, not_or] at hquote h
    exact .inr (.inr ⟨rfl, hquote.1, hquote.2, by omega⟩)

theorem readPieces_quote (acc : List Piece) (rest : List Char) :
    readPieces acc ('"' :: rest) = .ok (acc, rest) := by
  rw [readPieces.eq_def]
  rfl

theorem readPieces_escapeChar (acc : List Piece) (c : Char) (rest : List Char) :
    ∃ p : Piece, p.StandsFor c ∧
      readPieces acc (escapeChar c ++ rest) = readPieces (p :: acc) rest := by
  obtain ⟨e, he, hu, hc⟩ | ⟨he, hlt⟩ | ⟨he, hquote, hslash, hle⟩ := escapeChar_cases c
  · refine ⟨.char c, rfl, ?_⟩
    rw [he, List.cons_append, readPieces.eq_def]
    simp [hu, hc]
  · refine ⟨.unit c.toNat, rfl, ?_⟩
    have hdigits := Text.readDigits?_hex (w := 4) (by decide) c.toNat
    rw [Nat.mod_eq_of_lt (by simpa using hlt)] at hdigits
    obtain ⟨h₁, h₂, h₃, h₄, hhex⟩ : ∃ h₁ h₂ h₃ h₄, Text.hex 4 c.toNat = [h₁, h₂, h₃, h₄] :=
      ⟨_, _, _, _, rfl⟩
    rw [hhex] at he hdigits
    rw [he, List.cons_append, readPieces.eq_def]
    simp [hdigits]
  · refine ⟨.char c, rfl, ?_⟩
    rw [he, List.cons_append, readPieces.eq_def]
    simp [hquote, hslash, hle]

theorem readPieces_escaped (cs : List Char) (acc : List Piece) (rest : List Char) :
    ∃ ps, List.Forall₂ Piece.StandsFor cs ps ∧
      readPieces acc (cs.flatMap escapeChar ++ '"' :: rest) = .ok (ps.reverse ++ acc, rest) := by
  induction cs generalizing acc with
  | nil => exact ⟨[], .nil, readPieces_quote acc rest⟩
  | cons c cs ih =>
    obtain ⟨p, hp, hread⟩ := readPieces_escapeChar acc c (cs.flatMap escapeChar ++ '"' :: rest)
    obtain ⟨ps, hps, hrest⟩ := ih (p :: acc)
    refine ⟨p :: ps, .cons hp hps, ?_⟩
    rw [List.flatMap_cons, List.append_assoc, hread, hrest, List.reverse_cons, List.append_assoc,
      List.singleton_append]

theorem isEscaped_iff : isEscaped c = true ↔ ∃ cs, escapeChar c = '\\' :: cs := by
  rw [isEscaped, bne_iff_ne]
  obtain ⟨e, he, -⟩ | ⟨he, -⟩ | ⟨he, -, hslash, -⟩ := escapeChar_cases c
  · simp [he]
  · simp [he]
  · simp [he, hslash]

/-- A backslash stands before the first quote exactly when there is an escape. -/
theorem contains_escape (cs rest : List Char) :
    ((cs.flatMap escapeChar ++ '"' :: rest).takeWhile (· != '"')).contains '\\' =
      cs.any isEscaped := by
  induction cs with
  | nil => simp
  | cons c cs ih =>
    rw [List.flatMap_cons, List.append_assoc, List.any_cons]
    cases hc : isEscaped c with
    | true =>
      obtain ⟨es, hes⟩ := isEscaped_iff.mp hc
      simp [hes]
    | false =>
      obtain ⟨e, he, -⟩ | ⟨he, -⟩ | ⟨he, hquote, hslash, -⟩ := escapeChar_cases c
      · simp [isEscaped, he] at hc
      · simp [isEscaped, he] at hc
      · rw [he, List.singleton_append, List.takeWhile_cons_of_pos (by simpa using hquote), ← ih]
        simp [Ne.symm hslash]

theorem readString_quoted (s : String) (rest : List Char) :
    readString (s.toList.flatMap escapeChar ++ '"' :: rest) =
      .ok (s, s.toList.any isEscaped, rest) := by
  obtain ⟨ps, hps, hread⟩ := readPieces_escaped s.toList [] rest
  have hjoin := joinPieces_of_standsFor hps []
  rw [List.append_nil] at hread hjoin
  simp only [readString, hread, contains_escape, ok_bind, pure_eq_ok, List.reverse_reverse, hjoin,
    String.ofList_toList]

end Strings

section Tokens

variable {c : Char} {cs rest : List Char}

/-- The text can stand after a value: it is empty or begins with a comma or a closing bracket. -/
def Follows (rest : List Char) : Prop := ∀ c ∈ rest.head?, c = ',' ∨ c = ']' ∨ c = '}'

theorem follows_nil : Follows [] := by simp [Follows]

theorem follows_cons (h : c = ',' ∨ c = ']' ∨ c = '}') (rest : List Char) :
    Follows (c :: rest) := by
  simpa [Follows] using h

theorem needToken_cons (h : isSpace c = false) (cs : List Char) :
    needToken (c :: cs) = readToken c cs := by
  rw [needToken, nextToken, List.dropWhile_cons_of_neg (by simp [h])]
  dsimp only
  cases readToken c cs <;> rfl

theorem needToken_punctuation {t : Token} (h : punctuation? c = some t) (hspace : isSpace c = false)
    (cs : List Char) : needToken (c :: cs) = .ok (t, cs) := by
  rw [needToken_cons hspace, readToken, h]

theorem needToken_quoteString (s : String) (rest : List Char) :
    needToken ((quoteString s).toList ++ rest) =
      .ok (.literal (.str s (s.toList.any isEscaped)), rest) := by
  rw [quoteString, String.toList_ofList, List.cons_append, List.cons_append,
    needToken_cons (by decide), List.append_assoc, List.singleton_append]
  simp only [readToken, punctuation?, readString_quoted]
  rfl

theorem needToken_word {v : Json} (hc : c = 'n' ∨ c = 't' ∨ c = 'f') (hcs : ∀ d ∈ cs, d.isAlpha)
    (hv : word? (String.ofList (c :: cs)) = some v) (hrest : Follows rest) :
    needToken (c :: cs ++ rest) = .ok (.literal v, rest) := by
  have halpha : ∀ d ∈ c :: cs, d.isAlpha := by
    rw [List.forall_mem_cons]
    exact ⟨by obtain rfl | rfl | rfl := hc <;> rfl, hcs⟩
  have hspan : (c :: (cs ++ rest)).span Char.isAlpha = (c :: cs, rest) := by
    rw [← List.cons_append]
    refine Text.span_append halpha fun d hd ↦ ?_
    obtain rfl | rfl | rfl := hrest d hd <;> rfl
  obtain rfl | rfl | rfl := hc <;>
    rw [List.cons_append, needToken_cons (by decide)] <;>
    simp [readToken, punctuation?, hspan, hv, -List.span_eq_takeWhile_dropWhile,
      -String.ofList_cons]

theorem readWhole?_toDigits (n : Nat) (hrest : Follows rest) :
    readWhole? (Nat.toDigits 10 n ++ rest) = some (Nat.toDigits 10 n, rest) := by
  have hspan : takeDigits (Nat.toDigits 10 n ++ rest) = (Nat.toDigits 10 n, rest) := by
    refine Text.span_append (fun c ↦ Text.isDigit_of_mem_toDigits) fun d hd ↦ ?_
    obtain rfl | rfl | rfl := hrest d hd <;> rfl
  obtain rfl | hn := Nat.eq_zero_or_pos n
  · rfl
  · have hhead := Text.head?_toDigits_ne_zero hn
    cases hdigits : Nat.toDigits 10 n with
    | nil => exact absurd hdigits Nat.toDigits_ne_nil
    | cons d ds =>
      rw [hdigits] at hspan hhead
      rw [List.cons_append, readWhole?, ← List.cons_append, hspan]
      simpa using hhead

theorem readNumber?_digits (sign : List Char) (hsign : sign = [] ∨ sign = ['-']) (n : Nat)
    (hrest : Follows rest) :
    readNumber? (sign ++ Nat.toDigits 10 n ++ rest) =
      some (String.ofList (sign ++ Nat.toDigits 10 n), rest) := by
  have hfraction : readFraction? rest = some ([], rest) := by
    cases rest with
    | nil => rfl
    | cons c rest => obtain rfl | rfl | rfl := hrest c rfl <;> rfl
  have hexponent : readExponent? rest = some ([], rest) := by
    cases rest with
    | nil => rfl
    | cons c rest => obtain rfl | rfl | rfl := hrest c rfl <;> rfl
  obtain rfl | rfl := hsign
  · cases hdigits : Nat.toDigits 10 n with
    | nil => exact absurd hdigits Nat.toDigits_ne_nil
    | cons d ds =>
      have hwhole := readWhole?_toDigits n hrest
      have hd : d ≠ '-' := by
        rintro rfl
        cases Text.isDigit_of_mem_toDigits (n := n) (hdigits ▸ List.mem_cons_self)
      rw [hdigits] at hwhole
      simp only [List.nil_append, List.cons_append] at hwhole ⊢
      simp [readNumber?, hd, hwhole, hfraction, hexponent]
  · simp [readNumber?, readWhole?_toDigits n hrest, hfraction, hexponent]

theorem needToken_number {literal : String} (hc : c = '-' ∨ c.isDigit)
    (h : readNumber? (c :: cs) = some (literal, rest)) :
    needToken (c :: cs) = .ok (.literal (.num literal), rest) := by
  have hspace : isSpace c = false := by
    obtain rfl | hc := hc
    · rfl
    · rw [isSpace, Bool.eq_false_iff]
      simp only [ne_eq, Bool.or_eq_true, beq_iff_eq]
      rintro (((rfl | rfl) | rfl) | rfl) <;> cases hc
  have hpunctuation : punctuation? c = none := by
    obtain rfl | hc := hc
    · rfl
    · rw [punctuation?.eq_def]
      split <;> first | cases hc | rfl
  have hquote : (c == '"') = false := by
    obtain rfl | hc := hc
    · rfl
    · rw [beq_eq_false_iff_ne]
      rintro rfl
      cases hc
  rw [needToken_cons hspace, readToken, hpunctuation]
  simp [hquote, hc, h]

theorem needToken_ofInt (n : Int) (hrest : Follows rest) :
    needToken ((ofInt n).chars ++ rest) = .ok (.literal (ofInt n), rest) := by
  have hread (sign : List Char) (hsign : sign = [] ∨ sign = ['-']) (n : Nat) :
      needToken (sign ++ Nat.toDigits 10 n ++ rest) =
        .ok (.literal (.num (String.ofList (sign ++ Nat.toDigits 10 n))), rest) := by
    have hnumber := readNumber?_digits sign hsign n hrest
    cases hcs : sign ++ Nat.toDigits 10 n with
    | nil => simp [Nat.toDigits_ne_nil] at hcs
    | cons c cs =>
      have hc : c = '-' ∨ c.isDigit := by
        have hmem : c ∈ sign ++ Nat.toDigits 10 n := hcs ▸ List.mem_cons_self
        obtain hmem | hmem := List.mem_append.mp hmem
        · obtain rfl | rfl := hsign
          · cases hmem
          · exact .inl (List.mem_singleton.mp hmem)
        · exact .inr (Text.isDigit_of_mem_toDigits hmem)
      rw [hcs, List.cons_append] at hnumber
      rw [List.cons_append]
      exact needToken_number hc hnumber
  cases n with
  | ofNat n => simpa [ofInt, ofNat, chars] using hread [] (.inl rfl) n
  | negSucc n => simpa [ofInt, chars] using hread ['-'] (.inr rfl) (n + 1)

end Tokens

/-- Values whose numbers are whole. -/
inductive IsWhole : Json → Prop
  | null : IsWhole .null
  | bool (b : Bool) : IsWhole (.bool b)
  | num (n : Int) : IsWhole (ofInt n)
  | str (s : String) (isEscaped : Bool) : IsWhole (.str s isEscaped)
  | arr {items : List Json} : (∀ j ∈ items, IsWhole j) → IsWhole (.arr items)
  | obj {members : List (String × Json)} : (∀ m ∈ members, IsWhole m.2) → IsWhole (.obj members)

section Values

variable {j : Json} {items : List Json} {members : List (String × Json)}

def verdict (depth nesting : Nat) (v : Json) (rest : List Char) :
    Except SyntaxError (Json × List Char) :=
  if depth + nesting ≤ maxNesting then .ok (v, rest) else .error .tooDeep

theorem verdict_of_le {depth nesting : Nat} (h : depth + nesting ≤ maxNesting) (v : Json)
    (rest : List Char) : verdict depth nesting v rest = .ok (v, rest) := if_pos h

theorem verdict_of_not_le {depth nesting : Nat} (h : ¬depth + nesting ≤ maxNesting) (v : Json)
    (rest : List Char) : verdict depth nesting v rest = .error .tooDeep := if_neg h

theorem verdict_max {depth m : Nat} (h : depth + m ≤ maxNesting) (n : Nat) (v : Json)
    (rest : List Char) : verdict depth (max m n) v rest = verdict depth n v rest := by
  have hmax : depth + max m n ≤ maxNesting ↔ depth + n ≤ maxNesting := by omega
  simp only [verdict, hmax]

theorem verdict_below (depth nesting : Nat) (v : Json) (rest : List Char) :
    verdict (depth + 1) nesting v rest = verdict depth (nesting + 1) v rest := by
  simp only [verdict, Nat.add_right_comm, Nat.add_assoc]

/-- The text of the value is read as the value, if it does not nest too deeply. -/
def Reads (j : Json) : Prop :=
  ∀ rest, Follows rest → ∃ t cs, needToken (j.chars ++ rest) = .ok (t, cs) ∧
    (t == .closeArray) = false ∧ ∀ fuel depth, 2 * j.chars.length ≤ fuel → depth ≤ maxNesting →
      readValue fuel depth t cs = verdict depth j.nesting j.reread rest

theorem reads_literal (hne : j.chars ≠ []) (hnesting : j.nesting = 0)
    (h : ∀ rest, Follows rest → needToken (j.chars ++ rest) = .ok (.literal j.reread, rest)) :
    Reads j := by
  intro rest hrest
  refine ⟨_, _, h rest hrest, rfl, fun fuel depth hfuel hdepth ↦ ?_⟩
  have hlen := List.length_pos_of_ne_nil hne
  obtain ⟨fuel, rfl⟩ := Nat.exists_eq_add_of_lt (show 0 < fuel by omega)
  rw [Nat.zero_add, readValue, hnesting, verdict, Nat.add_zero, if_pos hdepth]

theorem readItems_of_reads (hne : items ≠ []) (h : ∀ j ∈ items, Reads j) (rest : List Char) :
    ∃ t cs, needToken (charsIn items ++ ']' :: rest) = .ok (t, cs) ∧ (t == .closeArray) = false ∧
      ∀ fuel depth done, 2 * (charsIn items).length + 1 ≤ fuel → depth ≤ maxNesting →
        readItems fuel depth done t cs =
          verdict depth (nestingIn items) (.arr (done.reverse ++ rereadIn items)) rest := by
  induction items with
  | nil => exact absurd rfl hne
  | cons j items ih =>
    cases items with
    | nil =>
      obtain ⟨t, cs, htoken, hopen, hread⟩ := h j List.mem_cons_self (']' :: rest)
        (follows_cons (.inr (.inl rfl)) rest)
      refine ⟨t, cs, htoken, hopen, fun fuel depth done hfuel hdepth ↦ ?_⟩
      rw [charsIn] at hfuel
      obtain ⟨fuel, rfl⟩ := Nat.exists_eq_add_of_lt (show 0 < fuel by omega)
      rw [Nat.zero_add, readItems, hread fuel depth (by omega) hdepth, nestingIn, nestingIn,
        Nat.max_zero]
      by_cases hfits : depth + j.nesting ≤ maxNesting
      · simp [verdict_of_le hfits, ok_bind, needToken_punctuation (c := ']') rfl rfl, rereadIn,
          pure_eq_ok]
      · simp [verdict_of_not_le hfits, error_bind]
    | cons k items =>
      obtain ⟨t, cs, htoken, hopen, hread⟩ := h j List.mem_cons_self
        (',' :: (charsIn (k :: items) ++ ']' :: rest)) (follows_cons (.inl rfl) _)
      obtain ⟨t', cs', htoken', -, hread'⟩ := ih (List.cons_ne_nil _ _) fun i hi ↦
        h i (List.mem_cons_of_mem _ hi)
      have hchars : charsIn (j :: k :: items) = j.chars ++ ',' :: charsIn (k :: items) := by
        simp [charsIn]
      refine ⟨t, cs, by simpa [hchars] using htoken, hopen, fun fuel depth done hfuel hdepth ↦ ?_⟩
      rw [hchars, List.length_append, List.length_cons] at hfuel
      obtain ⟨fuel, rfl⟩ := Nat.exists_eq_add_of_lt (show 0 < fuel by omega)
      rw [Nat.zero_add, readItems, hread fuel depth (by omega) hdepth, nestingIn]
      by_cases hfits : depth + j.nesting ≤ maxNesting
      · simp [verdict_of_le hfits, verdict_max hfits, ok_bind,
          needToken_punctuation (c := ',') rfl rfl, htoken', rereadIn,
          hread' fuel depth (j.reread :: done) (by omega) hdepth]
      · rw [verdict_of_not_le hfits, verdict_of_not_le (by omega), error_bind]

theorem readMembers_member (name : String) (isEscaped : Bool) (h : Reads j) {tail : List Char}
    (htail : Follows tail) {fuel depth : Nat} (hfuel : 2 * j.chars.length ≤ fuel)
    (hdepth : depth ≤ maxNesting) (done : List (String × Json)) :
    readMembers (fuel + 1) depth done (.literal (.str name isEscaped)) (':' :: (j.chars ++ tail)) =
      if depth + j.nesting ≤ maxNesting then do
        let (t, cs) ← needToken tail
        match t with
        | .closeObject => return (.obj ((name, j.reread) :: done).reverse, cs)
        | .comma =>
          let (t, cs) ← needToken cs
          readMembers fuel depth ((name, j.reread) :: done) t cs
        | _ => throw .misplaced
      else .error .tooDeep := by
  obtain ⟨t, cs, htoken, -, hread⟩ := h tail htail
  rw [readMembers, needToken_punctuation (c := ':') rfl rfl]
  split
  · next hfits =>
    simp only [ok_bind, htoken, hread fuel depth hfuel hdepth, verdict_of_le hfits]
    rfl
  · next hfits =>
    simp only [ok_bind, htoken, hread fuel depth hfuel hdepth, verdict_of_not_le hfits]
    rfl

theorem readMembers_of_reads (hne : members ≠ []) (h : ∀ m ∈ members, Reads m.2)
    (rest : List Char) :
    ∃ t cs, needToken (charsBelow members ++ '}' :: rest) = .ok (t, cs) ∧
      (t == .closeObject) = false ∧
      ∀ fuel depth done, 2 * (charsBelow members).length + 1 ≤ fuel → depth ≤ maxNesting →
        readMembers fuel depth done t cs =
          verdict depth (nestingBelow members) (.obj (done.reverse ++ rereadBelow members)) rest := by
  induction members with
  | nil => exact absurd rfl hne
  | cons m members ih =>
    obtain ⟨name, j⟩ := m
    have hj : Reads j := h (name, j) List.mem_cons_self
    cases members with
    | nil =>
      have hchars : charsBelow [(name, j)] = (quoteString name).toList ++ ':' :: j.chars := by
        simp [charsBelow]
      rw [hchars, List.append_assoc, List.cons_append]
      refine ⟨_, _, needToken_quoteString name _, rfl, fun fuel depth done hfuel hdepth ↦ ?_⟩
      rw [List.length_append, List.length_cons] at hfuel
      obtain ⟨fuel, rfl⟩ := Nat.exists_eq_add_of_lt (show 0 < fuel by omega)
      rw [Nat.zero_add, readMembers_member name _ hj (follows_cons (.inr (.inr rfl)) rest) (by omega)
        hdepth, needToken_punctuation (c := '}') rfl rfl]
      simp [nestingBelow, verdict, rereadBelow, ok_bind, pure_eq_ok]
    | cons m members =>
      obtain ⟨t', cs', htoken', -, hread'⟩ := ih (List.cons_ne_nil _ _) fun i hi ↦
        h i (List.mem_cons_of_mem _ hi)
      have hchars : charsBelow ((name, j) :: m :: members) =
          (quoteString name).toList ++ ':' :: (j.chars ++ ',' :: charsBelow (m :: members)) := by
        simp [charsBelow]
      rw [hchars, List.append_assoc, List.cons_append, List.append_assoc, List.cons_append]
      refine ⟨_, _, needToken_quoteString name _, rfl, fun fuel depth done hfuel hdepth ↦ ?_⟩
      simp only [List.length_append, List.length_cons] at hfuel
      obtain ⟨fuel, rfl⟩ := Nat.exists_eq_add_of_lt (show 0 < fuel by omega)
      rw [Nat.zero_add, readMembers_member name _ hj (follows_cons (.inl rfl) _) (by omega)
        hdepth, needToken_punctuation (c := ',') rfl rfl, nestingBelow]
      split
      · next hfits =>
        simp [ok_bind, htoken', rereadBelow, verdict_max hfits,
          hread' fuel depth ((name, j.reread) :: done) (by omega) hdepth]
      · next hfits => rw [verdict_of_not_le (by omega)]

theorem reads_arr (h : ∀ j ∈ items, Reads j) : Reads (.arr items) := by
  intro rest _
  refine ⟨.openArray, charsIn items ++ ']' :: rest, ?_, rfl, fun fuel depth hfuel hdepth ↦ ?_⟩
  · simpa [chars] using needToken_punctuation (c := '[') rfl rfl _
  rw [chars, List.cons_append, List.length_cons, List.length_append, List.length_singleton] at hfuel
  obtain ⟨fuel, rfl⟩ := Nat.exists_eq_add_of_lt (show 0 < fuel by omega)
  rw [Nat.zero_add, readValue, nesting, reread]
  split
  · rw [verdict_of_not_le (by omega)]
  · cases items with
    | nil =>
      rw [nestingIn, verdict_of_le (by omega), charsIn, List.nil_append,
        needToken_punctuation (c := ']') rfl rfl]
      rfl
    | cons j items =>
      obtain ⟨t, cs, htoken, hopen, hread⟩ := readItems_of_reads (List.cons_ne_nil j items) h rest
      simp only [htoken, ok_bind, hopen, hread fuel (depth + 1) [] (by omega) (by omega),
        verdict_below]
      rfl

theorem reads_obj (h : ∀ m ∈ members, Reads m.2) : Reads (.obj members) := by
  intro rest _
  refine ⟨.openObject, charsBelow members ++ '}' :: rest, ?_, rfl, fun fuel depth hfuel hdepth ↦ ?_⟩
  · simpa [chars] using needToken_punctuation (c := '{') rfl rfl _
  rw [chars, List.cons_append, List.length_cons, List.length_append, List.length_singleton] at hfuel
  obtain ⟨fuel, rfl⟩ := Nat.exists_eq_add_of_lt (show 0 < fuel by omega)
  rw [Nat.zero_add, readValue, nesting, reread]
  split
  · rw [verdict_of_not_le (by omega)]
  · cases members with
    | nil =>
      rw [nestingBelow, verdict_of_le (by omega), charsBelow, List.nil_append,
        needToken_punctuation (c := '}') rfl rfl]
      rfl
    | cons m members =>
      obtain ⟨t, cs, htoken, hopen, hread⟩ :=
        readMembers_of_reads (List.cons_ne_nil m members) h rest
      simp only [htoken, ok_bind, hopen, hread fuel (depth + 1) [] (by omega) (by omega),
        verdict_below]
      rfl

theorem IsWhole.reads (h : IsWhole j) : Reads j := by
  induction h with
  | null => exact reads_literal (by decide) rfl fun rest hrest ↦
      needToken_word (.inl rfl) (List.all_eq_true.1 rfl) rfl hrest
  | bool b =>
    cases b with
    | true => exact reads_literal (by decide) rfl fun rest hrest ↦
        needToken_word (.inr (.inl rfl)) (List.all_eq_true.1 rfl) rfl hrest
    | false => exact reads_literal (by decide) rfl fun rest hrest ↦
        needToken_word (.inr (.inr rfl)) (List.all_eq_true.1 rfl) rfl hrest
  | num n =>
    have hreread : (ofInt n).reread = ofInt n ∧ (ofInt n).nesting = 0 := by
      cases n <;> exact ⟨rfl, rfl⟩
    refine reads_literal ?_ hreread.2 fun rest hrest ↦ ?_
    · cases n <;> simp [ofInt, ofNat, chars, Nat.toDigits_ne_nil]
    · rw [hreread.1, needToken_ofInt n hrest]
  | str s isEscaped =>
    refine reads_literal (by simp [chars, quoteString]) rfl fun rest _ ↦ ?_
    exact needToken_quoteString s rest
  | arr _ ih => exact reads_arr ih
  | obj _ ih => exact reads_obj ih

/-- The text of a value is read back as the value, unless this nests too deeply: then it is refused. -/
theorem parse_compact (h : IsWhole j) :
    parseText j.compact = if j.nesting ≤ maxNesting then .ok j.reread else .error .tooDeep := by
  obtain ⟨t, cs, htoken, -, hread⟩ := h.reads [] follows_nil
  rw [List.append_nil] at htoken
  simp only [parseText, toList_compact, parse, readFirst, htoken, ok_bind,
    hread (2 * j.chars.length + 2) 0 (by omega) (Nat.zero_le _), verdict, Nat.zero_add]
  split <;> rfl

end Values

section Opening

variable {fuel depth : Nat} {t : Token} {cs rest : List Char} {members : List (String × Json)}

theorem exists_arr_of_readItems {done : List Json} {j : Json}
    (h : readItems fuel depth done t cs = .ok (j, rest)) : ∃ items, j = .arr items := by
  induction fuel generalizing done t cs with
  | zero => cases h
  | succ fuel ih =>
    rw [readItems] at h
    obtain ⟨⟨v, cs⟩, -, h⟩ := bind_eq_ok.1 h
    obtain ⟨⟨t, cs⟩, -, h⟩ := bind_eq_ok.1 h
    cases t with
    | closeArray =>
      cases h
      exact ⟨_, rfl⟩
    | comma =>
      obtain ⟨⟨t, cs⟩, -, h⟩ := bind_eq_ok.1 h
      exact ih h
    | _ => cases h

theorem readToken_cases {c : Char} (h : readToken c cs = .ok (t, rest)) :
    punctuation? c = some t ∨ ∃ v, t = .literal v ∧ ∀ members, v ≠ .obj members := by
  rw [readToken] at h
  split at h
  · next t' hpunctuation =>
    cases h
    exact .inl hpunctuation
  refine .inr ?_
  split at h
  · obtain ⟨⟨s, isEscaped, rest⟩, -, h⟩ := bind_eq_ok.1 h
    cases h
    exact ⟨_, rfl, fun members ↦ nofun⟩
  split at h
  · split at h <;> cases h
    exact ⟨_, rfl, fun members ↦ nofun⟩
  split at h
  · simp only at h
    split at h <;> cases h
    next v hword =>
    refine ⟨v, rfl, ?_⟩
    rintro members rfl
    unfold word? at hword
    split at hword <;> cases hword
  · cases h

theorem eq_openObject (hread : readValue fuel depth t cs = .ok (.obj members, rest))
    (ht : t ≠ .literal (.obj members)) : t = .openObject := by
  cases fuel with
  | zero => cases hread
  | succ fuel =>
    cases t with
    | openObject => rfl
    | literal v =>
      cases hread
      exact absurd rfl ht
    | openArray =>
      rw [readValue] at hread
      split at hread
      · cases hread
      obtain ⟨⟨t, cs⟩, -, hread⟩ := bind_eq_ok.1 hread
      simp only at hread
      split at hread
      · cases hread
      · obtain ⟨items, heq⟩ := exists_arr_of_readItems hread
        cases heq
    | _ => cases hread

theorem dropWhile_of_parse_obj (h : parse cs = .ok (.obj members)) :
    ∃ rest, cs.dropWhile isSpace = '{' :: rest := by
  obtain ⟨⟨v, rest⟩, hfirst, hparse⟩ := bind_eq_ok.1 h
  obtain ⟨⟨t, after⟩, hneed, hread⟩ := bind_eq_ok.1 hfirst
  have hv : v = .obj members := by
    simp only at hparse
    split at hparse <;> cases hparse
    rfl
  subst hv
  rw [needToken, nextToken] at hneed
  cases hcs : cs.dropWhile isSpace with
  | nil =>
    rw [hcs] at hneed
    cases hneed
  | cons c cs =>
    rw [hcs] at hneed
    obtain ⟨_, hnext, hneed⟩ := bind_eq_ok.1 hneed
    obtain ⟨_, htoken, hnext⟩ := bind_eq_ok.1 hnext
    cases hnext
    cases hneed
    rcases readToken_cases htoken with hmark | ⟨w, rfl, hw⟩
    · unfold punctuation? at hmark
      split at hmark <;> cases hmark
      · exact ⟨cs, rfl⟩
      all_goals cases eq_openObject hread nofun
    · cases eq_openObject hread fun heq ↦ hw members (Token.literal.inj heq)

end Opening

end FlowAudit.Json
