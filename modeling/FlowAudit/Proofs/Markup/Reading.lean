import FlowAudit.Markup.Reader
import FlowAudit.Proofs.Success
import FlowAudit.Proofs.Text.Numeral
import FlowAudit.Proofs.Text.Utf8
import Mathlib

namespace FlowAudit.Markup

def escape (c : Char) : List Char :=
  if c = '<' then "&lt;".toList else if c = '>' then "&gt;".toList
  else if c = '&' then "&amp;".toList else [c]

mutual

def Node.chars : Node → List Char
  | .text s => s.toList.flatMap escape
  | .element name children =>
    '<' :: (name.toList ++ '>' :: (charsOf children ++ '<' :: '/' :: (name.toList ++ ['>'])))

def charsOf : List Node → List Char
  | [] => []
  | n :: rest => n.chars ++ charsOf rest

end

def IsPlainName (name : String) : Prop := name.toList ≠ [] ∧ ∀ c ∈ name.toList, c.isAlpha

def IsData (s : String) : Prop := s.toList ≠ [] ∧ ∀ c ∈ s.toList, isLegal c = true ∧ c ≠ '\r'

/-- Nodes that are told apart in a text, in which data next to other data would be joined. -/
inductive ArePlain : List Node → Prop
  | nil : ArePlain []
  | text {s : String} {rest : List Node} (hs : IsData s) (hnext : ∀ t, rest.head? ≠ some (.text t))
      (hrest : ArePlain rest) : ArePlain (.text s :: rest)
  | element {name : String} {children rest : List Node} (hname : IsPlainName name)
      (hchildren : ArePlain children) (hrest : ArePlain rest) :
      ArePlain (.element name children :: rest)

section Names

variable {name : String} {rest : List Char}

theorem isAsciiNameChar_of_isAlpha {c : Char} (h : c.isAlpha) : isAsciiNameChar c = true := by
  simp [isAsciiNameChar, Char.isAlphanum, h]

theorem lt_of_isAlpha {c : Char} (h : c.isAlpha) : c.toNat < 0x80 := by
  simp only [Char.isAlpha, Char.isUpper, Char.isLower, Bool.or_eq_true, Bool.and_eq_true,
    decide_eq_true_eq, UInt32.le_iff_toNat_le] at h
  change c.val.toNat < 128
  obtain h | h := h
  · exact Nat.lt_of_le_of_lt h.2 (by decide)
  · exact Nat.lt_of_le_of_lt h.2 (by decide)

theorem isName_of_plain (h : IsPlainName name) : isName name.toList = true := by
  obtain ⟨hne, halpha⟩ := h
  cases hcs : name.toList with
  | nil => exact absurd hcs hne
  | cons c cs =>
    rw [hcs] at halpha
    rw [List.forall_mem_cons] at halpha
    simp only [isName, Bool.and_eq_true, List.all_eq_true, isNameStart, isNameChar]
    refine ⟨?_, fun d hd ↦ ?_⟩
    · rw [if_pos (lt_of_isAlpha halpha.1), halpha.1]
      rfl
    · rw [if_pos (lt_of_isAlpha (halpha.2 d hd))]
      exact isAsciiNameChar_of_isAlpha (halpha.2 d hd)

theorem readQName_append (h : IsPlainName name) :
    readQName (name.toList ++ '>' :: rest) = .ok (⟨"", name⟩, '>' :: rest) := by
  have hspan : (name.toList ++ '>' :: rest).span (fun c ↦ 0x80 ≤ c.toNat || isAsciiNameChar c) =
      (name.toList, '>' :: rest) := by
    refine Text.span_append (fun c hc ↦ ?_) ?_
    · simp [isAsciiNameChar_of_isAlpha (h.2 c hc)]
    · simp [isAsciiNameChar]
  have hcolon : name.toList.span (· != ':') = (name.toList, []) := by
    have hne : ∀ c ∈ name.toList, (c != ':') = true := by
      intro c hc
      have halpha := h.2 c hc
      rw [bne_iff_ne]
      rintro rfl
      cases halpha
    have hnil : ∀ c ∈ ([] : List Char).head?, (c != ':') = false := by simp
    simpa using Text.span_append hne hnil
  simp only [readQName, readName, hspan, List.isEmpty_cons, Bool.false_eq_true, if_false,
    isName_of_plain h, if_true, ok_bind, hcolon, pure_eq_ok, String.ofList_toList]

theorem readToken_startTag (h : IsPlainName name) (fuel : Nat) :
    readToken (fuel + 1) ('<' :: (name.toList ++ '>' :: rest)) =
      .ok (.startTag ⟨"", name⟩ false, rest) := by
  have hread : readQName (name.toList ++ '>' :: rest) = .ok (⟨"", name⟩, '>' :: rest) :=
    readQName_append h
  obtain ⟨hne, halpha⟩ := h
  cases hcs : name.toList with
  | nil => exact absurd hcs hne
  | cons c cs =>
    have hc : c.isAlpha := halpha c (hcs ▸ List.mem_cons_self)
    rw [hcs, List.cons_append] at hread
    rw [List.cons_append, readToken]
    · simp only [hread, ok_bind]
      rfl
    all_goals
      rintro r heq
      obtain rfl := (List.cons.inj heq).1
      cases hc

theorem readToken_endTag (h : IsPlainName name) (fuel : Nat) :
    readToken fuel ('<' :: '/' :: (name.toList ++ '>' :: rest)) = .ok (.endTag ⟨"", name⟩, rest) := by
  rw [readToken, readQName_append h]
  rfl

end Names

section Data

theorem exists_escape_eq_cons (c : Char) : ∃ d ds, escape c = d :: ds ∧ d ≠ '<' := by
  unfold escape
  split
  · exact ⟨'&', "lt;".toList, rfl, by decide⟩
  · split
    · exact ⟨'&', "gt;".toList, rfl, by decide⟩
    · split
      · exact ⟨'&', "amp;".toList, rfl, by decide⟩
      · exact ⟨c, [], rfl, by assumption⟩

theorem readData_push {c : Char} {s : DataState} {rest : List Char} (hc : c ≠ '<' ∧ c ≠ '>' ∧ c ≠ '&')
    (href : s.reference = none) : readData .tag s (c :: rest) = readData .tag (s.push c) rest := by
  rw [readData]
  simp [href, hc]

theorem readData_reference {c : Char} {s : DataState} {rest : List Char} (hc : c = '<' ∨ c = '>' ∨ c = '&')
    (href : s.reference = none) :
    readData .tag s (escape c ++ rest) = readData .tag { acc := c :: s.acc } rest := by
  obtain rfl | rfl | rfl := hc
  · simp [escape, readData, href, referent?, namedEntity?]
  · simp [escape, readData, href, referent?, namedEntity?]
  · simp [escape, readData, href, referent?, namedEntity?]

theorem readData_append {cs : List Char} (h : ∀ c ∈ cs, c ≠ '\r') (rest : List Char) {s : DataState}
    (href : s.reference = none) (hlast : s.last ≠ '\r') :
    readData .tag s (cs.flatMap escape ++ '<' :: rest) = .ok (cs.reverse ++ s.acc, '<' :: rest) := by
  induction cs generalizing s with
  | nil =>
    rw [List.flatMap_nil, List.nil_append, readData]
    simp [href]
  | cons c cs ih =>
    obtain ⟨hc, hcs⟩ := List.forall_mem_cons.1 h
    rw [List.flatMap_cons, List.append_assoc, List.reverse_cons, List.append_assoc,
      List.singleton_append]
    by_cases hmark : c = '<' ∨ c = '>' ∨ c = '&'
    · rw [readData_reference hmark href, ih hcs rfl (by simp)]
    · have hplain : c ≠ '<' ∧ c ≠ '>' ∧ c ≠ '&' := by simpa only [not_or] using hmark
      have hescape : escape c = [c] := by simp [escape, hplain]
      rw [hescape, List.singleton_append, readData_push hplain href, ih (s := s.push c) hcs href hc]
      simp [DataState.push, hc, hlast]

theorem readToken_text {s : String} (h : IsData s) (fuel : Nat) (rest : List Char) :
    readToken fuel (s.toList.flatMap escape ++ '<' :: rest) = .ok (.text s.toList, '<' :: rest) := by
  obtain ⟨hne, hlegal⟩ := h
  have hread : readText .tag (s.toList.flatMap escape ++ '<' :: rest) =
      .ok (s.toList, '<' :: rest) := by
    have hall : s.toList.reverse.all isLegal = true := by
      rw [List.all_reverse, List.all_eq_true]
      exact fun c hc ↦ (hlegal c hc).1
    rw [readText, readData_append (fun c hc ↦ (hlegal c hc).2) rest rfl (by simp), ok_bind]
    simp only [List.append_nil, hall, if_true, List.reverse_reverse, pure_eq_ok]
  cases hcs : s.toList with
  | nil => exact absurd hcs hne
  | cons c cs =>
    obtain ⟨d, ds, hescape, hd⟩ := exists_escape_eq_cons c
    rw [hcs, List.flatMap_cons, hescape, List.cons_append, List.cons_append] at hread
    rw [List.flatMap_cons, hescape, List.cons_append, List.cons_append, readToken]
    · rw [hread]
      rfl
    all_goals
      intro r heq
      exact hd (List.cons.inj heq).1

end Data

theorem length_flatMap_escape (cs : List Char) : cs.length ≤ (cs.flatMap escape).length := by
  induction cs with
  | nil => exact Nat.le_refl _
  | cons c cs ih =>
    obtain ⟨d, ds, hescape, -⟩ := exists_escape_eq_cons c
    simp only [List.flatMap_cons, hescape, List.length_append, List.length_cons]
    omega

theorem readElement_succ {fuel : Nat} {opened : List Open} {cs rest : List Char} {t : Token}
    (hcs : cs ≠ []) (ht : readToken (fuel + 1) cs = .ok (t, rest)) :
    readElement (fuel + 1) opened cs = advance opened t >>= fun next ↦
      match next with
      | .inl node => .ok node
      | .inr opened => readElement fuel opened rest := by
  have hempty : ¬cs.isEmpty = true := by simpa using hcs
  rw [readElement, if_neg hempty, ht]
  rfl

/-- Nodes are read as children of the innermost open element, up to the tag that follows them. -/
theorem readElement_charsOf {ns : List Node} (h : ArePlain ns) :
    ∃ k, k ≤ (charsOf ns).length ∧ ∀ fuel (o : Open) outer rest,
      readElement (fuel + k) (o :: outer) (charsOf ns ++ '<' :: rest) =
        readElement fuel ({ o with children := ns.reverse ++ o.children } :: outer) ('<' :: rest) := by
  induction h with
  | nil => exact ⟨0, Nat.le_refl _, fun fuel o outer rest ↦ rfl⟩
  | @text s rest hs hnext hrest ih =>
    obtain ⟨k, hk, hafter⟩ := ih
    refine ⟨k + 1, ?_, fun fuel o outer r ↦ ?_⟩
    · have hlength := length_flatMap_escape s.toList
      have hpos := List.length_pos_iff.2 hs.1
      simp only [charsOf, Node.chars, List.length_append]
      omega
    · have hnext' : ∃ r', charsOf rest ++ '<' :: r = '<' :: r' := by
        cases rest with
        | nil => exact ⟨r, rfl⟩
        | cons n rest =>
          cases n with
          | text t => exact absurd rfl (hnext t)
          | element name children => exact ⟨_, rfl⟩
      obtain ⟨r', hr'⟩ := hnext'
      have hchars : charsOf (.text s :: rest) ++ '<' :: r = s.toList.flatMap escape ++ '<' :: r' := by
        rw [charsOf, Node.chars, List.append_assoc, hr']
      rw [hchars, ← Nat.add_assoc, readElement_succ (by simp) (readToken_text hs _ _)]
      simp only [advance, ok_bind, String.ofList_toList]
      rw [← hr', hafter]
      simp [Open.add]
  | @element name children rest hname hchildren hrest ihc ihr =>
    obtain ⟨k, hk, hinner⟩ := ihc
    obtain ⟨l, hl, hafter⟩ := ihr
    refine ⟨l + 1 + k + 1, ?_, fun fuel o outer r ↦ ?_⟩
    · simp only [charsOf, Node.chars, List.length_append, List.length_cons]
      omega
    · have hchars : charsOf (.element name children :: rest) ++ '<' :: r =
          '<' :: (name.toList ++ '>' :: (charsOf children ++ '<' :: '/' :: (name.toList ++ '>' ::
            (charsOf rest ++ '<' :: r)))) := by
        simp [charsOf, Node.chars]
      rw [hchars, ← Nat.add_assoc, readElement_succ (by simp) (readToken_startTag hname _)]
      simp only [advance, Bool.false_eq_true, if_false, ok_bind]
      rw [← Nat.add_assoc, hinner, ← Nat.add_assoc, readElement_succ (by simp) (readToken_endTag hname _)]
      simp only [advance, if_true, finish, ok_bind]
      rw [hafter]
      simp [Open.add, Open.close]

/-- The text of an element is read as the element. -/
theorem parse_chars {name : String} {children : List Node} (hname : IsPlainName name)
    (h : ArePlain children) : parse (Node.element name children).chars = .ok (.element name children) := by
  obtain ⟨k, hk, hread⟩ := readElement_charsOf h
  have hlength : k + 2 ≤ (Node.element name children).chars.length := by
    simp only [Node.chars, List.length_append, List.length_cons]
    omega
  obtain ⟨fuel, hfuel⟩ := Nat.exists_eq_add_of_le hlength
  have hcount : (Node.element name children).chars.length + 1 = fuel + 1 + 1 + k + 1 := by omega
  rw [parse, hcount, Node.chars, readElement_succ (by simp) (readToken_startTag hname _)]
  simp only [advance, Bool.false_eq_true, if_false, ok_bind]
  rw [hread, readElement_succ (by simp) (readToken_endTag hname _)]
  simp [advance, finish, Open.close, ok_bind]

theorem parseBytes_chars {name : String} {children : List Node} (hname : IsPlainName name)
    (h : ArePlain children) :
    parseBytes (Text.Utf8.encode (Node.element name children).chars) = .ok (.element name children) := by
  have hdecode (cs : List Char) : (Text.Utf8.decode (Text.Utf8.encode cs)).map (·.getD '￾') = cs := by
    rw [Text.Utf8.decode_encode, List.map_map]
    exact List.map_id cs
  rw [parseBytes, hdecode, parse_chars hname h]

end FlowAudit.Markup
