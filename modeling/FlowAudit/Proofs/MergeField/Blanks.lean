import FlowAudit.MergeField.Fields
import FlowAudit.Proofs.Text.Blank
import FlowAudit.Proofs.Text.Numeral

namespace FlowAudit.MergeField

open Text

variable {ws cs rest : List Char}

section Lengths

theorem length_hexEscape?_le {width : Nat} {p : Char × List Char} (h : hexEscape? width cs = some p) :
    p.2.length ≤ cs.length := by
  simp only [hexEscape?, Option.ite_none_right_eq_some, Option.bind_eq_bind, Option.bind_eq_some_iff,
    Option.pure_def, Option.some.injEq] at h
  obtain ⟨-, n, -, c, -, rfl⟩ := h
  simp

theorem length_octalEscape?_le {c : Char} {p : Char × List Char} (h : octalEscape? c cs = some p) :
    p.2.length ≤ cs.length := by
  unfold octalEscape? at h
  split at h
  · split at h
    · obtain ⟨n, -, rfl⟩ := Option.map_eq_some_iff.mp h
      simp only [List.length_cons]
      omega
    · cases h
  · cases h

theorem length_escape? {quote : Char} {p : Char × List Char} (h : escape? quote cs = some p) :
    p.2.length < cs.length := by
  cases cs with
  | nil => cases h
  | cons c rest =>
    apply Nat.lt_succ_of_le
    rw [escape?] at h
    split at h
    · cases h
      exact le_rfl
    · split at h
      · cases h
        exact le_rfl
      · split at h
        · exact length_hexEscape?_le h
        · exact length_octalEscape?_le h

theorem length_span_le (p : Char → Bool) (cs : List Char) : (cs.span p).2.length ≤ cs.length := by
  rw [List.span_eq_takeWhile_dropWhile]
  exact List.length_dropWhile_le p cs

theorem length_operator_le (c : Char) (second cs : List Char) :
    (operator c second cs).2.length ≤ cs.length := by
  unfold operator
  split
  · split <;> simp
  · simp

theorem length_readQuoted?_le {quote : Char} {n : Nat} {acc : List Char} {p : String × List Char}
    (h : readQuoted? quote n acc cs = some p) : p.2.length ≤ cs.length := by
  fun_induction readQuoted? quote n acc cs with
  | case1 => cases h
  | case2 => cases h
  | case3 => cases h; simp
  | case4 => cases h
  | case5 n acc c rest _ _ _ e rest' hescape ih =>
    have hrest := length_escape? hescape
    have hread := ih h
    simp only [List.length_cons] at hrest ⊢
    omega
  | case6 => cases h
  | case7 n acc c rest _ _ _ ih => exact (ih h).trans (by simp)

theorem length_readRaw?_le {acc : List Char} {p : String × List Char} (h : readRaw? acc cs = some p) :
    p.2.length ≤ cs.length := by
  fun_induction readRaw? acc cs with
  | case1 => cases h
  | case2 acc rest ih => exact (ih h).trans (by simp; omega)
  | case3 => cases h; simp
  | case4 acc c rest _ _ ih => exact (ih h).trans (by simp)

theorem length_closeComment?_le (h : closeComment? cs = some rest) : rest.length ≤ cs.length := by
  fun_induction closeComment? cs with
  | case1 => cases h; simp; omega
  | case2 c cs _ ih => exact (ih h).trans (by simp)
  | case3 => cases h

theorem length_spanDigits_le (isDigit : Char → Bool) (cs : List Char) :
    (spanDigits isDigit cs).2.length ≤ cs.length := length_span_le _ cs

theorem length_spanFraction?_le {isDigit : Char → Bool} {p : List Char × List Char}
    (h : spanFraction? isDigit cs = some p) : p.2.length ≤ cs.length := by
  unfold spanFraction? at h
  split at h
  · cases h
  · next rest _ =>
    cases h
    exact (length_spanDigits_le isDigit rest).trans (by simp)
  · cases h
    exact le_rfl

theorem length_spanSign_le (cs : List Char) : (spanSign cs).2.length ≤ cs.length := by
  unfold spanSign
  split <;> simp

theorem length_spanExponent_le (isDigit : Char → Bool) (cs : List Char) :
    (spanExponent isDigit cs).2.length ≤ cs.length := by
  unfold spanExponent
  split
  · next e rest =>
    have hsign := length_spanSign_le rest
    have hdigits := length_spanDigits_le isDigit (spanSign rest).2
    split
    · exact (hdigits.trans hsign).trans (by simp)
    · exact le_rfl
  · exact le_rfl

theorem length_spanNumber_le (cs : List Char) : (spanNumber cs).2.length ≤
    (spanDigits (spanBase cs).2.1 (spanBase cs).2.2).2.length := by
  unfold spanNumber
  dsimp only
  split
  · exact le_rfl
  · next hfraction =>
    exact (length_spanExponent_le _ _).trans (length_spanFraction?_le hfraction)

theorem length_spanBase_le (cs : List Char) : (spanBase cs).2.2.length ≤ cs.length := by
  unfold spanBase
  split
  · split_ifs <;> simp <;> omega
  · exact le_rfl

theorem length_spanNumber_lt {c : Char} (hc : c.isDigit = true) (rest : List Char) :
    (spanNumber (c :: rest)).2.length ≤ rest.length := by
  refine (length_spanNumber_le _).trans ?_
  have hplain : (spanDigits Char.isDigit (c :: rest)).2.length ≤ rest.length := by
    simp only [spanDigits, List.span_eq_takeWhile_dropWhile, List.dropWhile_cons, hc, Bool.true_or, if_true]
    exact List.length_dropWhile_le _ _
  unfold spanBase
  split
  · next x rest' heq =>
    obtain ⟨rfl, rfl⟩ := List.cons.inj heq
    have hshorter (isDigit : Char → Bool) :
        (spanDigits isDigit rest').2.length ≤ (x :: rest').length :=
      (length_spanDigits_le isDigit rest').trans (by simp)
    split_ifs
    · exact hshorter isHexDigit
    · exact hshorter octalDigit
    · exact hshorter _
    · exact hplain
  · exact hplain

theorem length_readNumber?_le {head : List Char} {p : List Token × List Char} {k : Nat}
    (hk : (spanNumber cs).2.length ≤ k) (h : readNumber? head cs = some p) : p.2.length ≤ k := by
  simp only [readNumber?, Option.ite_none_left_eq_some, Option.some.injEq] at h
  obtain ⟨-, rfl⟩ := h
  exact hk

theorem length_next?_le {n : Nat} {c : Char} {p : List Token × List Char}
    (h : next? n c rest = some p) : p.2.length ≤ rest.length := by
  revert h
  fun_cases next? n c rest
  all_goals intro h
  case case2 =>
    obtain ⟨p, hp, rfl⟩ := Option.map_eq_some_iff.mp h
    exact length_readQuoted?_le hp
  case case3 =>
    obtain ⟨p, hp, rfl⟩ := Option.map_eq_some_iff.mp h
    exact length_readRaw?_le hp
  case case4 hdigit => exact length_readNumber?_le (length_spanNumber_lt hdigit rest) h
  case case5 =>
    refine length_readNumber?_le ((length_spanNumber_le rest).trans ?_) h
    exact (length_spanDigits_le _ _).trans (length_spanBase_le rest)
  case case12 more =>
    cases h
    exact ((List.drop_sublist 1 _).length_le.trans (List.length_dropWhile_le _ more)).trans (by simp)
  case case13 more =>
    obtain ⟨p, hp, rfl⟩ := Option.map_eq_some_iff.mp h
    exact (length_closeComment?_le hp).trans (by simp)
  case case15 hword hpointer =>
    cases h
    have hrest := length_operator_le c ['#'] rest
    have hname := length_span_le isNameChar (operator c ['#'] rest).2
    rw [hpointer] at hrest hname
    rw [hword] at hname
    exact hname.trans hrest
  case case17 hc _ _ hword =>
    cases h
    rw [List.span_eq_takeWhile_dropWhile, List.dropWhile_cons, if_pos hc] at hword
    cases hword
    exact List.length_dropWhile_le _ rest
  case case18 => cases h
  case case1 | case11 | case14 | case16 =>
    cases h
    exact le_rfl
  all_goals
    cases h
    exact length_operator_le _ _ rest

end Lengths

def blankCodes : List Nat :=
  [0x09, 0x0A, 0x0B, 0x0C, 0x0D, 0x20, 0x85, 0xA0, 0x1680, 0x2000, 0x2001, 0x2002, 0x2003, 0x2004, 0x2005,
    0x2006, 0x2007, 0x2008, 0x2009, 0x200A, 0x2028, 0x2029, 0x202F, 0x205F, 0x3000]

theorem toNat_mem_blankCodes {c : Char} (h : isBlank c = true) : c.toNat ∈ blankCodes := by
  simp [isBlank] at h
  simp [blankCodes]
  omega

def RefusesBlank (p : Char → Bool) : Prop := ∀ c, isBlank c = true → p c = false

theorem refusesBlank_of_codes {p : Char → Bool} (h : ∀ n ∈ blankCodes, p (Char.ofNat n) = false) :
    RefusesBlank p := by
  intro c hc
  have hp := h c.toNat (toNat_mem_blankCodes hc)
  rwa [Char.ofNat_toNat] at hp

theorem refusesBlank_isNameChar : RefusesBlank isNameChar := refusesBlank_of_codes (by decide +kernel)

theorem refusesBlank_isHexDigit : RefusesBlank isHexDigit := refusesBlank_of_codes (by decide)

theorem refusesBlank_octalDigit : RefusesBlank octalDigit := refusesBlank_of_codes (by decide)

theorem refusesBlank_isDigit : RefusesBlank Char.isDigit := refusesBlank_of_codes (by decide)

theorem ne_of_isBlank {c d : Char} (hc : isBlank c = true) (hd : isBlank d = false) : c ≠ d := by
  rintro rfl
  exact Bool.false_ne_true (hd.symm.trans hc)

theorem not_mem_of_isBlank {c : Char} (hc : isBlank c = true) (hcs : cs.any isBlank = false) : c ∉ cs := by
  intro hmem
  exact List.any_eq_false.mp hcs c hmem hc

def Blank (ws : List Char) : Prop := ∀ c ∈ ws, isBlank c = true

theorem exists_cons_of_append {d : Char} {more : List Char} (hws : Blank ws) (hd : isBlank d = false)
    (h : cs ++ ws = d :: more) : ∃ more', cs = d :: more' ∧ more = more' ++ ws := by
  cases cs with
  | nil =>
    have hblank := hws d (by simp [show ws = d :: more from h])
    exact absurd hblank (by simp [hd])
  | cons c cs =>
    obtain ⟨rfl, rfl⟩ := List.cons.inj h
    exact ⟨cs, rfl, rfl⟩

theorem span_append_blank {p : Char → Bool} (hp : RefusesBlank p) (hws : Blank ws)
    (cs : List Char) : (cs ++ ws).span p = ((cs.span p).1, (cs.span p).2 ++ ws) := by
  simp only [List.span_eq_takeWhile_dropWhile]
  induction cs with
  | nil =>
    cases ws with
    | nil => simp
    | cons w ws => simp [hp w (hws w List.mem_cons_self)]
  | cons c cs ih =>
    by_cases hc : p c = true
    · simpa [hc] using ih
    · simp [hc]

theorem hexEscape?_append (hws : Blank ws) (width : Nat) (cs : List Char) :
    hexEscape? width (cs ++ ws) = (hexEscape? width cs).map fun p ↦ (p.1, p.2 ++ ws) := by
  by_cases hlen : width ≤ cs.length
  · have hdrop : (cs ++ ws).drop width = cs.drop width ++ ws := List.drop_append_of_le_length hlen
    have htake : (cs ++ ws).take width = cs.take width := List.take_append_of_le_length hlen
    simp only [hexEscape?, htake, hdrop]
    split
    · cases readDigits? 16 (cs.take width) with
      | none => rfl
      | some n => cases hn : charOfEscape? n <;> simp [hn]
    · rfl
  · have hshort : (hexEscape? width cs) = none := by
      rw [hexEscape?, if_neg]
      simp
      omega
    rw [hshort, hexEscape?, if_neg]
    · rfl
    · simp only [Bool.and_eq_true, beq_iff_eq, List.all_eq_true, not_and]
      intro hfull hall
      -- The first blank would be one of the digits.
      cases ws with
      | nil => simp at hfull; omega
      | cons w ws =>
        have hmem : w ∈ (cs ++ w :: ws).take width := by
          rw [List.take_append, List.mem_append]
          right
          obtain ⟨k, hk⟩ : ∃ k, width - cs.length = k + 1 := ⟨width - cs.length - 1, by omega⟩
          simp [hk]
        have hw := hall w hmem
        rw [refusesBlank_isHexDigit w (hws w List.mem_cons_self)] at hw
        cases hw

theorem octalEscape?_blank (hws : Blank ws) (c : Char) : octalEscape? c ws = none := by
  match ws with
  | [] | [_] => rfl
  | d :: e :: rest =>
    have hd := refusesBlank_octalDigit d (hws d List.mem_cons_self)
    simp [octalEscape?, hd]

theorem octalEscape?_append (hws : Blank ws) (c : Char) (cs : List Char) :
    octalEscape? c (cs ++ ws) = (octalEscape? c cs).map fun p ↦ (p.1, p.2 ++ ws) := by
  match cs with
  | [] => exact octalEscape?_blank hws c
  | [d] =>
    -- The digit that is missing is not among the blanks.
    cases ws with
    | nil => rfl
    | cons e ws =>
      have he := refusesBlank_octalDigit e (hws e List.mem_cons_self)
      simp [octalEscape?, he]
  | d :: e :: rest =>
    simp only [List.cons_append, octalEscape?]
    split
    · rw [Option.map_map]
      rfl
    · rfl

theorem refusesBlank_letterEscapes : RefusesBlank fun c ↦ (letterEscapes.lookup c).isSome :=
  refusesBlank_of_codes (by decide)

theorem refusesBlank_hexEscapes : RefusesBlank fun c ↦ (hexEscapes.lookup c).isSome :=
  refusesBlank_of_codes (by decide)

theorem escape?_blank {quote : Char} (hquote : isBlank quote = false) (hws : Blank ws) :
    escape? quote ws = none := by
  cases ws with
  | nil => rfl
  | cons c ws =>
    have hc := hws c List.mem_cons_self
    have hne := ne_of_isBlank hc hquote
    have hne' : c ≠ '\\' := ne_of_isBlank hc (by decide)
    rw [escape?, if_neg (by simp [hne, hne'])]
    split
    · next he =>
      have hletter := refusesBlank_letterEscapes c hc
      simp [he] at hletter
    · split
      · next hwidth =>
        have hhex := refusesBlank_hexEscapes c hc
        simp [hwidth] at hhex
      · exact octalEscape?_blank (fun d hd ↦ hws d (List.mem_cons_of_mem c hd)) c

theorem escape?_append {quote : Char} (hquote : isBlank quote = false) (hws : Blank ws) (cs : List Char) :
    escape? quote (cs ++ ws) = (escape? quote cs).map fun p ↦ (p.1, p.2 ++ ws) := by
  cases cs with
  | nil => exact escape?_blank hquote hws
  | cons c rest =>
    simp only [List.cons_append, escape?]
    split
    · rfl
    · split
      · rfl
      · split
        · exact hexEscape?_append hws _ rest
        · exact octalEscape?_append hws c rest

theorem readQuoted?_blank {quote : Char} (hquote : isBlank quote = false) (hws : Blank ws) (fuel : Nat)
    (acc : List Char) : readQuoted? quote fuel acc ws = none := by
  induction ws generalizing fuel acc with
  | nil => cases fuel <;> rfl
  | cons w ws ih =>
    have hw := hws w List.mem_cons_self
    have hne := ne_of_isBlank hw hquote
    have hne' : w ≠ '\\' := ne_of_isBlank hw (by decide)
    cases fuel with
    | zero => rfl
    | succ fuel =>
      simp [readQuoted?, hne, hne', ih fun c hc ↦ hws c (List.mem_cons_of_mem w hc)]

theorem readQuoted?_append {quote : Char} (hquote : isBlank quote = false) (hws : Blank ws) {n m : Nat}
    (acc cs : List Char) (hn : cs.length ≤ n) (hm : (cs ++ ws).length ≤ m) :
    readQuoted? quote m acc (cs ++ ws) =
      (readQuoted? quote n acc cs).map fun p ↦ (p.1, p.2 ++ ws) := by
  induction n generalizing m acc cs with
  | zero =>
    obtain rfl := List.length_eq_zero_iff.mp (Nat.le_zero.mp hn)
    rw [List.nil_append, readQuoted?_blank hquote hws]
    rfl
  | succ n ih =>
    cases cs with
    | nil =>
      rw [List.nil_append, readQuoted?_blank hquote hws]
      rfl
    | cons c cs =>
      obtain ⟨m, rfl⟩ : ∃ k, m = k + 1 := ⟨m - 1, by simp at hm; omega⟩
      simp only [List.length_cons, List.cons_append, Nat.add_le_add_iff_right] at hn hm
      simp only [List.cons_append, readQuoted?]
      split
      · rfl
      · split
        · rfl
        · split
          · rw [escape?_append hquote hws]
            cases he : escape? quote cs with
            | none => rfl
            | some p =>
              have hlength := length_escape? he
              have hm' : (p.2 ++ ws).length ≤ m := by
                rw [List.length_append] at hm ⊢
                omega
              exact ih (p.1 :: acc) p.2 (by omega) hm'
          · exact ih (c :: acc) cs hn hm

theorem readRaw?_append (hws : Blank ws) (acc cs : List Char) :
    readRaw? acc (cs ++ ws) = (readRaw? acc cs).map fun p ↦ (p.1, p.2 ++ ws) := by
  fun_induction readRaw? acc cs with
  | case1 acc =>
    rw [List.nil_append]
    induction ws generalizing acc with
    | nil => rfl
    | cons w ws ih =>
      have hne : w ≠ '`' := ne_of_isBlank (hws w List.mem_cons_self) (by decide)
      rw [readRaw?, ih fun c hc ↦ hws c (List.mem_cons_of_mem w hc)]
      · rfl
      · simp [hne]
      · simp [hne]
  | case2 acc rest ih => exact ih
  | case3 acc rest hnot =>
    rw [List.cons_append, readRaw?]
    · rfl
    · intro rest' heq
      cases rest with
      | nil => exact absurd (hws '`' (by simp_all)) (by decide)
      | cons d rest => exact hnot rest (by simpa using (List.cons.inj heq).1)
  | case4 acc c rest _ h ih =>
    rw [List.cons_append, readRaw?, ih]
    · intro rest' hc
      exact absurd hc (by simpa using h)
    · exact h

theorem closeComment?_append (hws : Blank ws) (cs : List Char) :
    closeComment? (cs ++ ws) = (closeComment? cs).map (· ++ ws) := by
  fun_induction closeComment? cs with
  | case1 rest => rfl
  | case2 c rest hnot ih =>
    rw [List.cons_append, closeComment?, ih]
    intro rest' hc heq
    cases rest with
    | nil => exact absurd (hws '/' (by simp_all)) (by decide)
    | cons d rest => exact hnot rest hc (by simpa using (List.cons.inj heq).1)
  | case3 =>
    rw [List.nil_append]
    induction ws with
    | nil => rfl
    | cons w ws ih =>
      have hne : w ≠ '*' := ne_of_isBlank (hws w List.mem_cons_self) (by decide)
      rw [closeComment?, ih fun c hc ↦ hws c (List.mem_cons_of_mem w hc)]
      · rfl
      · simp [hne]

theorem operator_append (hws : Blank ws) {second : List Char} (hsecond : second.any isBlank = false)
    (c : Char) (cs : List Char) :
    operator c second (cs ++ ws) = ((operator c second cs).1, (operator c second cs).2 ++ ws) := by
  cases cs with
  | nil =>
    cases ws with
    | nil => rfl
    | cons w ws =>
      have hw : w ∉ second := not_mem_of_isBlank (hws w List.mem_cons_self) hsecond
      simp [operator, hw]
  | cons d cs =>
    by_cases hd : d ∈ second <;> simp [operator, hd]

theorem any_head?_append {p : Char → Bool} (hp : RefusesBlank p) (hws : Blank ws) (cs : List Char) :
    (cs ++ ws).head?.any p = cs.head?.any p := by
  cases cs with
  | nil =>
    cases ws with
    | nil => rfl
    | cons w ws => simp [hp w (hws w List.mem_cons_self)]
  | cons c cs => rfl

theorem spanBase_append (hws : Blank ws) (cs : List Char) :
    spanBase (cs ++ ws) = ((spanBase cs).1, (spanBase cs).2.1, (spanBase cs).2.2 ++ ws) := by
  match cs with
  | [] =>
    rw [List.nil_append, spanBase]
    · rfl
    · rintro x rest rfl
      exact absurd (hws '0' List.mem_cons_self) (by decide)
  | [c] =>
    cases ws with
    | nil => simp
    | cons w ws =>
      have hw : w ∉ ['x', 'X', 'o', 'O', 'b', 'B'] :=
        not_mem_of_isBlank (hws w List.mem_cons_self) (by decide)
      simp only [List.mem_cons, List.not_mem_nil, or_false, not_or] at hw
      by_cases hc : c = '0'
      · subst hc
        simp [spanBase, hw]
      · simp [spanBase, hc]
  | c :: x :: rest =>
    by_cases hc : c = '0'
    · subst hc
      simp only [List.cons_append, spanBase]
      split_ifs <;> rfl
    · simp [spanBase, hc]

theorem refusesBlank_spanBase (cs : List Char) : RefusesBlank (spanBase cs).2.1 := by
  intro c hc
  unfold spanBase
  split
  · split_ifs
    · exact refusesBlank_isHexDigit c hc
    · exact refusesBlank_octalDigit c hc
    · have h0 : c ≠ '0' := ne_of_isBlank hc (by decide)
      have h1 : c ≠ '1' := ne_of_isBlank hc (by decide)
      simp [h0, h1]
    · exact refusesBlank_isDigit c hc
  · exact refusesBlank_isDigit c hc

theorem spanDigits_append {isDigit : Char → Bool} (hdigit : RefusesBlank isDigit) (hws : Blank ws)
    (cs : List Char) : spanDigits isDigit (cs ++ ws) =
      ((spanDigits isDigit cs).1, (spanDigits isDigit cs).2 ++ ws) := by
  refine span_append_blank (fun c hc ↦ ?_) hws cs
  have hne : c ≠ '_' := ne_of_isBlank hc (by decide)
  simp [hdigit c hc, hne]

theorem spanFraction?_append {isDigit : Char → Bool} (hdigit : RefusesBlank isDigit) (hws : Blank ws)
    (cs : List Char) : spanFraction? isDigit (cs ++ ws) =
      (spanFraction? isDigit cs).map fun p ↦ (p.1, p.2 ++ ws) := by
  have hdot : ∀ w ∈ ws, w ≠ '.' := fun w hw ↦ ne_of_isBlank (hws w hw) (by decide)
  match cs with
  | [] =>
    cases ws with
    | nil => rfl
    | cons w ws => simp [spanFraction?, hdot w List.mem_cons_self]
  | [c] =>
    by_cases hc : c = '.'
    · subst hc
      have hrun := spanDigits_append hdigit hws []
      cases ws with
      | nil => simp
      | cons w ws =>
        rw [List.nil_append] at hrun
        simp [spanFraction?, hdot w List.mem_cons_self, hrun]
    · simp [spanFraction?, hc]
  | c :: d :: rest =>
    by_cases hc : c = '.'
    · subst hc
      by_cases hd : d = '.'
      · subst hd
        rfl
      · have hrun := spanDigits_append hdigit hws (d :: rest)
        rw [List.cons_append] at hrun
        simp [spanFraction?, hd, hrun]
    · simp [spanFraction?, hc]

theorem spanSign_append (hws : Blank ws) (cs : List Char) :
    spanSign (cs ++ ws) = ((spanSign cs).1, (spanSign cs).2 ++ ws) := by
  cases cs with
  | nil =>
    cases ws with
    | nil => rfl
    | cons w ws =>
      have hw := hws w List.mem_cons_self
      have hplus : w ≠ '+' := ne_of_isBlank hw (by decide)
      have hminus : w ≠ '-' := ne_of_isBlank hw (by decide)
      simp [spanSign, hplus, hminus]
  | cons c cs =>
    by_cases hplus : c = '+'
    · subst hplus
      rfl
    · by_cases hminus : c = '-'
      · subst hminus
        rfl
      · simp [spanSign, hplus, hminus]

theorem spanExponent_append {isDigit : Char → Bool} (hdigit : RefusesBlank isDigit) (hws : Blank ws)
    (cs : List Char) : spanExponent isDigit (cs ++ ws) =
      ((spanExponent isDigit cs).1, (spanExponent isDigit cs).2 ++ ws) := by
  cases cs with
  | nil =>
    cases ws with
    | nil => rfl
    | cons w ws =>
      have hw := hws w List.mem_cons_self
      have hlower : w ≠ 'e' := ne_of_isBlank hw (by decide)
      have hupper : w ≠ 'E' := ne_of_isBlank hw (by decide)
      simp [spanExponent, hlower, hupper]
  | cons c cs =>
    simp only [List.cons_append, spanExponent, spanSign_append hws, spanDigits_append hdigit hws]
    split <;> rfl

theorem spanNumber_append (hws : Blank ws) (cs : List Char) :
    spanNumber (cs ++ ws) = ((spanNumber cs).1, (spanNumber cs).2 ++ ws) := by
  have hdigit := refusesBlank_spanBase cs
  simp only [spanNumber, spanBase_append hws, spanDigits_append hdigit hws, spanFraction?_append hdigit hws]
  cases spanFraction? (spanBase cs).2.1 (spanDigits (spanBase cs).2.1 (spanBase cs).2.2).2 with
  | none => rfl
  | some p => simp only [Option.map_some, spanExponent_append hdigit hws]

theorem readNumber?_append (hws : Blank ws) (head cs : List Char) :
    readNumber? head (cs ++ ws) = (readNumber? head cs).map fun p ↦ (p.1, p.2 ++ ws) := by
  simp only [readNumber?, spanNumber_append hws,
    any_head?_append refusesBlank_isNameChar hws]
  split <;> rfl

theorem next?_append (hws : Blank ws) (c : Char) (rest : List Char) {n m : Nat}
    (hline : c = '/' → rest.head? ≠ some '/') (hn : rest.length ≤ n) (hm : (rest ++ ws).length ≤ m) :
    next? m c (rest ++ ws) = (next? n c rest).map fun p ↦ (p.1, p.2 ++ ws) := by
  have hhead := any_head?_append refusesBlank_isDigit hws rest
  have hspan := span_append_blank refusesBlank_isNameChar hws
  fun_cases next? n c rest
  all_goals
    unfold next?
    simp only [*, if_true, if_false, Bool.false_eq_true]
  case case1 => rfl
  case case2 hblank _ =>
    rw [readQuoted?_append (by simpa using hblank) hws [] rest hn hm]
    simp [Function.comp_def]
  case case3 =>
    rw [readRaw?_append hws]
    simp [Function.comp_def]
  case case4 => exact readNumber?_append hws [] (c :: rest)
  case case5 => exact readNumber?_append hws ['.'] rest
  case case11 => rfl
  case case12 hslash _ => exact absurd rfl (hline (by simpa using hslash))
  case case13 =>
    rw [List.cons_append]
    simp [closeComment?_append hws, Function.comp_def]
  case case14 hcomment hblock =>
    split
    · next heq =>
      obtain ⟨more, rfl, -⟩ := exists_cons_of_append hws (by decide) heq
      exact (hcomment more rfl).elim
    · next heq =>
      obtain ⟨more, rfl, -⟩ := exists_cons_of_append hws (by decide) heq
      exact (hblock more rfl).elim
    · rfl
  case case15 hword hpointer =>
    have hsecond : ['#'].any isBlank = false := by decide
    simp only [operator_append hws hsecond, hpointer, hspan, hword, Option.map_some]
  case case16 => rfl
  case case17 hword =>
    simp only [← List.cons_append, hspan, hword, Option.map_some]
  case case18 => rfl
  all_goals
    rw [operator_append hws (by decide)]
    rfl

/-- A comment to the end of the line may take some of the white space with it. -/
theorem next?_line_comment (hws : Blank ws) (more : List Char) (n m : Nat) :
    ∃ rest ws', next? n '/' ('/' :: more) = some ([], rest) ∧ Blank ws' ∧ ws'.length ≤ ws.length ∧
      next? m '/' ('/' :: (more ++ ws)) = some ([], rest ++ ws') := by
  have hnext (k : Nat) (cs : List Char) :
      next? k '/' ('/' :: cs) = some ([], (cs.dropWhile (· != '\n')).drop 1) := rfl
  simp only [hnext]
  by_cases hend : more.dropWhile (· != '\n') = []
  · refine ⟨[], (ws.dropWhile (· != '\n')).drop 1, by simp [hend], fun c hc ↦ ?_, ?_, ?_⟩
    · exact hws c ((List.dropWhile_sublist _).subset (List.mem_of_mem_drop hc))
    · exact (List.drop_sublist 1 _).length_le.trans (List.length_dropWhile_le _ _)
    · simp [List.dropWhile_append, hend]
  · refine ⟨(more.dropWhile (· != '\n')).drop 1, ws, rfl, hws, le_rfl, ?_⟩
    have hone : 1 ≤ (more.dropWhile (· != '\n')).length := List.length_pos_iff.mpr hend
    rw [List.dropWhile_append, if_neg (by simpa using hend), List.drop_append_of_le_length hone]

theorem exists_next?_append (hws : Blank ws) (c : Char) (rest : List Char) {n m : Nat}
    (hn : rest.length ≤ n) (hm : (rest ++ ws).length ≤ m) :
    ∃ ws', Blank ws' ∧ ws'.length ≤ ws.length ∧
      next? m c (rest ++ ws) = (next? n c rest).map fun p ↦ (p.1, p.2 ++ ws') := by
  by_cases hline : c = '/' ∧ rest.head? = some '/'
  · obtain ⟨rfl, hhead⟩ := hline
    obtain ⟨more, rfl⟩ := List.head?_eq_some_iff.mp hhead
    obtain ⟨rest, ws', hread, hws', hlength, hmore⟩ := next?_line_comment hws more n m
    exact ⟨ws', hws', hlength, by rw [List.cons_append, hmore, hread]; rfl⟩
  · have hline' : c = '/' → rest.head? ≠ some '/' := fun hc hhead ↦ hline ⟨hc, hhead⟩
    exact ⟨ws, hws, le_rfl, next?_append hws c rest hline' hn hm⟩

theorem next?_blank {c : Char} (hc : isBlank c = true) (n : Nat) (rest : List Char) :
    next? n c rest = some ([], rest) := by
  unfold next?
  rw [if_pos hc]

theorem tokens?_blank (hws : Blank ws) {m : Nat} (hm : ws.length ≤ m) : tokens? m ws = some [] := by
  induction ws generalizing m with
  | nil => cases m <;> rfl
  | cons w ws ih =>
    obtain ⟨m, rfl⟩ : ∃ k, m = k + 1 := ⟨m - 1, by simp at hm; omega⟩
    have hrest := ih (fun c hc ↦ hws c (List.mem_cons_of_mem w hc)) (Nat.le_of_succ_le_succ hm)
    simp [tokens?, next?_blank (hws w List.mem_cons_self), hrest]

theorem tokens?_append (hws : Blank ws) {n m : Nat} (cs : List Char) (hn : cs.length ≤ n)
    (hm : (cs ++ ws).length ≤ m) : tokens? m (cs ++ ws) = tokens? n cs := by
  induction n generalizing m cs ws with
  | zero =>
    obtain rfl := List.length_eq_zero_iff.mp (Nat.le_zero.mp hn)
    exact tokens?_blank hws hm
  | succ n ih =>
    cases cs with
    | nil => exact tokens?_blank hws hm
    | cons c rest =>
      obtain ⟨m, rfl⟩ : ∃ k, m = k + 1 := ⟨m - 1, by simp at hm; omega⟩
      simp only [List.length_cons, List.cons_append, Nat.add_le_add_iff_right] at hn hm
      obtain ⟨ws', hws', hlength, hnext⟩ := exists_next?_append hws c rest hn hm
      simp only [List.cons_append, tokens?, hnext]
      cases hread : next? n c rest with
      | none => rfl
      | some p =>
        have hle := length_next?_le hread
        have hm' : (p.2 ++ ws').length ≤ m := by
          rw [List.length_append] at hm ⊢
          omega
        simp [ih hws' p.2 (hle.trans hn) hm']

theorem tokens?_blank_append (hws : Blank ws) {n m : Nat} (cs : List Char) (hn : cs.length ≤ n)
    (hm : (ws ++ cs).length ≤ m) : tokens? m (ws ++ cs) = tokens? n cs := by
  induction ws generalizing m with
  | nil =>
    have hnil : Blank [] := by simp [Blank]
    simpa using tokens?_append hnil cs hn (by simpa using hm)
  | cons w ws ih =>
    obtain ⟨m, rfl⟩ : ∃ k, m = k + 1 := ⟨m - 1, by simp at hm; omega⟩
    have hrest := ih (fun c hc ↦ hws c (List.mem_cons_of_mem w hc)) (Nat.le_of_succ_le_succ hm)
    simp [tokens?, next?_blank (hws w List.mem_cons_self), hrest]

theorem parse?_padded {before after : List Char} (hbefore : Blank before) (hafter : Blank after) :
    parse? (String.ofList (before ++ cs ++ after)) = parse? (String.ofList cs) := by
  have htokens : tokens? (before ++ cs ++ after).length (before ++ cs ++ after) = tokens? cs.length cs := by
    rw [tokens?_append hafter (before ++ cs) le_rfl le_rfl, tokens?_blank_append hbefore cs le_rfl le_rfl]
  simp only [parse?, String.length_ofList, String.toList_ofList, htokens]

theorem spell_blank (hws : Blank ws) :
    ws.flatMap (fun c ↦ if c == '$' then dollarSpelling.toList else [c]) = ws := by
  induction ws with
  | nil => rfl
  | cons w ws ih =>
    have hne : w ≠ '$' := ne_of_isBlank (hws w List.mem_cons_self) (by decide)
    rw [List.flatMap_cons, ih fun c hc ↦ hws c (List.mem_cons_of_mem w hc), if_neg (by simpa using hne)]
    rfl

/-- The references in a field are those in the trimmed field. -/
theorem references_trim (f : String) : references (trim f) = references f := by
  obtain ⟨before, after, hbefore, hafter, hf⟩ := padded_trim f
  have hspell : spellDollars f = String.ofList (before ++ (spellDollars (trim f)).toList ++ after) := by
    rw [spellDollars, hf, List.flatMap_append, List.flatMap_append, spell_blank hbefore, spell_blank hafter,
      spellDollars, String.toList_ofList]
  rw [references, references, hspell, parse?_padded hbefore hafter, String.ofList_toList]

end FlowAudit.MergeField
