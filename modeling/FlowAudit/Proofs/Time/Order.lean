import FlowAudit.Database.Basic
import FlowAudit.Proofs.Time.Text
import Mathlib.Data.List.Lex
import Mathlib.Data.String.Basic

namespace FlowAudit

open Text

variable {x x' : List Char}

theorem append_lt_append (h : x < x') (hlength : x.length = x'.length) (r r' : List Char) :
    x ++ r < x' ++ r' := by
  induction h with
  | nil => cases hlength
  | rel h => exact .rel h
  | cons _ ih => exact .cons (ih (Nat.succ.inj hlength))

theorem append_left_lt (p : List Char) (h : x < x') : p ++ x < p ++ x' := List.Lex.append_left _ h p

namespace Text

theorem digitChar_lt_digitChar : ∀ b < 10, ∀ a < b, a.digitChar < b.digitChar := by
  decide

theorem padded_lt_padded {w a b : Nat} (hw : 0 < w) (hab : a < b) (hb : b < 10 ^ w) :
    (padded w a).toList < (padded w b).toList := by
  induction w generalizing a b with
  | zero => cases hw
  | succ w ih =>
    by_cases hzero : w = 0
    · subst hzero
      rw [padded_one (by omega), padded_one (by omega)]
      exact .rel (digitChar_lt_digitChar b hb a hab)
    · have hpos : 0 < w := by omega
      rw [padded_succ hpos, padded_succ hpos]
      have hb' : b / 10 < 10 ^ w := by
        rw [Nat.pow_succ] at hb
        omega
      obtain hlt | heq := (show a / 10 ≤ b / 10 by omega).lt_or_eq
      · refine append_lt_append (ih hpos hlt hb') ?_ _ _
        rw [length_padded hpos (by omega), length_padded hpos hb']
      · rw [heq]
        exact append_left_lt _ (.rel (digitChar_lt_digitChar _ (by omega) _ (by omega)))

end Text

namespace Time

theorem blank_lt_of_isDigit {c : Char} (h : c.isDigit) : ' ' < c := by
  have hrange := isDigit_iff.1 h
  rw [Char.lt_def, UInt32.lt_iff_toNat_lt]
  exact lt_of_lt_of_le (by decide) hrange.1

theorem not_lt_zero_of_isDigit {c : Char} (h : c.isDigit) : ¬c < '0' := by
  have hrange := isDigit_iff.1 h
  rw [Char.lt_def, UInt32.lt_iff_toNat_lt]
  exact not_lt_of_ge hrange.1

theorem rdropWhile_cons (p : Char → Bool) (c : Char) (cs : List Char) :
    (c :: cs).rdropWhile p = if cs.rdropWhile p = [] then if p c then [] else [c]
      else c :: cs.rdropWhile p := by
  induction cs using List.reverseRecOn with
  | nil => simp [List.rdropWhile_singleton]
  | append_singleton cs d ih =>
    rw [← List.cons_append, List.rdropWhile_concat, List.rdropWhile_concat, ih]
    by_cases hd : p d <;> simp [hd]

/-- Decimals are ordered as their numbers are, though zeros at their end are left out: the blank after them
comes before all digits. -/
theorem rdropWhile_lt (h : x < x') (hlength : x.length = x'.length) (hx : ∀ c ∈ x, c.isDigit)
    (hx' : ∀ c ∈ x', c.isDigit) (r r' : List Char) :
    x'.rdropWhile (· == '0') ≠ [] ∧
      x.rdropWhile (· == '0') ++ ' ' :: r < x'.rdropWhile (· == '0') ++ ' ' :: r' := by
  induction h with
  | nil => cases hlength
  | @rel c cs c' cs' h =>
    have hc := hx c List.mem_cons_self
    have hc' : c' ≠ '0' := by
      rintro rfl
      exact not_lt_zero_of_isDigit hc h
    have hkeep : (c' :: cs').rdropWhile (· == '0') = c' :: cs'.rdropWhile (· == '0') := by
      rw [rdropWhile_cons]
      split
      · next hnil => rw [if_neg (by simpa using hc'), hnil]
      · rfl
    rw [hkeep, rdropWhile_cons]
    refine ⟨List.cons_ne_nil _ _, ?_⟩
    split
    · split
      · exact .rel (blank_lt_of_isDigit (hx' c' List.mem_cons_self))
      · exact .rel h
    · exact .rel h
  | @cons c cs cs' _ ih =>
    obtain ⟨hne, hlt⟩ := ih (Nat.succ.inj hlength) (fun d hd ↦ hx d (List.mem_cons_of_mem _ hd))
      fun d hd ↦ hx' d (List.mem_cons_of_mem _ hd)
    rw [rdropWhile_cons _ c cs', if_neg hne, rdropWhile_cons]
    refine ⟨List.cons_ne_nil _ _, ?_⟩
    split
    · next hnil =>
      rw [hnil] at hlt
      split
      · exact .rel (blank_lt_of_isDigit (hx' c List.mem_cons_self))
      · exact .cons hlt
    · exact .cons hlt

theorem fraction_lt {a b : Nat} (hab : a < b) (hb : b < 10 ^ 9) (r r' : List Char) :
    (fraction a).toList ++ ' ' :: r < (fraction b).toList ++ ' ' :: r' := by
  rw [toList_fraction, toList_fraction, if_neg (show b ≠ 0 by omega)]
  split
  · exact .rel (by decide)
  · refine .cons (rdropWhile_lt (padded_lt_padded (by decide) hab hb) ?_ (fun c ↦ isDigit_of_mem_padded)
      (fun c ↦ isDigit_of_mem_padded) r r').2
    rw [length_padded (by decide) (by omega), length_padded (by decide) hb]

theorem numeral_lt {w a b : Nat} (hw : 0 < w) (ha : a < 10 ^ w) (hb : b < 10 ^ w) {r r' : List Char}
    (h : a < b ∨ a = b ∧ r < r') : (padded w a).toList ++ r < (padded w b).toList ++ r' := by
  obtain hlt | ⟨rfl, hlt⟩ := h
  · refine append_lt_append (padded_lt_padded hw hlt hb) ?_ r r'
    rw [length_padded hw ha, length_padded hw hb]
  · exact append_left_lt _ hlt

theorem toList_storedText {t : Time} (hutc : t.offset = 0) : t.storedText.toList =
    (t.clockText " ").toList ++ ((fraction t.nanos).toList ++ ' ' :: "+0000 UTC".toList) := by
  have hzone : zoneDigits 0 = "+0000" := by decide
  have hname : zoneName "" 0 = "UTC" := rfl
  simp [storedText, hutc, hzone, hname]

theorem Shows.clockText_lt {t t' : Time} {y y' m m' d d' h h' n n' s s' : Nat}
    (hshows : t.Shows y m d h n s) (hshows' : t'.Shows y' m' d' h' n' s') (hy : y ≤ 9999)
    (hy' : y' ≤ 9999) {r r' : List Char}
    (hlt : y < y' ∨ y = y' ∧ (m < m' ∨ m = m' ∧ (d < d' ∨ d = d' ∧
      (h < h' ∨ h = h' ∧ (n < n' ∨ n = n' ∧ (s < s' ∨ s = s' ∧ r < r')))))) :
    (t.clockText " ").toList ++ r < (t'.clockText " ").toList ++ r' := by
  obtain ⟨⟨-, hm, -, hd⟩, hh, hn, hs, -, -, htext⟩ := hshows
  obtain ⟨⟨-, hm', -, hd'⟩, hh', hn', hs', -, -, htext'⟩ := hshows'
  have hd31 := (le_daysInMonth_iff.1 hd).1
  have hd31' := (le_daysInMonth_iff.1 hd').1
  simp only [htext, htext', pad_natCast, String.toList_append, List.append_assoc,
    show "-".toList = ['-'] from rfl, show " ".toList = [' '] from rfl, show ":".toList = [':'] from rfl,
    List.cons_append, List.nil_append]
  refine numeral_lt (by decide) (by omega) (by omega) (hlt.imp_right (.imp_right fun hlt ↦ List.Lex.cons ?_))
  refine numeral_lt (by decide) (by omega) (by omega) (hlt.imp_right (.imp_right fun hlt ↦ List.Lex.cons ?_))
  refine numeral_lt (by decide) (by omega) (by omega) (hlt.imp_right (.imp_right fun hlt ↦ List.Lex.cons ?_))
  refine numeral_lt (by decide) (by omega) (by omega) (hlt.imp_right (.imp_right fun hlt ↦ List.Lex.cons ?_))
  refine numeral_lt (by decide) (by omega) (by omega) (hlt.imp_right (.imp_right fun hlt ↦ List.Lex.cons ?_))
  exact numeral_lt (by decide) (by omega) (by omega) hlt

/-- Earlier instants are stored as lesser texts, as long as their years have four digits. -/
theorem storedText_lt {t t' : Time} (hutc : t.offset = 0) (hutc' : t'.offset = 0)
    (hyear : 0 ≤ t.year ∧ t.year ≤ 9999) (hyear' : 0 ≤ t'.year ∧ t'.year ≤ 9999)
    (hnanos' : t'.nanos < 10 ^ 9) (h : t.before t') : t.storedText < t'.storedText := by
  have horder : t.seconds < t'.seconds ∨ t.seconds = t'.seconds ∧ t.nanos < t'.nanos := by
    simpa [before] using h
  obtain ⟨y, m, d, hour, n, s, hshows⟩ := exists_shows t
  obtain ⟨y', m', d', hour', n', s', hshows'⟩ := exists_shows t'
  rw [hshows.year_eq] at hyear
  rw [hshows'.year_eq] at hyear'
  obtain ⟨y, rfl⟩ := Int.eq_ofNat_of_zero_le hyear.1
  obtain ⟨y', rfl⟩ := Int.eq_ofNat_of_zero_le hyear'.1
  rw [String.lt_iff_toList_lt, toList_storedText hutc, toList_storedText hutc']
  refine hshows.clockText_lt hshows' (by omega) (by omega) ?_
  obtain ⟨hdate, hh, hn, hs, hseconds, -, -⟩ := hshows
  obtain ⟨hdate', hh', hn', hs', hseconds', -, -⟩ := hshows'
  obtain hlt | ⟨rfl, rfl, rfl⟩ | hgt :
      (y < y' ∨ y = y' ∧ (m < m' ∨ m = m' ∧ d < d')) ∨ (y = y' ∧ m = m' ∧ d = d') ∨
        (y' < y ∨ y' = y ∧ (m' < m ∨ m' = m ∧ d' < d)) := by omega
  · obtain hlt | ⟨rfl, hlt | ⟨rfl, hlt⟩⟩ := hlt
    · exact .inl hlt
    · exact .inr ⟨rfl, .inl hlt⟩
    · exact .inr ⟨rfl, .inr ⟨rfl, .inl hlt⟩⟩
  · refine .inr ⟨rfl, .inr ⟨rfl, .inr ⟨rfl, ?_⟩⟩⟩
    obtain hlt | ⟨rfl, hlt | ⟨rfl, hlt | ⟨rfl, hlt⟩⟩⟩ :
        hour < hour' ∨ hour = hour' ∧ (n < n' ∨ n = n' ∧ (s < s' ∨ s = s' ∧ t.nanos < t'.nanos)) := by
      omega
    · exact .inl hlt
    · exact .inr ⟨rfl, .inl hlt⟩
    · exact .inr ⟨rfl, .inr ⟨rfl, .inl hlt⟩⟩
    · exact .inr ⟨rfl, .inr ⟨rfl, .inr ⟨rfl, fraction_lt hlt hnanos' _ _⟩⟩⟩
  · have hdays := daysFromCivil_lt hdate' hdate (hgt.imp (by omega) (.imp_left (by omega)))
    omega

end Time

end FlowAudit
