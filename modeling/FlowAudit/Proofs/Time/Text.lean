import FlowAudit.Proofs.Text.Numeral
import FlowAudit.Proofs.Time.Calendar
import Mathlib.Data.List.DropRight

namespace FlowAudit.Time

open Text

/-- What calendar and clock show at a time in its zone, and how the text of a time tells it. -/
structure Shows (t : Time) (year : Int) (month day hour minute second : Nat) : Prop where
  date : IsDate year month day
  hour_lt : hour < 24
  minute_lt : minute < 60
  second_lt : second < 60
  seconds_eq : t.seconds + t.offset =
    daysFromCivil year month day * 86400 + hour * 3600 + minute * 60 + second
  year_eq : t.year = year
  text_eq : ∀ separator, t.clockText separator =
    pad 4 year ++ "-" ++ padded 2 month ++ "-" ++ padded 2 day ++ separator ++ padded 2 hour ++ ":" ++
      padded 2 minute ++ ":" ++ padded 2 second

theorem pad_natCast (w n : Nat) : pad w n = padded w n := by
  simp [pad]

theorem exists_shows (t : Time) : ∃ y m d h n s, t.Shows y m d h n s := by
  obtain ⟨z, hz⟩ : ∃ z, (t.seconds + t.offset).fdiv 86400 = z := ⟨_, rfl⟩
  obtain ⟨k, hk⟩ : ∃ k : Nat, t.seconds + t.offset - z * 86400 = k := by
    rw [Int.fdiv_eq_ediv_of_nonneg _ (by decide)] at hz
    exact ⟨(t.seconds + t.offset - z * 86400).toNat, by omega⟩
  have hlt : k < 86400 := by
    rw [Int.fdiv_eq_ediv_of_nonneg _ (by decide)] at hz
    omega
  obtain ⟨y, m, d, hcivil, hdate, hdays⟩ := civilFromDays_spec z
  have hhour : (k : Int) / 3600 = (k / 3600 : Nat) := by omega
  have hminute : (k : Int) / 60 % 60 = (k / 60 % 60 : Nat) := by omega
  have hsecond : (k : Int) % 60 = (k % 60 : Nat) := by omega
  refine ⟨y, m, d, k / 3600, k / 60 % 60, k % 60, hdate, by omega, by omega, by omega, ?_, ?_, ?_⟩
  · omega
  · rw [year, hz, hcivil]
  · intro separator
    simp only [clockText, hz, hk, hcivil, hhour, hminute, hsecond, pad_natCast]

section Digits

theorem twoDigits?_digitChar :
    ∀ a < 10, ∀ b < 10, twoDigits? a.digitChar b.digitChar = some (a * 10 + b) := by
  decide

theorem twoDigits?_padded {n : Nat} (h : n < 100) :
    twoDigits? (n / 10).digitChar (n % 10).digitChar = some n := by
  rw [twoDigits?_digitChar _ (by omega) _ (by omega)]
  congr 1
  omega

theorem padded_four {n : Nat} (h : n < 10000) : (padded 4 n).toList =
    [(n / 100 / 10).digitChar, (n / 100 % 10).digitChar, (n % 100 / 10).digitChar,
      (n % 100 % 10).digitChar] := by
  have h1 : n / 10 / 10 = n / 100 := by omega
  have h2 : n / 10 % 10 = n % 100 / 10 := by omega
  have h3 : n % 10 = n % 100 % 10 := by omega
  rw [padded_succ (by decide), padded_succ (by decide), h1, h2, h3, padded_two (by omega)]
  rfl

end Digits

variable {t : Time} {y : Int} {m d h n s : Nat} {rest : List Char}

theorem readDate?_append {y : Nat} (hy : y < 10000) (hdate : IsDate y m d) :
    readDate? ((pad 4 y ++ "-" ++ padded 2 m ++ "-" ++ padded 2 d).toList ++ rest) =
      some (((y : Int), m, d), rest) := by
  obtain ⟨hm, hm12, hd, hdim⟩ := hdate
  have hd31 := (le_daysInMonth_iff.1 hdim).1
  have hyear : (y : Int) / 100 * 100 + (y : Int) % 100 = y := by omega
  simp only [pad_natCast, String.toList_append, padded_four hy, padded_two (show m < 100 by omega),
    padded_two (show d < 100 by omega), show "-".toList = ['-'] from rfl,
    List.cons_append, List.nil_append, readDate?, twoDigits?_padded (show y / 100 < 100 by omega),
    twoDigits?_padded (show y % 100 < 100 by omega), twoDigits?_padded (show m < 100 by omega),
    twoDigits?_padded (show d < 100 by omega)]
  simp [hyear, hdim]
  omega

theorem readClock?_append (hh : h < 24) (hn : n < 60) (hs : s < 60) :
    readClock? ((padded 2 h ++ ":" ++ padded 2 n ++ ":" ++ padded 2 s).toList ++ rest) =
      some (h * 3600 + n * 60 + s, rest) := by
  simp only [String.toList_append, padded_two (show h < 100 by omega),
    padded_two (show n < 100 by omega), padded_two (show s < 100 by omega),
    show ":".toList = [':'] from rfl, List.cons_append, List.nil_append, readClock?,
    shortNumber?, twoDigits?_padded (show h < 100 by omega)]
  simp [twoDigits?_padded (show n < 100 by omega), twoDigits?_padded (show s < 100 by omega)]
  omega

section Fraction

def decimals (nanos : Nat) : List Char := (padded 9 nanos).toList.rdropWhile (· == '0')

theorem toList_fraction (nanos : Nat) :
    (fraction nanos).toList = if nanos = 0 then [] else '.' :: decimals nanos := by
  by_cases h : nanos = 0 <;> simp [fraction, decimals, List.rdropWhile, h]

theorem isDigit_of_mem_decimals {nanos : Nat} {c : Char} (h : c ∈ decimals nanos) : c.isDigit :=
  isDigit_of_mem_padded (( List.rdropWhile_prefix _ _).mem h)

theorem decimals_ne_nil {nanos : Nat} (h : nanos ≠ 0) : decimals nanos ≠ [] := by
  intro hnil
  rw [decimals, List.rdropWhile_eq_nil_iff] at hnil
  have hzeros : (padded 9 nanos).toList = List.replicate _ '0' :=
    List.eq_replicate_of_mem fun c hc ↦ by simpa using hnil c hc
  have hread := readDigits?_padded 9 nanos
  rw [readDigits?_of_isDigit padded_ne_nil fun c ↦ isDigit_of_mem_padded, hzeros,
    Nat.ofDigitChars_replicate_zero] at hread
  simp at hread
  omega

theorem decimals_append_zeros {nanos : Nat} (h : nanos < 10 ^ 9) :
    (decimals nanos ++ List.replicate 9 '0').take 9 = (padded 9 nanos).toList := by
  have hsplit : decimals nanos ++ (padded 9 nanos).toList.rtakeWhile (· == '0') =
      (padded 9 nanos).toList := List.rdropWhile_append_rtakeWhile
  have hlen := congrArg List.length hsplit
  rw [List.length_append, length_padded (by decide) h] at hlen
  have hzeros : (padded 9 nanos).toList.rtakeWhile (· == '0') = List.replicate _ '0' :=
    List.eq_replicate_of_mem fun c hc ↦ by simpa using List.mem_rtakeWhile_imp hc
  have hmin : min (9 - (decimals nanos).length) 9 =
      ((padded 9 nanos).toList.rtakeWhile (· == '0')).length := by omega
  rw [← hsplit, hzeros, List.take_append, List.take_replicate, List.take_of_length_le (by omega), hmin]

theorem readNanos?_decimals {nanos : Nat} (h : nanos < 10 ^ 9) :
    readNanos? (decimals nanos) = some nanos := by
  rw [readNanos?, decimals_append_zeros h, readDigits?_padded]

theorem splitFraction_append {nanos : Nat}
    (hrest : ∀ c ∈ rest.head?, c ≠ '.' ∧ c ≠ ',' ∧ c.isDigit = false) :
    splitFraction ((fraction nanos).toList ++ rest) =
      (if nanos = 0 then [] else decimals nanos, rest) := by
  rw [toList_fraction]
  by_cases h : nanos = 0
  · cases rest with
    | nil => simp [h, splitFraction]
    | cons c rest =>
      obtain ⟨hpoint, hcomma, -⟩ := hrest c rfl
      simp [h, splitFraction, hpoint, hcomma]
  · have hspan : (decimals nanos ++ rest).span Char.isDigit = (decimals nanos, rest) :=
      span_append (fun c ↦ isDigit_of_mem_decimals) fun c hc ↦ (hrest c hc).2.2
    simp [h, splitFraction, hspan, decimals_ne_nil h, -List.span_eq_takeWhile_dropWhile]

end Fraction

theorem wholeMinutes_eq_self_iff {offset : Int} : wholeMinutes offset = offset ↔ offset % 60 = 0 := by
  rw [wholeMinutes]
  split <;> omega

theorem readZone?_zoneText {offset : Int} (hday : offset.natAbs < 24 * 3600) :
    readZone? (zoneText offset).toList = some (wholeMinutes offset) := by
  by_cases h0 : offset = 0
  · subst h0
    rfl
  · obtain ⟨k, hk⟩ : ∃ k, offset.natAbs / 60 = k := ⟨_, rfl⟩
    have hhour : k / 60 < 24 := by omega
    have hsum : ((k / 60 : Nat) : Int) * 3600 + ((k % 60 : Nat) : Int) * 60 = (k : Int) * 60 := by omega
    have hdigits : (padded 2 (k / 60) ++ ":" ++ padded 2 (k % 60)).toList =
        [(k / 60 / 10).digitChar, (k / 60 % 10).digitChar, ':', (k % 60 / 10).digitChar,
          (k % 60 % 10).digitChar] := by
      rw [String.toList_append, String.toList_append, padded_two (by omega), padded_two (by omega)]
      rfl
    have hread (sign : Char) :
        readZone? (sign :: (padded 2 (k / 60) ++ ":" ++ padded 2 (k % 60)).toList) =
          if sign == '+' then some ((k : Int) * 60)
          else if sign == '-' then some (-((k : Int) * 60)) else none := by
      rw [hdigits, readZone?, twoDigits?_padded (by omega), twoDigits?_padded (by omega)]
      simp only [Option.bind_eq_bind, Option.bind_some, hsum]
      simp
      omega
    have hwhole : wholeMinutes offset = if offset ≤ -60 then -((k : Int) * 60) else (k : Int) * 60 := by
      rw [wholeMinutes]
      split_ifs <;> omega
    rw [zoneText, if_neg (by simpa using h0), hwhole]
    simp only [hk, String.append_assoc] at hread ⊢
    split
    · rw [String.toList_append]
      exact hread '-'
    · rw [String.toList_append]
      exact hread '+'

theorem zoneText_head (offset : Int) :
    ∀ c ∈ (zoneText offset).toList.head?, c ≠ '.' ∧ c ≠ ',' ∧ c.isDigit = false := by
  rw [zoneText]
  split
  · simp
  · simp only [String.append_assoc]
    rw [String.toList_append]
    split
    · simp
    · simp

theorem inMinutes_eq_self_iff : t.inMinutes = t ↔ t.offset % 60 = 0 := by
  obtain ⟨seconds, nanos, offset⟩ := t
  simp only [inMinutes, mk.injEq, true_and, ← wholeMinutes_eq_self_iff]
  omega

theorem unwritable?_eq_none_iff :
    t.unwritable? = none ↔ 0 ≤ t.year ∧ t.year ≤ 9999 ∧ t.offset.natAbs < 24 * 3600 := by
  by_cases hyear : t.year < 0 ∨ 9999 < t.year
  · simp [unwritable?, hyear]
    omega
  · by_cases hzone : 24 * 3600 ≤ t.offset.natAbs
    · simp [unwritable?, hyear, hzone]
    · simp [unwritable?, hyear, hzone]
      omega

/-- A time that can be written is read again, but for the seconds of its zone. -/
theorem ofText?_text (hnanos : t.nanos < 10 ^ 9) (hwritable : t.unwritable? = none) :
    ofText? t.text = some t.inMinutes := by
  obtain ⟨y, m, d, h, n, s, hdate, hh, hn, hs, hseconds, hyear, htext⟩ := exists_shows t
  rw [unwritable?_eq_none_iff, hyear] at hwritable
  obtain ⟨y, rfl⟩ := Int.eq_ofNat_of_zero_le hwritable.1
  have hlist : t.text.toList = (pad 4 y ++ "-" ++ padded 2 m ++ "-" ++ padded 2 d).toList ++
      'T' :: ((padded 2 h ++ ":" ++ padded 2 n ++ ":" ++ padded 2 s).toList ++
        ((fraction t.nanos).toList ++ (zoneText t.offset).toList)) := by
    rw [text, htext]
    simp only [String.toList_append, List.append_assoc, show "T".toList = ['T'] from rfl,
      List.cons_append, List.nil_append]
  have hread : readNanos? (if t.nanos = 0 then [] else decimals t.nanos) = some t.nanos := by
    split
    · next h0 =>
      rw [h0]
      rfl
    · exact readNanos?_decimals hnanos
  have hback : daysFromCivil y m d * 86400 + ((h * 3600 + n * 60 + s : Nat) : Int) =
      t.seconds + t.offset := by omega
  rw [ofText?, hlist, readDate?_append (by omega) hdate]
  simp only [Option.bind_eq_bind, Option.bind_some, readClock?_append hh hn hs,
    splitFraction_append (zoneText_head _), hread, readZone?_zoneText hwritable.2.2, hback]
  rfl

section Distinct

variable {a b : Nat} {w : Nat} {rest' : List Char}

theorem padded_append_inj (hw : 0 < w) (ha : a < 10 ^ w) (hb : b < 10 ^ w)
    (heq : (padded w a).toList ++ rest = (padded w b).toList ++ rest') : a = b ∧ rest = rest' := by
  obtain ⟨hdigits, hrest⟩ := List.append_inj heq (by rw [length_padded hw ha, length_padded hw hb])
  have hread := congrArg (readDigits? 10) hdigits
  rw [readDigits?_padded, readDigits?_padded, Option.some.injEq] at hread
  exact ⟨hread, hrest⟩

theorem pad_append_inj {a b : Int} (hrest : ∀ c ∈ rest.head?, c.isDigit = false)
    (hrest' : ∀ c ∈ rest'.head?, c.isDigit = false)
    (heq : (pad w a).toList ++ rest = (pad w b).toList ++ rest') : a = b ∧ rest = rest' := by
  have hdigits (k l : Nat) (h : (padded w k).toList ++ rest = (padded w l).toList ++ rest') :
      k = l ∧ rest = rest' := by
    have hspan := congrArg (List.span Char.isDigit) h
    rw [span_append (fun c ↦ isDigit_of_mem_padded) hrest,
      span_append (fun c ↦ isDigit_of_mem_padded) hrest', Prod.mk.injEq] at hspan
    have hread := congrArg (readDigits? 10) hspan.1
    rw [readDigits?_padded, readDigits?_padded, Option.some.injEq] at hread
    exact ⟨hread, hspan.2⟩
  have hsign (k : Nat) (r r' : List Char) : '-' :: r ≠ (padded w k).toList ++ r' := by
    intro h
    cases hk : (padded w k).toList with
    | nil => exact padded_ne_nil hk
    | cons c cs =>
      rw [hk, List.cons_append, List.cons.injEq] at h
      have hc : c.isDigit := isDigit_of_mem_padded (hk ▸ List.mem_cons_self)
      rw [← h.1] at hc
      exact absurd hc (by decide)
  by_cases ha : a < 0 <;> by_cases hb : b < 0 <;>
    simp only [pad, ha, hb, if_true, if_false, String.toList_append, show "-".toList = ['-'] from rfl,
      String.toList_empty, List.nil_append, List.cons_append, List.cons.injEq, true_and] at heq
  · obtain ⟨habs, h⟩ := hdigits _ _ heq
    exact ⟨by omega, h⟩
  · exact absurd heq (hsign _ _ _)
  · exact absurd heq.symm (hsign _ _ _)
  · obtain ⟨habs, h⟩ := hdigits _ _ heq
    exact ⟨by omega, h⟩

theorem fraction_inj (ha : a < 10 ^ 9) (hb : b < 10 ^ 9)
    (heq : (fraction a).toList = (fraction b).toList) : a = b := by
  rw [toList_fraction, toList_fraction] at heq
  split at heq <;> split at heq
  · omega
  · cases heq
  · cases heq
  · have hread := congrArg readNanos? (List.cons.inj heq).2
    rwa [readNanos?_decimals ha, readNanos?_decimals hb, Option.some.injEq] at hread

/-- Times of one zone that have the same text are the same, in whatever years they are. -/
theorem eq_of_text_eq {t t' : Time} (hzone : t.offset = t'.offset) (hnanos : t.nanos < 10 ^ 9)
    (hnanos' : t'.nanos < 10 ^ 9) (heq : t.text = t'.text) : t = t' := by
  obtain ⟨y, m, d, h, n, s, ⟨-, hm, -, hd⟩, hh, hn, hs, hseconds, -, htext⟩ := exists_shows t
  obtain ⟨y', m', d', h', n', s', ⟨-, hm', -, hd'⟩, hh', hn', hs', hseconds', -, htext'⟩ :=
    exists_shows t'
  have hd31 := (le_daysInMonth_iff.1 hd).1
  have hd31' := (le_daysInMonth_iff.1 hd').1
  have hlist := congrArg String.toList heq
  simp only [text, htext, htext', String.toList_append, List.append_assoc,
    show "-".toList = ['-'] from rfl, show "T".toList = ['T'] from rfl,
    show ":".toList = [':'] from rfl, List.cons_append, List.nil_append] at hlist
  obtain ⟨rfl, hmonth⟩ := pad_append_inj (by simp) (by simp) hlist
  have hday := padded_append_inj (by decide) (by omega) (by omega) (List.cons.inj hmonth).2
  have hhour := padded_append_inj (by decide) (by omega) (by omega) (List.cons.inj hday.2).2
  have hminute := padded_append_inj (by decide) (by omega) (by omega) (List.cons.inj hhour.2).2
  have hsecond := padded_append_inj (by decide) (by omega) (by omega) (List.cons.inj hminute.2).2
  have hend := padded_append_inj (by decide) (by omega) (by omega) (List.cons.inj hsecond.2).2
  obtain ⟨rfl, rfl, rfl, rfl, rfl⟩ : m = m' ∧ d = d' ∧ h = h' ∧ n = n' ∧ s = s' :=
    ⟨hday.1, hhour.1, hminute.1, hsecond.1, hend.1⟩
  have hfraction := hend.2
  rw [hzone, List.append_left_inj] at hfraction
  have hsame := fraction_inj hnanos hnanos' hfraction
  obtain ⟨seconds, nanos, offset⟩ := t
  obtain ⟨seconds', nanos', offset'⟩ := t'
  simp only [mk.injEq] at hseconds hseconds' hzone hsame ⊢
  omega

end Distinct

end FlowAudit.Time
