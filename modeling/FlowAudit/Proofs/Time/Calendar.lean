import FlowAudit.Time
import Mathlib.Tactic.IntervalCases

namespace FlowAudit.Time

/-- Whether the calendar has such a day. -/
structure IsDate (year : Int) (month day : Nat) : Prop where
  month_pos : 1 ≤ month
  month_le : month ≤ 12
  day_pos : 1 ≤ day
  day_le : day ≤ daysInMonth year month

theorem isLeap_iff {y : Int} : isLeap y = true ↔ y % 4 = 0 ∧ (y % 100 = 0 → y % 400 = 0) := by
  simp only [isLeap, Bool.and_eq_true, Bool.or_eq_true, bne_iff_ne, beq_iff_eq]
  omega

theorem le_daysInMonth_iff {y : Int} {m d : Nat} :
    d ≤ daysInMonth y m ↔ d ≤ 31 ∧ (m = 4 ∨ m = 6 ∨ m = 9 ∨ m = 11 → d ≤ 30) ∧
      (m = 2 → d ≤ 29 ∧ (d = 29 → y % 4 = 0 ∧ (y % 100 = 0 → y % 400 = 0))) := by
  by_cases h : isLeap y = true
  all_goals
    have h' := isLeap_iff (y := y)
    simp only [h] at h'
    grind [daysInMonth]

section Era

theorem era_split {n : Int} (h0 : 0 ≤ n) (h1 : n < 146097) :
    ∃ c q k r : Int, 0 ≤ c ∧ c < 4 ∧ 0 ≤ q ∧ q < 25 ∧ 0 ≤ k ∧ k < 4 ∧ 0 ≤ r ∧ r ≤ 365 ∧
      (r = 365 → k = 3 ∧ (q = 24 → c = 3)) ∧ n = 36524 * c + 1461 * q + 365 * k + r := by
  obtain ⟨c, hc⟩ : ∃ c, c = min (n / 36524) 3 := ⟨_, rfl⟩
  obtain ⟨q, hq⟩ : ∃ q, q = (n - 36524 * c) / 1461 := ⟨_, rfl⟩
  obtain ⟨k, hk⟩ : ∃ k, k = min ((n - 36524 * c - 1461 * q) / 365) 3 := ⟨_, rfl⟩
  refine ⟨c, q, k, n - 36524 * c - 1461 * q - 365 * k, ?_⟩
  omega

theorem yearOfEra_eq {c q k r n : Int} (hc0 : 0 ≤ c) (hc : c < 4) (hq0 : 0 ≤ q) (hq : q < 25)
    (hk0 : 0 ≤ k) (hk : k < 4) (hr0 : 0 ≤ r) (hr : r ≤ 365)
    (hleap : r = 365 → k = 3 ∧ (q = 24 → c = 3))
    (hn : n = 36524 * c + 1461 * q + 365 * k + r) :
    (n - n / 1460 + n / 36524 - n / 146096) / 365 = 100 * c + 4 * q + k := by
  by_cases hlast : n = 146096
  · omega
  · have hera : n / 146096 = 0 := by omega
    have hcentury : n / 36524 = c := by omega
    have hcycle : n / 1460 = 25 * c + q + if 1460 ≤ 24 * c + q + 365 * k + r then 1 else 0 := by
      split <;> omega
    rw [hera, hcentury, hcycle]
    split <;> omega

/-- The year of an era that a day falls in, and the day of that year. The 366th day is there in the years
before a leap year, as years begin in March. -/
theorem yearOfEra_spec {n : Int} (h0 : 0 ≤ n) (h1 : n < 146097) :
    ∃ y r : Int, (n - n / 1460 + n / 36524 - n / 146096) / 365 = y ∧ 0 ≤ y ∧ y < 400 ∧
      n - (365 * y + y / 4 - y / 100) = r ∧ 0 ≤ r ∧ r ≤ 365 ∧
      (r = 365 → (y + 1) % 4 = 0 ∧ ((y + 1) % 100 = 0 → (y + 1) % 400 = 0)) := by
  obtain ⟨c, q, k, r, hc0, hc, hq0, hq, hk0, hk, hr0, hr, hleap, hn⟩ := era_split h0 h1
  refine ⟨_, r, yearOfEra_eq hc0 hc hq0 hq hk0 hk hr0 hr hleap hn, by omega, by omega, ?_, hr0, hr,
    fun h => ?_⟩
  · have h4 : (100 * c + 4 * q + k) / 4 = 25 * c + q := by omega
    have h100 : (100 * c + 4 * q + k) / 100 = c := by omega
    rw [h4, h100]
    omega
  · obtain ⟨rfl, hcq⟩ := hleap h
    clear hleap hn h0 h1
    by_cases hq24 : q = 24
    · have := hcq hq24
      omega
    · have h4 : (100 * c + 4 * q + 3 + 1) % 4 = 0 := by omega
      have h100 : (100 * c + 4 * q + 3 + 1) % 100 ≠ 0 := by omega
      exact ⟨h4, fun h => absurd h h100⟩

end Era

def daysToMarch (y : Int) : Int := 365 * y + y / 4 - y / 100 + y / 400 - 719468

def daysSinceMarch (month : Nat) : Int :=
  (153 * (if 2 < month then (month : Int) - 3 else month + 9) + 2) / 5

theorem daysFromCivil_eq (y : Int) (m d : Nat) :
    daysFromCivil y m d =
      daysToMarch (if m ≤ 2 then y - 1 else y) + daysSinceMarch m + d - 1 := by
  simp only [daysFromCivil, daysToMarch, daysSinceMarch, Int.fdiv_eq_ediv_of_nonneg _ (by decide : (0:Int) ≤ 400)]
  generalize (if m ≤ 2 then y - 1 else y) = y'
  omega

theorem daysToMarch_le {y y' : Int} (h : y ≤ y') : daysToMarch y ≤ daysToMarch y' := by
  simp only [daysToMarch]
  omega

/-- A year that begins in March has a day more where the next year of the calendar is a leap year. -/
theorem daysToMarch_succ (y : Int) :
    daysToMarch (y + 1) = daysToMarch y + 365 +
      if (y + 1) % 4 = 0 ∧ ((y + 1) % 100 = 0 → (y + 1) % 400 = 0) then 1 else 0 := by
  have h4 : (y + 1) / 4 = y / 4 + if (y + 1) % 4 = 0 then 1 else 0 := by split <;> omega
  have h100 : (y + 1) / 100 = y / 100 + if (y + 1) % 100 = 0 then 1 else 0 := by split <;> omega
  have h400 : (y + 1) / 400 = y / 400 + if (y + 1) % 400 = 0 then 1 else 0 := by split <;> omega
  simp only [daysToMarch, h4, h100, h400]
  generalize y / 4 = a, y / 100 = b, y / 400 = c
  split <;> split <;> split <;> split <;> omega

/-- The days from March to December end before January begins, and each month before the next. -/
theorem daysSinceMarch_add_le {m d : Nat} (h2 : 2 < m) (h12 : m ≤ 12) (hd : d ≤ 31)
    (hd' : m = 4 ∨ m = 6 ∨ m = 9 ∨ m = 11 → d ≤ 30) :
    daysSinceMarch m + d ≤ 306 ∧ ∀ m', m < m' → daysSinceMarch m + d ≤ daysSinceMarch m' := by
  constructor
  · simp only [daysSinceMarch, h2, if_true]
    interval_cases m <;> omega
  · intro m' hlt
    have h2' : 2 < m' := by omega
    simp only [daysSinceMarch, h2, h2', if_true]
    interval_cases m <;> omega

/-- The days of a year that begins in March all come before the next such year. -/
theorem daysFromCivil_lt_daysToMarch {y : Int} {m d : Nat} (h : IsDate y m d) :
    daysFromCivil y m d < daysToMarch ((if m ≤ 2 then y - 1 else y) + 1) := by
  obtain ⟨hm, hm12, hd, hdim⟩ := h
  obtain ⟨hd31, hd30, hd29⟩ := le_daysInMonth_iff.1 hdim
  rw [daysFromCivil_eq, daysToMarch_succ]
  by_cases h2 : 2 < m
  · have := (daysSinceMarch_add_le h2 hm12 hd31 hd30).1
    split <;> omega
  · obtain rfl | rfl : m = 1 ∨ m = 2 := by omega
    · have h1 : daysSinceMarch 1 = 306 := rfl
      split <;> omega
    · have h1 : daysSinceMarch 2 = 337 := rfl
      have hy : y - 1 + 1 = y := by omega
      simp only [le_refl, if_true, hy, h1]
      split <;> omega

theorem daysToMarch_le_daysFromCivil {y : Int} {m d : Nat} (h : IsDate y m d) :
    daysToMarch (if m ≤ 2 then y - 1 else y) ≤ daysFromCivil y m d := by
  have hd := h.day_pos
  have hpos : 0 ≤ daysSinceMarch m := by
    simp only [daysSinceMarch]
    omega
  rw [daysFromCivil_eq]
  omega

theorem daysFromCivil_lt {y y' : Int} {m m' d d' : Nat} (h : IsDate y m d) (h' : IsDate y' m' d')
    (hlt : y < y' ∨ y = y' ∧ (m < m' ∨ m = m' ∧ d < d')) :
    daysFromCivil y m d < daysFromCivil y' m' d' := by
  have hlast := daysFromCivil_lt_daysToMarch h
  have hfirst := daysToMarch_le_daysFromCivil h'
  obtain ⟨hm, hm12, hd, hdim⟩ := h
  obtain ⟨hm', hm12', hd', -⟩ := h'
  obtain ⟨hd31, hd30, hd29⟩ := le_daysInMonth_iff.1 hdim
  by_cases hy : (if m ≤ 2 then y - 1 else y) < (if m' ≤ 2 then y' - 1 else y')
  · have := daysToMarch_le (Int.add_one_le_of_lt hy)
    omega
  · -- the two years that begin in March are the same one
    have hyear : (if m ≤ 2 then y - 1 else y) = (if m' ≤ 2 then y' - 1 else y') := by omega
    rw [daysFromCivil_eq, daysFromCivil_eq, hyear]
    have h1 : daysSinceMarch 1 = 306 := rfl
    have h2 : daysSinceMarch 2 = 337 := rfl
    clear hlast hfirst
    by_cases hmarch : 2 < m
    · obtain ⟨hjan, hnext⟩ := daysSinceMarch_add_le hmarch hm12 hd31 hd30
      by_cases hmarch' : 2 < m'
      · have hyy : y = y' := by simpa [hmarch.not_ge, hmarch'.not_ge] using hyear
        obtain hmm | ⟨rfl, hdd⟩ : m < m' ∨ m = m' ∧ d < d' := by omega
        · have := hnext m' hmm
          omega
        · omega
      · obtain rfl | rfl : m' = 1 ∨ m' = 2 := by omega
        all_goals omega
    · have hmarch' : ¬2 < m' := by
        intro hmarch'
        simp only [Nat.not_lt.1 hmarch, hmarch'.not_ge, if_true, if_false] at hyear
        omega
      obtain rfl | rfl : m = 1 ∨ m = 2 := by omega
      all_goals
        obtain rfl | rfl : m' = 1 ∨ m' = 2 := by omega
        all_goals omega

/-- The month and day of the calendar that a day of a year that begins in March is. -/
theorem monthOfYear_spec {r : Int} (h0 : 0 ≤ r) (h1 : r ≤ 365) :
    ∃ m d : Nat, (if (5 * r + 2) / 153 < 10 then (5 * r + 2) / 153 + 3 else (5 * r + 2) / 153 - 9) = m ∧
      r - (153 * ((5 * r + 2) / 153) + 2) / 5 + 1 = d ∧ 1 ≤ m ∧ m ≤ 12 ∧ 1 ≤ d ∧ d ≤ 31 ∧
      (m = 4 ∨ m = 6 ∨ m = 9 ∨ m = 11 → d ≤ 30) ∧ (m = 2 → d ≤ 29 ∧ (d = 29 → r = 365)) ∧
      daysSinceMarch m + d - 1 = r := by
  obtain ⟨p, hp⟩ : ∃ p, (5 * r + 2) / 153 = p := ⟨_, rfl⟩
  have hp0 : 0 ≤ p := by omega
  have hp11 : p < 12 := by omega
  rw [hp]
  refine ⟨(if p < 10 then p + 3 else p - 9).toNat, (r - (153 * p + 2) / 5 + 1).toNat, ?_⟩
  simp only [daysSinceMarch]
  interval_cases p <;> simp <;> omega

theorem daysToMarch_era {y e : Int} (h0 : 0 ≤ y) (h1 : y < 400) :
    daysToMarch (y + e * 400) = e * 146097 + (365 * y + y / 4 - y / 100) - 719468 := by
  simp only [daysToMarch]
  omega

/-- The date of a day is one of the calendar, and the day is told from it. -/
theorem civilFromDays_spec (n : Int) :
    ∃ (y : Int) (m d : Nat), civilFromDays n = (y, (m : Int), (d : Int)) ∧ IsDate y m d ∧
      daysFromCivil y m d = n := by
  obtain ⟨e, he⟩ : ∃ e, (n + 719468) / 146097 = e := ⟨_, rfl⟩
  obtain ⟨y, r, hy, hy0, hy400, hr, hr0, hr365, hleap⟩ :=
    @yearOfEra_spec (n + 719468 - e * 146097) (by omega) (by omega)
  obtain ⟨m, d, hm, hd, hm1, hm12, hd1, hd31, hd30, hd29, hback⟩ := monthOfYear_spec hr0 hr365
  refine ⟨y + e * 400 + (if m ≤ 2 then 1 else 0), m, d, ?_, ⟨hm1, hm12, hd1, ?_⟩, ?_⟩
  · have hle : ((m : Int) ≤ 2) = (m ≤ 2) := by simp
    simp only [civilFromDays, Int.fdiv_eq_ediv_of_nonneg _ (by decide : (0 : Int) ≤ 146097), he, hy, hr,
      hm, hd, hle]
  · refine le_daysInMonth_iff.2 ⟨hd31, hd30, fun h2 => ⟨(hd29 h2).1, fun h => ?_⟩⟩
    obtain ⟨h4, h100⟩ := hleap ((hd29 h2).2 h)
    simp only [h2, le_refl, if_true]
    omega
  · have hyear : (if m ≤ 2 then y + e * 400 + (if m ≤ 2 then 1 else 0) - 1
        else y + e * 400 + (if m ≤ 2 then 1 else 0)) = y + e * 400 := by
      split <;> omega
    rw [daysFromCivil_eq, hyear, daysToMarch_era hy0 hy400]
    omega

end FlowAudit.Time
