import FlowAudit.Text.Numeral
import Mathlib.Data.List.TakeDrop
import Mathlib.Tactic.Ring

namespace FlowAudit.Text

variable {base n w : Nat} {c : Char} {cs rest : List Char}

theorem span_append {p : Char → Bool} (hcs : ∀ c ∈ cs, p c = true)
    (hrest : ∀ c ∈ rest.head?, p c = false) : (cs ++ rest).span p = (cs, rest) := by
  rw [List.span_eq_takeWhile_dropWhile, List.takeWhile_append_of_pos hcs,
    List.dropWhile_append_of_pos hcs]
  cases rest with
  | nil => simp
  | cons c rest => simp [hrest c rfl]

theorem digitValue?_of_isDigit (h : c.isDigit) : digitValue? c = some (c.toNat - '0'.toNat) := by
  rw [digitValue?, if_pos h]

theorem digitValue?_hexDigit (h : n < 16) : digitValue? (hexDigit n) = some n := by
  decide +revert

theorem isDigit_iff : c.isDigit ↔ 48 ≤ c.toNat ∧ c.toNat ≤ 57 := by
  simp only [Char.isDigit, Bool.and_eq_true, decide_eq_true_eq, UInt32.le_iff_toNat_le]
  rfl

theorem digitValue_lt_ten (h : c.isDigit) : c.toNat - '0'.toNat < 10 := by
  have hzero : '0'.toNat = 48 := rfl
  have hrange := isDigit_iff.mp h
  omega

theorem readDigits?_of_isDigit (hne : cs ≠ []) (h : ∀ c ∈ cs, c.isDigit) :
    readDigits? 10 cs = some (Nat.ofDigitChars 10 cs 0) := by
  have hfold (cs : List Char) (h : ∀ c ∈ cs, c.isDigit) (n : Nat) :
      cs.foldlM (fun n c ↦ do
        let d ← digitValue? c
        if d < 10 then some (n * 10 + d) else none) n = some (Nat.ofDigitChars 10 cs n) := by
    induction cs generalizing n with
    | nil => rfl
    | cons c cs ih =>
      have hc := h c List.mem_cons_self
      rw [List.foldlM_cons, digitValue?_of_isDigit hc, Nat.ofDigitChars_cons, Nat.mul_comm 10 n]
      simp only [Option.bind_eq_bind, Option.bind_some, if_pos (digitValue_lt_ten hc)]
      exact ih (fun c' hc' ↦ h c' (List.mem_cons_of_mem _ hc')) _
  cases cs with
  | nil => exact absurd rfl hne
  | cons c cs => exact hfold (c :: cs) h 0

theorem isDigit_of_mem_toDigits (h : c ∈ Nat.toDigits 10 n) : c.isDigit :=
  Nat.isDigit_of_mem_toDigits (by decide) (by decide) h

theorem digitChar_ne_zero (hn : n < 10) (h : 0 < n) : n.digitChar ≠ '0' := by
  decide +revert

theorem head?_toDigits_ne_zero (h : 0 < n) : (Nat.toDigits 10 n).head? ≠ some '0' := by
  induction n using Nat.strongRecOn with
  | ind n ih =>
    by_cases hn : n < 10
    · simpa [Nat.toDigits_of_lt_base hn] using digitChar_ne_zero hn h
    · have hrest := ih (n / 10) (by omega) (by omega)
      rw [Nat.toDigits_of_base_le (by decide) (by omega)]
      cases hdigits : Nat.toDigits 10 (n / 10) with
      | nil => exact absurd hdigits Nat.toDigits_ne_nil
      | cons d ds => simpa [hdigits] using hrest

theorem isDigit_of_mem_padded (h : c ∈ (padded w n).toList) : c.isDigit := by
  rw [padded, String.toList_ofList, List.mem_append] at h
  obtain h | h := h
  · rw [List.eq_of_mem_replicate h]
    decide
  · exact isDigit_of_mem_toDigits h

theorem padded_ne_nil : (padded w n).toList ≠ [] := by
  simp [padded, Nat.toDigits_ne_nil]

theorem readDigits?_padded (w n : Nat) : readDigits? 10 (padded w n).toList = some n := by
  rw [readDigits?_of_isDigit padded_ne_nil fun c ↦ isDigit_of_mem_padded, padded,
    String.toList_ofList, Nat.ofDigitChars_append, Nat.ofDigitChars_replicate_zero, Nat.mul_zero,
    Nat.ofDigitChars_ten_toDigits]

theorem padded_succ (h : 0 < w) (n : Nat) :
    (padded (w + 1) n).toList = (padded w (n / 10)).toList ++ [(n % 10).digitChar] := by
  simp only [padded, String.toList_ofList]
  by_cases hn : n < 10
  · rw [Nat.toDigits_of_lt_base hn, Nat.div_eq_of_lt hn, Nat.mod_eq_of_lt hn, Nat.toDigits_zero]
    obtain ⟨w, rfl⟩ := Nat.exists_eq_add_of_lt h
    simp [List.replicate_succ']
  · rw [Nat.toDigits_of_base_le (by decide) (by omega), List.length_append, List.length_singleton,
      Nat.add_sub_add_right, List.append_assoc]

theorem padded_one (h : n < 10) : (padded 1 n).toList = [n.digitChar] := by
  simp [padded, Nat.toDigits_of_lt_base h]

theorem padded_two (h : n < 100) :
    (padded 2 n).toList = [(n / 10).digitChar, (n % 10).digitChar] := by
  rw [padded_succ (by decide), padded_one (by omega), List.singleton_append]

theorem length_padded (hw : 0 < w) (h : n < 10 ^ w) : (padded w n).toList.length = w := by
  have hlen := (Nat.length_toDigits_le_iff (b := 10) (n := n) (by decide) hw).mpr h
  simp only [padded, String.toList_ofList, List.length_append, List.length_replicate]
  omega

theorem hex_succ (w n : Nat) : hex (w + 1) n = hexDigit (n / 16 ^ w % 16) :: hex w n := by
  simp [hex, List.range_succ]

theorem readDigits?_hex (h : 0 < w) (n : Nat) : readDigits? 16 (hex w n) = some (n % 16 ^ w) := by
  have hfold (w m : Nat) : (hex w n).foldlM (fun n c ↦ do
      let d ← digitValue? c
      if d < 16 then some (n * 16 + d) else none) m = some (m * 16 ^ w + n % 16 ^ w) := by
    induction w generalizing m with
    | zero => simp [hex, Nat.mod_one]
    | succ w ih =>
      have hdigit : n / 16 ^ w % 16 < 16 := Nat.mod_lt _ (by decide)
      rw [hex_succ, List.foldlM_cons, digitValue?_hexDigit hdigit]
      simp only [Option.bind_eq_bind, Option.bind_some, if_pos hdigit]
      refine (ih _).trans (congrArg some ?_)
      rw [Nat.mod_pow_succ, Nat.pow_succ]
      ring
  obtain ⟨w, rfl⟩ := Nat.exists_eq_add_of_lt h
  rw [Nat.zero_add, hex_succ, readDigits?, ← hex_succ, hfold, Nat.zero_mul, Nat.zero_add]
  exact List.cons_ne_nil _ _

end FlowAudit.Text
