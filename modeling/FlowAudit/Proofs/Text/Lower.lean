import FlowAudit.Text.Character
import Mathlib

namespace FlowAudit.Text

variable {c x : Char} {s t : String}

/-- Nothing but itself has a character that is not a letter as its lower case. -/
theorem eq_of_toLower_eq (h : c.toLower = x) (hx : x.isAlpha = false) : c = x := by
  by_cases hupper : c.isUpper
  · have hlower : x.isLower = true := by
      rw [← h, Char.isLower_toLower_eq_isAlpha, Char.isAlpha, hupper, Bool.true_or]
    simp [Char.isAlpha, hlower] at hx
  · rw [← h, Char.toLower_eq_of_not_isUpper hupper]

theorem eq_dot_of_lowerChar_eq (h : lowerChar c = '.') : c = '.' := by
  rw [lowerChar] at h
  split at h
  · exact eq_of_toLower_eq h (by decide)
  · next hascii =>
    cases hlookup : resizedByLower.lookup c.toNat with
    | none => simpa [hlookup] using h
    | some n =>
      have hresized : ∀ p ∈ resizedByLower, Char.ofNat p.2 ≠ '.' := by decide
      obtain ⟨before, after, htable, -⟩ := List.lookup_eq_some_iff.1 hlookup
      have hmem : (c.toNat, n) ∈ resizedByLower := by simp [htable]
      rw [hlookup] at h
      exact absurd h (hresized _ hmem)

theorem lower_append (s t : String) : lower (s ++ t) = lower s ++ lower t := by
  simp [lower]

theorem endsWith_iff : s.endsWith t = true ↔ t.toList <:+ s.toList := by
  rw [String.endsWith_eq_endsWith_toSlice, String.Slice.endsWith_string_iff, String.copy_toSlice]

end FlowAudit.Text
