import FlowAudit.Loops.Chain
import Mathlib.Data.List.Basic
import Mathlib.Logic.Relation

namespace FlowAudit.Loops

open Relation

variable {next : String → Option String} {a b t : String}

def Points (next : String → Option String) (a b : String) : Prop := next a = some b

/-- A step from a name that has not been left yet. -/
def Avoiding (next : String → Option String) (seen : List String) (a b : String) : Prop :=
  a ∉ seen ∧ Points next a b

theorem transGen_of_reaches {ch : Chain} {seen : List String} (h : ch.reaches t seen a = true) :
    TransGen (Points ch.next) a t := by
  fun_induction Chain.reaches ch t seen a with
  | case1 => cases h
  | case2 => cases h
  | case3 seen a _ b hnext ih =>
    rw [Bool.or_eq_true, beq_iff_eq] at h
    rcases h with rfl | h
    · exact .single hnext
    · exact .head hnext (ih h)

/-- What lies behind a name can be reached from its successor without coming back to the name: a way
that does come back has the successor on it once more. -/
theorem transGen_avoiding_cons {seen : List String} (ha : next a = some b) (hne : b ≠ t)
    (h : TransGen (Avoiding next seen) b t) : TransGen (Avoiding next (a :: seen)) b t := by
  have hstep : ∀ x y, Avoiding next seen x y → x ≠ a → Avoiding next (a :: seen) x y := by
    intro x y hxy hx
    exact ⟨by simp [hx, hxy.1], hxy.2⟩
  -- From any name before the target, the target is reached from there or from `b`.
  have hgen : ∀ x, TransGen (Avoiding next seen) x t →
      TransGen (Avoiding next (a :: seen)) x t ∨ TransGen (Avoiding next (a :: seen)) b t := by
    intro x hx
    induction hx using TransGen.head_induction_on with
    | @single x hxt =>
      by_cases hxa : x = a
      · subst hxa
        exact absurd (Option.some.inj (ha.symm.trans hxt.2)) hne
      · exact .inl (.single (hstep x t hxt hxa))
    | @head x y hxy _ ih =>
      rcases ih with hy | hb
      · by_cases hxa : x = a
        · subst hxa
          obtain rfl : b = y := Option.some.inj (ha.symm.trans hxy.2)
          exact .inr hy
        · exact .inl (.head (hstep x y hxy hxa) hy)
      · exact .inr hb
  exact (hgen b h).elim id id

theorem reaches_of_transGen {ch : Chain} {seen : List String}
    (h : TransGen (Avoiding ch.next seen) a t) : ch.reaches t seen a = true := by
  fun_induction Chain.reaches ch t seen a with
  | case1 seen a hseen =>
    obtain ⟨b, hab, -⟩ := TransGen.head'_iff.mp h
    exact absurd (by simpa using hseen) hab.1
  | case2 seen a _ hnext =>
    obtain ⟨b, hab, -⟩ := TransGen.head'_iff.mp h
    have hb := hab.2
    simp [Points, hnext] at hb
  | case3 seen a _ b hnext ih =>
    obtain ⟨b', hab, hrest⟩ := TransGen.head'_iff.mp h
    obtain rfl : b = b' := Option.some.inj (hnext.symm.trans hab.2)
    rw [Bool.or_eq_true, beq_iff_eq]
    by_cases hb : b = t
    · exact .inl hb
    · have hbt := (reflTransGen_iff_eq_or_transGen.mp hrest).resolve_left (Ne.symm hb)
      exact .inr (ih (transGen_avoiding_cons hnext hb hbt))

/-- Leaving no name twice cuts off nothing: all is met that the steps lead to, and nothing else. -/
theorem Chain.reaches_iff {ch : Chain} : ch.reaches t [] a = true ↔ TransGen (Points ch.next) a t := by
  refine ⟨transGen_of_reaches, fun h ↦ reaches_of_transGen (TransGen.mono ?_ _ _ h)⟩
  intro x y hxy
  exact ⟨List.not_mem_nil, hxy⟩

section Redirect

variable {R R' : String → String → Prop} {c : String}

theorem reflTransGen_of_redirect (hR : ∀ x y, R' x y → x ≠ t → R x y)
    (h : ReflTransGen R' a t) : ReflTransGen R a t := by
  induction h using ReflTransGen.head_induction_on with
  | refl => exact .refl
  | @head x y hxy _ ih =>
    by_cases hx : x = t
    · rw [hx]
    · exact .head (hR x y hxy hx) ih

theorem transGen_of_redirect (hR : ∀ x y, R' x y → x ≠ t → R x y) (ht : ¬TransGen R' t t)
    (h : TransGen R' a b) (hback : ReflTransGen R' b a) : TransGen R a b := by
  -- Every name on the circle lies on one, so that none of them is `t`.
  have hne : ∀ x y, R' x y → ReflTransGen R' y b → ReflTransGen R' b x → x ≠ t := by
    rintro x y hxy hyb hbx rfl
    exact ht (.head' hxy (hyb.trans hbx))
  induction h using TransGen.head_induction_on with
  | @single x hxb => exact .single (hR x b hxb (hne x b hxb .refl hback))
  | @head x y hxy hyb ih =>
    have hx := hne x y hxy hyb.to_reflTransGen hback
    exact .head (hR x y hxy hx) (ih (hback.tail hxy))

/-- If only the steps from `t` are changed, and all of them lead to a name from which no way led to
`t`, then every circle was there before. -/
theorem circle_of_redirect (hR : ∀ x y, R' x y → x ≠ t → R x y) (ht : ∀ y, R' t y → y = c)
    (hc : ¬ReflTransGen R c t) (h : TransGen R' a a) : TransGen R a a := by
  refine transGen_of_redirect hR (fun hcircle ↦ ?_) h .refl
  obtain ⟨y, hty, hback⟩ := TransGen.head'_iff.mp hcircle
  rw [ht y hty] at hback
  exact hc (reflTransGen_of_redirect hR hback)

end Redirect

end FlowAudit.Loops
