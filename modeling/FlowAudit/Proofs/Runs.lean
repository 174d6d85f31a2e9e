import Mathlib.Data.List.Nodup
import Mathlib.Logic.Relation

namespace FlowAudit

open Relation

variable {α σ τ : Type} {R : σ → σ → Prop} {P : σ → Prop} {f : σ → α → σ}

theorem preserved_of_reflTransGen (hstep : ∀ s s', R s s' → P s → P s') {s s' : σ}
    (h : ReflTransGen R s s') (hs : P s) : P s' := by
  induction h with
  | refl => exact hs
  | tail _ hr ih => exact hstep _ _ hr ih

/-- If what is seen of a pass makes steps, then so does what is seen of all of it. -/
theorem reflTransGen_foldl (view : τ → σ) {f : τ → α → τ} {as : List α}
    (h : ∀ s, ∀ a ∈ as, ReflTransGen R (view s) (view (f s a))) (s : τ) :
    ReflTransGen R (view s) (view (as.foldl f s)) := by
  induction as generalizing s with
  | nil => exact .refl
  | cons a as ih =>
    refine (h s a List.mem_cons_self).trans ?_
    exact ih (fun s b hb ↦ h s b (List.mem_cons_of_mem _ hb)) _

/-- What one step of a pass brings about, and every step keeps, holds after the pass. -/
theorem foldl_establishes {as : List α} {a : α} (ha : a ∈ as)
    (hkeep : ∀ b ∈ as, ∀ s, P s → P (f s b)) (hest : ∀ s, P (f s a)) (s : σ) :
    P (as.foldl f s) := by
  induction as generalizing s with
  | nil => cases ha
  | cons b as ih =>
    have hrest : ∀ b' ∈ as, ∀ s, P s → P (f s b') := fun b' hb' ↦
      hkeep b' (List.mem_cons_of_mem _ hb')
    obtain rfl | ha := List.mem_cons.mp ha
    · exact List.foldlRecOn as f (hest s) fun s hs b' hb' ↦ hrest b' hb' s hs
    · exact ih ha hrest _

theorem mem_foldl_distinct (name : α → String) (as : List α) (seen : List String) (t : String) :
    t ∈ as.foldl (fun seen a ↦ if seen.contains (name a) then seen else seen ++ [name a]) seen ↔
      t ∈ seen ∨ ∃ a ∈ as, name a = t := by
  induction as generalizing seen with
  | nil => simp
  | cons a as ih =>
    rw [List.foldl_cons, ih]
    by_cases ha : name a ∈ seen
    · simp only [List.contains_eq_mem, ha, decide_true, if_true, List.exists_mem_cons_iff]
      constructor
      · rintro (h | h)
        · exact .inl h
        · exact .inr (.inr h)
      · rintro (h | h | h)
        · exact .inl h
        · exact .inl (h ▸ ha)
        · exact .inr h
    · simp only [List.contains_eq_mem, ha, decide_false, Bool.false_eq_true, if_false,
        List.mem_append, List.mem_singleton, List.exists_mem_cons_iff, or_assoc, eq_comm (a := t)]

theorem nodup_foldl_distinct (name : α → String) (as : List α) {seen : List String}
    (h : seen.Nodup) :
    (as.foldl (fun seen a ↦ if seen.contains (name a) then seen else seen ++ [name a])
      seen).Nodup := by
  induction as generalizing seen with
  | nil => exact h
  | cons a as ih =>
    rw [List.foldl_cons]
    apply ih
    by_cases ha : name a ∈ seen
    · simpa [ha] using h
    · simpa [ha] using h.append (List.nodup_singleton _) (by simpa using ha)

/-- A pass that takes up each name once leaves out the repetitions and keeps the order. -/
theorem foldl_distinct_eq_eraseDups (name : α → String) (as : List α) (seen : List String) :
    as.foldl (fun seen a ↦ if seen.contains (name a) then seen else seen ++ [name a]) seen =
      seen ++ ((as.map name).filter fun n ↦ !seen.contains n).eraseDups := by
  induction as generalizing seen with
  | nil => simp
  | cons a as ih =>
    rw [List.foldl_cons, ih, List.map_cons]
    by_cases ha : name a ∈ seen
    · simp [ha]
    · have hfilter : (as.map name).filter (fun n ↦ !(seen ++ [name a]).contains n) =
          ((as.map name).filter fun n ↦ !seen.contains n).filter fun n ↦ !n == name a := by
        rw [List.filter_filter]
        refine List.filter_congr fun n _ ↦ ?_
        by_cases hn : n = name a <;> simp [hn]
      rw [if_neg (by simpa using ha), hfilter, List.filter_cons_of_pos (by simpa using ha),
        List.eraseDups_cons, List.append_assoc, List.singleton_append]

/-- If every step of a pass adds at most one item to a list, then the pass adds all of them in
order. -/
theorem foldl_filterMap_of_step {β : Type} (view : σ → List β) {out : α → Option β}
    (h : ∀ s a, view (f s a) = view s ++ (out a).toList) (as : List α) (s : σ) :
    view (as.foldl f s) = view s ++ as.filterMap out := by
  induction as generalizing s with
  | nil => simp
  | cons a as ih =>
    rw [List.foldl_cons, ih, h, List.append_assoc]
    cases ha : out a <;> simp [ha]

end FlowAudit
