import Mathlib.Data.List.Basic

namespace FlowAudit

variable {ε α β : Type}

theorem ok_bind (a : α) (f : α → Except ε β) : (Except.ok a >>= f) = f a := rfl

theorem error_bind (e : ε) (f : α → Except ε β) :
    ((Except.error e : Except ε α) >>= f) = .error e := rfl

theorem pure_eq_ok (a : α) : (pure a : Except ε α) = .ok a := rfl

theorem bind_eq_ok {x : Except ε α} {f : α → Except ε β} {b : β} :
    (x >>= f) = .ok b ↔ ∃ a, x = .ok a ∧ f a = .ok b := by
  cases x with
  | error e => simp [error_bind]
  | ok a => simp [ok_bind]

theorem bind_eq_error {x : Except ε α} {f : α → Except ε β} {e : ε} :
    (x >>= f) = .error e ↔ x = .error e ∨ ∃ a, x = .ok a ∧ f a = .error e := by
  cases x with
  | error e' => simp [error_bind]
  | ok a => simp [ok_bind]

/-- Two computations agree up to a view of their results, if their first parts do and what follows keeps
to it. -/
theorem map_bind_congr {γ δ : Type} {view : α → γ} {view' : β → δ} {x x' : Except ε α}
    {f f' : α → Except ε β} (h : x.map view = x'.map view)
    (hf : ∀ a a', view a = view a' → (f a).map view' = (f' a').map view') :
    (x >>= f).map view' = (x' >>= f').map view' := by
  cases x with
  | error e =>
    cases x' with
    | error e' => cases h; rfl
    | ok a' => cases h
  | ok a =>
    cases x' with
    | error e' => cases h
    | ok a' => exact hf a a' (Except.ok.inj h)

theorem map_map_congr {γ δ : Type} {view : α → γ} {view' : β → δ} {x x' : Except ε α} {f f' : α → β}
    (h : x.map view = x'.map view) (hf : ∀ a a', view a = view a' → view' (f a) = view' (f' a')) :
    (f <$> x).map view' = (f' <$> x').map view' :=
  map_bind_congr h fun a a' ha ↦ congrArg Except.ok (hf a a' ha)

theorem mapM_eq_ok {f : α → Except ε β} {g : α → β} {as : List α}
    (h : ∀ a ∈ as, f a = .ok (g a)) : as.mapM f = .ok (as.map g) := by
  induction as with
  | nil => rfl
  | cons a as ih =>
    rw [List.mapM_cons, h a List.mem_cons_self, ok_bind,
      ih fun b hb ↦ h b (List.mem_cons_of_mem _ hb)]
    rfl

theorem exists_of_mapM_eq_error {f : α → Except ε β} {as : List α} {e : ε} (h : as.mapM f = .error e) :
    ∃ a ∈ as, f a = .error e := by
  induction as with
  | nil => cases h
  | cons a as ih =>
    rw [List.mapM_cons] at h
    rcases bind_eq_error.mp h with ha | ⟨b, -, h⟩
    · exact ⟨a, List.mem_cons_self, ha⟩
    · rcases bind_eq_error.mp h with has | ⟨bs, -, h⟩
      · obtain ⟨a', hmem, ha'⟩ := ih has
        exact ⟨a', List.mem_cons_of_mem a hmem, ha'⟩
      · cases h

end FlowAudit
