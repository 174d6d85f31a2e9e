import FlowAudit.Proofs.Resolution.Steps

namespace FlowAudit

namespace Resolver

variable {r : Resolver} {name n : String} {o : Outcome}

theorem find?_enter : (r.enter n).find? name = if n = name then some none else r.find? name := by
  by_cases h : n = name <;> simp [enter, find?, h]

theorem find?_finish : (r.finish n o).find? name =
    if n = name then (r.find? name).map fun _ ↦ some o else r.find? name := by
  simp only [finish, find?]
  induction r.entries with
  | nil => simp
  | cons p entries ih =>
    rw [List.map_cons]
    by_cases hp : p.1 = name
    · by_cases h : n = name
      · simp [hp, h]
      · simp [hp, h, Ne.symm h]
    · have hb : (p.1 == name) = false := by simpa using hp
      have hb' : ((if p.1 == n then (p.1, some o) else (p.1, p.2)).1 == name) = false := by
        split <;> exact hb
      rw [List.find?_cons_of_neg (by simpa using hb'), ih, List.find?_cons_of_neg (by simpa using hb)]

theorem mem_names_iff : name ∈ r.entries.map (·.1) ↔ r.find? name ≠ none := by
  simp [find?, List.find?_eq_none]

theorem names_finish (r : Resolver) (n : String) (o : Outcome) :
    (r.finish n o).entries.map (·.1) = r.entries.map (·.1) := by
  rw [finish, List.map_map]
  apply List.map_congr_left
  intro p _
  by_cases hp : p.1 = n <;> simp [hp]

/-- The entries and how often they were looked for in vain are the same. -/
structure SameEntries (r r' : Resolver) : Prop where
  entries : r'.entries = r.entries
  misses : r'.misses = r.misses
  computations : r'.computations = r.computations

theorem SameEntries.find? {r' : Resolver} (h : SameEntries r r') (name : String) :
    r'.find? name = r.find? name := by
  rw [Resolver.find?, Resolver.find?, h.entries]

theorem SameEntries.finish {r' : Resolver} (h : SameEntries r r') (name : String) (o : Outcome) :
    SameEntries (r.finish name o) (r'.finish name o) := by
  refine ⟨?_, h.misses, h.computations⟩
  rw [Resolver.finish, Resolver.finish, h.entries]

/-- What can become of the entries in one step. The names are those of flows being analyzed for their
entries, the innermost first. -/
inductive Move : Resolver → List String → Resolver → List String → Prop
  | stay {r r' : Resolver} {names : List String} (h : SameEntries r r') : Move r names r' names
  | enter {r r' : Resolver} {names : List String} {name : String} (hnew : r.find? name = none)
      (h : SameEntries (r.enter name) r') : Move r names r' (name :: names)
  | finish {r r' : Resolver} {names : List String} {name : String} {o : Outcome}
      (h : SameEntries (r.finish name o) r') : Move r (name :: names) r' names

/-- There is one entry for each flow that was looked for in vain, and those of the names are open. -/
structure Orderly (r : Resolver) (names : List String) : Prop where
  distinct : (r.entries.map (·.1)).Nodup
  misses : r.misses = r.entries.length
  computations : r.computations = r.entries.length
  nodup : names.Nodup
  open_iff : ∀ name, r.find? name = some none ↔ name ∈ names

theorem orderly_empty : Orderly {} [] :=
  ⟨List.nodup_nil, rfl, rfl, List.nodup_nil, fun _ ↦ by simp [find?]⟩

variable {r' : Resolver} {names names' : List String}

theorem Orderly.congr (h : Orderly r names) (hr : SameEntries r r') : Orderly r' names where
  distinct := hr.entries ▸ h.distinct
  misses := by rw [hr.misses, hr.entries, h.misses]
  computations := by rw [hr.computations, hr.entries, h.computations]
  nodup := h.nodup
  open_iff name := by rw [hr.find?, h.open_iff]

theorem Orderly.enter (h : Orderly r names) (hnew : r.find? name = none) :
    Orderly (r.enter name) (name :: names) where
  distinct := List.nodup_cons.mpr ⟨fun hmem ↦ mem_names_iff.mp hmem hnew, h.distinct⟩
  misses := by simp [Resolver.enter, h.misses]
  computations := by simp [Resolver.enter, h.computations]
  nodup := by
    refine List.nodup_cons.mpr ⟨fun hmem ↦ ?_, h.nodup⟩
    rw [← h.open_iff, hnew] at hmem
    cases hmem
  open_iff n := by
    rw [find?_enter, List.mem_cons, ← h.open_iff, eq_comm (a := n)]
    by_cases hn : name = n <;> simp [hn]

theorem Orderly.finish (h : Orderly r (name :: names)) (o : Outcome) :
    Orderly (r.finish name o) names where
  distinct := names_finish r name o ▸ h.distinct
  misses := by rw [Resolver.finish, List.length_map, h.misses]
  computations := by rw [Resolver.finish, List.length_map, h.computations]
  nodup := h.nodup.tail
  open_iff n := by
    have hopen := h.open_iff n
    rw [find?_finish]
    by_cases hn : name = n
    · subst hn
      simpa using (List.nodup_cons.mp h.nodup).1
    · rw [if_neg hn, hopen, List.mem_cons, or_iff_right (Ne.symm hn)]

theorem Orderly.move (h : Orderly r names) (hm : Move r names r' names') : Orderly r' names' := by
  cases hm with
  | stay hr => exact h.congr hr
  | enter hnew hr => exact (h.enter hnew).congr hr
  | finish hr => exact (h.finish _).congr hr

theorem Orderly.find?_move (h : Orderly r names) (hm : Move r names r' names')
    (hfind : r.find? n = some (some o)) : r'.find? n = some (some o) := by
  cases hm with
  | stay hr => rw [hr.find?, hfind]
  | enter hnew hr =>
    rw [hr.find?, find?_enter, if_neg, hfind]
    rintro rfl
    rw [hfind] at hnew
    cases hnew
  | finish hr =>
    rw [hr.find?, find?_finish, if_neg, hfind]
    rintro rfl
    have hopen := (h.open_iff _).mpr List.mem_cons_self
    rw [hfind] at hopen
    cases hopen

end Resolver

end FlowAudit
