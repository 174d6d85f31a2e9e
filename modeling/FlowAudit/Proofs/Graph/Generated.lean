import FlowAudit.Proofs.Graph.Names
import Mathlib.Data.List.Nodup
import Mathlib.Data.List.Perm.Subperm

namespace FlowAudit

theorem Text.decimal_injective : Function.Injective Text.decimal := by
  intro m n h
  have hdigits : Nat.toDigits 10 m = Nat.toDigits 10 n := String.ofList_injective h
  calc m = Nat.ofDigitChars 10 (Nat.toDigits 10 m) 0 := Nat.ofDigitChars_ten_toDigits.symm
    _ = Nat.ofDigitChars 10 (Nat.toDigits 10 n) 0 := by rw [hdigits]
    _ = n := Nat.ofDigitChars_ten_toDigits

namespace Graph

variable {taken taken' : List String} {m n : Nat}

theorem generatedName_one : generatedName 1 = "Unnamed" := rfl

theorem generatedName_of_lt (h : 1 < n) : generatedName n = "Unnamed_" ++ Text.decimal n := by
  rw [generatedName, if_neg (by omega)]

theorem generatedName_ne_first (h : 1 < n) : generatedName n ≠ generatedName 1 := by
  intro heq
  have hlen := congrArg String.length heq
  rw [generatedName_of_lt h, generatedName_one, String.length_append] at hlen
  have hfirst : "Unnamed".length = 7 := rfl
  have hother : "Unnamed_".length = 8 := rfl
  omega

theorem generatedName_inj (hm : 0 < m) (hn : 0 < n) (h : generatedName m = generatedName n) :
    m = n := by
  obtain rfl | hm : m = 1 ∨ 1 < m := by omega
  · obtain rfl | hn : n = 1 ∨ 1 < n := by omega
    · rfl
    · exact absurd h.symm (generatedName_ne_first hn)
  · obtain rfl | hn : n = 1 ∨ 1 < n := by omega
    · exact absurd h (generatedName_ne_first hm)
    · rw [generatedName_of_lt hm, generatedName_of_lt hn] at h
      exact Text.decimal_injective ((String.append_right_inj _).mp h)

def candidates (taken : List String) (n : Nat) : List Nat :=
  (List.range (taken.length + 1)).map (n + 1 + ·)

theorem lt_of_mem_candidates {k : Nat} (h : k ∈ candidates taken n) : n < k := by
  obtain ⟨i, -, rfl⟩ := List.mem_map.mp h
  omega

theorem nodup_candidates_names (taken : List String) (n : Nat) :
    ((candidates taken n).map generatedName).Nodup := by
  refine List.Nodup.map_on (fun k hk l hl h ↦ ?_) (List.nodup_range.map fun i j h ↦ by omega)
  have hk := lt_of_mem_candidates hk
  have hl := lt_of_mem_candidates hl
  exact generatedName_inj (by omega) (by omega) h

theorem exists_candidate (taken : List String) (n : Nat) :
    ∃ k ∈ candidates taken n, generatedName k ∉ taken := by
  by_contra hnone
  simp only [not_exists, not_and, not_not] at hnone
  have hsub : (candidates taken n).map generatedName ⊆ taken := by
    intro name hname
    obtain ⟨k, hk, rfl⟩ := List.mem_map.mp hname
    exact hnone k hk
  have hlen := (List.Nodup.subperm (nodup_candidates_names taken n) hsub).length_le
  rw [List.length_map, candidates, List.length_map, List.length_range] at hlen
  omega

theorem nextNumber_spec (taken : List String) (n : Nat) :
    n < nextNumber taken n ∧ generatedName (nextNumber taken n) ∉ taken := by
  obtain ⟨k, hk, hfree⟩ := exists_candidate taken n
  have hsome : ((candidates taken n).find? fun k ↦ !taken.contains (generatedName k)).isSome := by
    rw [List.find?_isSome]
    exact ⟨k, hk, by simpa using hfree⟩
  obtain ⟨l, hl⟩ := Option.isSome_iff_exists.mp hsome
  have hnext : nextNumber taken n = l := by
    change ((candidates taken n).find? _).getD _ = l
    rw [hl, Option.getD_some]
  rw [hnext]
  exact ⟨lt_of_mem_candidates (List.mem_of_find?_eq_some hl), by simpa using List.find?_some hl⟩

theorem nextNumber_perm (h : taken.Perm taken') (n : Nat) :
    nextNumber taken n = nextNumber taken' n := by
  have hcontains : ∀ name, taken.contains name = taken'.contains name := by
    intro name
    simp [h.mem_iff]
  simp only [nextNumber, h.length_eq, hcontains]

end Graph

end FlowAudit
