import FlowAudit.Analysis.OfJson
import FlowAudit.Analysis.ToJson
import FlowAudit.Proofs.Analysis.Tree
import FlowAudit.Proofs.Json.Members
import FlowAudit.Proofs.Table

namespace FlowAudit

open Json (Layers Mismatch)
open Json.Layers

def Version.inMinutes (v : Version) : Version := { v with lastModified := v.lastModified.inMinutes }

theorem Version.inMinutes_eq_self_iff {v : Version} :
    v.inMinutes = v ↔ v.lastModified.offset % 60 = 0 := by
  rw [← Time.inMinutes_eq_self_iff]
  cases v
  simp [inMinutes]

theorem Version.ofLayers_toJson {v : Version} (hversion : InRange v.version)
    (hnanos : v.lastModified.nanos < 10 ^ 9) (hwritable : v.lastModified.unwritable? = none) :
    Version.ofLayers [v.toJson.reread] = .ok v.inMinutes := by
  rw [Version.ofLayers, Version.toJson, record_reread (by simp)]
  simp [valuesOf_cons, valuesOf_nil, whole_ofInt hversion, Json.reread, text_str, ok_bind, pure_eq_ok,
    time_ofTime hnanos hwritable, Version.inMinutes]

theorem LoopContext.ofLayers_toJson {c : LoopContext} (hdepth : InRange c.depth) :
    LoopContext.ofLayers [c.toJson.reread] = .ok c := by
  rw [LoopContext.ofLayers, LoopContext.toJson, record_reread (by simp)]
  simp [valuesOf_cons, valuesOf_nil, whole_ofInt hdepth, Json.reread, text_str, flag_bool, list_strings, ok_bind,
    pure_eq_ok]

theorem Recommendation.ofLayers_toJson (r : Recommendation) :
    Recommendation.ofLayers [r.toJson.reread] = .ok r := by
  rw [Recommendation.ofLayers, Recommendation.toJson, record_reread (by simp)]
  simp [valuesOf_cons, valuesOf_nil, Json.reread, text_str, flag_bool, list_strings, ok_bind, pure_eq_ok]

namespace Findings

/-- All numbers in the findings about a flow, those of its version and in its tables apart. -/
def counts (f : Findings) : List Int :=
  [f.depth, f.elementCount, f.loopCount, f.decisionCount, f.subflowCount, f.crossObjectFormulaCount,
    f.directDmlCount, f.directSoqlCount, f.complexity, f.cumulativeComplexity, f.cumulativeDmlCount,
    f.cumulativeSoqlCount, f.score]

/-- What holds of all findings: numbers have 64 bits, the parts of a second make less than one, and tables
have each key once. -/
structure IsSound (f : Findings) : Prop where
  counts : ∀ n ∈ f.counts, InRange n
  version : ∀ v ∈ f.version, InRange v.version ∧ v.lastModified.nanos < 10 ^ 9
  kindCounts : Table.IsSorted f.kindCounts ∧ ∀ e ∈ f.kindCounts, InRange e.2
  loopContexts : ∀ t ∈ f.loopContexts, Table.IsSorted t ∧ ∀ e ∈ t, InRange e.2.depth

instance (f : Findings) : Decidable f.IsSound :=
  decidable_of_iff ((∀ n ∈ f.counts, InRange n) ∧
      (∀ v ∈ f.version, InRange v.version ∧ v.lastModified.nanos < 10 ^ 9) ∧
      (Table.IsSorted f.kindCounts ∧ ∀ e ∈ f.kindCounts, InRange e.2) ∧
      ∀ t ∈ f.loopContexts, Table.IsSorted t ∧ ∀ e ∈ t, InRange e.2.depth)
    ⟨fun ⟨h₁, h₂, h₃, h₄⟩ ↦ ⟨h₁, h₂, h₃, h₄⟩, fun ⟨h₁, h₂, h₃, h₄⟩ ↦ ⟨h₁, h₂, h₃, h₄⟩⟩

variable {f : Findings}

theorem table_kindCounts (hf : f.IsSound) :
    ∃ o, Table.ofList (o.getD []) = f.kindCounts ∧
      table whole ((if f.kindCounts.isEmpty then [] else [tableJson Json.ofInt f.kindCounts]).map
        Json.reread) = .ok o := by
  obtain ⟨hsorted, hrange⟩ := hf.kindCounts
  by_cases hempty : f.kindCounts = []
  · exact ⟨none, hempty.symm, by rw [hempty]; rfl⟩
  · refine ⟨some f.kindCounts, Table.ofList_of_isSorted hsorted, ?_⟩
    rw [if_neg (by simpa using hempty), List.map_singleton]
    exact table_reread fun e he ↦ by rw [Json.reread_ofInt, whole_ofInt (hrange e he)]

theorem table_loopContexts (hf : f.IsSound) :
    ∃ o, o.map Table.ofList = f.loopContexts ∧
      table LoopContext.ofLayers [(Json.ofOption (tableJson LoopContext.toJson) f.loopContexts).reread] =
        .ok o := by
  refine ⟨f.loopContexts, ?_, ?_⟩
  · cases hcontexts : f.loopContexts with
    | none => rfl
    | some t => rw [Option.map_some, Table.ofList_of_isSorted (hf.loopContexts t hcontexts).1]
  · cases hcontexts : f.loopContexts with
    | none => exact table_null
    | some t =>
      exact table_reread fun e he ↦
        LoopContext.ofLayers_toJson ((hf.loopContexts t hcontexts).2 e he)

def inMinutes (f : Findings) : Findings := { f with version := f.version.map Version.inMinutes }

theorem inMinutes_eq_self_iff :
    f.inMinutes = f ↔ ∀ v ∈ f.version, v.lastModified.offset % 60 = 0 := by
  have hversion : f.inMinutes = f ↔ f.version.map Version.inMinutes = f.version :=
    ⟨congrArg Findings.version, fun h ↦ by rw [inMinutes, h]⟩
  rw [hversion]
  cases f.version <;> simp [Version.inMinutes_eq_self_iff]

theorem ofFields_members (hf : f.IsSound)
    (hwritable : ∀ v ∈ f.version, v.lastModified.unwritable? = none) (j : Json) :
    ofFields f.hasChildren (fun name ↦
      (valuesOf (f.head ++ [("child_subflows", j)] ++ f.tail) name).map Json.reread) =
        .ok f.inMinutes := by
  have hcounts := hf.counts
  simp only [counts, List.forall_mem_cons] at hcounts
  have hversion := @optional_toList _ Version.ofLayers _ Version.toJson _ f.version
    (fun _ ↦ rfl) ⟨_, rfl⟩ fun v hv ↦
      Version.ofLayers_toJson (hf.version v hv).1 (hf.version v hv).2 (hwritable v hv)
  obtain ⟨kinds, hkinds, hkindsRead⟩ := table_kindCounts hf
  obtain ⟨contexts, hcontexts, hcontextsRead⟩ := table_loopContexts hf
  obtain ⟨inLoop, hinLoop, hinLoopRead⟩ := @list_unlessEmpty _ text Json.ofText
    f.subflowsInLoop fun s _ ↦ text_str s _
  have hrecommendations := @list_found _ _ Recommendation.toJson f.recommendations
    fun _ _ r _ ↦ Recommendation.ofLayers_toJson r
  obtain ⟨warnings, hwarnings, hwarningsRead⟩ := @list_unlessEmpty _ text Json.ofText
    f.warnings fun s _ ↦ text_str s _
  have hcached : flag ((if f.isCached = true then [Json.bool true] else []).map Json.reread) =
      .ok f.isCached := by
    cases f.isCached <;> rfl
  -- each field meets the one member of its name
  simp only [ofFields, head, tail, valuesOf_append, valuesOf_cons, valuesOf_nil, valuesOf_toList,
    valuesOf_listMember, valuesOf_ite, String.reduceEq, if_true, if_false, List.append_nil,
    List.nil_append, ite_self, List.cons_append, List.map_cons, List.map_nil]
  simp only [Json.reread_ofInt, whole_ofInt, hcounts, hversion, hkindsRead, hcontextsRead, hinLoopRead,
    hrecommendations, hwarningsRead, hcached, ok_bind, hkinds, hcontexts, hinLoop, hwarnings]
  rfl

theorem valuesOf_called (f : Findings) (j : Json) :
    valuesOf (f.head ++ [("child_subflows", j)] ++ f.tail) "child_subflows" = [j] := by
  simp only [head, tail, valuesOf_append, valuesOf_cons, valuesOf_nil, valuesOf_toList,
    valuesOf_listMember, valuesOf_ite, String.reduceEq, if_true, if_false, List.append_nil,
    List.nil_append, ite_self]

theorem mem_fields (f : Findings) (j : Json) :
    ∀ m ∈ f.head ++ [("child_subflows", j)] ++ f.tail, m.1 ∈ fields := by
  simp [head, tail, fields, Json.listMember, or_imp, forall_and]

end Findings

namespace Analysis

theorem listToJson_eq_map (children : List (Option Analysis)) :
    listToJson children = children.map (Json.ofOption toJson) := by
  induction children with
  | nil => rfl
  | cons c children ih => cases c <;> rw [listToJson, ih] <;> rfl

/-- What holds of every part of an analysis. -/
structure IsSound (a : Analysis) : Prop where
  findings : a.findings.IsSound
  children : a.findings.hasChildren = false → a.children = []

instance (a : Analysis) : Decidable a.IsSound :=
  decidable_of_iff (a.findings.IsSound ∧ (a.findings.hasChildren = false → a.children = []))
    ⟨fun ⟨h₁, h₂⟩ ↦ ⟨h₁, h₂⟩, fun ⟨h₁, h₂⟩ ↦ ⟨h₁, h₂⟩⟩

/-- The analysis as it is read again: zones are told in whole minutes. -/
def inMinutes (a : Analysis) : Analysis := a.mapAll Findings.inMinutes

def TimesWritable (a : Analysis) : Prop :=
  ∀ n ∈ a.nodes, ∀ v ∈ n.findings.version, v.lastModified.unwritable? = none

theorem listFaultBelow?_eq_none_iff {depth : Nat} {children : List (Option Analysis)} :
    listFaultBelow? depth children = none ↔ ∀ b, some b ∈ children → b.faultBelow? depth = none := by
  induction children with
  | nil => simp [listFaultBelow?]
  | cons c children ih => cases c <;> simp [listFaultBelow?, ih]

theorem called_fault_eq_none_iff {depth : Nat} {children : List (Option Analysis)}
    (h : ∀ b, some b ∈ children → (b.faultBelow? (depth + 1) = none ↔
      b.TimesWritable ∧ depth + 1 + b.toJson.nesting ≤ Json.maxNesting)) :
    (Json.tooDeep? depth (.arr []) = none ∧ listFaultBelow? (depth + 1) children = none) ↔
      (∀ b, some b ∈ children → b.TimesWritable) ∧
        depth + (Json.arr (listToJson children)).nesting ≤ Json.maxNesting := by
  rw [Json.tooDeep?_eq_none_iff, listFaultBelow?_eq_none_iff, forall₂_congr h, forall₂_and,
    listToJson_eq_map, Json.nesting, Json.nesting, Json.nestingIn]
  constructor
  · rintro ⟨hopen, htimes, hnesting⟩
    refine ⟨htimes, ?_⟩
    have hle : Json.nestingIn (children.map (Json.ofOption toJson)) ≤ Json.maxNesting - (depth + 1) := by
      rw [Json.nestingIn_le_iff]
      intro j hj
      obtain ⟨c, hc, rfl⟩ := List.mem_map.1 hj
      cases c with
      | none => exact Nat.zero_le _
      | some b => exact Nat.le_sub_of_add_le' (hnesting b hc)
    omega
  · rintro ⟨htimes, hnesting⟩
    refine ⟨by omega, htimes, fun b hb ↦ ?_⟩
    have hle : b.toJson.nesting ≤ Json.nestingIn (children.map (Json.ofOption toJson)) :=
      Json.nestingIn_le_iff.1 le_rfl _ (List.mem_map_of_mem hb)
    omega

theorem nesting_toJson (f : Findings) (children : List (Option Analysis)) :
    (node f children).toJson.nesting =
      max (Json.obj f.head).nesting
        (max ((if f.hasChildren then Json.arr (listToJson children) else .null).nesting + 1)
          (Json.obj f.tail).nesting) := by
  rw [toJson, Json.nesting, Json.nestingBelow_append, Json.nestingBelow_append, Json.nesting, Json.nesting]
  simp only [Json.nestingBelow, Nat.max_zero]
  omega

/-- An analysis can be written if its times can be and it does not nest too deeply. -/
theorem faultBelow?_eq_none_iff {a : Analysis} (hsound : ∀ n ∈ a.nodes, n.IsSound) {depth : Nat} :
    a.faultBelow? depth = none ↔ a.TimesWritable ∧ depth + a.toJson.nesting ≤ Json.maxNesting := by
  induction a using induction_called generalizing depth with
  | node f children ih =>
    have hcalled := @called_fault_eq_none_iff (depth + 1) children fun b hb ↦
      ih b hb fun n hn ↦ hsound n (mem_nodes_of_child hb hn)
    have hversion : (f.version.bind (·.lastModified.unwritable?)).map Time.Unwritable.report = none ↔
        ∀ v ∈ f.version, v.lastModified.unwritable? = none := by
      cases f.version <;> simp
    have hopen : (Json.obj []).nesting = 1 := rfl
    have hhead : 1 ≤ (Json.obj f.head).nesting := Nat.le_add_left 1 _
    rw [faultBelow?, nesting_toJson, TimesWritable, forall_mem_nodes_iff]
    simp only [Option.orElse_eq_none, hversion, Json.tooDeep?_eq_none_iff, findings]
    cases hhas : f.hasChildren with
    | false =>
      obtain rfl : children = [] := (hsound _ (mem_nodes_self _)).children hhas
      have hnull : Json.null.nesting = 0 := rfl
      simp only [Bool.false_eq_true, if_false, List.not_mem_nil, false_imp_iff, implies_true, true_and,
        and_true, hopen, hnull]
      constructor
      · rintro ⟨-, hself, hle, hle'⟩
        exact ⟨hself, by omega⟩
      · rintro ⟨hself, hle⟩
        exact ⟨by omega, hself, by omega, by omega⟩
    | true =>
      simp only [if_true, Option.orElse_eq_none, hcalled, hopen]
      constructor
      · rintro ⟨-, hself, hle, ⟨hbelow, hin⟩, hle'⟩
        exact ⟨⟨hself, hbelow⟩, by omega⟩
      · rintro ⟨⟨hself, hbelow⟩, hle⟩
        exact ⟨by omega, hself, by omega, ⟨hbelow, by omega⟩, by omega⟩

theorem unwritable?_eq_none_iff {a : Analysis} (hsound : ∀ n ∈ a.nodes, n.IsSound) :
    a.unwritable? = none ↔ a.TimesWritable ∧ a.toJson.nesting ≤ Json.maxNesting := by
  rw [unwritable?, faultBelow?_eq_none_iff hsound, Nat.zero_add]

/-- Nothing is changed by reading again where zones are of whole minutes, and only there. -/
theorem inMinutes_eq_self_iff {a : Analysis} : a.inMinutes = a ↔
    ∀ n ∈ a.nodes, ∀ v ∈ n.findings.version, v.lastModified.offset % 60 = 0 := by
  rw [inMinutes, mapAll_eq_self_iff]
  exact forall₂_congr fun n _ ↦ Findings.inMinutes_eq_self_iff

theorem ofLayers_nil (fuel : Nat) : ∃ a, ofLayers (fuel + 1) [] = .ok a := ⟨_, rfl⟩

theorem ofLayers_null (fuel : Nat) : ∃ a, ofLayers (fuel + 1) [.null] = .ok a := ⟨_, rfl⟩

theorem optional_ofOption {fuel : Nat} {c : Option Analysis}
    (h : ∀ b ∈ c, ofLayers (fuel + 1) [b.toJson.reread] = .ok b.inMinutes) :
    Layers.optional (ofLayers (fuel + 1)) [(Json.ofOption toJson c).reread] = .ok (c.map inMinutes) := by
  cases c with
  | none => exact optional_null (ofLayers_null fuel)
  | some b => exact optional_some (by cases b; rfl) (ofLayers_nil fuel) (h b rfl)

theorem nesting_called {f : Findings} (h : f.hasChildren = true) (children : List (Option Analysis)) :
    Json.nestingIn (children.map (Json.ofOption toJson)) + 2 ≤ (node f children).toJson.nesting := by
  rw [nesting_toJson, h, if_pos rfl, Json.nesting, listToJson_eq_map]
  omega

theorem ofLayers_toJson {a : Analysis} (hsound : ∀ n ∈ a.nodes, n.IsSound)
    (hwritable : a.unwritable? = none) {fuel : Nat} (hfuel : a.toJson.nesting < fuel) :
    ofLayers fuel [a.toJson.reread] = .ok a.inMinutes := by
  rw [unwritable?_eq_none_iff hsound] at hwritable
  obtain ⟨hwritable, -⟩ := hwritable
  induction a using induction_called generalizing fuel with
  | node f children ih =>
    obtain ⟨hf, hchildren⟩ := hsound _ (mem_nodes_self _)
    have hversion := hwritable _ (mem_nodes_self _)
    simp only [findings, Analysis.children] at hf hchildren hversion
    obtain ⟨called, hcalled⟩ : ∃ o, o = if f.hasChildren then some children else none := ⟨_, rfl⟩
    have hjson : (if f.hasChildren then Json.arr (listToJson children) else .null) =
        Json.ofOption (fun cs ↦ Json.arr (cs.map (Json.ofOption toJson))) called := by
      rw [hcalled, listToJson_eq_map]
      split <;> rfl
    obtain ⟨fuel, rfl⟩ := Nat.exists_eq_add_of_lt (show 0 < fuel by omega)
    have hlist : list (Layers.optional (ofLayers fuel))
        [(Json.ofOption (fun cs ↦ Json.arr (cs.map (Json.ofOption toJson))) called).reread] =
          .ok (called.map (List.map (Option.map inMinutes))) := by
      refine list_ofOption fun cs hcs c hc ↦ ?_
      obtain ⟨hhas, rfl⟩ : f.hasChildren = true ∧ children = cs := by simpa [hcalled] using hcs
      have hnesting := nesting_called hhas children
      obtain ⟨fuel, rfl⟩ := Nat.exists_eq_add_of_lt (show 0 < fuel by omega)
      rw [Nat.zero_add]
      refine optional_ofOption fun b hb ↦ ?_
      obtain rfl := hb
      have hle : b.toJson.nesting ≤ Json.nestingIn (children.map (Json.ofOption toJson)) :=
        Json.nestingIn_le_iff.1 le_rfl _ (List.mem_map_of_mem hc)
      exact ih b hc (fun n hn ↦ hsound n (mem_nodes_of_child hc hn)) (by omega)
        fun n hn ↦ hwritable n (mem_nodes_of_child hc hn)
    have hhas : (called.map (List.map (Option.map inMinutes))).isSome = f.hasChildren := by
      cases hhas : f.hasChildren <;> simp [hcalled, hhas]
    have hvalues : (called.map (List.map (Option.map inMinutes))).getD [] =
        children.map (Option.map inMinutes) := by
      cases hhas : f.hasChildren with
      | true => simp [hcalled, hhas]
      | false => simp [hcalled, hhas, hchildren hhas]
    rw [Nat.zero_add, ofLayers, toJson, hjson, record_reread (Findings.mem_fields f _)]
    simp only [Findings.valuesOf_called, List.map_singleton, hlist, ok_bind, hhas, hvalues,
      Findings.ofFields_members hf hversion]
    rw [inMinutes, mapAll_node]
    rfl

end Analysis

section Whole

open Json.IsWhole

theorem Version.isWhole_toJson (v : Version) : v.toJson.IsWhole := by
  refine obj ?_
  simp only [List.forall_mem_cons, List.not_mem_nil, false_imp_iff, implies_true, and_true]
  exact ⟨num _, str _ _, str _ _⟩

theorem LoopContext.isWhole_toJson (c : LoopContext) : c.toJson.IsWhole := by
  refine obj ?_
  simp only [List.forall_mem_cons, List.not_mem_nil, false_imp_iff, implies_true, and_true]
  exact ⟨bool _, str _ _, num _, Json.isWhole_ofOption fun p _ ↦ Json.isWhole_strings p,
    Json.isWhole_ofOption fun p _ ↦ Json.isWhole_strings p, str _ _⟩

theorem Recommendation.isWhole_toJson (r : Recommendation) : r.toJson.IsWhole := by
  refine obj ?_
  simp only [List.forall_mem_cons, List.not_mem_nil, false_imp_iff, implies_true, and_true]
  exact ⟨str _ _, bool _, str _ _, Json.isWhole_ofOption fun p _ ↦ Json.isWhole_strings p⟩

theorem Findings.isWhole_tableJson {α : Type} {encode : α → Json} {t : Table α}
    (h : ∀ e ∈ t, (encode e.2).IsWhole) : (tableJson encode t).IsWhole :=
  obj (List.forall_mem_map.2 h)

theorem Findings.isWhole_members (f : Findings) {j : Json} (hj : j.IsWhole) :
    ∀ m ∈ f.head ++ [("child_subflows", j)] ++ f.tail, m.2.IsWhole := by
  have hkinds : (tableJson Json.ofInt f.kindCounts).IsWhole := isWhole_tableJson fun e _ ↦ num e.2
  have hcontexts : (Json.ofOption (tableJson LoopContext.toJson) f.loopContexts).IsWhole :=
    Json.isWhole_ofOption fun t _ ↦ isWhole_tableJson fun e _ ↦ e.2.isWhole_toJson
  have hrecommendations : (Json.ofOption (fun rs ↦ Json.arr (rs.map Recommendation.toJson))
      f.recommendations).IsWhole :=
    Json.isWhole_ofOption fun rs _ ↦ Json.isWhole_arr_map fun r _ ↦ r.isWhole_toJson
  have htexts (texts : List String) : (Json.arr (texts.map Json.ofText)).IsWhole :=
    Json.isWhole_arr_map fun s _ ↦ str s _
  have hversion := fun v : Version ↦ v.isWhole_toJson
  simp [head, tail, Json.listMember, or_imp, forall_and, hj, hkinds, hcontexts, hrecommendations, htexts,
    hversion, num, str, bool]

theorem Analysis.isWhole_toJson (a : Analysis) : a.toJson.IsWhole := by
  induction a using induction_called with
  | node f children ih =>
    rw [toJson]
    refine obj (f.isWhole_members ?_)
    split
    · rw [listToJson_eq_map]
      refine Json.isWhole_arr_map fun c hc ↦ Json.isWhole_ofOption fun b hb ↦ ?_
      obtain rfl := hb
      exact ih b hc
    · exact null

end Whole

end FlowAudit
