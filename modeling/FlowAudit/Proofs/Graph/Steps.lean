import FlowAudit.Proofs.Graph.Reordering
import Mathlib.Data.List.Forall2
import Mathlib.Data.List.Induction

namespace FlowAudit

namespace Element

def distinctTargets (e : Element) : List String := (e.edges.map (·.target)).eraseDups

theorem edgeTargets_eq (e : Element) : e.edgeTargets = e.distinctTargets := by
  rw [edgeTargets, foldl_distinct_eq_eraseDups]
  simp [distinctTargets]

theorem nodup_edgeTargets (e : Element) : e.edgeTargets.Nodup :=
  nodup_foldl_distinct _ _ List.nodup_nil

end Element

namespace Graph

variable {taken : List String} {ens before : List Entry} {en : Entry} {p : Progress} {e : Element}
  {name : String}

/-- The step has no name, or none of the steps before it has its name. -/
def IsNew (before : List Entry) (en : Entry) : Prop :=
  en.step.name = "" ∨ ∀ b ∈ before, b.step.name ≠ en.step.name

instance (before : List Entry) (en : Entry) : Decidable (IsNew before en) :=
  inferInstanceAs (Decidable (_ ∨ _))

/-- The steps that are kept: those without a name, and of several with one name the first. -/
def kept (ens : List Entry) : List Entry :=
  (ens.zipIdx.filter fun q ↦ IsNew (ens.take q.2) q.1).map (·.1)

theorem kept_concat (ens : List Entry) (en : Entry) :
    kept (ens ++ [en]) = kept ens ++ if IsNew ens en then [en] else [] := by
  have hbefore : (ens.zipIdx.filter fun q ↦ decide (IsNew ((ens ++ [en]).take q.2) q.1)) =
      ens.zipIdx.filter fun q ↦ decide (IsNew (ens.take q.2) q.1) := by
    refine List.filter_congr fun q hq ↦ ?_
    have hlt : q.2 < ens.length := by simpa using List.snd_lt_of_mem_zipIdx hq
    rw [List.take_append_of_le_length (Nat.le_of_lt hlt)]
  rw [kept, List.zipIdx_append, List.filter_append, List.map_append, hbefore]
  congr 1
  by_cases h : IsNew ens en <;> simp [h]

theorem kept_sublist (ens : List Entry) : (kept ens).Sublist ens := by
  have hsub := (List.filter_sublist (p := fun q ↦ decide (IsNew (ens.take q.2) q.1))
    (l := ens.zipIdx)).map Prod.fst
  rwa [List.zipIdx_map_fst] at hsub

/-- The element is made of the step, under the name of the step if it has one, and else under a
generated name that no step declares. -/
structure Becomes (taken : List String) (en : Entry) (e : Element) : Prop where
  content : e = elementOf e.name en
  named : en.step.name ≠ "" → e.name = en.step.name
  unnamed : en.step.name = "" → e.name ∉ taken ∧ ∃ n, 0 < n ∧ e.name = generatedName n

theorem becomes_of_named (h : en.step.name ≠ "") :
    Becomes taken en (elementOf en.step.name en) :=
  ⟨rfl, fun _ ↦ rfl, fun hn ↦ absurd hn h⟩

theorem becomes_of_unnamed (n : Nat) (h : en.step.name = "") :
    Becomes taken en (elementOf (generatedName (nextNumber taken n)) en) := by
  obtain ⟨hlt, hfree⟩ := nextNumber_spec taken n
  exact ⟨rfl, fun hn ↦ absurd h hn, fun _ ↦ ⟨hfree, _, by omega, rfl⟩⟩

theorem Becomes.name_ne_empty (h : Becomes taken en e) : e.name ≠ "" := by
  by_cases hn : en.step.name = ""
  · obtain ⟨-, n, -, hname⟩ := h.unnamed hn
    rw [hname, generatedName]
    split
    · decide
    · intro hempty
      have hlen := congrArg String.length hempty
      rw [String.length_append] at hlen
      have hstem : "Unnamed_".length = 8 := rfl
      have hnone : "".length = 0 := rfl
      omega
  · exact fun hempty ↦ hn ((h.named hn).symm.trans hempty)

def built (taken : List String) (ens : List Entry) : Progress :=
  ens.foldl (Progress.register taken) {}

theorem built_concat (taken : List String) (ens : List Entry) (en : Entry) :
    built taken (ens ++ [en]) = (built taken ens).register taken en := by
  rw [built, List.foldl_append]
  rfl

theorem mem_names_built (h : en ∈ ens) (hname : en.step.name ≠ "") :
    en.step.name ∈ (built taken ens).names := by
  induction ens using List.reverseRecOn with
  | nil => cases h
  | append_singleton ens last ih =>
    rw [built_concat, Progress.mem_names_register]
    obtain h | h := List.mem_append.mp h
    · exact .inl (ih h)
    · rw [List.mem_singleton.mp h] at hname ⊢
      exact .inr (nameFor_of_named hname).symm

theorem exists_becomes {es : List Element} (h : List.Forall₂ (Becomes taken) ens es) (he : e ∈ es) :
    ∃ en ∈ ens, Becomes taken en e := by
  induction h with
  | nil => cases he
  | @cons en e' _ _ hbecomes _ ih =>
    obtain rfl | he := List.mem_cons.mp he
    · exact ⟨en, List.mem_cons_self, hbecomes⟩
    · obtain ⟨en', hmem, hbecomes'⟩ := ih he
      exact ⟨en', List.mem_cons_of_mem _ hmem, hbecomes'⟩

/-- A declared name is in use only if one of the steps so far has it: generated names are none of
those. -/
theorem exists_of_mem_names (h : List.Forall₂ (Becomes taken) (kept ens) p.graph.elements)
    (hname : name ∈ p.names) (htaken : name ∈ taken) : ∃ en ∈ ens, en.step.name = name := by
  obtain ⟨e, he, rfl⟩ := List.mem_map.mp hname
  obtain ⟨en, hen, hbecomes⟩ := exists_becomes h he
  by_cases hn : en.step.name = ""
  · exact absurd htaken (hbecomes.unnamed hn).1
  · exact ⟨en, (kept_sublist ens).subset hen, (hbecomes.named hn).symm⟩

theorem isNew_iff_of_named
    (h : List.Forall₂ (Becomes taken) (kept ens) (built taken ens).graph.elements)
    (hname : en.step.name ≠ "") (htaken : en.step.name ∈ taken) :
    IsNew ens en ↔ en.step.name ∉ (built taken ens).names := by
  constructor
  · rintro (hempty | hnew) hmem
    · exact hname hempty
    · obtain ⟨b, hb, heq⟩ := exists_of_mem_names h hmem htaken
      exact hnew b hb heq
  · intro hmem
    refine .inr fun b hb heq ↦ hmem ?_
    rw [← heq] at hname ⊢
    exact mem_names_built hb hname

theorem forall₂_becomes (htaken : ∀ en ∈ ens, en.step.name ≠ "" → en.step.name ∈ taken) :
    List.Forall₂ (Becomes taken) (kept ens) (built taken ens).graph.elements := by
  induction ens using List.reverseRecOn with
  | nil => exact .nil
  | append_singleton ens en ih =>
    have hbefore : ∀ b ∈ ens, b.step.name ≠ "" → b.step.name ∈ taken :=
      fun b hb ↦ htaken b (List.mem_append_left _ hb)
    have hkept := ih hbefore
    rw [built_concat, kept_concat]
    by_cases hname : en.step.name = ""
    · have hfresh : (built taken ens).Fresh taken := (Progress.fresh_empty taken).foldl hbefore
      rw [hfresh.elements_register_of_unnamed hname, if_pos (.inl hname)]
      exact List.rel_append hkept (.cons (becomes_of_unnamed _ hname) .nil)
    · have hnew := isNew_iff_of_named hkept hname
        (htaken en (List.mem_append_right _ List.mem_cons_self) hname)
      rw [Progress.elements_register, nameFor_of_named hname, added]
      by_cases hmem : en.step.name ∈ (built taken ens).names
      · rw [if_pos hmem, if_neg (fun h ↦ hnew.mp h hmem)]
        exact List.rel_append hkept .nil
      · rw [if_neg hmem, if_pos (hnew.mpr hmem)]
        exact List.rel_append hkept (.cons (becomes_of_named hname) .nil)

theorem length_add (p : Progress) (name : String) (en : Entry) :
    (p.add name en).graph.warnings.length + (p.add name en).graph.elements.length =
      p.graph.warnings.length + p.graph.elements.length + 1 := by
  unfold Progress.add
  split
  · simp only [List.length_append, List.length_singleton]
    omega
  · simp only [List.length_append, List.length_singleton]
    omega

theorem length_register (p : Progress) (en : Entry) :
    (p.register taken en).graph.warnings.length + (p.register taken en).graph.elements.length =
      p.graph.warnings.length + p.graph.elements.length + 1 +
        if en.step.name = "" then 1 else 0 := by
  unfold Progress.register
  by_cases h : en.step.name = ""
  · rw [if_pos (beq_iff_eq.mpr h), if_pos h, length_add]
    simp only [List.length_append, List.length_singleton]
    omega
  · rw [if_neg (fun hb ↦ h (beq_iff_eq.mp hb)), if_neg h, length_add]

/-- Each step has added an element or a warning, and one more warning if it has no name. -/
theorem length_built (taken : List String) (ens : List Entry) :
    (built taken ens).graph.warnings.length + (built taken ens).graph.elements.length =
      ens.length + ens.countP (·.step.name = "") := by
  induction ens using List.reverseRecOn with
  | nil => rfl
  | append_singleton ens en ih =>
    rw [built_concat, length_register, ih, List.length_append, List.countP_append,
      List.length_singleton, List.countP_singleton]
    simp only [decide_eq_true_eq]
    omega

section Build

variable (md : Metadata)

theorem elements_build : (build md).elements = (built (declared md) (entries md)).graph.elements :=
  rfl

theorem forall₂_becomes_build :
    List.Forall₂ (Becomes (declared md)) (kept (entries md)) (build md).elements :=
  forall₂_becomes fun _ ↦ mem_declared

theorem dangling_build : (build md).dangling = (build md).elements.flatMap fun e ↦
    (e.distinctTargets.filter (!(build md).has ·)).map (⟨e.name, ·⟩) := by
  change danglingOf (build md) = _
  simp only [danglingOf, Element.edgeTargets_eq]

/-- The edges that lead nowhere are listed once: they come from different elements, or have
different targets. -/
theorem nodup_dangling_build : (build md).dangling.Nodup := by
  change (danglingOf (build md)).Nodup
  have hnames : (build md).elements.Pairwise fun a b ↦ a.name ≠ b.name :=
    List.pairwise_map.mp (distinct_build md)
  refine List.nodup_flatMap.mpr ⟨fun e _ ↦ ?_, hnames.imp fun {a b} hne d hda hdb ↦ ?_⟩
  · exact ((e.nodup_edgeTargets).filter _).map fun t u h ↦ (Dangling.mk.inj h).2
  · obtain ⟨t, -, rfl⟩ := List.mem_map.mp hda
    obtain ⟨u, -, h⟩ := List.mem_map.mp hdb
    exact hne (Dangling.mk.inj h).1.symm

theorem targets_build (he : e ∈ (build md).elements) :
    (build md).targets e.name = e.distinctTargets.filter (build md).has := by
  rw [targets, (distinct_build md).find?_eq he, ← e.edgeTargets_eq]
  rfl

theorem length_warnings_build : (build md).warnings.length =
    (entries md).countP (·.step.name = "") + ((entries md).length - (kept (entries md)).length) +
      (build md).dangling.length := by
  have hkept := (forall₂_becomes_build md).length_eq
  have hle := (kept_sublist (entries md)).length_le
  have hbuilt := length_built (declared md) (entries md)
  have hwarnings : (build md).warnings.length =
      (built (declared md) (entries md)).graph.warnings.length + (build md).dangling.length := by
    change (_ ++ (danglingOf _).map Dangling.warning).length = _
    rw [List.length_append, List.length_map]
    rfl
  rw [elements_build] at hkept
  omega

theorem name_ne_empty (he : e ∈ (build md).elements) : e.name ≠ "" := by
  obtain ⟨en, -, hbecomes⟩ := exists_becomes (forall₂_becomes_build md) he
  exact hbecomes.name_ne_empty

end Build

/-- Building a graph accounts for every step. The elements are, in order, the steps without a name
and the first step of every name, each with its kind and content: under its own name, or under a
generated one that no step declares. No two of them share a name. The edges that lead nowhere are
listed once each and in order, all other targets are those of the element; and there is a warning
for every step without a name, for every step that is not kept, and for every edge that leads
nowhere. -/
theorem build_accounts_for_steps (md : Metadata) :
    let g := build md
    List.Forall₂ (Becomes (declared md)) (kept (entries md)) g.elements ∧
    (g.elements.map (·.name)).Nodup ∧
    (g.dangling = g.elements.flatMap fun e ↦
      (e.distinctTargets.filter (!g.has ·)).map (⟨e.name, ·⟩)) ∧
    g.dangling.Nodup ∧
    (∀ e ∈ g.elements, g.targets e.name = e.distinctTargets.filter g.has) ∧
    g.warnings.length = (entries md).countP (·.step.name = "") +
      ((entries md).length - (kept (entries md)).length) + g.dangling.length :=
  ⟨forall₂_becomes_build md, distinct_build md, dangling_build md, nodup_dangling_build md,
    fun _ he ↦ targets_build md he, length_warnings_build md⟩

/-- Two steps have no name, and another one declares the second name that could be generated. Of two
steps with one name the first leads to the name that is generated instead; another edge leads
nowhere. -/
def carelessFlow : Metadata where
  name := "Careless"
  steps
    | .recordCreate => [{ connector := some "Lost" },
        { name := "Save", connector := some "Unnamed_3", faultConnector := some "Unnamed_3" }]
    | .decision => [{ name := "Unnamed_2", defaultConnector := some "Save" }]
    | .loop => [{ nextValueConnector := some "Save" }]
    | .screen => [{ name := "Save" }]
    | _ => []

theorem careless_steps_accounted_for :
    (build carelessFlow).elements.map (·.name) = ["Unnamed", "Save", "Unnamed_2", "Unnamed_3"] ∧
    (build carelessFlow).targets "Save" = ["Unnamed_3"] ∧
    (build carelessFlow).dangling = [⟨"Unnamed", "Lost"⟩] ∧
    (build carelessFlow).warnings.length = 2 + 1 + 1 := by
  obtain ⟨-, -, -, -, htargets, hwarnings⟩ := build_accounts_for_steps carelessFlow
  have hsave : elementOf "Save" ⟨.recordCreate, 2,
      { name := "Save", connector := some "Unnamed_3", faultConnector := some "Unnamed_3" }⟩ ∈
        (build carelessFlow).elements := by decide
  refine ⟨by decide, ?_, by decide, ?_⟩
  · exact (htargets _ hsave).trans (by decide)
  · exact hwarnings.trans (by decide)

end Graph

end FlowAudit
