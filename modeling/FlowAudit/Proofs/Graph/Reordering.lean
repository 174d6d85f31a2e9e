import FlowAudit.Proofs.Graph.Generated

namespace FlowAudit

theorem StepKind.mem_all (k : StepKind) : k ∈ StepKind.all := by
  cases k <;> decide

namespace Metadata

/-- The second flow is the first one with the steps that call flows in another order. -/
structure Reordered (md md' : Metadata) : Prop where
  frame : md' = { md with steps := md'.steps }
  others : ∀ k, k ≠ .subflow → md'.steps k = md.steps k
  calls : (md.steps .subflow).Perm (md'.steps .subflow)

theorem reordered_iff {md md' : Metadata} : md.Reordered md' ↔
    ((md'.name, md'.label, md'.processType, md'.status, md'.apiVersion) =
        (md.name, md.label, md.processType, md.status, md.apiVersion) ∧
      (md'.start, md'.formulas, md'.dynamicChoiceSets, md'.flowVariables) =
        (md.start, md.formulas, md.dynamicChoiceSets, md.flowVariables)) ∧
      (∀ k ∈ StepKind.all, k ≠ .subflow → md'.steps k = md.steps k) ∧
      (md.steps .subflow).Perm (md'.steps .subflow) := by
  have hframe : md' = { md with steps := md'.steps } ↔
      (md'.name, md'.label, md'.processType, md'.status, md'.apiVersion) =
          (md.name, md.label, md.processType, md.status, md.apiVersion) ∧
        (md'.start, md'.formulas, md'.dynamicChoiceSets, md'.flowVariables) =
          (md.start, md.formulas, md.dynamicChoiceSets, md.flowVariables) := by
    cases md
    cases md'
    simp only [mk.injEq, Prod.mk.injEq, and_true, and_assoc]
  rw [← hframe]
  exact ⟨fun h ↦ ⟨h.frame, fun k _ ↦ h.others k, h.calls⟩,
    fun h ↦ ⟨h.1, fun k ↦ h.2.1 k (StepKind.mem_all k), h.2.2⟩⟩

instance (md md' : Metadata) : Decidable (md.Reordered md') :=
  decidable_of_iff _ reordered_iff.symm

def CallsByName (steps : List Step) : Prop :=
  ∀ s ∈ steps, ∀ t ∈ steps, s.name ≠ "" → s.name = t.name → s.flowName = t.flowName

instance (steps : List Step) : Decidable (CallsByName steps) :=
  inferInstanceAs (Decidable (∀ s ∈ steps, ∀ t ∈ steps, s.name ≠ "" → _ → _))

theorem CallsByName.of_cons {s : Step} {steps : List Step} (h : CallsByName (s :: steps)) :
    CallsByName steps :=
  fun t ht u hu ↦ h t (List.mem_cons_of_mem _ ht) u (List.mem_cons_of_mem _ hu)

theorem CallsByName.perm {steps steps' : List Step} (h : CallsByName steps)
    (hperm : steps.Perm steps') : CallsByName steps' :=
  fun s hs t ht ↦ h s (hperm.mem_iff.mpr hs) t (hperm.mem_iff.mpr ht)

end Metadata

namespace Graph

variable {taken taken' : List String} {n : Nat} {p q r : Progress} {en : Entry} {s : Step}
  {name : String}

def elementOf (name : String) (en : Entry) : Element where
  name := name
  kind := en.kind
  props := propsOf en.kind en.step
  edges := edgesOf en.kind en.step

def nameFor (taken : List String) (n : Nat) (s : Step) : String :=
  if s.name = "" then generatedName (nextNumber taken n) else s.name

def numberAfter (taken : List String) (n : Nat) (s : Step) : Nat :=
  if s.name = "" then nextNumber taken n else n

theorem nameFor_of_named (h : s.name ≠ "") : nameFor taken n s = s.name := if_neg h

theorem nameFor_of_unnamed (h : s.name = "") :
    nameFor taken n s = generatedName (nextNumber taken n) := if_pos h

theorem numberAfter_of_named (h : s.name ≠ "") : numberAfter taken n s = n := if_neg h

theorem numberAfter_of_unnamed (h : s.name = "") : numberAfter taken n s = nextNumber taken n :=
  if_pos h

def added (names : List String) (name : String) (en : Entry) : List Element :=
  if name ∈ names then [] else [elementOf name en]

namespace Progress

def names (p : Progress) : List String := p.graph.elements.map (·.name)

theorem has_iff_mem_names : p.graph.has name = true ↔ name ∈ p.names := by
  simp [names]

theorem elements_add (p : Progress) (name : String) (en : Entry) :
    (p.add name en).graph.elements = p.graph.elements ++ added p.names name en := by
  unfold Progress.add added
  by_cases h : p.graph.has name = true
  · rw [if_pos h, if_pos (has_iff_mem_names.mp h), List.append_nil]
  · rw [if_neg h, if_neg (fun hn ↦ h (has_iff_mem_names.mpr hn))]
    rfl

theorem number_add (p : Progress) (name : String) (en : Entry) :
    (p.add name en).number = p.number := by
  unfold Progress.add
  split <;> rfl

theorem elements_register (p : Progress) (en : Entry) :
    (p.register taken en).graph.elements =
      p.graph.elements ++ added p.names (nameFor taken p.number en.step) en := by
  unfold Progress.register
  by_cases h : en.step.name = ""
  · rw [if_pos (beq_iff_eq.mpr h), nameFor_of_unnamed h]
    exact elements_add _ _ en
  · rw [if_neg (fun hb ↦ h (beq_iff_eq.mp hb)), nameFor_of_named h]
    exact elements_add p _ en

theorem number_register (p : Progress) (en : Entry) :
    (p.register taken en).number = numberAfter taken p.number en.step := by
  unfold Progress.register
  by_cases h : en.step.name = ""
  · rw [if_pos (beq_iff_eq.mpr h), numberAfter_of_unnamed h]
    exact number_add _ _ en
  · rw [if_neg (fun hb ↦ h (beq_iff_eq.mp hb)), numberAfter_of_named h]
    exact number_add p _ en

theorem mem_names_register :
    name ∈ (p.register taken en).names ↔
      name ∈ p.names ∨ name = nameFor taken p.number en.step := by
  rw [names, elements_register, List.map_append, List.mem_append]
  by_cases h : nameFor taken p.number en.step ∈ p.names
  · rw [added, if_pos h]
    refine ⟨fun hn ↦ .inl (hn.resolve_right List.not_mem_nil), fun hn ↦ .inl ?_⟩
    obtain hn | rfl := hn
    · exact hn
    · exact h
  · rw [added, if_neg h, List.map_singleton, List.mem_singleton]
    exact Iff.rfl

theorem elements_register_register {s t : Entry}
    (h : nameFor taken (p.register taken s).number t.step ≠ nameFor taken p.number s.step) :
    ((p.register taken s).register taken t).graph.elements = p.graph.elements ++
      (added p.names (nameFor taken p.number s.step) s ++
        added p.names (nameFor taken (p.register taken s).number t.step) t) := by
  have hmem : nameFor taken (p.register taken s).number t.step ∈ (p.register taken s).names ↔
      nameFor taken (p.register taken s).number t.step ∈ p.names := by
    rw [mem_names_register, or_iff_left h]
  have hadded :
      added (p.register taken s).names (nameFor taken (p.register taken s).number t.step) t =
        added p.names (nameFor taken (p.register taken s).number t.step) t := by
    unfold added
    exact if_congr hmem rfl rfl
  rw [elements_register, hadded, elements_register, List.append_assoc]

theorem elements_register_of_eq {s t : Entry} (hs : s.step.name ≠ "")
    (h : t.step.name = s.step.name) :
    ((p.register taken s).register taken t).graph.elements =
      p.graph.elements ++ added p.names s.step.name s := by
  have hmem : t.step.name ∈ (p.register taken s).names := by
    rw [mem_names_register, nameFor_of_named hs]
    exact .inr h
  rw [elements_register, nameFor_of_named (h ▸ hs), added, if_pos hmem, List.append_nil,
    elements_register, nameFor_of_named hs]

def Fresh (taken : List String) (p : Progress) : Prop :=
  ∀ n, p.number < n → generatedName n ∉ taken → generatedName n ∉ p.names

theorem Fresh.next (h : p.Fresh taken) : generatedName (nextNumber taken p.number) ∉ p.names :=
  h _ (nextNumber_spec taken p.number).1 (nextNumber_spec taken p.number).2

theorem fresh_empty (taken : List String) : Fresh taken {} :=
  fun _ _ _ ↦ List.not_mem_nil

theorem Fresh.register (h : p.Fresh taken) (hen : en.step.name ≠ "" → en.step.name ∈ taken) :
    (p.register taken en).Fresh taken := by
  intro n hn hfree hmem
  rw [number_register] at hn
  obtain hmem | hmem := mem_names_register.mp hmem
  · -- The name was there before, and the numbers only grow.
    by_cases hname : en.step.name = ""
    · rw [numberAfter_of_unnamed hname] at hn
      exact h n (Nat.lt_trans (nextNumber_spec taken p.number).1 hn) hfree hmem
    · rw [numberAfter_of_named hname] at hn
      exact h n hn hfree hmem
  · -- The name is new: it is the generated one before the `n`-th, or it is taken.
    by_cases hname : en.step.name = ""
    · rw [numberAfter_of_unnamed hname] at hn
      rw [nameFor_of_unnamed hname] at hmem
      have hpos := (nextNumber_spec taken p.number).1
      have := generatedName_inj (by omega) (by omega) hmem
      omega
    · rw [nameFor_of_named hname] at hmem
      exact hfree (hmem ▸ hen hname)

theorem Fresh.elements_register_of_unnamed (h : p.Fresh taken) (hen : en.step.name = "") :
    (p.register taken en).graph.elements =
      p.graph.elements ++ [elementOf (generatedName (nextNumber taken p.number)) en] := by
  rw [elements_register, nameFor_of_unnamed hen, added, if_neg h.next]

theorem Fresh.elements_register_register {s t : Entry} (h : p.Fresh taken) (hs : s.step.name = "")
    (ht : t.step.name = "") :
    ((p.register taken s).register taken t).graph.elements = p.graph.elements ++
      [elementOf (generatedName (nextNumber taken p.number)) s,
        elementOf (generatedName (nextNumber taken (nextNumber taken p.number))) t] := by
  have hfresh : (p.register taken s).Fresh taken := h.register fun hne ↦ absurd hs hne
  rw [hfresh.elements_register_of_unnamed ht, h.elements_register_of_unnamed hs, number_register,
    numberAfter_of_unnamed hs, List.append_assoc]
  rfl

theorem Fresh.foldl (h : p.Fresh taken) {ens : List Entry}
    (hens : ∀ en ∈ ens, en.step.name ≠ "" → en.step.name ∈ taken) :
    (ens.foldl (Progress.register taken) p).Fresh taken :=
  List.foldlRecOn ens _ h fun _ hp en hen ↦ hp.register (hens en hen)

end Progress

def profile (e : Element) : StepKind × Option String := (e.kind, e.calledFlow?)

/-- Both have the same names, up to their order, and elements of the same profiles. -/
structure Alike (p q : Progress) : Prop where
  number : p.number = q.number
  names : p.names.Perm q.names
  profiles : (p.graph.elements.map profile).Perm (q.graph.elements.map profile)

namespace Alike

theorem refl (p : Progress) : Alike p p := ⟨rfl, .refl _, .refl _⟩

theorem symm (h : Alike p q) : Alike q p := ⟨h.number.symm, h.names.symm, h.profiles.symm⟩

theorem trans (h : Alike p q) (h' : Alike q r) : Alike p r :=
  ⟨h.number.trans h'.number, h.names.trans h'.names, h.profiles.trans h'.profiles⟩

theorem of_perm (hn : p.number = q.number) (h : p.graph.elements.Perm q.graph.elements) :
    Alike p q := ⟨hn, h.map _, h.map _⟩

theorem of_append {es as bs : List Element} (hn : p.number = q.number)
    (hp : p.graph.elements = es ++ as) (hq : q.graph.elements = es ++ bs)
    (hnames : (as.map (·.name)).Perm (bs.map (·.name)))
    (hprofiles : (as.map profile).Perm (bs.map profile)) : Alike p q := by
  refine ⟨hn, ?_, ?_⟩
  · rw [Progress.names, Progress.names, hp, hq, List.map_append, List.map_append]
    exact hnames.append_left _
  · rw [hp, hq, List.map_append, List.map_append]
    exact hprofiles.append_left _

theorem register (h : Alike p q) (k : StepKind) (s : Step) (i j : Nat) :
    Alike (p.register taken ⟨k, i, s⟩) (q.register taken ⟨k, j, s⟩) := by
  have hadded : added p.names (nameFor taken q.number s) ⟨k, i, s⟩ =
      added q.names (nameFor taken q.number s) ⟨k, j, s⟩ := by
    unfold added
    exact if_congr h.names.mem_iff rfl rfl
  refine ⟨?_, ?_, ?_⟩
  · rw [Progress.number_register, Progress.number_register, h.number]
  · rw [Progress.names, Progress.names, Progress.elements_register, Progress.elements_register,
      h.number, hadded, List.map_append, List.map_append]
    exact h.names.append_right _
  · rw [Progress.elements_register, Progress.elements_register, h.number, hadded, List.map_append,
      List.map_append]
    exact h.profiles.append_right _

theorem foldl (h : Alike p q) (ens : List Entry) :
    Alike (ens.foldl (Progress.register taken) p) (ens.foldl (Progress.register taken) q) := by
  induction ens generalizing p q with
  | nil => exact h
  | cons en ens ih => exact ih (h.register en.kind en.step en.number en.number)

theorem foldl_zipIdx (h : Alike p q) (k : StepKind) (steps : List Step) (start : Nat) :
    Alike (((steps.zipIdx start).map fun (s, i) ↦ ⟨k, i + 1, s⟩).foldl (Progress.register taken) p)
      ((steps.map (⟨k, 0, ·⟩)).foldl (Progress.register taken) q) := by
  induction steps generalizing p q start with
  | nil => exact h
  | cons s steps ih =>
    rw [List.zipIdx_cons, List.map_cons, List.map_cons, List.foldl_cons, List.foldl_cons]
    exact ih (h.register k s (start + 1) 0) (start + 1)

end Alike

def call (s : Step) : Entry := ⟨.subflow, 0, s⟩

theorem profile_call {s t : Step} (h : s.flowName = t.flowName) (x y : String) :
    profile (elementOf x (call s)) = profile (elementOf y (call t)) := by
  simp only [profile, elementOf, call, propsOf, Element.calledFlow?, h]

section Swap

variable {s t : Step}

/-- One of the two steps has a name that the other is not given: both get the same names in either
order. -/
theorem alike_swap_of_ne (ht : t.name ≠ "") (hne : nameFor taken p.number s ≠ t.name) :
    Alike ((p.register taken (call s)).register taken (call t))
      ((p.register taken (call t)).register taken (call s)) := by
  have hnumber : (p.register taken (call t)).number = p.number := by
    rw [Progress.number_register]
    exact numberAfter_of_named ht
  have hname : ∀ n, nameFor taken n t = t.name := fun n ↦ nameFor_of_named ht
  apply Alike.of_perm
  · rw [Progress.number_register, Progress.number_register, Progress.number_register, hnumber]
    exact numberAfter_of_named ht
  · rw [Progress.elements_register_register (by rw [call, call, hname]; exact hne.symm),
      Progress.elements_register_register (by rw [hnumber, call, call, hname]; exact hne), hnumber,
      call, call, hname, hname]
    exact List.perm_append_comm.append_left _

/-- Of two steps with one name the first is kept, and both call the same flow. -/
theorem alike_swap_of_eq (hs : s.name ≠ "") (hname : s.name = t.name)
    (hflow : s.flowName = t.flowName) :
    Alike ((p.register taken (call s)).register taken (call t))
      ((p.register taken (call t)).register taken (call s)) := by
  have ht : t.name ≠ "" := hname ▸ hs
  have hcall : (call s).step.name = (call t).step.name := hname
  apply Alike.of_append
  · simp only [Progress.number_register, call, numberAfter_of_named hs, numberAfter_of_named ht]
  · exact Progress.elements_register_of_eq hs hname.symm
  · exact Progress.elements_register_of_eq ht hname
  · rw [added, added, hcall]
    split
    · exact .refl _
    · exact .refl [t.name]
  · rw [added, added, hcall]
    split
    · exact .refl _
    · rw [List.map_singleton, List.map_singleton, profile_call hflow]

theorem alike_swap_of_unnamed (hp : p.Fresh taken) (hs : s.name = "") (ht : t.name = "") :
    Alike ((p.register taken (call s)).register taken (call t))
      ((p.register taken (call t)).register taken (call s)) := by
  apply Alike.of_append
  · simp only [Progress.number_register, call, numberAfter_of_unnamed hs, numberAfter_of_unnamed ht]
  · exact hp.elements_register_register hs ht
  · exact hp.elements_register_register ht hs
  · exact .refl _
  · simp only [List.map_cons, List.map_nil]
    exact .swap _ _ _

theorem alike_swap (hp : p.Fresh taken) (hs : s.name ≠ "" → s.name ∈ taken)
    (ht : t.name ≠ "" → t.name ∈ taken)
    (hflow : s.name ≠ "" → s.name = t.name → s.flowName = t.flowName) :
    Alike ((p.register taken (call s)).register taken (call t))
      ((p.register taken (call t)).register taken (call s)) := by
  have hfree := (nextNumber_spec taken p.number).2
  by_cases hs' : s.name = ""
  · by_cases ht' : t.name = ""
    · exact alike_swap_of_unnamed hp hs' ht'
    · refine alike_swap_of_ne ht' fun h ↦ hfree ?_
      rw [nameFor_of_unnamed hs'] at h
      exact h ▸ ht ht'
  · by_cases ht' : t.name = ""
    · refine (alike_swap_of_ne hs' fun h ↦ hfree ?_).symm
      rw [nameFor_of_unnamed ht'] at h
      exact h ▸ hs hs'
    · by_cases hname : s.name = t.name
      · exact alike_swap_of_eq hs' hname (hflow hs' hname)
      · refine alike_swap_of_ne ht' ?_
        rwa [nameFor_of_named hs']

end Swap

theorem alike_foldl_perm {steps steps' : List Step} (hperm : steps.Perm steps')
    (hp : p.Fresh taken) (htaken : ∀ s ∈ steps, s.name ≠ "" → s.name ∈ taken)
    (hcalls : Metadata.CallsByName steps) :
    Alike ((steps.map call).foldl (Progress.register taken) p)
      ((steps'.map call).foldl (Progress.register taken) p) := by
  induction hperm generalizing p with
  | nil => exact .refl p
  | cons s _ ih =>
    exact ih (hp.register (htaken s List.mem_cons_self))
      (fun t ht ↦ htaken t (List.mem_cons_of_mem _ ht)) hcalls.of_cons
  | swap s t steps =>
    have hs := htaken s (List.mem_cons_of_mem _ List.mem_cons_self)
    have ht := htaken t List.mem_cons_self
    have hflow := hcalls t List.mem_cons_self s (List.mem_cons_of_mem _ List.mem_cons_self)
    exact (alike_swap hp ht hs hflow).foldl (steps.map call)
  | trans h _ ih ih' =>
    refine (ih hp htaken hcalls).trans (ih' hp ?_ (hcalls.perm h))
    exact fun s hs ↦ htaken s (h.mem_iff.mpr hs)

def entriesOf (md : Metadata) (k : StepKind) : List Entry :=
  (md.steps k).zipIdx.map fun (s, i) ↦ ⟨k, i + 1, s⟩

theorem map_step_entriesOf (md : Metadata) (k : StepKind) :
    (entriesOf md k).map (·.step) = md.steps k := by
  rw [entriesOf, List.map_map]
  exact List.zipIdx_map_fst 0 _

theorem map_step_entries (md : Metadata) :
    (entries md).map (·.step) = StepKind.all.flatMap md.steps := by
  change (StepKind.all.flatMap (entriesOf md)).map _ = _
  simp only [List.map_flatMap, map_step_entriesOf]

theorem declared_eq (md : Metadata) :
    declared md = ((StepKind.all.flatMap md.steps).map (·.name)).filter (· != "") := by
  rw [← map_step_entries, List.map_map]
  rfl

theorem mem_declared {md : Metadata} (hen : en ∈ entries md) (h : en.step.name ≠ "") :
    en.step.name ∈ declared md :=
  List.mem_filter.mpr ⟨List.mem_map_of_mem hen, bne_iff_ne.mpr h⟩

theorem register_perm (h : taken.Perm taken') :
    Progress.register taken = Progress.register taken' := by
  funext p en
  simp only [Progress.register, nextNumber_perm h]

theorem entries_split : ∃ before after : List StepKind, .subflow ∉ before ∧ .subflow ∉ after ∧
    ∀ md, entries md = before.flatMap (entriesOf md) ++
      (entriesOf md .subflow ++ after.flatMap (entriesOf md)) := by
  obtain ⟨before, after, hall⟩ := List.append_of_mem (StepKind.mem_all .subflow)
  have hnodup : StepKind.all.Nodup := by decide
  rw [hall, List.nodup_middle, List.nodup_cons, List.mem_append, not_or] at hnodup
  refine ⟨before, after, hnodup.1.1, hnodup.1.2, fun md ↦ ?_⟩
  rw [← List.flatMap_cons, ← List.flatMap_append, ← hall]
  rfl

end Graph

open FlowAudit.Graph

namespace Metadata.Reordered

variable {md md' : Metadata}

theorem steps_perm (h : md.Reordered md') (k : StepKind) : (md.steps k).Perm (md'.steps k) := by
  by_cases hk : k = .subflow
  · exact hk ▸ h.calls
  · rw [h.others k hk]

theorem declared_perm (h : md.Reordered md') : (declared md).Perm (declared md') := by
  rw [declared_eq, declared_eq]
  exact ((List.Perm.flatMap_left _ fun k _ ↦ h.steps_perm k).map _).filter _

theorem flatMap_entriesOf (h : md.Reordered md') {kinds : List StepKind} (hk : .subflow ∉ kinds) :
    kinds.flatMap (entriesOf md') = kinds.flatMap (entriesOf md) := by
  refine List.flatMap_congr fun k hmem ↦ ?_
  rw [entriesOf, entriesOf, h.others k fun heq ↦ hk (heq ▸ hmem)]

theorem alike (h : md.Reordered md') (hcalls : CallsByName (md.steps .subflow)) :
    Alike ((entries md).foldl (Progress.register (declared md)) {})
      ((entries md').foldl (Progress.register (declared md')) {}) := by
  obtain ⟨before, after, hbefore, hafter, hsplit⟩ := entries_split
  rw [← register_perm h.declared_perm, hsplit md', h.flatMap_entriesOf hbefore,
    h.flatMap_entriesOf hafter]
  have htaken : ∀ en ∈ entries md, en.step.name ≠ "" → en.step.name ∈ declared md :=
    fun _ hen ↦ mem_declared hen
  rw [hsplit md] at htaken ⊢
  simp only [List.foldl_append]
  -- Both passes do the same before the calls, and keep up with each other after them.
  apply Alike.foldl
  have hfresh : (List.foldl (Progress.register (declared md)) {}
      (before.flatMap (entriesOf md))).Fresh (declared md) :=
    (Progress.fresh_empty _).foldl fun en hen ↦ htaken en (List.mem_append_left _ hen)
  refine ((Alike.refl _).foldl_zipIdx _ _ 0).trans ?_
  refine .trans (alike_foldl_perm h.calls hfresh ?_ hcalls)
    ((Alike.refl _).foldl_zipIdx _ _ 0).symm
  intro s hs
  rw [← map_step_entriesOf md] at hs
  obtain ⟨en, hen, rfl⟩ := List.mem_map.mp hs
  exact htaken en (List.mem_append_right _ (List.mem_append_left _ hen))

theorem profiles_perm (h : md.Reordered md') (hcalls : CallsByName (md.steps .subflow)) :
    ((build md).elements.map profile).Perm ((build md').elements.map profile) :=
  (h.alike hcalls).profiles

theorem count_eq (h : md.Reordered md') (hcalls : CallsByName (md.steps .subflow)) (k : StepKind) :
    (build md).count k = (build md').count k := by
  have hcount : ∀ g : Graph, g.count k = (g.elements.map profile).countP (·.1 = k) := by
    intro g
    rw [List.countP_map, List.countP_eq_length_filter]
    rfl
  rw [hcount, hcount, (h.profiles_perm hcalls).countP_eq]

theorem exists_call_iff (h : md.Reordered md') (hcalls : CallsByName (md.steps .subflow))
    (name : String) :
    (∃ e ∈ (build md).elements, e.calledFlow? = some name) ↔
      ∃ e ∈ (build md').elements, e.calledFlow? = some name := by
  have hmem : ∀ g : Graph, (∃ e ∈ g.elements, e.calledFlow? = some name) ↔
      ∃ c ∈ g.elements.map profile, c.2 = some name := by
    intro g
    simp [profile]
  simp only [hmem, (h.profiles_perm hcalls).mem_iff]

end Metadata.Reordered

end FlowAudit
