import FlowAudit.Document.ToMetadata
import Mathlib.Data.List.Forall2

namespace FlowAudit.Document

/-- Documents in the relation look the same, and so do their parts. -/
structure IsBisimulation (R : Document → Document → Prop) : Prop where
  text {d d' : Document} (h : R d d') : Text.trim d.text = Text.trim d'.text
  items {d d' : Document} (h : R d d') : List.Forall₂ R d.items d'.items
  get? {d d' : Document} (h : R d d') (name : String) {α : Type} {read : Document → α} {missing : α}
    (hread : ∀ x x', R x x' → read x = read x') (hempty : read (.many []) = missing) :
    ((d.get? name).map read).getD missing = ((d'.get? name).map read).getD missing

namespace IsBisimulation

variable {R : Document → Document → Prop} {d d' : Document}

theorem textOf_eq (hR : IsBisimulation R) (h : R d d') (name : String) :
    d.textOf name = d'.textOf name := by
  have hread (d : Document) : d.textOf name = ((d.get? name).map fun x ↦ Text.trim x.text).getD "" := by
    rw [textOf, rawText]
    cases d.get? name <;> rfl
  rw [hread, hread]
  exact hR.get? h name (fun x x' hx ↦ hR.text hx) rfl

theorem map_listOf_eq {α : Type} {read : Document → α} (hR : IsBisimulation R) (h : R d d')
    (hread : ∀ x x', R x x' → read x = read x') (name : String) :
    (d.listOf name).map read = (d'.listOf name).map read := by
  have hlist (d : Document) :
      (d.listOf name).map read = ((d.get? name).map fun x ↦ x.items.map read).getD [] := by
    rw [listOf]
    cases d.get? name <;> rfl
  have hitems {xs xs' : List Document} (hxs : List.Forall₂ R xs xs') : xs.map read = xs'.map read := by
    induction hxs with
    | nil => rfl
    | cons hx _ ih => rw [List.map_cons, List.map_cons, hread _ _ hx, ih]
  rw [hlist, hlist]
  exact hR.get? h name (fun x x' hx ↦ hitems (hR.items hx)) rfl

theorem value_eq (hR : IsBisimulation R) (h : R d d') (name : String) : d.value name = d'.value name := by
  have htext (field : String) : ((d.get? name).getD (.record [])).textOf field =
      ((d'.get? name).getD (.record [])).textOf field := by
    have hmissing : (Document.many []).textOf field = (Document.record []).textOf field := rfl
    rw [← Option.getD_map (textOf field), ← Option.getD_map (textOf field)]
    exact hR.get? h name (fun x x' hx ↦ hR.textOf_eq hx field) hmissing
  simp only [value, htext]

theorem connector_eq (hR : IsBisimulation R) (h : R d d') (name : String) :
    d.connector name = d'.connector name := by
  have hread (d : Document) : d.connector name = ((d.get? name).map fun c ↦
      if c.textOf "targetReference" == "" then none else some (c.textOf "targetReference")).getD none := by
    rw [connector]
    cases d.get? name with
    | none => rw [Option.map_none, Option.getD_none]
    | some c => rw [Option.map_some, Option.getD_some]
  rw [hread, hread]
  refine hR.get? h name (fun x x' hx ↦ ?_) rfl
  rw [hR.textOf_eq hx]

theorem rule_eq (hR : IsBisimulation R) (h : R d d') : d.rule = d'.rule := by
  have hcondition (x x' : Document) (hx : R x x') : x.condition = x'.condition := by
    simp only [condition, hR.textOf_eq hx, hR.value_eq hx]
  simp only [rule, hR.textOf_eq h, hR.connector_eq h, hR.map_listOf_eq h hcondition]

theorem step_eq (hR : IsBisimulation R) (h : R d d') : d.step = d'.step := by
  have hinput (x x' : Document) (hx : R x x') : x.inputAssignment = x'.inputAssignment := by
    simp only [inputAssignment, hR.textOf_eq hx, hR.value_eq hx]
  have hfilter (x x' : Document) (hx : R x x') : x.filter = x'.filter := by
    simp only [filter, hR.textOf_eq hx, hR.value_eq hx]
  have hitem (x x' : Document) (hx : R x x') : x.assignmentItem = x'.assignmentItem := by
    simp only [assignmentItem, hR.textOf_eq hx, hR.value_eq hx]
  have hqueried : (d.listOf "queriedFields").map (fun f ↦ Text.trim f.text) =
      (d'.listOf "queriedFields").map fun f ↦ Text.trim f.text :=
    hR.map_listOf_eq h (fun x x' hx ↦ hR.text hx) _
  simp only [step, hR.textOf_eq h, hR.connector_eq h, List.map_append, hR.map_listOf_eq h hinput,
    hR.map_listOf_eq h hfilter, hR.map_listOf_eq h hitem, hqueried,
    hR.map_listOf_eq h (fun x x' hx ↦ hR.textOf_eq hx "name"),
    hR.map_listOf_eq h (fun x x' hx ↦ hR.rule_eq hx)]

/-- Documents that look the same have one canonical form. Only of a start it matters that it is there at
all, whatever it holds. -/
theorem toMetadata_eq (hR : IsBisimulation R) (h : R d d')
    (hstart : Option.Rel R (d.get? "start") (d'.get? "start")) : d.toMetadata = d'.toMetadata := by
  have hformula (x x' : Document) (hx : R x x') : x.formula = x'.formula := by
    simp only [formula, hR.textOf_eq hx]
  have hchoice (x x' : Document) (hx : R x x') : x.choiceSet = x'.choiceSet := by
    simp only [choiceSet, hR.textOf_eq hx]
  have hvariable (x x' : Document) (hx : R x x') : x.flowVariable = x'.flowVariable := by
    simp only [flowVariable, hR.textOf_eq hx]
  have hbegin : (d.get? "start").map start = (d'.get? "start").map start := by
    generalize d.get? "start" = s at hstart ⊢
    generalize d'.get? "start" = s' at hstart ⊢
    cases hstart with
    | none => rfl
    | some hx => simp only [Option.map_some, start, hR.textOf_eq hx, hR.connector_eq hx]
  simp only [toMetadata, hR.textOf_eq h, hbegin, hR.map_listOf_eq h hformula,
    hR.map_listOf_eq h hchoice, hR.map_listOf_eq h hvariable,
    hR.map_listOf_eq h (fun x x' hx ↦ hR.step_eq hx)]

end IsBisimulation

end FlowAudit.Document
