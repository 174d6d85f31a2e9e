import FlowAudit.Proofs.Document.Canonical
import FlowAudit.Proofs.Document.Forms

namespace FlowAudit.Document

def isEmptyList : Document → Bool
  | .many [] => true
  | _ => false

mutual

/-- The document without fields that hold empty lists. -/
def pruned : Document → Document
  | .leaf s => .leaf s
  | .record fs => .record (prunedFields fs)
  | .many items => .many (prunedItems items)

def prunedFields : Fields → Fields
  | [] => []
  | (name, d) :: rest =>
    if d.isEmptyList then prunedFields rest else (name, pruned d) :: prunedFields rest

def prunedItems : List Document → List Document
  | [] => []
  | d :: rest => pruned d :: prunedItems rest

end

theorem eq_many_nil {d : Document} (h : d.isEmptyList = true) : d = .many [] := by
  cases d with
  | many items =>
    cases items with
    | nil => rfl
    | cons => cases h
  | leaf s => cases h
  | record fs => cases h

theorem prunedFields_cons (p : String × Document) (fs : Fields) :
    prunedFields (p :: fs) = prunedFields [p] ++ prunedFields fs := by
  simp only [prunedFields]
  split <;> rfl

theorem names_prunedFields_sublist (fs : Fields) :
    ((prunedFields fs).map (·.1)).Sublist (fs.map (·.1)) := by
  induction fs with
  | nil => exact List.Sublist.refl _
  | cons p fs ih =>
    rw [prunedFields]
    split
    · exact ih.cons p.1
    · exact ih.cons_cons p.1

theorem prunedItems_eq_map (items : List Document) : prunedItems items = items.map pruned := by
  induction items with
  | nil => rfl
  | cons d items ih => rw [prunedItems, ih, List.map_cons]

section Elements

variable {shape : Shape} {fields : List Field} {old fs : Fields} {name : String} {c : Cardinality}

def readInside (shape : Shape) (children : List Markup.Node) : Document :=
  match shape with
  | .leaf => .leaf (Markup.ownText children)
  | .record inner => .record (applyChildren inner [] children)

theorem applyChildren_append (as bs : List Markup.Node) :
    applyChildren fields old (as ++ bs) = applyChildren fields (applyChildren fields old as) bs := by
  induction as generalizing old with
  | nil => rw [applyChildren, List.nil_append]
  | cons a as ih => rw [List.cons_append, applyChildren, applyChildren, ih]

theorem applyChild_single (hfind : fields.find? (·.1 == name) = some (name, c, shape)) (hc : c ≠ .many)
    (hnew : name ∉ old.map (·.1)) (children : List Markup.Node) :
    applyChild fields old (.element name children) = old ++ [(name, readInside shape children)] := by
  rw [applyChild, hfind]
  simp only [if_neg hc, lookup_eq_none hnew, Option.map_none, Option.getD_none]
  cases c with
  | many => exact absurd rfl hc
  | optional => exact put_eq_append hnew
  | embedded => exact put_eq_append hnew

theorem applyChild_many (hfind : fields.find? (·.1 == name) = some (name, .many, shape))
    (children : List Markup.Node) :
    applyChild fields old (.element name children) =
      put name (some (.many (((lookup name old).map items).getD [] ++ [readInside shape children]))) old := by
  rw [applyChild, hfind]
  simp only [if_true, Option.map_none, Option.getD_none]
  rfl

theorem applyChildren_many (hfind : fields.find? (·.1 == name) = some (name, .many, shape))
    (hnew : name ∉ old.map (·.1)) (done : List Document) (xs : List (List Markup.Node)) :
    applyChildren fields (old ++ [(name, .many done)]) (xs.map (.element name)) =
      old ++ [(name, .many (done ++ xs.map (readInside shape)))] := by
  induction xs generalizing done with
  | nil => simp [applyChildren]
  | cons x xs ih =>
    have hlookup : lookup name (old ++ [(name, .many done)]) = some (.many done) := by
      have hnone := lookup_eq_none hnew
      rw [lookup, Option.map_eq_none_iff] at hnone
      simp [lookup, List.find?_append, hnone]
    have hput (d : Document) : put name (some d) (old ++ [(name, .many done)]) = old ++ [(name, d)] := by
      simp [put, List.filter_append, filter_ne_eq_self hnew]
    rw [List.map_cons, applyChildren, applyChild_many hfind, hlookup, hput]
    simp only [Option.map_some, Option.getD_some, items]
    rw [ih, List.map_cons, List.append_assoc, List.singleton_append]

def ReadsPruned (shape : Shape) (d : Document) : Prop :=
  ∃ children, contents d = [children] ∧ readInside shape children = d.pruned

def AddsField (fields : List Field) (p : String × Document) : Prop :=
  ∀ old : Fields, p.1 ∉ old.map (·.1) →
    applyChildren fields old ((contents p.2).map (.element p.1)) = old ++ prunedFields [p]

theorem addsField_single {d : Document} (hfind : fields.find? (·.1 == name) = some (name, c, shape))
    (hc : c ≠ .many) (hd : d.isEmptyList = false) (h : ReadsPruned shape d) : AddsField fields (name, d) := by
  intro old hnew
  obtain ⟨children, hcontents, hread⟩ := h
  simp only [hcontents, List.map_cons, List.map_nil, applyChildren, prunedFields, hd]
  rw [applyChild_single hfind hc hnew, hread]
  rfl

theorem addsField_many {items : List Document}
    (hfind : fields.find? (·.1 == name) = some (name, .many, shape))
    (hread : (contentsOf items).map (readInside shape) = prunedItems items) :
    AddsField fields (name, .many items) := by
  intro old hnew
  rw [contents]
  cases items with
  | nil => simp [contentsOf, applyChildren, prunedFields, isEmptyList]
  | cons d items =>
    -- the list has an item, so the first element finds the field missing and the others add to it
    have hpruned : prunedFields [(name, .many (d :: items))] =
        [(name, .many (prunedItems (d :: items)))] := rfl
    rw [hpruned, ← hread]
    cases hxs : contentsOf (d :: items) with
    | nil =>
      rw [hxs] at hread
      cases hread
    | cons x xs =>
      rw [List.map_cons, applyChildren, applyChild_many hfind, lookup_eq_none hnew, put_eq_append hnew]
      exact applyChildren_many hfind hnew _ xs

theorem applyChildren_elements (hnodup : ((old ++ fs).map (·.1)).Nodup)
    (h : ∀ p ∈ fs, AddsField fields p) :
    applyChildren fields old (elements fs) = old ++ prunedFields fs := by
  induction fs generalizing old with
  | nil => simp [elements, applyChildren, prunedFields]
  | cons p fs ih =>
    obtain ⟨hp, hrest⟩ := List.forall_mem_cons.1 h
    have hnew : p.1 ∉ old.map (·.1) := name_not_mem_of_nodup hnodup
    have hafter : ((old ++ prunedFields [p] ++ fs).map (·.1)).Nodup := by
      refine hnodup.sublist ?_
      change ((old ++ prunedFields [p] ++ fs).map (·.1)).Sublist ((old ++ ([p] ++ fs)).map (·.1))
      simp only [List.map_append, List.append_assoc]
      exact (List.Sublist.refl _).append ((names_prunedFields_sublist [p]).append (List.Sublist.refl _))
    rw [elements, applyChildren_append, hp old hnew, ih hafter hrest, List.append_assoc,
      ← prunedFields_cons]

theorem isEmptyList_of_fits {d : Document} (h : fits false shape d = true) : d.isEmptyList = false := by
  cases d with
  | many items => cases (fits_many_iff.1 h).1
  | leaf s => rfl
  | record fs => rfl

theorem readsPruned_leaf (s : String) : ReadsPruned .leaf (.leaf s) := by
  refine ⟨_, rfl, ?_⟩
  by_cases hs : s = ""
  · rw [if_pos hs, hs]
    rfl
  · rw [if_neg hs, readInside, pruned]
    simp [Markup.ownText]

theorem readsPruned_record (hnodup : (fs.map (·.1)).Nodup) (h : ∀ p ∈ fs, AddsField fields p) :
    ReadsPruned (.record fields) (.record fs) := by
  refine ⟨_, rfl, ?_⟩
  rw [readInside, pruned]
  exact congrArg record (applyChildren_elements (by simpa using hnodup) h)

theorem map_readInside_contentsOf {items : List Document} (h : ∀ d ∈ items, ReadsPruned shape d) :
    (contentsOf items).map (readInside shape) = prunedItems items := by
  induction items with
  | nil => rfl
  | cons d items ih =>
    obtain ⟨⟨children, hcontents, hread⟩, hrest⟩ := List.forall_mem_cons.1 h
    rw [contentsOf, hcontents, List.map_append, ih hrest, prunedItems, ← hread]
    rfl

theorem readsPruned_of_fits {d : Document} {isList : Bool} (h : fits isList shape d = true) :
    (isList = false → ReadsPruned shape d) ∧ ∀ items, d = .many items → ∀ e ∈ items, ReadsPruned shape e := by
  induction d using induction_parts generalizing isList shape with
  | leaf s =>
    obtain ⟨-, rfl, -⟩ := fits_leaf_iff.1 h
    exact ⟨fun _ ↦ readsPruned_leaf s, fun items heq ↦ by cases heq⟩
  | record fs ih =>
    obtain ⟨-, fields, rfl, hnodup, hfields⟩ := fits_record_iff.1 h
    refine ⟨fun _ ↦ readsPruned_record hnodup fun p hp ↦ ?_, fun items heq ↦ by cases heq⟩
    obtain ⟨name, d⟩ := p
    obtain ⟨c, shape, hfind, hfit⟩ := hfields _ hp
    obtain ⟨hsingle, hmany⟩ := ih _ hp hfit
    by_cases hc : c = .many
    · subst hc
      obtain ⟨items, rfl⟩ := exists_many_of_fits hfit
      exact addsField_many hfind (map_readInside_contentsOf (hmany items rfl))
    · have hlist : (c == .many) = false := by simpa using hc
      rw [hlist] at hfit
      exact addsField_single hfind hc (isEmptyList_of_fits hfit) (hsingle hlist)
  | many items ih =>
    obtain ⟨rfl, hitems⟩ := fits_many_iff.1 h
    refine ⟨fun hlist ↦ (by cases hlist), fun items' heq e he ↦ ?_⟩
    obtain rfl := Document.many.inj heq
    exact (ih e he (hitems e he)).1 rfl

theorem readInside_contents {d : Document} (h : fits false shape d = true) : ReadsPruned shape d :=
  (readsPruned_of_fits h).1 rfl

end Elements

section Canonical

/-- No record in the document has a field twice. -/
inductive Distinct : Document → Prop
  | leaf (s : String) : Distinct (.leaf s)
  | record {fs : Fields} (hnodup : (fs.map (·.1)).Nodup) (h : ∀ p ∈ fs, Distinct p.2) :
      Distinct (.record fs)
  | many {items : List Document} (h : ∀ d ∈ items, Distinct d) : Distinct (.many items)

theorem distinct_of_fits {isList : Bool} {shape : Shape} {d : Document}
    (h : fits isList shape d = true) : d.Distinct := by
  induction d using induction_parts generalizing isList shape with
  | leaf s => exact .leaf s
  | record fs ih =>
    obtain ⟨-, fields, -, hnodup, hfields⟩ := fits_record_iff.1 h
    refine .record hnodup fun p hp ↦ ?_
    obtain ⟨c, shape, -, hfit⟩ := hfields p hp
    exact ih p hp hfit
  | many items ih => exact .many fun d hd ↦ ih d hd ((fits_many_iff.1 h).2 d hd)

variable {d : Document} {name : String}

theorem Distinct.get? {x : Document} (h : d.Distinct) (hx : d.get? name = some x) : x.Distinct := by
  cases h with
  | leaf s => cases hx
  | many h => cases hx
  | record hnodup h =>
    obtain ⟨p, hp, rfl⟩ := Option.map_eq_some_iff.1 hx
    exact h p (List.mem_of_find?_eq_some hp)

theorem get?_pruned (h : d.Distinct) (name : String) :
    d.pruned.get? name = (d.get? name).bind fun x ↦ if x.isEmptyList then none else some x.pruned := by
  cases h with
  | leaf s => rfl
  | many h => rfl
  | @record fs hnodup h =>
    clear h
    change lookup name (prunedFields fs) = (lookup name fs).bind _
    induction fs with
    | nil => rfl
    | cons p fs ih =>
      rw [List.map_cons, List.nodup_cons] at hnodup
      by_cases hname : p.1 = name
      · subst hname
        have hnone : lookup p.1 (prunedFields fs) = none :=
          lookup_eq_none fun hmem ↦ hnodup.1 ((names_prunedFields_sublist fs).subset hmem)
        have hhere : lookup p.1 (p :: fs) = some p.2 := by simp [lookup]
        rw [prunedFields, hhere, Option.bind_some]
        split
        · exact hnone
        · simp [lookup]
      · have hskip (q : String × Document) (hq : q.1 = p.1) (fs : Fields) :
            lookup name (q :: fs) = lookup name fs := by
          simp [lookup, hq, hname]
        rw [prunedFields, hskip p rfl, ← ih hnodup.2]
        split
        · rfl
        · exact hskip (p.1, p.2.pruned) rfl _

/-- Reading a field does not notice the pruning, if an empty list counts as much as a missing field. -/
theorem getD_get?_pruned {α : Type} {read : Document → α} {missing : α} (h : d.Distinct)
    (hread : ∀ x : Document, x.Distinct → read x.pruned = read x) (hempty : read (.many []) = missing) :
    ((d.pruned.get? name).map read).getD missing = ((d.get? name).map read).getD missing := by
  rw [get?_pruned h]
  cases hget : d.get? name with
  | none => rfl
  | some x =>
    rw [Option.bind_some]
    by_cases hx : x.isEmptyList = true
    · rw [if_pos hx, eq_many_nil hx]
      exact hempty.symm
    · rw [if_neg hx]
      exact hread x (h.get? hget)

theorem text_pruned (d : Document) : d.pruned.text = d.text := by
  cases d <;> rfl

theorem isBisimulation_pruned : IsBisimulation fun d d' ↦ d'.Distinct ∧ d = d'.pruned where
  text := by
    rintro _ d ⟨-, rfl⟩
    rw [text_pruned]
  items := by
    rintro _ d ⟨h, rfl⟩
    cases h with
    | leaf s => exact .nil
    | record hnodup h => exact .nil
    | @many items h =>
      rw [pruned, Document.items, Document.items, prunedItems_eq_map, List.forall₂_map_left_iff,
        List.forall₂_same]
      exact fun d hd ↦ ⟨h d hd, rfl⟩
  get? := by
    rintro _ d ⟨h, rfl⟩ name α read missing hread hempty
    exact getD_get?_pruned h (fun x hx ↦ hread _ x ⟨hx, rfl⟩) hempty

/-- Empty lists make no difference to the canonical form, but where the start should be. -/
theorem toMetadata_pruned (h : d.Distinct) (hstart : d.get? "start" ≠ some (.many [])) :
    d.pruned.toMetadata = d.toMetadata := by
  refine isBisimulation_pruned.toMetadata_eq ⟨h, rfl⟩ ?_
  rw [get?_pruned h]
  cases hget : d.get? "start" with
  | none => exact .none
  | some x =>
    have hx : ¬ x.isEmptyList = true := fun hempty ↦ hstart (hget.trans (congrArg some (eq_many_nil hempty)))
    rw [Option.bind_some, if_neg hx]
    exact .some ⟨h.get? hget, rfl⟩

end Canonical

end FlowAudit.Document
