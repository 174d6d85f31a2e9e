import FlowAudit.Document.OfJson
import FlowAudit.Document.OfMarkup
import FlowAudit.Proofs.Json.Members
import FlowAudit.Proofs.Markup.Reading

namespace FlowAudit.Document

theorem induction_parts {P : Document → Prop} (leaf : ∀ s, P (leaf s))
    (record : ∀ fs, (∀ p ∈ fs, P p.2) → P (record fs))
    (many : ∀ items, (∀ d ∈ items, P d) → P (many items)) : ∀ d, P d
  | .leaf s => leaf s
  | .record fs => record fs fun p _ ↦ induction_parts leaf record many p.2
  | .many items => many items fun d _ ↦ induction_parts leaf record many d
  termination_by d => sizeOf d
  decreasing_by
    · have hp := List.sizeOf_lt_of_mem (by assumption : p ∈ fs)
      obtain ⟨name, d⟩ := p
      simp only [Prod.mk.sizeOf_spec, Document.record.sizeOf_spec] at hp ⊢
      omega
    · have hd := List.sizeOf_lt_of_mem (by assumption : d ∈ items)
      simp only [Document.many.sizeOf_spec] at hd ⊢
      omega

def isPlainChar (c : Char) : Bool := Markup.isLegal c && c != '\r'

mutual

/-- Whether the document fits a shape, or is a list of such. No field stands in a record twice. -/
def fits (isList : Bool) (shape : Shape) : Document → Bool
  | .leaf s => !isList && (match shape with | .leaf => true | .record _ => false) && s.toList.all isPlainChar
  | .record fs => !isList &&
    match shape with
    | .leaf => false
    | .record fields => decide (fs.map (·.1)).Nodup && fitFields fields fs
  | .many items => isList && fitItems shape items

def fitFields (fields : List Field) : Fields → Bool
  | [] => true
  | (name, d) :: rest =>
    (match fields.find? (·.1 == name) with
      | none => false
      | some (_, c, shape) => fits (c == .many) shape d) && fitFields fields rest

def fitItems (shape : Shape) : List Document → Bool
  | [] => true
  | d :: rest => fits false shape d && fitItems shape rest

end

mutual

def contents : Document → List (List Markup.Node)
  | .leaf s => [if s = "" then [] else [.text s]]
  | .record fs => [elements fs]
  | .many items => contentsOf items

def elements : Fields → List Markup.Node
  | [] => []
  | (name, d) :: rest => (contents d).map (.element name) ++ elements rest

def contentsOf : List Document → List (List Markup.Node)
  | [] => []
  | d :: rest => contents d ++ contentsOf rest

end

mutual

def toJson : Document → Json
  | .leaf s => .ofText s
  | .record fs => .obj (members fs)
  | .many items => .arr (values items)

def members : Fields → List (String × Json)
  | [] => []
  | (name, d) :: rest => (name, toJson d) :: members rest

def values : List Document → List Json
  | [] => []
  | d :: rest => toJson d :: values rest

end

def xml (d : Document) : List UInt8 :=
  Text.Utf8.encode (Markup.Node.element "Flow" (elements d.fields)).chars

def json (d : Document) : List UInt8 := Text.Utf8.encode d.toJson.compact.toList

theorem members_eq_map (fs : Fields) : members fs = fs.map fun p ↦ (p.1, p.2.toJson) := by
  induction fs with
  | nil => rfl
  | cons p fs ih => rw [members, ih, List.map_cons]

theorem values_eq_map (items : List Document) : values items = items.map toJson := by
  induction items with
  | nil => rfl
  | cons d items ih => rw [values, ih, List.map_cons]

section Fits

variable {isList : Bool} {shape : Shape} {fields : List Field} {fs : Fields} {items : List Document}

theorem fits_leaf_iff {s : String} :
    fits isList shape (.leaf s) = true ↔
      isList = false ∧ shape = .leaf ∧ ∀ c ∈ s.toList, isPlainChar c = true := by
  cases shape <;> simp [fits]

theorem fits_many_iff :
    fits isList shape (.many items) = true ↔ isList = true ∧ ∀ d ∈ items, fits false shape d = true := by
  have hitems : fitItems shape items = true ↔ ∀ d ∈ items, fits false shape d = true := by
    induction items with
    | nil => simp [fitItems]
    | cons d items ih => simp [fitItems, ih]
  rw [fits, Bool.and_eq_true, hitems]

def FitsField (fields : List Field) (p : String × Document) : Prop :=
  ∃ c shape, fields.find? (·.1 == p.1) = some (p.1, c, shape) ∧ fits (c == .many) shape p.2 = true

theorem fitFields_iff : fitFields fields fs = true ↔ ∀ p ∈ fs, FitsField fields p := by
  induction fs with
  | nil => simp [fitFields]
  | cons p fs ih =>
    rw [fitFields, Bool.and_eq_true, ih, List.forall_mem_cons]
    refine and_congr_left' ?_
    rw [FitsField]
    cases hfind : fields.find? (·.1 == p.1) with
    | none => simp
    | some f =>
      obtain ⟨name, c, shape⟩ := f
      have hname : name = p.1 := by simpa using List.find?_some hfind
      subst hname
      simp

theorem fits_record_iff :
    fits isList shape (.record fs) = true ↔
      isList = false ∧ ∃ fields, shape = .record fields ∧ (fs.map (·.1)).Nodup ∧
        ∀ p ∈ fs, FitsField fields p := by
  cases shape with
  | leaf => simp [fits]
  | record fields => simp [fits, fitFields_iff]

theorem exists_many_of_fits {d : Document} (h : fits true shape d = true) : ∃ items, d = .many items := by
  cases d with
  | many items => exact ⟨items, rfl⟩
  | leaf s => cases (fits_leaf_iff.1 h).1
  | record fs => cases (fits_record_iff.1 h).1

end Fits

section Put

variable {fs : Fields} {name : String} {d : Document}

theorem name_not_mem_of_nodup {old : Fields} {p : String × Document}
    (h : ((old ++ p :: fs).map (·.1)).Nodup) : p.1 ∉ old.map (·.1) := by
  intro hmem
  rw [List.map_append, List.nodup_append] at h
  exact h.2.2 _ hmem _ (by simp) rfl

theorem lookup_eq_none (h : name ∉ fs.map (·.1)) : lookup name fs = none := by
  rw [lookup, Option.map_eq_none_iff, List.find?_eq_none]
  intro p hp heq
  exact h (List.mem_map.2 ⟨p, hp, by simpa using heq⟩)

theorem filter_ne_eq_self (h : name ∉ fs.map (·.1)) : fs.filter (·.1 != name) = fs := by
  rw [List.filter_eq_self]
  intro p hp
  rw [bne_iff_ne]
  rintro rfl
  exact h (List.mem_map_of_mem hp)

theorem put_eq_append (h : name ∉ fs.map (·.1)) : put name (some d) fs = fs ++ [(name, d)] := by
  rw [put, filter_ne_eq_self h]
  rfl

end Put

section OfJson

variable {shape : Shape} {fields : List Field} {old fs : Fields}

theorem applyItems_of_forall {items : List Document}
    (h : ∀ d ∈ items, applyJson none shape d.toJson.reread = .ok d) :
    applyItems shape (items.map fun d ↦ d.toJson.reread) = .ok items := by
  induction items with
  | nil => rfl
  | cons d items ih =>
    rw [List.forall_mem_cons] at h
    rw [List.map_cons, applyItems, h.1, ok_bind, ih h.2]
    rfl

theorem isNull_toJson (d : Document) : d.toJson.reread.isNull = false := by
  cases d <;> rfl

def readMember (c : Cardinality) (shape : Shape) (old : Option Document) (j : Json) :
    Except Misfit (Option Document) :=
  match c, j with
  | .optional, .null | .many, .null => pure none
  | .many, .arr items => some <$> .many <$> applyItems shape items
  | .many, j => some <$> .many <$> ([·]) <$> applyJson none shape j
  | _, j => some <$> applyJson old shape j

theorem readMember_single {c : Cardinality} {old : Option Document} {j : Json} (hc : c ≠ .many)
    (hj : j.isNull = false) : readMember c shape old j = some <$> applyJson old shape j := by
  cases c with
  | many => exact absurd rfl hc
  | embedded => rfl
  | optional =>
    cases j with
    | null => cases hj
    | _ => rfl

theorem applyMembers_cons {name : String} {f : Field} (hfield : findField fields name = some f) (j : Json)
    (rest : List (String × Json)) :
    applyMembers fields old ((name, j) :: rest) =
      readMember f.2.1 f.2.2 (lookup f.1 old) j >>= fun content ↦
        applyMembers fields (put f.1 content old) rest := by
  obtain ⟨field, c, shape⟩ := f
  rw [applyMembers, hfield]
  cases c <;> cases j <;> rfl

theorem applyMembers_of_forall (hnodup : ((old ++ fs).map (·.1)).Nodup)
    (h : ∀ p ∈ fs, ∃ c shape, fields.find? (·.1 == p.1) = some (p.1, c, shape) ∧
      readMember c shape none p.2.toJson.reread = .ok (some p.2)) :
    applyMembers fields old (fs.map fun p ↦ (p.1, p.2.toJson.reread)) = .ok (old ++ fs) := by
  induction fs generalizing old with
  | nil => simp [applyMembers]
  | cons p fs ih =>
    obtain ⟨⟨c, shape, hfind, hread⟩, hrest⟩ := List.forall_mem_cons.1 h
    have hnew : p.1 ∉ old.map (·.1) := name_not_mem_of_nodup hnodup
    have hfield : findField fields p.1 = some (p.1, c, shape) := by rw [findField, hfind]
    rw [List.map_cons, applyMembers_cons hfield, lookup_eq_none hnew, hread, ok_bind,
      put_eq_append hnew, ih (by simpa using hnodup) hrest]
    simp

/-- The JSON of a document is read as the document. -/
theorem applyJson_toJson {d : Document} (h : fits false shape d = true) :
    applyJson none shape d.toJson.reread = .ok d := by
  have hall (d : Document) : ∀ isList shape, fits isList shape d = true →
      (isList = false → applyJson none shape d.toJson.reread = .ok d) ∧
      ∀ items, d = .many items → ∀ i ∈ items, applyJson none shape i.toJson.reread = .ok i := by
    induction d using induction_parts with
    | leaf s =>
      intro isList shape h
      obtain ⟨-, rfl, -⟩ := fits_leaf_iff.1 h
      exact ⟨fun _ ↦ rfl, fun items heq ↦ by cases heq⟩
    | record fs ih =>
      intro isList shape h
      obtain ⟨-, fields, rfl, hnodup, hfields⟩ := fits_record_iff.1 h
      refine ⟨fun _ ↦ ?_, fun items heq ↦ by cases heq⟩
      rw [toJson, members_eq_map, Json.reread, Json.rereadBelow_eq_map, List.map_map, applyJson]
      refine (congrArg (· >>= _) (applyMembers_of_forall (by simpa using hnodup) fun p hp ↦ ?_)).trans rfl
      obtain ⟨c, shape, hfind, hfit⟩ := hfields p hp
      obtain ⟨hsingle, hmany⟩ := ih p hp _ _ hfit
      refine ⟨c, shape, hfind, ?_⟩
      by_cases hc : c = .many
      · subst hc
        obtain ⟨items, hd⟩ := exists_many_of_fits hfit
        rw [hd, toJson, values_eq_map, Json.reread, Json.rereadIn_eq_map, List.map_map, readMember,
          Function.comp_def, applyItems_of_forall (hmany items hd)]
        rfl
      · rw [readMember_single hc (isNull_toJson p.2), hsingle (by simpa using hc)]
        rfl
    | many items ih =>
      intro isList shape h
      obtain ⟨rfl, hitems⟩ := fits_many_iff.1 h
      refine ⟨fun hlist ↦ (by cases hlist), fun items' heq i hi ↦ ?_⟩
      obtain rfl := Document.many.inj heq
      exact (ih i hi _ _ (hitems i hi)).1 rfl
  exact (hall d false shape h).1 rfl

end OfJson

end FlowAudit.Document
