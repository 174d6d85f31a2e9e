import FlowAudit.Proofs.Document.Agreement

namespace FlowAudit

namespace Json

theorem induction_parts {P : Json → Prop} (null : P null) (bool : ∀ b, P (bool b))
    (num : ∀ literal, P (num literal)) (str : ∀ s isEscaped, P (str s isEscaped))
    (arr : ∀ items, (∀ j ∈ items, P j) → P (arr items))
    (obj : ∀ members, (∀ m ∈ members, P m.2) → P (obj members)) (j : Json) : P j := by
  cases j with
  | null => exact null
  | bool b => exact bool b
  | num literal => exact num literal
  | str s isEscaped => exact str s isEscaped
  | arr items => exact arr items fun j _ ↦ induction_parts null bool num str arr obj j
  | obj members => exact obj members fun m _ ↦ induction_parts null bool num str arr obj m.2
  termination_by sizeOf j
  decreasing_by
    · have hj := List.sizeOf_lt_of_mem (by assumption : j ∈ items)
      simp only [Json.arr.sizeOf_spec] at hj ⊢
      omega
    · have hm := List.sizeOf_lt_of_mem (by assumption : m ∈ members)
      obtain ⟨name, j⟩ := m
      simp only [Prod.mk.sizeOf_spec, Json.obj.sizeOf_spec] at hm ⊢
      omega

def isSingle : Json → Bool
  | .null | .arr _ => false
  | _ => true

theorem get?_cons (m : String × Json) (members : List (String × Json)) (name : String) :
    (obj (m :: members)).get? name =
      ((obj members).get? name).or (if m.1 = name then some m.2 else none) := by
  simp only [get?, List.reverse_cons, List.find?_append, Option.map_or]
  congr 1
  by_cases hname : m.1 = name <;> simp [hname]

end Json

namespace Document

section Texts

mutual

def mapTexts (f : String → String) : Document → Document
  | .leaf s => .leaf (f s)
  | .record fs => .record (mapFields f fs)
  | .many items => .many (mapItems f items)

def mapFields (f : String → String) : Fields → Fields
  | [] => []
  | (name, d) :: rest => (name, mapTexts f d) :: mapFields f rest

def mapItems (f : String → String) : List Document → List Document
  | [] => []
  | d :: rest => mapTexts f d :: mapItems f rest

end

variable {f : String → String}

theorem mapFields_eq_map (f : String → String) (fs : Fields) :
    mapFields f fs = fs.map fun p ↦ (p.1, p.2.mapTexts f) := by
  induction fs with
  | nil => rfl
  | cons p fs ih => rw [mapFields, ih, List.map_cons]

theorem mapItems_eq_map (f : String → String) (items : List Document) :
    mapItems f items = items.map (mapTexts f) := by
  induction items with
  | nil => rfl
  | cons d items ih => rw [mapItems, ih, List.map_cons]

theorem mapTexts_id (d : Document) : d.mapTexts id = d := by
  induction d using induction_parts with
  | leaf s => rfl
  | record fs ih =>
    rw [mapTexts, mapFields_eq_map]
    have hfields : ∀ p ∈ fs, (p.1, p.2.mapTexts id) = id p := fun p hp ↦ Prod.ext rfl (ih p hp)
    exact congrArg record ((List.map_congr_left hfields).trans (List.map_id fs))
  | many items ih =>
    rw [mapTexts, mapItems_eq_map]
    exact congrArg many ((List.map_congr_left ih).trans (List.map_id items))

theorem lookup_mapFields (name : String) (fs : Fields) :
    lookup name (mapFields f fs) = (lookup name fs).map (mapTexts f) := by
  rw [mapFields_eq_map, lookup, lookup, List.find?_map, Option.map_map, Option.map_map]
  rfl

theorem mapFields_put (name : String) (content : Option Document) (fs : Fields) :
    mapFields f (put name content fs) = put name (content.map (mapTexts f)) (mapFields f fs) := by
  rw [put, put, mapFields_eq_map, mapFields_eq_map, List.map_append, List.filter_map]
  cases content <;> rfl

theorem mapFields_fields {old old' : Option Document}
    (h : old.map (mapTexts f) = old'.map (mapTexts f)) :
    mapFields f ((old.map fields).getD []) = mapFields f ((old'.map fields).getD []) := by
  have hfields (d : Document) : mapFields f d.fields = (d.mapTexts f).fields := by
    cases d <;> rfl
  have hold (o : Option Document) :
      mapFields f ((o.map fields).getD []) = ((o.map (mapTexts f)).map fields).getD [] := by
    cases o with
    | none => rfl
    | some d => exact hfields d
  rw [hold, hold, h]

end Texts

section Respelling

abbrev Place := List Nat

/-- Another spelling of a value: which single items get brackets, what is written for each text, and
whether it is written with escapes. -/
structure Respelling where
  isBracketed : Place → Bool := fun _ ↦ false
  text : Place → String → String := fun _ s ↦ s
  isEscaped : Place → Bool → Bool := fun _ b ↦ b

def Respelling.bracket (w : Respelling) (place : Place) (c : Cardinality) (j : Json) : Json :=
  if c = .many ∧ w.isBracketed place then .arr [j] else j

mutual

/-- The other spelling of a value in the place of a field. Only fields that a shape has are spelt
otherwise. -/
def respell (w : Respelling) (place : Place) (c : Cardinality) (shape : Shape) : Json → Json
  | .null => .null
  | .bool b => w.bracket place c (.bool b)
  | .num literal => w.bracket place c (.num literal)
  | .str s isEscaped => w.bracket place c
    (match shape with
    | .leaf => .str (w.text place s) (w.isEscaped place isEscaped)
    | .record _ => .str s isEscaped)
  | .arr items => .arr (if c = .many then respellItems w place shape 0 items else items)
  | .obj members => w.bracket place c
    (.obj (match shape with
    | .leaf => members
    | .record fields => respellMembers w place fields 0 members))

def respellItems (w : Respelling) (place : Place) (item : Shape) (i : Nat) : List Json → List Json
  | [] => []
  | j :: rest => respell w (i :: place) .embedded item j :: respellItems w place item (i + 1) rest

def respellMembers (w : Respelling) (place : Place) (fields : List Field) (i : Nat) :
    List (String × Json) → List (String × Json)
  | [] => []
  | (name, j) :: rest =>
    (name, match findField fields name with
      | none => j
      | some (_, c, shape) => respell w (i :: place) c shape j) ::
      respellMembers w place fields (i + 1) rest

end

end Respelling

section Reading

variable {w : Respelling} {f : String → String} {place : Place} {c : Cardinality} {shape : Shape}
  {fields : List Field} {j j' : Json}

def held (c : Cardinality) (d : Document) : Option Document :=
  some (if c = .many then .many [d] else d)

theorem readMember_eq_held (hj : j.isSingle = true) (old : Option Document) :
    readMember c shape old j = held c <$> applyJson (if c = .many then none else old) shape j := by
  cases j with
  | null => cases hj
  | arr items => cases hj
  | _ =>
    cases c with
    | optional => rfl
    | embedded => rfl
    | many =>
      rw [readMember, if_pos rfl]
      · cases applyJson none shape _ <;> rfl
      all_goals simp

theorem readMember_embedded (old : Option Document) :
    readMember .embedded shape old j = some <$> applyJson old shape j := rfl

theorem readMember_bracket (hj : j.isSingle = true) (old : Option Document) :
    readMember c shape old (w.bracket place c j) = readMember c shape old j := by
  rw [Respelling.bracket]
  split
  · next h =>
    rw [h.1, readMember_eq_held hj, if_pos rfl, readMember, applyItems]
    cases applyJson none shape j <;> rfl
  · rfl

def Alike (f : String → String) (old old' : Option Document) : Prop :=
  old.map (mapTexts f) = old'.map (mapTexts f)

/-- Whatever the value is read for, its other spelling is read for the same up to the view `f`. -/
def ReadsAlike (w : Respelling) (f : String → String) (j : Json) : Prop :=
  ∀ place c shape old old', Alike f old old' →
    (readMember c shape old (respell w place c shape j)).map (Option.map (mapTexts f)) =
      (readMember c shape old' j).map (Option.map (mapTexts f))

theorem ReadsAlike.apply (h : ReadsAlike w f j) (place : Place) (shape : Shape)
    {old old' : Option Document} (hold : Alike f old old') :
    (applyJson old shape (respell w place .embedded shape j)).map (mapTexts f) =
      (applyJson old' shape j).map (mapTexts f) := by
  have hsome (x : Except Misfit Document) :
      (some <$> x).map (Option.map (mapTexts f)) = (x.map (mapTexts f)).map some := by
    cases x <;> rfl
  have hread := h place .embedded shape old old' hold
  rw [readMember_embedded, readMember_embedded, hsome, hsome] at hread
  generalize (applyJson old shape (respell w place .embedded shape j)).map (mapTexts f) = x at hread ⊢
  generalize (applyJson old' shape j).map (mapTexts f) = x' at hread ⊢
  cases x <;> cases x' <;> cases hread <;> rfl

theorem readMember_alike (hj' : j'.isSingle = true) (hj : j.isSingle = true)
    (h : ∀ old old', Alike f old old' →
      (applyJson old shape j').map (mapTexts f) = (applyJson old' shape j).map (mapTexts f))
    {old old' : Option Document} (hold : Alike f old old') :
    (readMember c shape old (w.bracket place c j')).map (Option.map (mapTexts f)) =
      (readMember c shape old' j).map (Option.map (mapTexts f)) := by
  rw [readMember_bracket hj', readMember_eq_held hj', readMember_eq_held hj]
  refine map_map_congr (h _ _ ?_) fun d d' hd ↦ ?_
  · split
    · rfl
    · exact hold
  · cases c with
    | many => exact congrArg (fun d ↦ some (many [d])) hd
    | _ => exact congrArg some hd

theorem applyItems_respell {items : List Json} (h : ∀ j ∈ items, ReadsAlike w f j) (i : Nat) :
    (applyItems shape (respellItems w place shape i items)).map (mapItems f) =
      (applyItems shape items).map (mapItems f) := by
  induction items generalizing i with
  | nil => rfl
  | cons j items ih =>
    obtain ⟨hj, hitems⟩ := List.forall_mem_cons.1 h
    rw [respellItems, applyItems, applyItems]
    refine map_bind_congr (hj.apply _ shape rfl) fun d d' hd ↦ ?_
    refine map_bind_congr (ih hitems (i + 1)) fun ds ds' hds ↦ ?_
    exact congrArg Except.ok (by rw [mapItems, mapItems, hd, hds])

/-- The members may be spelt as those of a record with more fields than are read. -/
theorem applyMembers_respell {fields' : List Field} {members : List (String × Json)}
    (hmore : ∀ name field, findField fields name = some field → findField fields' name = some field)
    (h : ∀ m ∈ members, ReadsAlike w f m.2) (i : Nat) {old old' : Fields}
    (hold : mapFields f old = mapFields f old') :
    (applyMembers fields old (respellMembers w place fields' i members)).map (mapFields f) =
      (applyMembers fields old' members).map (mapFields f) := by
  induction members generalizing i old old' with
  | nil => exact congrArg Except.ok hold
  | cons m members ih =>
    obtain ⟨hm, hmembers⟩ := List.forall_mem_cons.1 h
    obtain ⟨name, j⟩ := m
    rw [respellMembers]
    cases hfield : findField fields name with
    | none =>
      rw [applyMembers, applyMembers, hfield]
      exact ih hmembers (i + 1) hold
    | some field =>
      obtain ⟨key, c, shape⟩ := field
      rw [hmore name _ hfield, applyMembers_cons hfield, applyMembers_cons hfield]
      have hlookup : Alike f (lookup key old) (lookup key old') := by
        rw [Alike, ← lookup_mapFields, ← lookup_mapFields, hold]
      refine map_bind_congr (hm _ c shape _ _ hlookup) fun content content' hcontent ↦ ?_
      refine ih hmembers (i + 1) ?_
      rw [mapFields_put, mapFields_put, hcontent, hold]

/-- Brackets around single items make no difference, nor does a text that looks the same. -/
theorem readsAlike (hw : ∀ place s, f (w.text place s) = f s) (j : Json) : ReadsAlike w f j := by
  induction j using Json.induction_parts with
  | null =>
    intro place c shape old old' hold
    rw [respell]
    cases c with
    | optional => rfl
    | many => rfl
    | embedded =>
      cases shape with
      | leaf => rfl
      | record fields =>
        have hempty (o : Option Document) : mapTexts f (o.getD (.record [])) =
            (o.map (mapTexts f)).getD (.record []) := by
          cases o <;> rfl
        refine congrArg (fun d ↦ Except.ok (some d)) ?_
        rw [hempty, hempty, hold]
  | bool b =>
    intro place c shape old old' hold
    exact readMember_alike rfl rfl (fun _ _ _ ↦ by cases shape <;> rfl) hold
  | num literal =>
    intro place c shape old old' hold
    exact readMember_alike rfl rfl (fun _ _ _ ↦ by cases shape <;> rfl) hold
  | str s isEscaped =>
    intro place c shape old old' hold
    cases shape with
    | leaf =>
      refine readMember_alike rfl rfl (fun _ _ _ ↦ ?_) hold
      exact congrArg (fun t ↦ Except.ok (leaf t)) (hw place s)
    | record fields => exact readMember_alike rfl rfl (fun _ _ _ ↦ rfl) hold
  | arr items ih =>
    intro place c shape old old' hold
    rw [respell]
    cases c with
    | many =>
      have hlist : (many <$> applyItems shape (respellItems w place shape 0 items)).map (mapTexts f) =
          (many <$> applyItems shape items).map (mapTexts f) :=
        map_map_congr (applyItems_respell ih 0) fun _ _ h ↦ congrArg many h
      rw [if_pos rfl]
      exact map_map_congr hlist fun _ _ h ↦ congrArg some h
    | _ => cases shape <;> rfl
  | obj members ih =>
    intro place c shape old old' hold
    cases shape with
    | leaf => exact readMember_alike rfl rfl (fun _ _ _ ↦ rfl) hold
    | record fields =>
      refine readMember_alike rfl rfl (fun o o' ho ↦ ?_) hold
      refine map_bind_congr (applyMembers_respell (fun _ _ h ↦ h) ih 0 (mapFields_fields ho)) ?_
      intro fs fs' hfs
      exact congrArg (fun fs ↦ Except.ok (record fs)) hfs

end Reading

section Envelope

/-- The fields of a whole text: those of a flow, or one that holds a flow. -/
def Shape.envelopeFields : List Field :=
  ("Metadata", .optional, .record Shape.flowFields) :: Shape.flowFields

def Respelling.whole (w : Respelling) (j : Json) : Json :=
  respell w [] .embedded (.record Shape.envelopeFields) j

/-- The document of a JSON value as it is before it is named, and the outer name, if there can be one. -/
def unwrapped (j : Json) : Except Malformed (Option String × Document) :=
  match j with
  | .obj members =>
    match j.get? "Metadata" with
    | none => (none, ·) <$> (ofMembers members).mapError .misfit
    | some (.obj inner) =>
      (some (((j.get? "FullName").map outerName).getD ""), ·) <$> (ofMembers inner).mapError .misfit
    | some _ => .error .metadataNotObject
  | _ => .error .rootNotObject

theorem ofJson_eq_unwrapped (j : Json) :
    ofJson j = (fun p ↦ p.1.elim p.2 (named · p.2)) <$> unwrapped j := by
  cases j with
  | obj members =>
    rw [ofJson, unwrapped]
    cases (Json.obj members).get? "Metadata" with
    | none => cases (ofMembers members).mapError Malformed.misfit <;> rfl
    | some inner =>
      cases inner with
      | obj inner =>
        dsimp only
        cases (ofMembers inner).mapError Malformed.misfit <;> rfl
      | _ => rfl
  | _ => rfl

variable {w : Respelling} {f : String → String} {place : Place} {fields : List Field}

def respellNamed (w : Respelling) (fields : List Field) (name : String) (place : Place) (j : Json) : Json :=
  match findField fields name with
  | none => j
  | some (_, c, shape) => respell w place c shape j

theorem get?_respellMembers (w : Respelling) (place : Place) (fields : List Field) (i : Nat)
    (members : List (String × Json)) (name : String) :
    ∃ place', (Json.obj (respellMembers w place fields i members)).get? name =
      ((Json.obj members).get? name).map (respellNamed w fields name place') := by
  induction members generalizing i with
  | nil => exact ⟨[], rfl⟩
  | cons m members ih =>
    obtain ⟨key, j⟩ := m
    obtain ⟨place', hrest⟩ := ih (i + 1)
    rw [respellMembers, Json.get?_cons, Json.get?_cons, hrest]
    cases (Json.obj members).get? name with
    | some found => exact ⟨place', rfl⟩
    | none =>
      refine ⟨i :: place, ?_⟩
      simp only [Option.map_none, Option.none_or]
      split
      · next hkey =>
        subst hkey
        rfl
      · rfl

theorem findField_eq_some {name : String} {field : Field} (h : findField fields name = some field) :
    field ∈ fields ∧ Text.fold field.1 = Text.fold name := by
  rw [findField] at h
  split at h
  · next g hfind =>
    cases h
    have hname : field.1 = name := by simpa using List.find?_some hfind
    exact ⟨List.mem_of_find?_eq_some hfind, congrArg Text.fold hname⟩
  · exact ⟨List.mem_of_find?_eq_some h, by simpa using List.find?_some h⟩

theorem findField_envelopeFields (name : String) (field : Field)
    (h : findField Shape.flowFields name = some field) :
    findField Shape.envelopeFields name = some field := by
  obtain ⟨hmem, hfold⟩ := findField_eq_some h
  -- no field of a flow is called `Metadata`, in whatever case
  have hall : Shape.flowFields.all (fun g ↦ Text.fold g.1 != Text.fold "Metadata") = true := by
    decide
  have hne : Text.fold "Metadata" ≠ Text.fold name := fun heq ↦
    bne_iff_ne.1 (List.all_eq_true.1 hall field hmem) (hfold.trans heq.symm)
  have hexact : "Metadata" ≠ name := fun heq ↦ hne (congrArg Text.fold heq)
  rw [findField, Shape.envelopeFields, List.find?_cons_of_neg (by simpa using hexact),
    List.find?_cons_of_neg (by simpa using hne)]
  exact h

theorem ofMembers_respell (hw : ∀ place s, f (w.text place s) = f s)
    (hmore : ∀ name field, findField Shape.flowFields name = some field → findField fields name = some field)
    (members : List (String × Json)) :
    ((ofMembers (respellMembers w place fields 0 members)).mapError Malformed.misfit).map (mapTexts f) =
      ((ofMembers members).mapError Malformed.misfit).map (mapTexts f) := by
  have hread : (applyMembers Shape.flowFields [] (respellMembers w place fields 0 members)).map (mapFields f) =
      (applyMembers Shape.flowFields [] members).map (mapFields f) :=
    applyMembers_respell hmore (fun m _ ↦ readsAlike hw m.2) 0 rfl
  have hmap (x : Except Misfit Document) :
      (x.mapError Malformed.misfit).map (mapTexts f) = (x.map (mapTexts f)).mapError Malformed.misfit := by
    cases x <;> rfl
  rw [hmap, hmap, ofMembers, ofMembers]
  exact congrArg _ (map_map_congr hread fun _ _ h ↦ congrArg record h)

theorem outerName_respell (hw : ∀ place s, f (w.text place s) = f s) (place : Place) (j : Json) :
    f (outerName (respellNamed w Shape.envelopeFields "FullName" place j)) = f (outerName j) := by
  have hfield : findField Shape.envelopeFields "FullName" = some ("fullName", .optional, .leaf) := by
    rfl
  rw [respellNamed, hfield]
  cases j with
  | str s isEscaped => exact hw place s
  | _ => rfl

theorem unwrapped_whole (hw : ∀ place s, f (w.text place s) = f s) (j : Json) :
    (unwrapped (w.whole j)).map (Prod.map (Option.map f) (mapTexts f)) =
      (unwrapped j).map (Prod.map (Option.map f) (mapTexts f)) := by
  cases j with
  | obj members =>
    have hwhole : w.whole (.obj members) =
        .obj (respellMembers w [] Shape.envelopeFields 0 members) := rfl
    obtain ⟨place, hinner⟩ := get?_respellMembers w [] Shape.envelopeFields 0 members "Metadata"
    obtain ⟨place', houter⟩ := get?_respellMembers w [] Shape.envelopeFields 0 members "FullName"
    rw [hwhole, unwrapped, unwrapped, hinner, houter]
    cases (Json.obj members).get? "Metadata" with
    | none =>
      exact map_map_congr (ofMembers_respell hw findField_envelopeFields members) fun d d' hd ↦
        Prod.ext rfl hd
    | some inner =>
      cases inner with
      | obj inner =>
        refine map_map_congr (ofMembers_respell hw (fun _ _ h ↦ h) inner) fun d d' hd ↦
          Prod.ext (congrArg some ?_) hd
        cases (Json.obj members).get? "FullName" with
        | none => rfl
        | some outer => exact outerName_respell hw place' outer
      | _ => rfl
  | _ => rfl

end Envelope

section Brackets

/-- The single items of lists that stand in brackets, at any depth and inside an envelope or not, make no
difference to the outcome. -/
theorem brackets_make_no_difference (isBracketed : Place → Bool) {j : Json}
    {content content' : List UInt8} (h : valueOf content = .ok j)
    (h' : valueOf content' = .ok (Respelling.whole { isBracketed := isBracketed } j)) (name : String) :
    Metadata.ofContent name .json content' = Metadata.ofContent name .json content := by
  have hview : Prod.map (Option.map id) (mapTexts id) = (id : Option String × Document → _) := by
    funext p
    rw [Option.map_id, Prod.map, mapTexts_id]
    rfl
  have hsame := unwrapped_whole (w := { isBracketed := isBracketed }) (f := id) (fun _ _ ↦ rfl) j
  rw [hview, Except.map_id] at hsame
  have hdocument : ofJsonText content' = ofJsonText content := by
    rw [ofJsonText_eq_ofJson h, ofJsonText_eq_ofJson h', ofJson_eq_unwrapped, ofJson_eq_unwrapped]
    exact congrArg _ hsame
  rw [Metadata.ofContent, Metadata.ofContent, ofContent, hdocument]

/-- A flow in an envelope, with a step, its rule, a condition of this and a queried field that all stand
for lists. -/
def bareFlow : Document :=
  .record
    [("Metadata", .record
      [("decisions", .record [("name", .leaf "Large"), ("rules", .record
        [("conditions", .record [("operator", .leaf "EqualTo")])])]),
        ("recordLookups", .record [("name", .leaf "Find"), ("queriedFields", .leaf "Id")])]),
      ("FullName", .leaf "Order_Flow")]

def bracketedFlow : Document :=
  .record
    [("Metadata", .record
      [("decisions", .many [.record [("name", .leaf "Large"), ("rules", .record
        [("conditions", .many [.record [("operator", .leaf "EqualTo")]])])]]),
        ("recordLookups", .record [("name", .leaf "Find"), ("queriedFields", .many [.leaf "Id"])])]),
      ("FullName", .leaf "Order_Flow")]

theorem bracketedFlow_same_outcome :
    let places : List Place := [[0, 0], [0, 1, 0, 0], [1, 1, 0]]
    valueOf bareFlow.json = .ok bareFlow.toJson.reread ∧
      valueOf bracketedFlow.json = .ok
        (Respelling.whole { isBracketed := places.contains } bareFlow.toJson.reread) ∧
      Metadata.ofContent "Given" .json bracketedFlow.json = Metadata.ofContent "Given" .json bareFlow.json ∧
      (Metadata.ofContent "Given" .json bareFlow.json).map (fun md ↦
        (md.name, (md.steps .decision).map fun s ↦ s.rules.map (·.conditions.length))) =
          .ok ("Order_Flow", [[1]]) := by
  intro places
  have hbare : valueOf bareFlow.json = .ok bareFlow.toJson.reread := valueOf_json (by decide)
  have hvalue : Respelling.whole { isBracketed := places.contains } bareFlow.toJson.reread =
      bracketedFlow.toJson.reread := by
    rfl
  have hbracketed : valueOf bracketedFlow.json = .ok
      (Respelling.whole { isBracketed := places.contains } bareFlow.toJson.reread) := by
    rw [hvalue]
    exact valueOf_json (by decide)
  refine ⟨hbare, hbracketed, brackets_make_no_difference _ hbare hbracketed "Given", ?_⟩
  rw [Metadata.ofContent, ofContent, ofJsonText_eq_ofJson hbare]
  rfl

end Brackets

end Document

end FlowAudit
