import FlowAudit.Document.Parse
import FlowAudit.Proofs.Document.Pruned
import FlowAudit.Proofs.Text.Blank

namespace FlowAudit.Document

/-- Whether the names are words of letters, and at most so many records stand one inside the other. -/
def Shape.isSound : Nat → Shape → Bool
  | _, .leaf => true
  | 0, .record _ => false
  | n + 1, .record fields =>
    fields.all fun f ↦ f.1 != "" && f.1.toList.all Char.isAlpha && f.2.2.isSound n

theorem Shape.isSound_flowFields : (Shape.record Shape.flowFields).isSound 5 = true := by
  decide

section Sound

variable {isList : Bool} {shape : Shape} {fields : List Field} {fs : Fields} {d : Document} {n : Nat}

theorem Shape.isSound_record_iff :
    (Shape.record fields).isSound n = true ↔
      ∃ m, n = m + 1 ∧ ∀ f ∈ fields, Markup.IsPlainName f.1 ∧ f.2.2.isSound m = true := by
  cases n with
  | zero => simp [isSound]
  | succ m => simp [isSound, Markup.IsPlainName, and_assoc]

theorem FitsField.sound {p : String × Document} (h : FitsField fields p)
    (hsound : ∀ f ∈ fields, Markup.IsPlainName f.1 ∧ f.2.2.isSound n = true) :
    Markup.IsPlainName p.1 ∧ ∃ isList shape, shape.isSound n = true ∧ fits isList shape p.2 = true := by
  obtain ⟨c, shape, hfind, hfit⟩ := h
  obtain ⟨hname, hinner⟩ := hsound _ (List.mem_of_find?_eq_some hfind)
  exact ⟨hname, _, shape, hinner, hfit⟩

theorem arePlain_append {name : String} {xs : List (List Markup.Node)} {rest : List Markup.Node}
    (hname : Markup.IsPlainName name) (hxs : ∀ x ∈ xs, Markup.ArePlain x) (hrest : Markup.ArePlain rest) :
    Markup.ArePlain (xs.map (.element name) ++ rest) := by
  induction xs with
  | nil => exact hrest
  | cons x xs ih =>
    obtain ⟨hx, hxs⟩ := List.forall_mem_cons.1 hxs
    exact .element hname hx (ih hxs)

theorem arePlain_elements (h : ∀ p ∈ fs, Markup.IsPlainName p.1 ∧ ∀ x ∈ contents p.2, Markup.ArePlain x) :
    Markup.ArePlain (elements fs) := by
  induction fs with
  | nil => exact .nil
  | cons p fs ih =>
    obtain ⟨⟨hname, hp⟩, hrest⟩ := List.forall_mem_cons.1 h
    exact arePlain_append hname hp (ih hrest)

theorem exists_of_mem_contentsOf {items : List Document} {x : List Markup.Node} (h : x ∈ contentsOf items) :
    ∃ d ∈ items, x ∈ contents d := by
  induction items with
  | nil => cases h
  | cons d items ih =>
    rw [contentsOf, List.mem_append] at h
    rcases h with h | h
    · exact ⟨d, List.mem_cons_self, h⟩
    · obtain ⟨e, he, hx⟩ := ih h
      exact ⟨e, List.mem_cons_of_mem d he, hx⟩

theorem arePlain_of_mem_contents (hsound : shape.isSound n = true) (h : fits isList shape d = true) :
    ∀ x ∈ contents d, Markup.ArePlain x := by
  induction d using induction_parts generalizing n isList shape with
  | leaf s =>
    obtain ⟨-, -, hplain⟩ := fits_leaf_iff.1 h
    intro x hx
    rw [contents, List.mem_singleton] at hx
    subst hx
    split
    · exact .nil
    · rename_i hs
      refine .text ⟨by simpa using hs, fun c hc ↦ ?_⟩ (fun t ↦ by simp) .nil
      simpa [isPlainChar] using hplain c hc
  | record fs ih =>
    obtain ⟨-, fields, rfl, -, hfields⟩ := fits_record_iff.1 h
    obtain ⟨m, -, hinner⟩ := Shape.isSound_record_iff.1 hsound
    intro x hx
    rw [contents, List.mem_singleton] at hx
    subst hx
    refine arePlain_elements fun p hp ↦ ?_
    obtain ⟨hname, isList, shape, hshape, hfit⟩ := (hfields p hp).sound hinner
    exact ⟨hname, ih p hp hshape hfit⟩
  | many items ih =>
    intro x hx
    obtain ⟨e, he, hmem⟩ := exists_of_mem_contentsOf hx
    exact ih e he hsound ((fits_many_iff.1 h).2 e he) x hmem

theorem nestingIn_le {items : List Json} (h : ∀ j ∈ items, j.nesting ≤ n) : Json.nestingIn items ≤ n := by
  induction items with
  | nil => exact Nat.zero_le n
  | cons j items ih =>
    obtain ⟨hj, hrest⟩ := List.forall_mem_cons.1 h
    exact Nat.max_le.2 ⟨hj, ih hrest⟩

theorem nestingBelow_le {members : List (String × Json)} (h : ∀ m ∈ members, m.2.nesting ≤ n) :
    Json.nestingBelow members ≤ n := by
  induction members with
  | nil => exact Nat.zero_le n
  | cons m members ih =>
    obtain ⟨hm, hrest⟩ := List.forall_mem_cons.1 h
    exact Nat.max_le.2 ⟨hm, ih hrest⟩

/-- A record nests twice as deep as its shape at most: every list of records adds a level of its own. -/
theorem nesting_toJson_le (hsound : shape.isSound n = true) (h : fits isList shape d = true) :
    d.toJson.nesting ≤ 2 * n + isList.toNat := by
  induction d using induction_parts generalizing n isList shape with
  | leaf s => exact Nat.zero_le _
  | record fs ih =>
    obtain ⟨rfl, fields, rfl, -, hfields⟩ := fits_record_iff.1 h
    obtain ⟨m, rfl, hinner⟩ := Shape.isSound_record_iff.1 hsound
    have hbelow : Json.nestingBelow (members fs) ≤ 2 * m + 1 := by
      rw [members_eq_map]
      refine nestingBelow_le (List.forall_mem_map.2 fun p hp ↦ ?_)
      obtain ⟨-, isList, shape, hshape, hfit⟩ := (hfields p hp).sound hinner
      calc p.2.toJson.nesting ≤ 2 * m + isList.toNat := ih p hp hshape hfit
        _ ≤ 2 * m + 1 := Nat.add_le_add_left (Bool.toNat_le isList) _
    rw [toJson, Json.nesting, Bool.toNat_false]
    omega
  | many items ih =>
    obtain ⟨rfl, hitems⟩ := fits_many_iff.1 h
    have hin : Json.nestingIn (values items) ≤ 2 * n := by
      rw [values_eq_map]
      exact nestingIn_le (List.forall_mem_map.2 fun e he ↦ ih e he hsound (hitems e he))
    rw [toJson, Json.nesting, Bool.toNat_true]
    omega

end Sound

theorem isWhole_toJson (d : Document) : d.toJson.IsWhole := by
  induction d using induction_parts with
  | leaf s => exact .str s _
  | record fs ih =>
    rw [toJson, members_eq_map]
    exact .obj (List.forall_mem_map.2 ih)
  | many items ih =>
    rw [toJson, values_eq_map]
    exact .arr (List.forall_mem_map.2 ih)

theorem trimChars_obj (members : List (String × Json)) :
    Text.trimChars (Json.obj members).chars = (Json.obj members).chars := by
  have hopen : Text.isBlank '{' = false := by decide
  have hclose : Text.isBlank '}' = false := by decide
  simp [Json.chars, Text.trimChars, Text.dropBlankEnd, hopen, hclose]

def valueOf (content : List UInt8) : Except Json.SyntaxError Json :=
  Json.parse (Text.trimChars (Text.Utf8.decodeLossy content))

theorem isBlank_of_isSpace {c : Char} (h : Json.isSpace c = true) : Text.isBlank c = true := by
  simp only [Json.isSpace, Bool.or_eq_true, beq_iff_eq] at h
  rcases h with ((rfl | rfl) | rfl) | rfl <;> decide

theorem ofJsonText_eq_ofJson {content : List UInt8} {j : Json} (h : valueOf content = .ok j) :
    ofJsonText content = ofJson j := by
  rw [valueOf] at h
  rw [ofJsonText]
  split
  · next cs htrim =>
    rw [← htrim, h]
    rfl
  · next hother =>
    cases j with
    | obj members =>
      obtain ⟨rest, hopen⟩ := Json.dropWhile_of_parse_obj h
      cases htrim : Text.trimChars (Text.Utf8.decodeLossy content) with
      | nil =>
        rw [htrim] at hopen
        cases hopen
      | cons c cs =>
        have hblank := Text.not_isBlank_head htrim
        have hspace : Json.isSpace c = false :=
          eq_false_of_ne_true fun h ↦ by simp [isBlank_of_isSpace h] at hblank
        rw [htrim, List.dropWhile_cons_of_neg (by simp [hspace])] at hopen
        exact absurd (htrim.trans hopen) (hother rest)
    | _ => rfl

theorem valueOf_json {fs : Fields} (h : (toJson (.record fs)).nesting ≤ Json.maxNesting) :
    valueOf (json (.record fs)) = .ok (toJson (.record fs)).reread := by
  rw [valueOf, json, Text.Utf8.decodeLossy_encode, Json.toList_compact, toJson, trimChars_obj,
    ← Json.toList_compact, ← toJson]
  exact (Json.parse_compact (isWhole_toJson _)).trans (if_pos h)

section Flows

variable {d : Document}

theorem exists_record_of_fits {fields : List Field} (h : fits false (.record fields) d = true) :
    ∃ fs, d = .record fs ∧ ∀ p ∈ fs, FitsField fields p := by
  cases d with
  | leaf s => cases (fits_leaf_iff.1 h).2.1
  | many items => cases (fits_many_iff.1 h).1
  | record fs =>
    obtain ⟨-, fields', heq, -, hfields⟩ := fits_record_iff.1 h
    obtain rfl := Shape.record.inj heq
    exact ⟨fs, rfl, hfields⟩

theorem ofMarkup_xml (h : fits false (.record Shape.flowFields) d = true) : ofMarkup d.xml = .ok d.pruned := by
  obtain ⟨children, hcontents, hread⟩ := readInside_contents h
  have hplain : Markup.ArePlain children :=
    arePlain_of_mem_contents Shape.isSound_flowFields h children (by simp [hcontents])
  have hroot : Markup.IsPlainName "Flow" := ⟨by simp, List.all_eq_true.1 (by decide)⟩
  obtain ⟨fs, rfl, -⟩ := exists_record_of_fits h
  have hchildren : elements fs = children := List.singleton_inj.1 hcontents
  rw [ofMarkup, xml, fields, hchildren, Markup.parseBytes_chars hroot hplain, ← hread]
  rfl

theorem ofJson_toJson (h : fits false (.record Shape.flowFields) d = true) : ofJson d.toJson.reread = .ok d := by
  obtain ⟨fs, rfl, hfields⟩ := exists_record_of_fits h
  have happly := applyJson_toJson h
  -- a flow has no field `Metadata`, so the object is the document itself
  have hplain : (toJson (.record fs)).reread.get? "Metadata" = none := by
    rw [toJson, members_eq_map, Json.reread, Json.rereadBelow_eq_map, List.map_map, Json.get?,
      Option.map_eq_none_iff, List.find?_eq_none]
    simp only [List.mem_reverse, List.forall_mem_map]
    intro p hp hname
    obtain ⟨c, shape, hfind, -⟩ := hfields p hp
    have hnames : Shape.flowFields.all (·.1 != "Metadata") = true := by decide
    have hother := List.all_eq_true.1 hnames _ (List.mem_of_find?_eq_some hfind)
    exact bne_iff_ne.1 hother (beq_iff_eq.1 hname)
  rw [toJson, Json.reread] at happly hplain ⊢
  rw [ofJson, hplain, ofMembers]
  rw [applyJson, Option.map_none, Option.getD_none] at happly
  cases hmembers : applyMembers Shape.flowFields [] (Json.rereadBelow (members fs)) with
  | error e =>
    rw [hmembers] at happly
    cases happly
  | ok fields =>
    rw [hmembers] at happly
    cases happly
    rfl

theorem ofJsonText_json (h : fits false (.record Shape.flowFields) d = true) :
    ofJsonText d.json = .ok d := by
  have hnesting : d.toJson.nesting ≤ Json.maxNesting :=
    (nesting_toJson_le Shape.isSound_flowFields h).trans (by decide)
  obtain ⟨fs, rfl, -⟩ := exists_record_of_fits h
  rw [ofJsonText_eq_ofJson (valueOf_json hnesting), ofJson_toJson h]

/-- Whatever fits the layout of a flow has the same canonical form in XML and in JSON: its own, with the
given name if it does not name itself. -/
theorem formats_agree (h : fits false (.record Shape.flowFields) d = true) (name : String) :
    let canonical := if d.toMetadata.name == "" then { d.toMetadata with name := name } else d.toMetadata
    Metadata.ofContent name .xml d.xml = .ok canonical ∧
      Metadata.ofContent name .json d.json = .ok canonical := by
  intro canonical
  have hpruned : d.pruned.toMetadata = d.toMetadata := by
    refine toMetadata_pruned (distinct_of_fits h) fun hstart ↦ ?_
    obtain ⟨fs, rfl, hfields⟩ := exists_record_of_fits h
    obtain ⟨p, hp, hempty⟩ := Option.map_eq_some_iff.1 hstart
    obtain ⟨c, shape, hfind, hfit⟩ := hfields p (List.mem_of_find?_eq_some hp)
    have hname : p.1 = "start" := by simpa using List.find?_some hp
    have hfield : Shape.flowFields.find? (·.1 == "start") = some Shape.start := rfl
    rw [hname, hfield] at hfind
    cases hfind
    rw [hempty] at hfit
    cases (fits_many_iff.1 hfit).1
  constructor
  · rw [Metadata.ofContent, ofContent, ofMarkup_xml h, ok_bind, hpruned]
    rfl
  · rw [Metadata.ofContent, ofContent, ofJsonText_json h, ok_bind]
    rfl

end Flows

/-- A flow without a name, with markup in its texts, an empty list, and records in records. -/
def orderFlow : Document :=
  .record
    [("label", .leaf " Totals < 10 & \"open\" "), ("formulas", .many []),
      ("start", .record [("object", .leaf "Order"),
        ("connector", .record [("targetReference", .leaf "Each")])]),
      ("loops", .many [.record [("name", .leaf "Each"), ("label", .leaf ""),
        ("nextValueConnector", .record [("targetReference", .leaf "Large")])]]),
      ("decisions", .many [.record [("name", .leaf "Large"), ("rules", .many [.record
        [("conditions", .many [.record [("leftValueReference", .leaf "Each.Total"),
          ("rightValue", .record [("stringValue", .leaf "É]]>\n")])]]),
          ("connector", .record [])]])]])]

theorem orderFlow_formats_agree :
    fits false (.record Shape.flowFields) orderFlow = true ∧
      ∃ md : Metadata, Metadata.ofContent "Order" .xml orderFlow.xml = .ok md ∧
        Metadata.ofContent "Order" .json orderFlow.json = .ok md ∧ md.name = "Order" ∧
        md.label = "Totals < 10 & \"open\"" ∧ (md.steps .loop).length = 1 := by
  have hfits : fits false (.record Shape.flowFields) orderFlow = true := by decide
  obtain ⟨hxml, hjson⟩ := formats_agree hfits "Order"
  exact ⟨hfits, _, hxml, hjson, by decide, by decide, by decide⟩

end FlowAudit.Document
