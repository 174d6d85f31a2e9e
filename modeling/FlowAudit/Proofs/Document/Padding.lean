import FlowAudit.Proofs.Document.Spelling

namespace FlowAudit.Document

section Trimmed

variable {d d' : Document}

theorem get?_mapTexts (f : String → String) (d : Document) (name : String) :
    (d.mapTexts f).get? name = (d.get? name).map (mapTexts f) := by
  cases d with
  | record fs => exact lookup_mapFields name fs
  | leaf s => rfl
  | many items => rfl

theorem rel_get?_of_mapTexts_eq {f : String → String} (h : d.mapTexts f = d'.mapTexts f) (name : String) :
    Option.Rel (fun x x' ↦ x.mapTexts f = x'.mapTexts f) (d.get? name) (d'.get? name) := by
  have hget : (d.get? name).map (mapTexts f) = (d'.get? name).map (mapTexts f) := by
    rw [← get?_mapTexts, ← get?_mapTexts, h]
  cases hd : d.get? name <;> cases hd' : d'.get? name <;> rw [hd, hd'] at hget
  · exact .none
  · cases hget
  · cases hget
  · exact .some (Option.some.inj hget)

theorem isBisimulation_trim :
    IsBisimulation fun d d' ↦ d.mapTexts Text.trim = d'.mapTexts Text.trim where
  text := by
    intro d d' h
    have htext (d : Document) : (d.mapTexts Text.trim).text = Text.trim d.text := by
      cases d <;> rfl
    rw [← htext, ← htext, h]
  items := by
    intro d d' h
    have hitems (d : Document) : d.items.map (mapTexts Text.trim) = (d.mapTexts Text.trim).items := by
      cases d with
      | many items => exact (mapItems_eq_map Text.trim items).symm
      | leaf s => rfl
      | record fs => rfl
    have hmap : List.Forall₂ Eq (d.items.map (mapTexts Text.trim)) (d'.items.map (mapTexts Text.trim)) := by
      rw [hitems, hitems, h, List.forall₂_eq_eq_eq]
    rwa [List.forall₂_map_left_iff, List.forall₂_map_right_iff] at hmap
  get? := by
    intro d d' h name α read missing hread hempty
    have hrel := rel_get?_of_mapTexts_eq h name
    generalize d.get? name = x at hrel ⊢
    generalize d'.get? name = x' at hrel ⊢
    cases hrel with
    | none => rfl
    | some hx => exact hread _ _ hx

theorem toMetadata_of_trim_eq (h : d.mapTexts Text.trim = d'.mapTexts Text.trim) :
    d.toMetadata = d'.toMetadata :=
  isBisimulation_trim.toMetadata_eq h (rel_get?_of_mapTexts_eq h "start")

end Trimmed

section Names

variable {content : List UInt8} {j : Json} {d d' : Document}

theorem lookup_put_self (name : String) (d : Document) (fs : Fields) :
    lookup name (put name (some d) fs) = some d := by
  have hnone : (fs.filter (·.1 != name)).find? (·.1 == name) = none := by
    rw [List.find?_eq_none]
    intro p hp hname
    exact bne_iff_ne.1 (List.mem_filter.1 hp).2 (beq_iff_eq.1 hname)
  simp [lookup, put, List.find?_append, hnone]

theorem lookup_put_of_ne {name field : String} (hne : name ≠ field) (content : Option Document)
    (fs : Fields) : lookup name (put field content fs) = lookup name fs := by
  have hkept : (fs.filter (·.1 != field)).find? (·.1 == name) = fs.find? (·.1 == name) := by
    rw [List.find?_filter]
    congr 1
    funext p
    by_cases hname : p.1 = name
    · simp [hname, hne]
    · simp [hname]
  cases content with
  | none => simp [lookup, put, hkept]
  | some d => simp [lookup, put, List.find?_append, hkept, hne.symm]

theorem toMetadata_named (outer : String) (d : Document) :
    (d.named outer).toMetadata = { d.toMetadata with
      name := if d.rawText "fullName" = "" then Text.trim outer else d.textOf "fullName" } := by
  by_cases hraw : d.rawText "fullName" = ""
  · have hself : (d.named outer).get? "fullName" = some (.leaf outer) := by
      rw [named, if_pos (beq_iff_eq.2 hraw)]
      exact lookup_put_self _ _ _
    have hother {name : String} (hne : name ≠ "fullName") : (d.named outer).get? name = d.get? name := by
      rw [named, if_pos (beq_iff_eq.2 hraw)]
      exact lookup_put_of_ne hne _ _
    have hsteps (k : StepKind) : (d.named outer).get? (Shape.stepsName k) = d.get? (Shape.stepsName k) :=
      hother (by cases k <;> decide)
    rw [if_pos hraw]
    simp (disch := decide) only [toMetadata, textOf, rawText, listOf, hself, hother, hsteps,
      Option.map_some, Option.getD_some, text]
  · rw [named, if_neg (by simpa using hraw), if_neg hraw]
    rfl

/-- The name that a flow gets: its own, or the outer one if there is nothing in its place, and the given
one if that is blank. -/
def nameFor (given : String) (outer : Option String) (d : Document) : String :=
  let own := if d.rawText "fullName" = "" then Text.trim (outer.getD "") else d.textOf "fullName"
  if own = "" then given else own

theorem textOf_eq_empty {name : String} (h : d.rawText name = "") : d.textOf name = "" := by
  rw [textOf, h]
  rfl

def finished (given : String) (p : Option String × Document) : Metadata :=
  { p.2.toMetadata with name := nameFor given p.1 p.2 }

theorem ofContent_json (h : valueOf content = .ok j) (name : String) :
    Metadata.ofContent name .json content = finished name <$> unwrapped j := by
  have hgiven {own : String} {md md' : Metadata} (hmd : md' = { md with name := own }) :
      (if md'.name == "" then { md' with name := name } else md') =
        { md with name := if own = "" then name else own } := by
    subst hmd
    by_cases hown : own = "" <;> simp [hown]
  rw [Metadata.ofContent, ofContent, ofJsonText_eq_ofJson h, ofJson_eq_unwrapped]
  cases unwrapped j with
  | error e => rfl
  | ok p =>
    obtain ⟨outer, d⟩ := p
    refine congrArg Except.ok (hgiven ?_)
    cases outer with
    | some outer => exact toMetadata_named outer d
    | none =>
      split
      · next hraw =>
        change d.toMetadata = { d.toMetadata with name := "" }
        rw [← textOf_eq_empty hraw]
        rfl
      · rfl

/-- The names of two flows that differ in white space at most are the same, unless one of them has nothing
in the place of its own name, and the other has blanks. -/
theorem nameFor_eq_iff {name : String} {outer outer' : Option String}
    (houter : outer.map Text.trim = outer'.map Text.trim)
    (hown : d.textOf "fullName" = d'.textOf "fullName") :
    nameFor name outer' d' = nameFor name outer d ↔
      (d.rawText "fullName" = "" ↔ d'.rawText "fullName" = "") ∨
        Text.trim (outer.getD "") = "" ∨ Text.trim (outer.getD "") = name := by
  have hgetD (o : Option String) : Text.trim (o.getD "") = (o.map Text.trim).getD "" := by
    cases o <;> rfl
  have hsame : Text.trim (outer'.getD "") = Text.trim (outer.getD "") := by
    rw [hgetD, hgetD, houter]
  simp only [nameFor, hsame, ← hown]
  generalize Text.trim (outer.getD "") = o
  by_cases hraw : d.rawText "fullName" = "" <;> by_cases hraw' : d'.rawText "fullName" = ""
  · simp [hraw, hraw']
  · -- the name outside is taken for the first only
    rw [textOf_eq_empty hraw]
    simp only [hraw, hraw', if_true, if_false, iff_false, not_true, false_or]
    by_cases ho : o = ""
    · simp [ho]
    · simp [ho, eq_comm]
  · rw [hown, textOf_eq_empty hraw']
    simp only [hraw, hraw', if_true, if_false, false_iff, not_true, false_or]
    by_cases ho : o = ""
    · simp [ho]
    · simp [ho]
  · simp [hraw, hraw']

theorem finished_eq_iff {given : String} {p p' : Option String × Document}
    (htexts : p'.2.mapTexts Text.trim = p.2.mapTexts Text.trim) :
    finished given p' = finished given p ↔ nameFor given p'.1 p'.2 = nameFor given p.1 p.2 := by
  constructor
  · exact congrArg Metadata.name
  · intro hname
    rw [finished, finished, hname, toMetadata_of_trim_eq htexts]

/-- One of two flows in envelopes has nothing in the place of its own name, and the other has blanks. Only
one of them takes the outer name, and this is neither blank nor the given one. -/
def TakenOnce (given : String) (j j' : Json) : Prop :=
  ∃ outer outer' d d', unwrapped j = .ok (some outer, d) ∧ unwrapped j' = .ok (some outer', d') ∧
    ¬ (d.rawText "fullName" = "" ↔ d'.rawText "fullName" = "") ∧
    Text.trim outer ≠ "" ∧ Text.trim outer ≠ given

theorem not_takenOnce_iff {given : String} {j' : Json} {outer outer' : Option String}
    (hj : unwrapped j = .ok (outer, d)) (hj' : unwrapped j' = .ok (outer', d'))
    (houter : outer'.map Text.trim = outer.map Text.trim) :
    ¬ TakenOnce given j j' ↔ (d.rawText "fullName" = "" ↔ d'.rawText "fullName" = "") ∨
      Text.trim (outer.getD "") = "" ∨ Text.trim (outer.getD "") = given := by
  constructor
  · intro hnot
    by_contra hall
    obtain ⟨hraw, hblank, hgiven⟩ : _ ∧ _ ∧ _ := by simpa only [not_or] using hall
    cases outer with
    | none => exact hblank rfl
    | some o =>
      cases outer' with
      | none => cases houter
      | some o' => exact hnot ⟨o, o', d, d', hj, hj', hraw, hblank, hgiven⟩
  · rintro hall ⟨o, o', e, e', he, he', hraw, hblank, hgiven⟩
    rw [hj] at he
    rw [hj'] at he'
    cases he
    cases he'
    rcases hall with h | h | h
    · exact hraw h
    · exact hblank h
    · exact hgiven h

/-- White space that is put around texts, or taken away there, leaves everything but the name as it is,
and the name as well, unless an outer name is taken only once. -/
theorem padding_matters_only_for_names {w : Respelling} {content' : List UInt8}
    (hw : ∀ place s, Text.Padded s (w.text place s) ∨ Text.Padded (w.text place s) s)
    (h : valueOf content = .ok j) (h' : valueOf content' = .ok (w.whole j)) (given : String) :
    (Metadata.ofContent given .json content').map (fun md ↦ { md with name := "" }) =
        (Metadata.ofContent given .json content).map (fun md ↦ { md with name := "" }) ∧
      (Metadata.ofContent given .json content' = Metadata.ofContent given .json content ↔
        ¬ TakenOnce given j (w.whole j)) := by
  have htrim (place : Place) (s : String) : Text.trim (w.text place s) = Text.trim s :=
    (hw place s).elim (fun hpadded ↦ hpadded.trim_eq) (fun hpadded ↦ hpadded.trim_eq.symm)
  have hview := unwrapped_whole htrim j
  rw [ofContent_json h, ofContent_json h']
  cases hj : unwrapped j with
  | error e =>
    cases hj' : unwrapped (w.whole j) <;> rw [hj, hj'] at hview <;> cases hview
    refine ⟨rfl, fun _ ↦ ?_, fun _ ↦ rfl⟩
    rintro ⟨outer, outer', d, d', hok, -⟩
    cases hj.symm.trans hok
  | ok p =>
    cases hj' : unwrapped (w.whole j) with
    | error e' =>
      rw [hj, hj'] at hview
      cases hview
    | ok p' =>
      rw [hj, hj'] at hview
      obtain ⟨houter, htexts⟩ := Prod.mk.inj (Except.ok.inj hview)
      have hown := isBisimulation_trim.textOf_eq htexts "fullName"
      constructor
      · exact congrArg (fun md : Metadata ↦ Except.ok { md with name := "" })
          (toMetadata_of_trim_eq htexts)
      · calc _ ↔ finished given p' = finished given p := ⟨Except.ok.inj, congrArg Except.ok⟩
          _ ↔ nameFor given p'.1 p'.2 = nameFor given p.1 p.2 := finished_eq_iff htexts
          _ ↔ _ := nameFor_eq_iff houter.symm hown.symm
          _ ↔ _ := (not_takenOnce_iff hj hj' houter).symm

def enveloped (own label : String) : Document :=
  .record [("Metadata", .record [("fullName", .leaf own), ("label", .leaf label)]),
    ("FullName", .leaf "Outer")]

theorem unwrapped_enveloped (own label : String) : unwrapped (enveloped own label).toJson.reread =
    .ok (some "Outer", .record [("fullName", .leaf own), ("label", .leaf label)]) := rfl

/-- A blank before an empty name and one after a label: the outer name is lost. -/
theorem padded_name_loses_outer :
    let w : Respelling := { text := fun place s ↦
      if place = [0, 0] then " " ++ s else if place = [1, 0] then s ++ " " else s }
    let j := (enveloped "" "Totals").toJson.reread
    (∀ place s, Text.Padded s (w.text place s)) ∧
      valueOf (enveloped "" "Totals").json = .ok j ∧
      valueOf (enveloped " " "Totals ").json = .ok (w.whole j) ∧
      TakenOnce "Given" j (w.whole j) ∧
      Metadata.ofContent "Given" .json (enveloped " " "Totals ").json ≠
        Metadata.ofContent "Given" .json (enveloped "" "Totals").json := by
  intro w j
  have hpadded (place : Place) (s : String) : Text.Padded s (w.text place s) := by
    have hblank : ∀ c ∈ [' '], Text.isBlank c := List.forall_mem_singleton.2 (by decide)
    dsimp only [w]
    split
    · exact ⟨[' '], [], hblank, nofun, by simp⟩
    split
    · exact ⟨[], [' '], nofun, hblank, by simp⟩
    · exact ⟨[], [], nofun, nofun, by simp⟩
  have hplain : valueOf (enveloped "" "Totals").json = .ok j := valueOf_json (by decide)
  have hwhole : w.whole j = (enveloped " " "Totals ").toJson.reread := rfl
  have hspaced : valueOf (enveloped " " "Totals ").json = .ok (w.whole j) := by
    rw [hwhole]
    exact valueOf_json (by decide)
  have htaken : TakenOnce "Given" j (w.whole j) := by
    rw [hwhole]
    refine ⟨_, _, _, _, unwrapped_enveloped "" "Totals", unwrapped_enveloped " " "Totals ", ?_, ?_, ?_⟩ <;>
      decide
  refine ⟨hpadded, hplain, hspaced, htaken, fun heq ↦ ?_⟩
  exact (padding_matters_only_for_names (fun place s ↦ .inl (hpadded place s)) hplain hspaced
    "Given").2.1 heq htaken

end Names

end FlowAudit.Document
