import FlowAudit.Proofs.MergeField.Blanks

namespace FlowAudit.MergeField

open Text

variable {cs a b f after : List Char}

def opening : List Char := ['{', '!']

theorem afterOpening?_opening_append (rest : List Char) : afterOpening? (opening ++ rest) = some rest := rfl

theorem afterOpening?_cons_of_not {c : Char} {rest : List Char} (h : ¬opening <+: c :: rest) :
    afterOpening? (c :: rest) = afterOpening? rest := by
  rw [afterOpening?]
  rintro rest' rfl rfl
  exact h ⟨rest', rfl⟩

theorem afterOpening?_append (h : ¬opening <:+: a) (rest : List Char) :
    afterOpening? (a ++ (opening ++ rest)) = some rest := by
  induction a with
  | nil => exact afterOpening?_opening_append rest
  | cons c a ih =>
    have hrest : ¬opening <:+: a := fun ha ↦ h (ha.trans (List.suffix_cons c a).isInfix)
    rw [List.cons_append, afterOpening?_cons_of_not, ih hrest]
    -- An opening across the seam would have an opening brace for its exclamation mark.
    intro hopen
    cases a with
    | nil => simp [opening] at hopen
    | cons d a =>
      apply h
      obtain ⟨t, ht⟩ := hopen
      simp [opening] at ht
      obtain ⟨rfl, rfl, -⟩ := ht
      exact ⟨[], a, rfl⟩

theorem exists_of_afterOpening? {rest : List Char} (h : afterOpening? cs = some rest) :
    ∃ before, ¬opening <:+: before ∧ cs = before ++ (opening ++ rest) := by
  fun_induction afterOpening? cs with
  | case1 => cases h
  | case2 rest' =>
    cases h
    exact ⟨[], by simp [opening], rfl⟩
  | case3 c cs hnot ih =>
    obtain ⟨before, hbefore, rfl⟩ := ih h
    refine ⟨c :: before, ?_, rfl⟩
    intro hin
    rcases List.infix_cons_iff.mp hin with hopen | hin
    · obtain ⟨t, ht⟩ := hopen
      simp only [opening, List.cons_append, List.nil_append, List.cons.injEq] at ht
      obtain ⟨rfl, ht⟩ := ht
      exact hnot _ rfl (by rw [← ht]; rfl)
    · exact hbefore hin

/-- The first field is what stands between the first opening and the next closing brace. -/
theorem firstField?_eq_some_iff : firstField? cs = some (f, after) ↔
    ∃ before, ¬opening <:+: before ∧ '}' ∉ f ∧ cs = before ++ (opening ++ (f ++ '}' :: after)) := by
  constructor
  · intro h
    unfold firstField? at h
    split at h
    · cases h
    · next rest hopen =>
      split at h
      · cases h
      · next c _ hclose =>
        cases h
        obtain ⟨before, hbefore, rfl⟩ := exists_of_afterOpening? hopen
        have hc : c = '}' := by
          have hhead := List.head?_dropWhile_not (· != '}') rest
          rw [hclose] at hhead
          simpa using hhead
        refine ⟨before, hbefore, ?_, ?_⟩
        · intro hmem
          simpa using List.mem_takeWhile_imp hmem
        · rw [hc] at hclose
          rw [← hclose, List.takeWhile_append_dropWhile]
  · rintro ⟨before, hbefore, hf, rfl⟩
    have hkeep : ∀ c ∈ f, (c != '}') = true := by
      intro c hc
      have hne : c ≠ '}' := fun heq ↦ hf (heq ▸ hc)
      simpa using hne
    rw [firstField?, afterOpening?_append hbefore]
    simp [List.dropWhile_append_of_pos hkeep, List.takeWhile_append_of_pos hkeep]

/-- What a field contributes: its content without the blanks around it, unless it is blank. -/
def contribution (f : List Char) : List String :=
  if (trimChars f).isEmpty then [] else [String.ofList (trimChars f)]

theorem fieldsIn_of_none (h : firstField? cs = none) : fieldsIn cs = [] := by
  rw [fieldsIn]
  split
  · rfl
  · next hfirst => simp [h] at hfirst

theorem fieldsIn_of_some (h : firstField? cs = some (f, after)) :
    fieldsIn cs = contribution f ++ fieldsIn after := by
  rw [fieldsIn, contribution]
  split
  · next hfirst => simp [h] at hfirst
  · next f' after' hfirst =>
    obtain ⟨rfl, rfl⟩ : f = f' ∧ after = after' := by simpa [h] using hfirst
    dsimp only
    split <;> simp

theorem fieldsIn_append (ha : ¬opening <:+: a) (hf : '}' ∉ f) :
    fieldsIn (a ++ (opening ++ (f ++ '}' :: b))) = contribution f ++ fieldsIn b :=
  fieldsIn_of_some (firstField?_eq_some_iff.mpr ⟨a, ha, hf, rfl⟩)

theorem firstField?_eq_none (h : ∀ before f after, cs ≠ before ++ (opening ++ (f ++ '}' :: after))) :
    firstField? cs = none := by
  apply Option.eq_none_iff_forall_ne_some.mpr
  rintro ⟨f, after⟩ hfirst
  obtain ⟨before, -, -, heq⟩ := firstField?_eq_some_iff.mp hfirst
  exact h before f after heq

theorem mem_fieldsIn {s : String} (h : s ∈ fieldsIn cs) :
    ∃ f, '}' ∉ f ∧ trimChars f ≠ [] ∧ s = String.ofList (trimChars f) := by
  fun_induction fieldsIn cs with
  | case1 => cases h
  | case2 cs f after hfirst field hblank ih => exact ih h
  | case3 cs f after hfirst field hblank ih =>
    rcases List.mem_cons.mp h with rfl | h
    · obtain ⟨-, -, hf, -⟩ := firstField?_eq_some_iff.mp hfirst
      exact ⟨f, hf, by simpa [field] using hblank, rfl⟩
    · exact ih h

def braced (f : String) : String := String.ofList opening ++ f ++ closeBrace

theorem toList_braced (a f b : String) : (a ++ braced f ++ b).toList =
    a.toList ++ (opening ++ (f.toList ++ '}' :: b.toList)) := by
  simp [braced]

theorem contribution_toList (f : String) :
    contribution f.toList = if trim f = "" then [] else [trim f] := by
  simp only [contribution, trim, List.isEmpty_iff, ← String.toList_inj, String.toList_ofList,
    String.toList_empty]

theorem mergeFields_append {a f : String} (ha : ¬opening <:+: a.toList) (hf : '}' ∉ f.toList) (b : String) :
    mergeFields (a ++ braced f ++ b) = (if trim f = "" then [] else [trim f]) ++ mergeFields b := by
  rw [mergeFields, toList_braced, fieldsIn_append ha hf, contribution_toList]
  rfl

theorem references_empty : references "" = [] := by decide

/-- A blank field adds no reference, so that none is lost when it is left out. -/
theorem any_contribution (f : String) (p : List String → Bool) :
    ((if trim f = "" then [] else [trim f]).any fun field ↦ (references field).any p) =
      (references f).any p := by
  rw [← references_trim f]
  split
  · next hblank => rw [hblank, references_empty]; rfl
  · simp

theorem isCrossObject_append {a f : String} (ha : ¬opening <:+: a.toList) (hf : '}' ∉ f.toList)
    (b : String) : isCrossObject (a ++ braced f ++ b) =
      ((references f).any isCrossObjectPath || isCrossObject b) := by
  rw [isCrossObject, mergeFields_append ha hf, List.any_append, any_contribution]
  rfl

/-- Before a merge field stands no opening, and it holds no closing brace: then the fields of the whole text
are the trimmed content, unless it is blank, and those of the text after it; and the text leads to another
record if a reference in the field does or the text after it. A text where no closing brace comes after an
opening has no fields. All fields are trimmed, and none is blank or has a closing brace. -/
theorem merge_fields_read_one_by_one :
    (∀ a f b : String, ¬opening <:+: a.toList → '}' ∉ f.toList →
      mergeFields (a ++ braced f ++ b) = (if trim f = "" then [] else [trim f]) ++ mergeFields b ∧
      (isCrossObject (a ++ braced f ++ b) = true ↔
        (∃ path ∈ references f, isCrossObjectPath path = true) ∨ isCrossObject b = true)) ∧
    (∀ s : String, (∀ x y z : String, s ≠ x ++ braced y ++ z) → mergeFields s = []) ∧
    ∀ s : String, ∀ f ∈ mergeFields s, f ≠ "" ∧ trim f = f ∧ '}' ∉ f.toList := by
  refine ⟨fun a f b ha hf ↦ ⟨mergeFields_append ha hf b, ?_⟩, fun s hs ↦ ?_, fun s f hf ↦ ?_⟩
  · rw [isCrossObject_append ha hf, Bool.or_eq_true, List.any_eq_true]
  · apply fieldsIn_of_none
    apply firstField?_eq_none
    intro before field after heq
    apply hs (String.ofList before) (String.ofList field) (String.ofList after)
    rw [← String.toList_inj, toList_braced]
    simpa using heq
  · obtain ⟨cs, hclosing, hblank, rfl⟩ := mem_fieldsIn hf
    refine ⟨?_, ?_, ?_⟩
    · rw [ne_eq, ← String.toList_inj]
      simpa using hblank
    · rw [trim, String.toList_ofList, trimChars_trimChars]
    · rw [String.toList_ofList]
      exact fun hmem ↦ hclosing ((trimChars_sublist cs).subset hmem)

/-- A brace before the opening, another opening inside a field, a blank field and one that stays open. -/
theorem merge_fields_among_braces :
    let unclosed (s : String) := String.ofList opening ++ s
    let before := openBrace ++ " " ++ openBrace
    let after := braced " " ++ braced ("A" ++ unclosed "B") ++ unclosed "C"
    mergeFields (before ++ braced " $Record.Account.Name " ++ after) =
      ["$Record.Account.Name", "A" ++ unclosed "B"] ∧
    isCrossObject (before ++ braced " $Record.Account.Name " ++ after) = true := by
  intro unclosed before after
  obtain ⟨hfields, hcross⟩ :=
    merge_fields_read_one_by_one.1 before " $Record.Account.Name " after (by decide) (by decide)
  rw [hfields, hcross]
  decide +kernel

end FlowAudit.MergeField
