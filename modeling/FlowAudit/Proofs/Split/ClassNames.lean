import FlowAudit.Proofs.Split.Walk
import Mathlib

namespace FlowAudit.Split

/-- Letters and digits of ASCII, of which the first is a capital. -/
def isIdentifier : List Char → Bool
  | [] => false
  | c :: cs => c.isUpper && cs.all Char.isAlphanum

section Identifier

variable {cs ds : List Char}

theorem isAlphanum_of_isUpper {c : Char} (h : c.isUpper = true) : c.isAlphanum = true := by
  rw [Char.isAlphanum, Char.isAlpha, h, Bool.true_or, Bool.true_or]

theorem isAlphanum_toUpper {c : Char} (h : c.isAlphanum = true) : c.toUpper.isAlphanum = true := by
  by_cases hlower : c.isLower = true
  · refine isAlphanum_of_isUpper ?_
    rw [Char.isUpper_toUpper_eq_isAlpha, Char.isAlpha, hlower, Bool.or_true]
  · rwa [Char.toUpper_eq_of_not_isLower hlower]

theorem isIdentifier_append (h : isIdentifier cs = true) (hds : ∀ c ∈ ds, c.isAlphanum = true) :
    isIdentifier (cs ++ ds) = true := by
  cases cs with
  | nil => cases h
  | cons c cs =>
    rw [isIdentifier, Bool.and_eq_true] at h
    rw [List.cons_append, isIdentifier, List.all_append, h.1, h.2, List.all_eq_true.2 hds]
    rfl

theorem isIdentifier_take (h : isIdentifier cs = true) {n : Nat} (hn : 0 < n) :
    isIdentifier (cs.take n) = true := by
  cases cs with
  | nil => cases h
  | cons c cs =>
    rw [isIdentifier, Bool.and_eq_true, List.all_eq_true] at h
    obtain ⟨k, rfl⟩ := Nat.exists_eq_add_one.2 hn
    rw [List.take_succ_cons, isIdentifier, Bool.and_eq_true, List.all_eq_true]
    exact ⟨h.1, fun d hd ↦ h.2 d (List.mem_of_mem_take hd)⟩

theorem length_pos_of_isIdentifier (h : isIdentifier cs = true) : 0 < cs.length := by
  cases cs with
  | nil => cases h
  | cons c cs => exact Nat.succ_pos _

end Identifier

section Sanitize

variable {cs : List Char} {starts : Bool}

theorem isAlphanum_of_mem_pascalCase {c : Char} (h : c ∈ pascalCase starts cs) :
    c.isAlphanum = true := by
  fun_induction pascalCase starts cs with
  | case1 => cases h
  | case2 starts d rest hd ih =>
    obtain rfl | h := List.mem_cons.1 h
    · split
      · exact isAlphanum_toUpper hd
      · exact hd
    · exact ih h
  | case3 starts d rest hd ih => exact ih h

theorem isIdentifier_pascalCase (h : (pascalCase true cs).head?.any Char.isAlpha = true) :
    isIdentifier (pascalCase true cs) = true := by
  induction cs with
  | nil => cases h
  | cons c cs ih =>
    rw [pascalCase] at h ⊢
    split
    · next hc =>
      rw [if_pos hc, if_pos rfl, List.head?_cons, Option.any_some, Char.isAlpha_toUpper_eq_isAlpha] at h
      rw [if_pos rfl, isIdentifier, Char.isUpper_toUpper_eq_isAlpha, h, Bool.true_and, List.all_eq_true]
      exact fun d hd ↦ isAlphanum_of_mem_pascalCase hd
    · next hc =>
      rw [if_neg hc] at h
      exact ih h

theorem pascalCase_false (h : ∀ c ∈ cs, c.isAlphanum = true) : pascalCase false cs = cs := by
  induction cs with
  | nil => rfl
  | cons c cs ih =>
    obtain ⟨hc, hcs⟩ := List.forall_mem_cons.1 h
    rw [pascalCase, if_pos hc, if_neg Bool.false_ne_true, ih hcs]

theorem pascalCase_of_isIdentifier (h : isIdentifier cs = true) : pascalCase true cs = cs := by
  cases cs with
  | nil => cases h
  | cons c cs =>
    rw [isIdentifier, Bool.and_eq_true, List.all_eq_true] at h
    rw [pascalCase, if_pos (isAlphanum_of_isUpper h.1), if_pos rfl, pascalCase_false h.2,
      Char.toUpper_eq_of_not_isLower (Char.not_isLower_of_isUpper h.1)]

def uncut (cs : List Char) : List Char :=
  if (pascalCase true cs).head?.any Char.isAlpha then pascalCase true cs
  else "Flow".toList ++ pascalCase true cs

theorem toList_sanitize (s : String) {limit : Int} (h : 0 < limit) :
    (sanitize s limit).toList = (uncut s.toList).take limit.toNat := by
  rw [sanitize, if_pos h, String.toList_ofList]
  rfl

theorem isIdentifier_uncut (cs : List Char) : isIdentifier (uncut cs) = true := by
  rw [uncut]
  split
  · next h => exact isIdentifier_pascalCase h
  · exact isIdentifier_append (by decide) fun c ↦ isAlphanum_of_mem_pascalCase

theorem uncut_of_isIdentifier (h : isIdentifier cs = true) : uncut cs = cs := by
  have halpha : cs.head?.any Char.isAlpha = true := by
    cases cs with
    | nil => cases h
    | cons c cs =>
      rw [isIdentifier, Bool.and_eq_true] at h
      rw [List.head?_cons, Option.any_some, Char.isAlpha, h.1, Bool.true_or]
  rw [uncut, pascalCase_of_isIdentifier h, if_pos halpha]

variable (s : String) {limit : Int}

theorem isIdentifier_sanitize (h : 0 < limit) : isIdentifier (sanitize s limit).toList = true := by
  rw [toList_sanitize s h]
  exact isIdentifier_take (isIdentifier_uncut _) (by omega)

theorem length_sanitize_le (h : 0 < limit) : ((sanitize s limit).length : Int) ≤ limit := by
  have hlength := List.length_take_le limit.toNat (uncut s.toList)
  rw [← toList_sanitize s h, String.length_toList] at hlength
  omega

theorem sanitize_sanitize (h : 0 < limit) : sanitize (sanitize s limit) limit = sanitize s limit := by
  rw [← String.toList_inj, toList_sanitize _ h, uncut_of_isIdentifier (isIdentifier_sanitize s h),
    toList_sanitize s h, List.take_take, Nat.min_self]

end Sanitize

section Suggested

variable {g g' : Group} {name name' : String}

theorem eq_of_suffix (h : g.suffix.toList <:+ g'.suffix.toList) : g = g' := by
  revert h
  cases g <;> cases g' <;> decide

theorem eq_of_className_eq (h : className name g.suffix = className name' g'.suffix) : g = g' := by
  have hlist := congrArg String.toList h
  rw [className, className, String.toList_append, String.toList_append] at hlist
  obtain hsuffix | hsuffix := List.suffix_or_suffix_of_suffix
    (List.suffix_append _ g.suffix.toList) (hlist ▸ List.suffix_append _ g'.suffix.toList)
  · exact eq_of_suffix hsuffix
  · exact (eq_of_suffix hsuffix).symm

theorem className_usable (name : String) (g : Group) :
    isIdentifier (className name g.suffix).toList = true ∧ (className name g.suffix).length ≤ 40 := by
  have hlimit : (0 : Int) < (maxClassNameLength : Int) - g.suffix.utf8ByteSize := by
    cases g <;> decide
  have hsuffix : g.suffix.toList.all Char.isAlphanum = true := by
    cases g <;> decide
  have hbytes : g.suffix.utf8ByteSize = g.suffix.length := by
    cases g <;> decide
  have hlength := length_sanitize_le name hlimit
  have hmax : maxClassNameLength = 40 := rfl
  rw [className, String.toList_append, String.length_append]
  exact ⟨isIdentifier_append (isIdentifier_sanitize name hlimit) (List.all_eq_true.1 hsuffix), by omega⟩

theorem nodup_classNames (as : List Analysis) : (classNames as).Nodup := by
  refine List.Nodup.filterMap (fun g g' c hc hc' ↦ ?_) (by decide)
  obtain ⟨a, -, rfl⟩ := Option.mem_map.1 hc
  obtain ⟨b, -, heq⟩ := Option.mem_map.1 hc'
  exact (eq_of_className_eq heq).symm

theorem suggested_usable (t : Turn) : ∃ names, t.recommendation.suggestedClassNames = some names ∧
    1 ≤ names.length ∧ names.length ≤ 4 ∧ names.Nodup ∧
    ∀ c ∈ names, isIdentifier c.toList = true ∧ c.length ≤ 40 := by
  refine ⟨if (classNames t.classified).isEmpty then [defaultClassName] else classNames t.classified,
    rfl, ?_⟩
  split
  · exact ⟨by decide, by decide, by decide, List.forall_mem_singleton.2 (by decide)⟩
  · next hsome =>
    have hlength : (classNames t.classified).length ≤ Group.all.length := List.length_filterMap_le _ _
    refine ⟨List.length_pos_iff.2 (by simpa using hsome), hlength, nodup_classNames _, fun c hc ↦ ?_⟩
    obtain ⟨b, -, rfl⟩ := mem_classNames hc
    exact className_usable b.name (classify b)

end Suggested

/-- Every recommendation suggests one to four different class names, and each is an identifier of at
most 40 characters. Any text is made an identifier within a positive limit, and one that is such an
identifier stays as it is. -/
theorem class_names_usable (root : Analysis) :
    (∀ r ∈ walk root, ∃ names, r.suggestedClassNames = some names ∧
      1 ≤ names.length ∧ names.length ≤ 4 ∧ names.Nodup ∧
      ∀ c ∈ names, isIdentifier c.toList = true ∧ c.length ≤ 40) ∧
    ∀ (s : String) (limit : Int), 0 < limit →
      1 ≤ (sanitize s limit).length ∧ (sanitize s limit).length ≤ limit ∧
      isIdentifier (sanitize s limit).toList = true ∧
      sanitize (sanitize s limit) limit = sanitize s limit := by
  refine ⟨fun r hr ↦ ?_, fun s limit h ↦ ⟨?_, length_sanitize_le s h, isIdentifier_sanitize s h,
    sanitize_sanitize s h⟩⟩
  · obtain ⟨t, -, rfl⟩ := exists_turn_of_mem_walk hr
    exact suggested_usable t
  · rw [← String.length_toList]
    exact length_pos_of_isIdentifier (isIdentifier_sanitize s h)

/-- Of the called flows one has a name that starts with a digit, and one a name without letters of
ASCII. -/
def oddlyNamed : Analysis :=
  .node { name := "Main" }
    [some (.node { name := "2nd-pass", kindCounts := [("RecordLookup", 1)] } []),
      some (.node { name := "Ü_ß" } [])]

theorem odd_names_usable :
    (∃ r ∈ walk oddlyNamed, ∃ names, r.suggestedClassNames = some names ∧ names.Nodup ∧
      names = ["Flow2ndPassDataService", "FlowProcessor"] ∧
      ∀ c ∈ names, isIdentifier c.toList = true ∧ c.length ≤ 40) ∧
    sanitize "2nd-pass" 5 = "Flow2" ∧ sanitize (sanitize "2nd-pass" 5) 5 = sanitize "2nd-pass" 5 := by
  obtain ⟨husable, hsanitize⟩ := class_names_usable oddlyNamed
  refine ⟨?_, by decide, (hsanitize "2nd-pass" 5 (by decide)).2.2.2⟩
  have hfirst : (generate oddlyNamed ["Main"]).1 ∈ walk oddlyNamed := by
    rw [walk_eq]
    exact List.mem_cons_self
  obtain ⟨names, hnames, -, -, hnodup, hidentifiers⟩ := husable _ hfirst
  refine ⟨_, hfirst, names, hnames, hnodup, Option.some.inj (hnames.symm.trans ?_), hidentifiers⟩
  decide

end FlowAudit.Split
