import FlowAudit.Json.Member
import FlowAudit.Proofs.Json.Reading
import FlowAudit.Proofs.Time.Text
import Mathlib

namespace FlowAudit.Json

theorem rereadIn_eq_map (items : List Json) : rereadIn items = items.map reread := by
  induction items with
  | nil => rfl
  | cons j items ih => rw [rereadIn, ih, List.map_cons]

theorem rereadBelow_eq_map (members : List (String × Json)) :
    rereadBelow members = members.map fun m ↦ (m.1, m.2.reread) := by
  induction members with
  | nil => rfl
  | cons m members ih => rw [rereadBelow, ih, List.map_cons]

mutual

theorem nesting_reread : ∀ j : Json, j.reread.nesting = j.nesting
  | .null | .bool _ | .num _ | .str _ _ => rfl
  | .arr items => by rw [reread, nesting, nesting, nestingIn_rereadIn items]
  | .obj members => by rw [reread, nesting, nesting, nestingBelow_rereadBelow members]

theorem nestingIn_rereadIn : ∀ items : List Json, nestingIn (rereadIn items) = nestingIn items
  | [] => rfl
  | j :: rest => by rw [rereadIn, nestingIn, nestingIn, nesting_reread j, nestingIn_rereadIn rest]

theorem nestingBelow_rereadBelow : ∀ members : List (String × Json),
    nestingBelow (rereadBelow members) = nestingBelow members
  | [] => rfl
  | (name, j) :: rest => by
    rw [rereadBelow, nestingBelow, nestingBelow, nesting_reread j, nestingBelow_rereadBelow rest]

end

theorem nestingIn_le_iff {items : List Json} {n : Nat} :
    nestingIn items ≤ n ↔ ∀ j ∈ items, j.nesting ≤ n := by
  induction items with
  | nil => simp [nestingIn]
  | cons j items ih => simp [nestingIn, ih]

theorem nestingBelow_append (members more : List (String × Json)) :
    nestingBelow (members ++ more) = max (nestingBelow members) (nestingBelow more) := by
  induction members with
  | nil => simp [nestingBelow]
  | cons m members ih =>
    obtain ⟨name, j⟩ := m
    rw [List.cons_append, nestingBelow, nestingBelow, ih, max_assoc]

theorem tooDeep?_eq_none_iff {depth : Nat} {j : Json} :
    j.tooDeep? depth = none ↔ depth + j.nesting ≤ maxNesting := by
  simp [tooDeep?]

@[simp]
theorem reread_ofInt (n : Int) : (ofInt n).reread = ofInt n := by
  cases n <;> rfl

@[simp]
theorem isNull_reread (j : Json) : j.reread.isNull = j.isNull := by
  cases j <;> rfl

section Whole

variable {α : Type} {encode : α → Json}

theorem isWhole_ofOption {o : Option α} (h : ∀ a ∈ o, (encode a).IsWhole) :
    (ofOption encode o).IsWhole := by
  cases o with
  | none => exact .null
  | some a => exact h a rfl

theorem isWhole_arr_map {values : List α} (h : ∀ a ∈ values, (encode a).IsWhole) :
    (Json.arr (values.map encode)).IsWhole :=
  .arr (List.forall_mem_map.2 h)

theorem isWhole_strings (items : List String) : (strings items).IsWhole :=
  isWhole_arr_map fun s _ ↦ .str s _

end Whole

namespace Layers

variable {α : Type} {read : Layers → Except Mismatch α} {encode : α → Json}

theorem apply_singleton (empty : α) (read : Json → Except Mismatch α) {j : Json}
    (h : j.isNull = false) : apply empty read [j] = read j := by
  simp only [apply, List.foldlM_cons, h, Bool.false_eq_true, if_false, List.foldlM_nil]
  cases read j <;> rfl

theorem text_str (s : String) (isEscaped : Bool) : text [.str s isEscaped] = .ok s := rfl

theorem flag_bool (b : Bool) : flag [.bool b] = .ok b := rfl

def InRange (n : Int) : Prop := -0x8000000000000000 ≤ n ∧ n < 0x8000000000000000

instance (n : Int) : Decidable (InRange n) := inferInstanceAs (Decidable (_ ∧ _))

theorem toInt?_ofInt (n : Int) : ∃ literal, ofInt n = .num literal ∧ literal.toInt? = some n := by
  cases n with
  | ofNat n => exact ⟨_, rfl, Nat.toInt?_repr n⟩
  | negSucc n =>
    have hminus : String.ofList ('-' :: Nat.toDigits 10 (n + 1)) = "-" ++ (n + 1).repr := by
      apply String.toList_injective
      simp [Nat.repr]
    refine ⟨_, rfl, ?_⟩
    rw [hminus, String.toInt?_minus_append, Nat.toNat?_repr]
    rfl

theorem whole_ofInt {n : Int} (h : InRange n) : whole [ofInt n] = .ok n := by
  obtain ⟨literal, hliteral, hvalue⟩ := toInt?_ofInt n
  rw [hliteral, whole, apply_singleton _ _ rfl]
  have hin : (-0x8000000000000000 ≤ n && n < 0x8000000000000000) = true := by
    simpa [InRange] using h
  simp [whole?, hvalue, hin]

theorem isEscaped_of_isDigit {c : Char} (h : c.isDigit) : isEscaped c = false := by
  obtain ⟨hge, hle⟩ := Text.isDigit_iff.1 h
  rw [← Char.ofNat_toNat c]
  generalize c.toNat = n at hge hle
  interval_cases n <;> rfl

theorem any_isEscaped_padded (w n : Nat) : (Text.padded w n).toList.any isEscaped = false :=
  List.any_eq_false.2 fun _ hc ↦ by simp [isEscaped_of_isDigit (Text.isDigit_of_mem_padded hc)]

theorem any_isEscaped_text (t : Time) : t.text.toList.any isEscaped = false := by
  obtain ⟨y, m, d, h, n, s, -, -, -, -, -, -, htext⟩ := Time.exists_shows t
  have hdecimals : (Time.fraction t.nanos).toList.any isEscaped = false := by
    rw [Time.toList_fraction]
    split
    · rfl
    · rw [List.any_cons, List.any_eq_false.2 fun c hc ↦ by
        simp [isEscaped_of_isDigit (Time.isDigit_of_mem_decimals hc)]]
      rfl
  have hzone : (Time.zoneText t.offset).toList.any isEscaped = false := by
    rw [Time.zoneText]
    split
    · decide
    · split <;> simp [any_isEscaped_padded] <;> decide
  have hyear : (Time.pad 4 y).toList.any isEscaped = false := by
    rw [Time.pad]
    split <;> simp [any_isEscaped_padded]
    decide
  rw [Time.text, htext]
  simp only [String.toList_append, List.any_append, hyear, any_isEscaped_padded, hdecimals, hzone]
  decide

/-- A time is found again, but for the seconds of its zone: its text is read and needs no escapes. -/
theorem time_ofTime {t : Time} (hnanos : t.nanos < 10 ^ 9) (hwritable : t.unwritable? = none) :
    time [(ofTime t).reread] = .ok t.inMinutes := by
  rw [ofTime, reread, any_isEscaped_text, time, apply_singleton _ _ rfl]
  simp [Time.ofText?_text hnanos hwritable]

theorem divide_singleton (clears : Json → Bool) (j : Json) :
    divide clears [j] = if clears j then ([j], []) else ([], [j]) := by
  cases h : clears j <;> simp [divide, h]

theorem optional_null (h : ∃ a, read [.null] = .ok a) : optional read [.null] = .ok none := by
  obtain ⟨a, ha⟩ := h
  simp [optional, divide_singleton, isNull, ha, ok_bind, pure_eq_ok]

theorem optional_some {j : Json} {a : α} (hnull : j.isNull = false) (hempty : ∃ a, read [] = .ok a)
    (h : read [j] = .ok a) : optional read [j] = .ok (some a) := by
  obtain ⟨b, hb⟩ := hempty
  simp [optional, divide_singleton, hnull, hb, h, ok_bind, pure_eq_ok]

theorem stack_nil (items : List Json) : stack [] items = items.map fun j ↦ [j] := by
  induction items with
  | nil => rfl
  | cons j items ih => rw [stack, ih, List.map_cons]

theorem list_null (read : Layers → Except Mismatch α) : list read [.null] = .ok none := by
  simp [list, divide_singleton, isBare, items, stack, ok_bind, pure_eq_ok]

theorem list_arr {β : Type} {write : β → Json} {g : β → α} {values : List β}
    (h : ∀ b ∈ values, read [write b] = .ok (g b)) :
    list read [.arr (values.map write)] = .ok (some (values.map g)) := by
  have hstack : (stack [] (values.map write)).mapM read = .ok (values.map g) := by
    rw [stack_nil, List.map_map, List.mapM_map]
    exact mapM_eq_ok h
  cases values with
  | nil => rfl
  | cons a values =>
    rw [List.map_cons] at hstack
    simp [list, divide_singleton, isBare, items, hstack, ok_bind, pure_eq_ok]

theorem list_ofOption {β : Type} {write : β → Json} {g : β → α} {o : Option (List β)}
    (h : ∀ values ∈ o, ∀ b ∈ values, read [(write b).reread] = .ok (g b)) :
    list read [(ofOption (fun values ↦ .arr (values.map write)) o).reread] = .ok (o.map (List.map g)) := by
  cases o with
  | none => exact list_null read
  | some values =>
    rw [ofOption, reread, rereadIn_eq_map, List.map_map]
    exact list_arr (h values rfl)

theorem list_found {o : Option (List α)}
    (h : ∀ values ∈ o, ∀ a ∈ values, read [(encode a).reread] = .ok a) :
    list read [(ofOption (fun values ↦ .arr (values.map encode)) o).reread] = .ok o := by
  rw [list_ofOption (g := id) h]
  simp

theorem list_strings (o : Option (List String)) : list text [(ofOption strings o).reread] = .ok o :=
  list_found fun _ _ s _ ↦ text_str s _

theorem table_null : table read [.null] = .ok none := by
  simp [table, divide_singleton, isNull, ok_bind, pure_eq_ok]

theorem table_obj {entries : List (String × α)} (h : ∀ e ∈ entries, read [encode e.2] = .ok e.2) :
    table read [.obj (entries.map fun e ↦ (e.1, encode e.2))] = .ok (some entries) := by
  have hentries : (entries.map fun e ↦ (e.1, encode e.2)).mapM (fun m ↦ do
      return (m.1, ← read [m.2])) = .ok entries := by
    rw [List.mapM_map]
    refine (mapM_eq_ok (g := id) fun e he ↦ ?_).trans (by rw [List.map_id])
    simp only [Function.comp_apply, h e he]
    rfl
  simp only [pure_eq_ok] at hentries
  simp [table, divide_singleton, isNull, hentries, ok_bind, pure_eq_ok]

theorem table_reread {entries : List (String × α)}
    (h : ∀ e ∈ entries, read [(encode e.2).reread] = .ok e.2) :
    table read [(Json.obj (entries.map fun e ↦ (e.1, encode e.2))).reread] = .ok (some entries) := by
  rw [reread, rereadBelow_eq_map, List.map_map]
  exact @table_obj α read (fun a ↦ (encode a).reread) entries h

def valuesOf (members : List (String × Json)) (name : String) : Layers :=
  (members.filter (·.1 == name)).map (·.2)

theorem valuesOf_nil (name : String) : valuesOf [] name = [] := rfl

theorem valuesOf_cons (n : String) (j : Json) (members : List (String × Json)) (name : String) :
    valuesOf ((n, j) :: members) name =
      if n = name then j :: valuesOf members name else valuesOf members name := by
  by_cases h : n = name <;> simp [valuesOf, h]

theorem valuesOf_append (members members' : List (String × Json)) (name : String) :
    valuesOf (members ++ members') name = valuesOf members name ++ valuesOf members' name := by
  simp [valuesOf]

theorem valuesOf_ite (p : Prop) [Decidable p] (members members' : List (String × Json)) (name : String) :
    valuesOf (if p then members else members') name =
      if p then valuesOf members name else valuesOf members' name := by
  split <;> rfl

theorem valuesOf_toList (n : String) (encode : α → Json) (o : Option α) (name : String) :
    valuesOf (o.map fun a ↦ (n, encode a)).toList name =
      if n = name then (o.map encode).toList else [] := by
  cases o with
  | none => simp [valuesOf]
  | some a => simp [valuesOf_cons, valuesOf_nil]

theorem valuesOf_listMember (n : String) (items : List Json) (name : String) :
    valuesOf (listMember n items) name =
      if n = name then if items.isEmpty then [] else [.arr items] else [] := by
  rw [listMember, valuesOf_ite, valuesOf_cons, valuesOf_nil]
  split <;> simp

theorem valuesOf_reread (members : List (String × Json)) (name : String) :
    valuesOf (rereadBelow members) name = (valuesOf members name).map reread := by
  induction members with
  | nil => rfl
  | cons m members ih =>
    obtain ⟨n, j⟩ := m
    rw [rereadBelow, valuesOf_cons, valuesOf_cons, ih]
    split <;> rfl

section

variable {fields : List String} {readFields : (String → Layers) → Except Mismatch α}

theorem record_obj {members : List (String × Json)} (h : ∀ m ∈ members, m.1 ∈ fields) :
    record fields readFields [.obj members] = readFields (valuesOf members) := by
  have hnamed : members.filterMap (fun m ↦ (fieldOf fields m.1).map (·, m.2)) = members := by
    rw [List.filterMap_congr (g := some), List.filterMap_some]
    intro m hm
    simp [fieldOf, h m hm]
  simp [record, hnamed, ok_bind, pure_eq_ok]
  rfl

theorem record_reread {members : List (String × Json)} (h : ∀ m ∈ members, m.1 ∈ fields) :
    record fields readFields [(Json.obj members).reread] =
      readFields fun name ↦ (valuesOf members name).map reread := by
  rw [reread, record_obj]
  · exact congrArg readFields (funext (valuesOf_reread members))
  · intro m hm
    rw [rereadBelow_eq_map] at hm
    obtain ⟨n, hn, rfl⟩ := List.mem_map.1 hm
    exact h n hn

end

theorem optional_toList {β : Type} {write : β → Json} {g : β → α} {o : Option β}
    (hnull : ∀ b, (write b).isNull = false) (hempty : ∃ a, read [] = .ok a)
    (h : ∀ b ∈ o, read [(write b).reread] = .ok (g b)) :
    optional read ((o.map write).toList.map reread) = .ok (o.map g) := by
  cases o with
  | none =>
    obtain ⟨a, ha⟩ := hempty
    simp [optional, divide, ha, ok_bind, pure_eq_ok]
  | some b => exact optional_some (by rw [isNull_reread, hnull]) hempty (h b rfl)

theorem list_unlessEmpty {values : List α} (h : ∀ a ∈ values, read [(encode a).reread] = .ok a) :
    ∃ o, o.getD [] = values ∧
      list read ((if (values.map encode).isEmpty then [] else [Json.arr (values.map encode)]).map reread) =
        .ok o := by
  cases values with
  | nil => exact ⟨none, rfl, rfl⟩
  | cons a values =>
    refine ⟨some (a :: values), rfl, list_found (o := some (a :: values)) fun values' hvalues ↦ ?_⟩
    obtain rfl := Option.mem_some_iff.1 hvalues
    exact h

end Layers

end FlowAudit.Json
