import FlowAudit.Proofs.Text.Utf8
import FlowAudit.Web.Url
import Mathlib

namespace FlowAudit.Web

open Text

variable {c d x : Char} {cs a b : List Char} {part : Part}

def isPlain (c : Char) : Bool := c.isAlphanum || "-_.~".toList.contains c

theorem ne_of_isPlain (hc : isPlain c = true) (hd : isPlain d = false) : c ≠ d := by
  rintro rfl
  exact Bool.false_ne_true (hd.symm.trans hc)

theorem keeps_of_isPlain (part : Part) (hc : isPlain c = true) : part.keeps c = true := by
  unfold Part.keeps
  rw [show (c.isAlphanum || "-_.~".toList.contains c) = true from hc, Bool.true_or]

theorem toNat_of_isAlphanum (h : c.isAlphanum = true) : 0x30 ≤ c.toNat ∧ c.toNat ≤ 0x7A := by
  simp only [Char.isAlphanum, Char.isAlpha, Char.isUpper, Char.isLower, Char.isDigit, Bool.or_eq_true,
    Bool.and_eq_true, decide_eq_true_eq, UInt32.le_iff_toNat_le, ge_iff_le] at h
  rcases h with (⟨hlow, hhigh⟩ | ⟨hlow, hhigh⟩) | ⟨hlow, hhigh⟩
  · exact ⟨le_trans (by decide) hlow, le_trans hhigh (by decide)⟩
  · exact ⟨le_trans (by decide) hlow, le_trans hhigh (by decide)⟩
  · exact ⟨le_trans (by decide) hlow, le_trans hhigh (by decide)⟩

theorem toNat_lt_of_isPlain (hc : isPlain c = true) : c.toNat < 0x80 := by
  rcases Bool.or_eq_true_iff.mp hc with halnum | hmark
  · exact lt_of_le_of_lt (toNat_of_isAlphanum halnum).2 (by decide)
  · simp at hmark
    rcases hmark with rfl | rfl | rfl | rfl <;> decide

def Plain (cs : List Char) : Prop := ∀ c ∈ cs, isPlain c = true

theorem plain_iff : Plain cs ↔ cs.all isPlain = true := List.all_eq_true.symm

theorem Plain.not_mem (h : Plain cs) (hd : isPlain d = false) : d ∉ cs := fun hmem ↦
  ne_of_isPlain (h d hmem) hd rfl

theorem unescape?_of_plain (part : Part) (h : Plain cs) :
    Percent.unescape? part cs = some (Utf8.encode cs) := by
  induction cs with
  | nil => rfl
  | cons c cs ih =>
    have hc := h c List.mem_cons_self
    have hpercent : c ≠ '%' := ne_of_isPlain hc (by decide)
    have hplus : c ≠ '+' := ne_of_isPlain hc (by decide)
    have hrest := ih fun d hd ↦ h d (List.mem_cons_of_mem c hd)
    rw [Percent.unescape?]
    · simp [hpercent, hplus, keeps_of_isPlain part hc, hrest, Utf8.encode]
    · simp [hpercent]

theorem escape_of_plain (part : Part) (h : Plain cs) : Percent.escape part (Utf8.encode cs) = cs := by
  induction cs with
  | nil => rfl
  | cons c cs ih =>
    have hc := h c List.mem_cons_self
    have hascii := toNat_lt_of_isPlain hc
    have hbyte : (UInt8.ofNat c.toNat).toNat = c.toNat := Utf8.toNat_byte (by omega)
    have hsmall : UInt8.ofNat c.toNat < 0x80 := by
      rw [UInt8.lt_iff_toNat_lt, hbyte]
      exact hascii
    have hchar : Percent.escapeByte part (UInt8.ofNat c.toNat) = [c] := by
      simp [Percent.escapeByte, hbyte, hsmall, keeps_of_isPlain part hc, Char.ofNat_toNat]
    have hrest := ih fun d hd ↦ h d (List.mem_cons_of_mem c hd)
    rw [Utf8.encode_cons, Percent.escape, List.flatMap_append, ← Percent.escape, ← Percent.escape, hrest]
    simp [Utf8.encodeChar, hascii, Percent.escape, hchar]

theorem isAlphanum_of_hexValue? (h : (Percent.hexValue? c).isSome = true) : c.isAlphanum = true := by
  simp only [Percent.hexValue?, digitValue?] at h
  by_cases hdigit : c.isDigit = true
  · simp [Char.isAlphanum, hdigit]
  · by_cases hlower : ('a' ≤ c && c ≤ 'z') = true
    · have hin : c.isLower = true := by simpa [Char.isLower, Char.le_def] using hlower
      simp [Char.isAlphanum, Char.isAlpha, hin]
    · by_cases hupper : ('A' ≤ c && c ≤ 'Z') = true
      · have hin : c.isUpper = true := by simpa [Char.isUpper, Char.le_def] using hupper
        simp [Char.isAlphanum, Char.isAlpha, hin]
      · simp [hdigit, hlower, hupper] at h

/-- Texts that may stand for a password: of the characters for users, and with two hexadecimal digits after
each percent sign. -/
def isEncoded : List Char → Bool
  | [] => true
  | '%' :: x :: y :: rest =>
    (Percent.hexValue? x).isSome && (Percent.hexValue? y).isSome && isEncoded rest
  | c :: rest => c != '%' && Url.isUserInfo c && isEncoded rest

theorem isUserInfo_of_isAlphanum (h : c.isAlphanum = true) : Url.isUserInfo c = true := by
  rw [Url.isUserInfo, h, Bool.true_or]

theorem isUserInfo_of_isPlain (h : isPlain c = true) : Url.isUserInfo c = true := by
  rcases Bool.or_eq_true_iff.mp h with halnum | hmark
  · exact isUserInfo_of_isAlphanum halnum
  · simp at hmark
    rcases hmark with rfl | rfl | rfl | rfl <;> decide

theorem not_isControl_of_isUserInfo (h : Url.isUserInfo c = true) : Url.isControl c = false := by
  rcases Bool.or_eq_true_iff.mp h with halnum | hmark
  · have hrange := toNat_of_isAlphanum halnum
    have hlow : ¬c.toNat < 0x20 := by omega
    have hhigh : c.toNat ≠ 0x7F := by omega
    simp [Url.isControl, hlow, hhigh]
  · have hmarks : ("-._:~!$&'()*+,;=%@".toList).any Url.isControl = false := by decide
    exact Bool.eq_false_iff.mpr (List.any_eq_false.mp hmarks c (by simpa using hmark))

theorem isEncoded_iff : isEncoded cs = true ↔
    cs.all Url.isUserInfo = true ∧ (Percent.unescape? .user cs).isSome = true := by
  fun_induction isEncoded cs with
  | case1 => simp [Percent.unescape?]
  | case2 x y rest ih =>
    have hpercent : Url.isUserInfo '%' = true := by decide
    cases hx : Percent.hexValue? x with
    | none => simp [Percent.unescape?, hx]
    | some n =>
      cases hy : Percent.hexValue? y with
      | none => simp [Percent.unescape?, hx, hy]
      | some m =>
        have hx' := isUserInfo_of_isAlphanum (isAlphanum_of_hexValue? (by simp [hx]) : x.isAlphanum = true)
        have hy' := isUserInfo_of_isAlphanum (isAlphanum_of_hexValue? (by simp [hy]) : y.isAlphanum = true)
        cases hrest : Percent.unescape? .user rest <;>
          simp_all [Percent.unescape?, Percent.mayEncode]
  | case3 c rest hnot ih =>
    rw [Percent.unescape?]
    · by_cases hc : c = '%'
      · simp [hc]
      · simp [hc, ih, and_assoc]
    · exact hnot

namespace Url

variable {u v : Url} {rest query : List Char}

theorem cut_of_not_mem (h : x ∉ cs) : cut x cs = (cs, none) := by
  induction cs with
  | nil => rfl
  | cons c cs ih =>
    rw [List.mem_cons, not_or] at h
    have hc : (c == x) = false := by simpa using Ne.symm h.1
    rw [cut, hc, ih h.2]
    rfl

theorem cut_append (h : x ∉ a) (b : List Char) : cut x (a ++ x :: b) = (a, some b) := by
  induction a with
  | nil => simp [cut]
  | cons c a ih =>
    rw [List.mem_cons, not_or] at h
    have hc : (c == x) = false := by simpa using Ne.symm h.1
    rw [List.cons_append, cut, hc]
    simp [ih h.2]

theorem cutLast_of_not_mem (h : x ∉ cs) : cutLast x cs = none := by
  rw [cutLast, cut_of_not_mem (by simpa using h)]

theorem cutLast_append (a : List Char) (h : x ∉ b) : cutLast x (a ++ x :: b) = some (a, b) := by
  rw [cutLast, List.reverse_append, List.reverse_cons, List.append_assoc, List.singleton_append,
    cut_append (by simpa using h)]
  simp

theorem span_slash (h : '/' ∉ a) (b : List Char) :
    (a ++ '/' :: b).takeWhile (· != '/') = a ∧ (a ++ '/' :: b).dropWhile (· != '/') = '/' :: b := by
  have hkeep : ∀ c ∈ a, (c != '/') = true := by
    intro c hc
    have hne : c ≠ '/' := fun heq ↦ h (heq ▸ hc)
    simpa using hne
  simp [List.takeWhile_append_of_pos hkeep, List.dropWhile_append_of_pos hkeep]

theorem parse?_of_not_mem (h : '#' ∉ cs) : parse? (String.ofList cs) = whole? cs := by
  rw [parse?, String.toList_ofList, cut_of_not_mem h]

theorem host?_of_plain (h : Plain cs) : host? cs = some (Utf8.encode cs) := by
  rw [host?, cutLast_of_not_mem (h.not_mem (by decide)), cutLast_of_not_mem (h.not_mem (by decide))]
  exact unescape?_of_plain .host h

theorem user?_append (h : Plain cs) (p : List Char) :
    user? (cs ++ ':' :: p) = if isEncoded p then
      (Percent.unescape? .user p).map fun bytes ↦ ⟨Utf8.encode cs, some bytes⟩ else none := by
  have hcs : cs.all isUserInfo = true := List.all_eq_true.mpr fun c hc ↦ isUserInfo_of_isPlain (h c hc)
  have hcolon : isUserInfo ':' = true := by decide
  have hall : (cs ++ ':' :: p).all isUserInfo = p.all isUserInfo := by
    rw [List.all_append, hcs, Bool.true_and, List.all_cons, hcolon, Bool.true_and]
  rw [user?, hall, cut_append (h.not_mem (by decide))]
  simp only [unescape?_of_plain .user h]
  by_cases hp : isEncoded p = true
  · obtain ⟨hinfo, hsome⟩ := isEncoded_iff.mp hp
    obtain ⟨bytes, hbytes⟩ := Option.isSome_iff_exists.mp hsome
    simp [hp, hinfo, hbytes]
  · rw [if_neg hp]
    by_cases hinfo : p.all isUserInfo = true
    · have hnone : Percent.unescape? .user p = none := by
        by_contra hsome
        exact hp (isEncoded_iff.mpr ⟨hinfo, Option.isSome_iff_ne_none.mpr hsome⟩)
      simp [hinfo, hnone]
    · simp [hinfo]

theorem user_of_authority? (h : authority? u cs = some v) (hat : '@' ∉ cs) : v.user = u.user := by
  rw [authority?, cutLast_of_not_mem hat] at h
  obtain ⟨host, -, hv⟩ := Option.bind_eq_some_iff.mp h
  cases hv
  rfl

theorem eq_of_authority? (h : authority? u cs = some v) : v = { u with user := v.user, host := v.host } := by
  unfold authority? at h
  split at h
  · obtain ⟨host, -, hv⟩ := Option.bind_eq_some_iff.mp h
    cases hv
    rfl
  · obtain ⟨host, -, h⟩ := Option.bind_eq_some_iff.mp h
    obtain ⟨user, -, hv⟩ := Option.bind_eq_some_iff.mp h
    cases hv
    rfl

theorem hierarchy?_authority (hscheme : u.scheme ≠ "") (rest : List Char) :
    hierarchy? u ('/' :: '/' :: rest) = (authority? u (rest.takeWhile (· != '/'))).bind fun v ↦
      (Percent.unescape? .path (rest.dropWhile (· != '/'))).map fun bytes ↦
        { v with path := canonical .path (rest.dropWhile (· != '/')) bytes } := by
  cases hv : authority? u (rest.takeWhile (· != '/')) with
  | none => simp [hierarchy?, hscheme, hv]
  | some v =>
    cases hbytes : Percent.unescape? .path (rest.dropWhile (· != '/')) with
    | none => simp [hierarchy?, hscheme, hv, hbytes]
    | some bytes => simp [hierarchy?, hscheme, hv, hbytes]

theorem exists_of_unescape?_percent {x y : Char} {bytes : List UInt8}
    (h : Percent.unescape? part ('%' :: x :: y :: rest) = some bytes) :
    ∃ n m more, Percent.hexValue? x = some n ∧ Percent.hexValue? y = some m ∧
      Percent.unescape? part rest = some more ∧ bytes = (16 * n + m).toUInt8 :: more := by
  rw [Percent.unescape?] at h
  obtain ⟨n, hn, h⟩ := Option.bind_eq_some_iff.mp h
  obtain ⟨m, hm, h⟩ := Option.bind_eq_some_iff.mp h
  dsimp only at h
  split at h
  · obtain ⟨more, hmore, h⟩ := Option.bind_eq_some_iff.mp h
    exact ⟨n, m, more, hn, hm, hmore, (Option.some.inj h).symm⟩
  · cases h

theorem at_byte_of_unescape? {bytes : List UInt8} (hat : '@' ∈ cs)
    (h : Percent.unescape? part cs = some bytes) : 0x40 ∈ bytes := by
  fun_induction Percent.unescape? part cs generalizing bytes with
  | case1 => cases hat
  | case2 x y rest ih =>
    obtain ⟨n, m, more, hn, hm, hmore, rfl⟩ :=
      exists_of_unescape?_percent (by rw [Percent.unescape?]; exact h)
    have hnone : Percent.hexValue? '@' = none := by decide
    have hx : '@' ≠ x := by
      rintro rfl
      simp [hnone] at hn
    have hy : '@' ≠ y := by
      rintro rfl
      simp [hnone] at hm
    have hrest : '@' ∈ rest := by simpa [hx, hy] using hat
    exact List.mem_cons_of_mem _ (ih hrest hmore)
  | case3 => cases h
  | case4 c rest _ _ hplus ih =>
    obtain ⟨more, hmore, rfl⟩ := Option.map_eq_some_iff.mp h
    rcases List.mem_cons.mp hat with rfl | hat
    · simp at hplus
    · exact List.mem_cons_of_mem _ (ih hat hmore)
  | case5 => cases h
  | case6 c rest _ _ _ _ ih =>
    obtain ⟨more, hmore, rfl⟩ := Option.map_eq_some_iff.mp h
    rw [List.mem_append]
    rcases List.mem_cons.mp hat with rfl | hat
    · exact .inl (by decide)
    · exact .inr (ih hat hmore)

theorem at_mem_canonical {bytes : List UInt8} (hkeeps : part.keeps '@' = true) (hat : '@' ∈ cs)
    (h : Percent.unescape? part cs = some bytes) : '@' ∈ canonical part cs bytes := by
  unfold canonical
  split
  · exact hat
  · have hbyte : Percent.escapeByte part 0x40 = ['@'] := if_pos (by simpa using hkeeps)
    exact List.mem_flatMap.mpr ⟨0x40, at_byte_of_unescape? hat h, by simp [hbyte]⟩

theorem mem_of_mem_cut (h : c ∈ (cut x cs).1) : c ∈ cs := by
  fun_induction cut x cs with
  | case1 => exact h
  | case2 => cases h
  | case3 d rest _ before after hcut ih =>
    rw [hcut] at ih
    rcases List.mem_cons.mp h with rfl | h
    · exact List.mem_cons_self
    · exact List.mem_cons_of_mem d (ih h)

theorem whole?_of_scheme {scheme : List Char} (hscheme : scheme? cs [] cs = some (scheme, rest))
    (hstar : (cs == ['*']) = false) : whole? cs =
      if cs.any isControl then none
      else
        match cut '?' rest with
        | (rest, none) => hierarchy? { scheme := lower (String.ofList scheme) } rest
        | (rest, some []) => hierarchy? { scheme := lower (String.ofList scheme), forceQuery := true } rest
        | (rest, some query) =>
          hierarchy? { scheme := lower (String.ofList scheme), query := query } rest := by
  unfold whole?
  rw [hscheme, hstar]
  by_cases hc : cs.any isControl = true
  · rw [if_pos hc, if_pos hc]
    rfl
  · rw [if_neg hc, if_neg hc]
    rfl

theorem scheme?_postgres (rest : List Char) :
    scheme? ("postgres:".toList ++ rest) [] ("postgres:".toList ++ rest) = some ("postgres".toList, rest) :=
  rfl

theorem lower_postgres : lower (String.ofList "postgres".toList) = "postgres" := by decide

theorem exists_of_hierarchy? (hscheme : u.scheme ≠ "") (h : hierarchy? u ('/' :: '/' :: rest) = some v) :
    ∃ w bytes, authority? u (rest.takeWhile (· != '/')) = some w ∧
      Percent.unescape? .path (rest.dropWhile (· != '/')) = some bytes ∧
      v = { u with user := w.user, host := w.host,
                   path := canonical .path (rest.dropWhile (· != '/')) bytes } := by
  rw [hierarchy?_authority hscheme] at h
  obtain ⟨w, hw, h⟩ := Option.bind_eq_some_iff.mp h
  obtain ⟨bytes, hbytes, rfl⟩ := Option.map_eq_some_iff.mp h
  refine ⟨w, bytes, hw, hbytes, ?_⟩
  rw [eq_of_authority? hw]

/-- A URL with the scheme of a database server: the user is in the authority, and the query and the path
are kept. -/
theorem exists_of_whole? (h : whole? ("postgres:".toList ++ '/' :: '/' :: rest) = some u) :
    ∃ base w bytes, base.scheme = "postgres" ∧ base.rootless = [] ∧ base.user = none ∧
      base.query = (cut '?' rest).2.getD [] ∧
      authority? base ((cut '?' rest).1.takeWhile (· != '/')) = some w ∧
      Percent.unescape? .path ((cut '?' rest).1.dropWhile (· != '/')) = some bytes ∧
      u = { base with user := w.user, host := w.host,
                      path := canonical .path ((cut '?' rest).1.dropWhile (· != '/')) bytes } := by
  have hcut : cut '?' ('/' :: '/' :: rest) = ('/' :: '/' :: (cut '?' rest).1, (cut '?' rest).2) := rfl
  rw [whole?_of_scheme (scheme?_postgres _) rfl, lower_postgres, hcut] at h
  split at h
  · cases h
  · generalize cut '?' rest = parts at h ⊢
    obtain ⟨before, after⟩ := parts
    match after, h with
    | none, h =>
      obtain ⟨w, bytes, hw⟩ := exists_of_hierarchy? (by simp) h
      exact ⟨_, w, bytes, rfl, rfl, rfl, rfl, hw⟩
    | some [], h =>
      obtain ⟨w, bytes, hw⟩ := exists_of_hierarchy? (by simp) h
      exact ⟨_, w, bytes, rfl, rfl, rfl, rfl, hw⟩
    | some (c :: query), h =>
      obtain ⟨w, bytes, hw⟩ := exists_of_hierarchy? (by simp) h
      exact ⟨_, w, bytes, rfl, rfl, rfl, rfl, hw⟩

theorem user_of_whole? (h : whole? ("postgres:".toList ++ '/' :: '/' :: rest) = some u)
    (hat : '@' ∉ (cut '?' rest).1.takeWhile (· != '/')) : u.user = none := by
  obtain ⟨base, w, bytes, -, -, huser, -, hw, -, rfl⟩ := exists_of_whole? h
  exact (user_of_authority? hw hat).trans huser

theorem user_of_whole?_of_not_mem (h : whole? ("postgres:".toList ++ '/' :: '/' :: rest) = some u)
    (hat : '@' ∉ rest) : u.user = none :=
  user_of_whole? h fun hmem ↦ hat (mem_of_mem_cut ((List.takeWhile_sublist _).subset hmem))

theorem question_mem_text (h : u.query ≠ []) : '?' ∈ u.text.toList := by
  simp [text, h]

theorem hash_mem_text (h : u.fragment ≠ []) : '#' ∈ u.text.toList := by
  simp [text, h]

theorem two_le_count_at (hscheme : u.scheme ≠ "") (hrootless : u.rootless = []) (huser : u.user.isSome)
    (hpath : '@' ∈ u.path) : 2 ≤ u.text.toList.count '@' := by
  obtain ⟨user, huser⟩ := Option.isSome_iff_exists.mp huser
  have hcount : 1 ≤ u.path.count '@' := List.one_le_count_iff.mpr hpath
  simp [text, authorityText, hscheme, hrootless, huser, List.count_append]
  omega

end Url

end FlowAudit.Web
