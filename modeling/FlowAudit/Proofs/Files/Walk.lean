import FlowAudit.Files.Tree
import FlowAudit.Proofs.Success
import Mathlib.Data.List.Induction

namespace FlowAudit

namespace Path

variable {dir path name n : String} {done : List String} {rooted : Bool}

/-- The names of files: they stand for themselves in a path. -/
structure IsName (n : String) : Prop where
  nonempty : n ≠ ""
  ne_here : n ≠ "."
  ne_above : n ≠ ".."
  slash_not_mem : '/' ∉ n.toList

instance (n : String) : Decidable (IsName n) :=
  decidable_of_iff (n ≠ "" ∧ n ≠ "." ∧ n ≠ ".." ∧ '/' ∉ n.toList)
    ⟨fun ⟨h₁, h₂, h₃, h₄⟩ ↦ ⟨h₁, h₂, h₃, h₄⟩, fun ⟨h₁, h₂, h₃, h₄⟩ ↦ ⟨h₁, h₂, h₃, h₄⟩⟩

section Names

theorem mem_splitOn_slash {cs part : List Char} (h : part ∈ cs.splitOn '/') : '/' ∉ part ∧ part ⊆ cs := by
  induction hlength : cs.length using Nat.strongRecOn generalizing cs with
  | ind length ih =>
    by_cases hmem : '/' ∈ cs
    · obtain ⟨before, after, rfl, hbefore⟩ := List.eq_append_cons_of_mem hmem
      rw [List.splitOn_append_cons_self, List.splitOn_eq_singleton hbefore, List.singleton_append,
        List.mem_cons] at h
      rw [List.length_append, List.length_cons] at hlength
      obtain rfl | h := h
      · exact ⟨hbefore, List.subset_append_left _ _⟩
      · obtain ⟨hslash, hsubset⟩ := ih after.length (by omega) h rfl
        exact ⟨hslash, List.Subset.trans hsubset fun c hc ↦ by simp [hc]⟩
    · rw [List.splitOn_eq_singleton hmem, List.mem_singleton] at h
      subst h
      exact ⟨hmem, List.Subset.refl _⟩

theorem mem_names (h : n ∈ names path) : '/' ∉ n.toList ∧ n.toList ⊆ path.toList := by
  obtain ⟨part, hpart, rfl⟩ := List.mem_map.1 h
  simpa using mem_splitOn_slash hpart

theorem names_of_slash_not_mem (h : '/' ∉ name.toList) : names name = [name] := by
  rw [names, List.splitOn_eq_singleton h, List.map_singleton, String.ofList_toList]

theorem names_append_slash (dir path : String) : names (dir ++ "/" ++ path) = names dir ++ names path := by
  have hlist : (dir ++ "/" ++ path).toList = dir.toList ++ '/' :: path.toList := by simp
  rw [names, hlist, List.splitOn_append_cons_self, List.map_append, names, names]

theorem names_of_isAbs (h : isAbs path = true) : ∃ rest, names path = "" :: rest := by
  rw [isAbs, beq_iff_eq] at h
  obtain ⟨cs, hcs⟩ := List.head?_eq_some_iff.1 h
  have hpath : path = "" ++ "/" ++ String.ofList cs := by
    rw [← String.toList_inj]
    simp [hcs]
  rw [hpath, names_append_slash]
  exact ⟨_, rfl⟩

def resolveStep (rooted : Bool) (done : List String) (n : String) : List String :=
  if n = "" ∨ n = "." then done
  else if n = ".." then
    match done with
    | [] => if rooted then [] else [".."]
    | d :: more => if d = ".." then ".." :: d :: more else more
  else n :: done

theorem resolveNames_eq_foldl (rooted : Bool) (done ns : List String) :
    resolveNames rooted done ns = ns.foldl (resolveStep rooted) done := by
  fun_induction resolveNames rooted done ns with
  | case1 => rfl
  | case2 done n rest hskip ih => simp_all [resolveStep]
  | case3 n rest hskip habove d more hd ih => simp_all [resolveStep]
  | case4 n rest hskip habove d more hd ih => simp_all [resolveStep]
  | case5 n rest hskip habove ih => simp_all [resolveStep]
  | case6 done n rest hskip habove ih => simp_all [resolveStep]

theorem resolveStep_here (h : n = "" ∨ n = ".") : resolveStep rooted done n = done := by
  simp [resolveStep, h]

theorem resolveStep_above : resolveStep rooted done ".." =
    match done with
    | [] => if rooted then [] else [".."]
    | d :: more => if d = ".." then ".." :: d :: more else more := by
  simp [resolveStep]

theorem resolveStep_below (hskip : ¬(n = "" ∨ n = ".")) (habove : n ≠ "..") :
    resolveStep rooted done n = n :: done := by
  simp [resolveStep, hskip, habove]

theorem resolveStep_of_isName (h : IsName name) : resolveStep rooted done name = name :: done :=
  resolveStep_below (not_or.2 ⟨h.nonempty, h.ne_here⟩) h.ne_above

theorem mem_resolveStep (h : n ∈ resolveStep rooted done name) :
    n ∈ done ∨ n = ".." ∨ n = name ∧ n ≠ "" ∧ n ≠ "." := by
  unfold resolveStep at h
  split at h
  · exact .inl h
  · next hskip =>
    split at h
    · split at h
      · split at h
        · exact .inl h
        · exact .inr (.inl (List.mem_singleton.1 h))
      · split at h
        · obtain rfl | h := List.mem_cons.1 h
          · exact .inr (.inl rfl)
          · exact .inl h
        · exact .inl (List.mem_cons_of_mem _ h)
    · obtain rfl | h := List.mem_cons.1 h
      · exact .inr (.inr ⟨rfl, not_or.1 hskip⟩)
      · exact .inl h

theorem mem_resolveNames {ns : List String} (h : n ∈ resolveNames rooted done ns) :
    n ∈ done ∨ n = ".." ∨ n ∈ ns ∧ n ≠ "" ∧ n ≠ "." := by
  rw [resolveNames_eq_foldl] at h
  induction ns generalizing done with
  | nil => exact .inl h
  | cons name ns ih =>
    obtain h | rfl | ⟨h, hne⟩ := ih h
    · obtain h | rfl | ⟨rfl, hne⟩ := mem_resolveStep h
      · exact .inl h
      · exact .inr (.inl rfl)
      · exact .inr (.inr ⟨List.mem_cons_self, hne⟩)
    · exact .inr (.inl rfl)
    · exact .inr (.inr ⟨List.mem_cons_of_mem _ h, hne⟩)

end Names

section Join

def resolved (dir : String) : List String := (resolveNames (isAbs dir) [] (names dir)).reverse

def before (dir : String) : String :=
  (if isAbs dir then "/" else "") ++ String.join ((resolved dir).map (· ++ "/"))

theorem mem_resolved (h : n ∈ resolved dir) :
    n ≠ "" ∧ n ≠ "." ∧ '/' ∉ n.toList ∧ ∀ c ∈ n.toList, c = '.' ∨ c ∈ dir.toList := by
  rw [resolved, List.mem_reverse] at h
  obtain h | rfl | ⟨h, hne, hhere⟩ := mem_resolveNames h
  · cases h
  · exact ⟨by decide, by decide, by decide, fun c hc ↦ .inl (by simpa using hc)⟩
  · obtain ⟨hslash, hsubset⟩ := mem_names h
    exact ⟨hne, hhere, hslash, fun c hc ↦ .inr (hsubset hc)⟩

theorem isAbs_append (hdir : dir ≠ "") (path : String) : isAbs (dir ++ path) = isAbs dir := by
  have hne : dir.toList ≠ [] := by simpa using hdir
  obtain ⟨c, cs, hcs⟩ := List.exists_cons_of_ne_nil hne
  simp [isAbs, hcs]

theorem intercalate_concat (ns : List String) (name : String) :
    "/".intercalate (ns ++ [name]) = String.join (ns.map (· ++ "/")) ++ name := by
  induction ns with
  | nil => simp
  | cons n ns ih =>
    rw [List.cons_append, String.intercalate_cons_of_ne_nil (by simp), ih, List.map_cons, String.join_cons]
    simp only [String.append_assoc]

theorem join_eq (hdir : dir ≠ "") (h : IsName name) : join dir name = before dir ++ name := by
  have habs : isAbs (dir ++ "/" ++ name) = isAbs dir := by rw [String.append_assoc, isAbs_append hdir]
  have hrooted : ((dir ++ "/" ++ name).toList.head? == some '/') = isAbs dir := habs
  have hne : String.join ((resolved dir).map (· ++ "/")) ++ name ≠ "" := fun hempty ↦
    h.nonempty (String.append_eq_empty_iff.1 hempty).2
  rw [join, if_neg (by simpa using hdir), clean]
  simp only [hrooted]
  rw [names_append_slash, names_of_slash_not_mem h.slash_not_mem, resolveNames_eq_foldl,
    List.foldl_append, List.foldl_cons, List.foldl_nil, resolveStep_of_isName h, ← resolveNames_eq_foldl,
    List.reverse_cons, ← resolved, intercalate_concat, before]
  cases isAbs dir with
  | true => simp [String.append_assoc]
  | false => simp [hne]

theorem names_before (hname : '/' ∉ name.toList) : names (before dir ++ name) =
    (if isAbs dir then [""] else []) ++ resolved dir ++ [name] := by
  have hjoin (ns : List String) (hns : ∀ n ∈ ns, '/' ∉ n.toList) :
      names (String.join (ns.map (· ++ "/")) ++ name) = ns ++ [name] := by
    induction ns with
    | nil => simpa using names_of_slash_not_mem hname
    | cons n ns ih =>
      obtain ⟨hn, hns⟩ := List.forall_mem_cons.1 hns
      rw [List.map_cons, String.join_cons, String.append_assoc, names_append_slash,
        names_of_slash_not_mem hn, ih hns]
      rfl
  have hresolved := hjoin (resolved dir) fun n hn ↦ (mem_resolved hn).2.2.1
  rw [before]
  cases isAbs dir with
  | false => simpa using hresolved
  | true =>
    have hslash := names_append_slash "" (String.join ((resolved dir).map (· ++ "/")) ++ name)
    rw [String.empty_append, names_of_slash_not_mem (show '/' ∉ "".toList by simp), hresolved] at hslash
    simpa [String.append_assoc] using hslash

theorem isAbs_before (h : IsName name) : isAbs (before dir ++ name) = isAbs dir := by
  have hhead {n : String} (hn : n ≠ "") (hslash : '/' ∉ n.toList) (rest : String) :
      isAbs (n ++ rest) = false := by
    rw [isAbs_append hn, isAbs, beq_eq_false_iff_ne]
    exact fun hhead ↦ hslash (List.mem_of_mem_head? hhead)
  rw [before]
  cases isAbs dir with
  | true => simp [isAbs]
  | false =>
    cases hresolved : resolved dir with
    | nil => simpa using hhead h.nonempty h.slash_not_mem ""
    | cons n ns =>
      obtain ⟨hn, -, hslash, -⟩ := mem_resolved (hresolved ▸ List.mem_cons_self : n ∈ resolved dir)
      simpa [String.append_assoc] using hhead hn hslash _

theorem not_mem_before {c : Char} (hdir : c ∉ dir.toList) (hdot : c ≠ '.') (hslash : c ≠ '/') :
    c ∉ (before dir).toList := by
  have hfirst : c ∉ (if isAbs dir then "/" else "").toList := by split <;> simp [hslash]
  rw [before, String.toList_append, List.mem_append, not_or, String.toList_join, List.mem_flatMap]
  refine ⟨hfirst, ?_⟩
  rintro ⟨_, hmem, hc⟩
  obtain ⟨n, hn, rfl⟩ := List.mem_map.1 hmem
  rw [String.toList_append, List.mem_append] at hc
  obtain hc | hc := hc
  · exact ((mem_resolved hn).2.2.2 c hc).elim hdot hdir
  · exact hslash (by simpa using hc)

theorem eq_slash_of_last (dir : String) {c : Char} (h : c ∈ (before dir).toList.getLast?) : c = '/' := by
  rw [before, String.toList_append, String.toList_join] at h
  cases hresolved : resolved dir using List.reverseRecOn with
  | nil =>
    cases habs : isAbs dir with
    | false => simp [hresolved, habs] at h
    | true => exact (show '/' = c by simpa [hresolved, habs] using h).symm
  | append_singleton ns n => exact (show '/' = c by simpa [hresolved] using h).symm

theorem base_append (hlast : ∀ c ∈ dir.toList.getLast?, c = '/') (hname : name ≠ "")
    (hslash : '/' ∉ name.toList) : base (dir ++ name) = name := by
  have hne : name.toList ≠ [] := by simpa using hname
  have hkept : ∀ c ∈ name.toList.reverse, (c != '/') = true := by
    intro c hc
    rw [List.mem_reverse] at hc
    simpa using fun heq : c = '/' ↦ hslash (heq ▸ hc)
  have hdrop : dropTrailing '/' (dir ++ name).toList = (dir ++ name).toList := by
    rw [dropTrailing, String.toList_append, List.reverse_append]
    cases hreverse : name.toList.reverse with
    | nil => simp [hname] at hreverse
    | cons c cs =>
      have hc : (c == '/') = false := by simpa [hreverse] using hkept c (hreverse ▸ List.mem_cons_self)
      rw [List.cons_append, List.dropWhile_cons_of_neg (by simp [hc]), ← List.cons_append, ← hreverse]
      simp
  have hstop : dir.toList.reverse.takeWhile (· != '/') = [] := by
    cases hreverse : dir.toList.reverse with
    | nil => rfl
    | cons c cs =>
      have hc : c = '/' := hlast c (by rw [← List.head?_reverse, hreverse]; rfl)
      simp [hc]
  have hafter : afterSlash (dir ++ name).toList = name.toList := by
    rw [afterSlash, String.toList_append, List.reverse_append, List.takeWhile_append_of_pos hkept, hstop,
      List.append_nil, List.reverse_reverse]
  have hpath : dir ++ name ≠ "" := fun hempty ↦ hname (String.append_eq_empty_iff.1 hempty).2
  rw [base, if_neg (by simpa using hpath), hdrop, hafter]
  split
  · next hnil => exact absurd hnil hne
  · exact String.ofList_toList

theorem IsName.base_eq (h : IsName name) : base name = name := by
  simpa using @base_append "" name (by simp) h.nonempty h.slash_not_mem

theorem IsName.base_before (h : IsName name) (dir : String) : base (before dir ++ name) = name :=
  base_append (fun _ ↦ eq_slash_of_last dir) h.nonempty h.slash_not_mem

end Join

end Path

namespace Files

variable {t : Tree} {place start final next ns : List String} {n name path dir : String}

namespace Entry

theorem get?_append (e : Entry) (ns ms : List String) :
    e.get? (ns ++ ms) = (e.get? ns).bind fun c ↦ c.get? ms := by
  induction ns generalizing e with
  | nil => rfl
  | cons n ns ih =>
    rw [List.cons_append, get?, get?]
    cases e.child? n with
    | none => rfl
    | some c => exact ih c

end Entry

namespace Tree

def step (t : Tree) (place : List String) (n : String) : Except PathError (List String) :=
  match t.root.get? place.reverse with
  | none => .error .missing
  | some e =>
    if !e.isDirectory then .error .notDirectory
    else if n = "" ∨ n = "." then .ok place
    else if n = ".." then .ok place.tail
    else if maxNameLength < n.utf8ByteSize then .error .nameTooLong
    else if (e.child? n).isNone then .error .missing
    else .ok (n :: place)

theorem follow_cons (t : Tree) (place : List String) (n : String) (rest : List String) :
    t.follow place (n :: rest) = t.step place n >>= (t.follow · rest) := by
  rw [follow, step]
  cases t.root.get? place.reverse with
  | none => rfl
  | some e =>
    simp only [Bool.or_eq_true, beq_iff_eq]
    split_ifs <;> rfl

theorem follow_append (t : Tree) (place ns ms : List String) :
    t.follow place (ns ++ ms) = t.follow place ns >>= (t.follow · ms) := by
  induction ns generalizing place with
  | nil => rfl
  | cons n ns ih =>
    rw [List.cons_append, follow_cons, follow_cons]
    cases t.step place n with
    | error e => rfl
    | ok next => exact ih next

theorem follow_concat (h : t.follow start ns = .ok place) (n : String) :
    t.follow start (ns ++ [n]) = t.step place n := by
  rw [follow_append, h, ok_bind, follow_cons]
  cases t.step place n <;> rfl

theorem step_eq_ok (h : t.step place n = .ok next) :
    next = if n = "" ∨ n = "." then place else if n = ".." then place.tail else n :: place := by
  rw [step] at h
  cases hplace : t.root.get? place.reverse with
  | none => simp [hplace] at h
  | some e =>
    simp only [hplace] at h
    split_ifs at h ⊢ <;> exact (Except.ok.inj h).symm

section Resolving

variable {rooted : Bool} {done rest : List String}

theorem follow_resolveStep_above (hrooted : rooted = true → start = [])
    (hdone : ∀ n ∈ done, n ≠ "" ∧ n ≠ ".") (hplace : t.follow start done.reverse = .ok place)
    (hnext : t.step place ".." = .ok next) :
    t.follow start (Path.resolveStep rooted done "..").reverse = .ok next := by
  have hconcat : t.follow start (done.reverse ++ [".."]) = .ok next := (follow_concat hplace "..").trans hnext
  have hstep : next = place.tail := by simpa using step_eq_ok hnext
  rw [Path.resolveStep_above]
  cases done with
  | nil =>
    obtain rfl : start = place := Except.ok.inj hplace
    cases rooted with
    | false => exact hconcat
    | true => simp [hstep, hrooted rfl, follow]
  | cons d more =>
    dsimp only
    split
    · rw [List.reverse_cons, hconcat]
    · next hd =>
      rw [List.reverse_cons, follow_append, bind_eq_ok] at hplace
      obtain ⟨before, hbefore, hd'⟩ := hplace
      rw [follow_cons, bind_eq_ok] at hd'
      obtain ⟨_, hafter, ⟨⟩⟩ := hd'
      obtain ⟨hne, hhere⟩ := hdone d List.mem_cons_self
      rw [hstep, step_eq_ok hafter, if_neg (not_or.2 ⟨hne, hhere⟩), if_neg hd]
      exact hbefore

theorem follow_resolveStep (hrooted : rooted = true → start = [])
    (hdone : ∀ n ∈ done, n ≠ "" ∧ n ≠ ".") (hplace : t.follow start done.reverse = .ok place)
    (hnext : t.step place n = .ok next) :
    t.follow start (Path.resolveStep rooted done n).reverse = .ok next := by
  by_cases hskip : n = "" ∨ n = "."
  · rw [Path.resolveStep_here hskip, hplace, step_eq_ok hnext, if_pos hskip]
  by_cases habove : n = ".."
  · subst habove
    exact follow_resolveStep_above hrooted hdone hplace hnext
  · rw [Path.resolveStep_below hskip habove, List.reverse_cons, follow_concat hplace, hnext]

/-- A path leads to the same place after `.` and `..` have been taken out of it. -/
theorem follow_resolveNames (hrooted : rooted = true → start = [])
    (hdone : ∀ n ∈ done, n ≠ "" ∧ n ≠ ".") (hplace : t.follow start done.reverse = .ok place)
    (h : t.follow place rest = .ok final) :
    t.follow start (Path.resolveNames rooted done rest).reverse = .ok final := by
  rw [Path.resolveNames_eq_foldl]
  induction rest generalizing done place with
  | nil =>
    rw [follow, Except.ok.injEq] at h
    exact h ▸ hplace
  | cons n rest ih =>
    rw [follow_cons, bind_eq_ok] at h
    obtain ⟨next, hnext, h⟩ := h
    rw [List.foldl_cons]
    refine ih (fun m hm ↦ ?_) (follow_resolveStep hrooted hdone hplace hnext) h
    obtain hm | rfl | ⟨-, hne⟩ := Path.mem_resolveStep hm
    · exact hdone m hm
    · decide
    · exact hne

end Resolving

def origin (t : Tree) (path : String) : List String := if Path.isAbs path then [] else t.working.reverse

theorem locate_of_fits (hnul : '\x00' ∉ path.toList) (hne : path ≠ "")
    (hsize : path.utf8ByteSize ≤ maxPathLength) :
    t.locate path = (t.follow (t.origin path) (Path.names path)).map List.reverse := by
  rw [locate, String.contains_char_eq, if_neg (by simpa using hnul), if_neg (by simpa using hne),
    if_neg (by omega), origin]

theorem locate_eq_ok (h : t.locate path = .ok place) :
    '\x00' ∉ path.toList ∧ path ≠ "" ∧
      t.follow (t.origin path) (Path.names path) = .ok place.reverse := by
  have hnul : '\x00' ∉ path.toList := by
    intro hmem
    rw [locate, String.contains_char_eq, if_pos (by simpa using hmem)] at h
    cases h
  have hne : path ≠ "" := by
    rintro rfl
    simp [locate] at h
  have hsize : path.utf8ByteSize ≤ maxPathLength := by
    by_contra hlong
    rw [locate, String.contains_char_eq, if_neg (by simpa using hnul), if_neg (by simpa using hne),
      if_pos (by omega)] at h
    cases h
  rw [locate_of_fits hnul hne hsize] at h
  refine ⟨hnul, hne, ?_⟩
  cases hfollow : t.follow (t.origin path) (Path.names path) with
  | error e => simp [hfollow, Except.map] at h
  | ok found =>
    rw [hfollow, Except.map, Except.ok.injEq] at h
    rw [← h, List.reverse_reverse]

theorem find_eq_ok {e : Entry} (h : t.find path = .ok e) :
    ∃ place, t.locate path = .ok place ∧ t.root.get? place = some e := by
  rw [find, bind_eq_ok] at h
  obtain ⟨place, hplace, h⟩ := h
  refine ⟨place, hplace, ?_⟩
  split at h
  · next hget => rw [hget, Except.ok.inj h]
  · cases h

theorem follow_resolved (h : t.follow (t.origin dir) (Path.names dir) = .ok place) :
    t.follow (t.origin dir) ((if Path.isAbs dir then [""] else []) ++ Path.resolved dir) = .ok place := by
  have hresolved : t.follow (t.origin dir) (Path.resolved dir) = .ok place :=
    follow_resolveNames (fun habs ↦ by simp [origin, habs]) (by simp) rfl h
  cases habs : Path.isAbs dir with
  | false => simpa using hresolved
  | true =>
    -- The path begins with an empty name, which was followed before.
    obtain ⟨rest, hrest⟩ := Path.names_of_isAbs habs
    rw [hrest, follow_cons, bind_eq_ok] at h
    obtain ⟨next, hnext, -⟩ := h
    obtain rfl : next = t.origin dir := by simpa using step_eq_ok hnext
    rw [if_pos rfl, List.singleton_append, follow_cons, hnext, ok_bind, hresolved]

theorem locate_of_long (hnul : '\x00' ∉ path.toList) (hne : path ≠ "")
    (hsize : maxPathLength < path.utf8ByteSize) : t.locate path = .error .nameTooLong := by
  rw [locate, String.contains_char_eq, if_neg (by simpa using hnul), if_neg (by simpa using hne),
    if_pos hsize]

/-- A name that is joined to the path of a directory leads to its entry of that name, unless it is too long
for a name or makes the path too long. -/
theorem find_join {es : List (String × Entry)} (hdir : t.find dir = .ok (.directory es))
    (hname : Path.IsName name) (hnul : '\x00' ∉ name.toList) :
    t.find (Path.join dir name) =
      if maxPathLength < (Path.join dir name).utf8ByteSize ∨ maxNameLength < name.utf8ByteSize then
        .error .nameTooLong
      else
        match (Entry.directory es).child? name with
        | some e => .ok e
        | none => .error .missing := by
  obtain ⟨place, hlocate, hget⟩ := find_eq_ok hdir
  obtain ⟨hnul', hne, hplace⟩ := locate_eq_ok hlocate
  rw [Path.join_eq hne hname]
  have hnul'' : '\x00' ∉ (Path.before dir ++ name).toList := by
    simp [hnul, Path.not_mem_before hnul' (by decide) (by decide)]
  have hne' : Path.before dir ++ name ≠ "" := fun h ↦ hname.nonempty (String.append_eq_empty_iff.1 h).2
  by_cases hpath : maxPathLength < (Path.before dir ++ name).utf8ByteSize
  · rw [if_pos (.inl hpath), find, locate_of_long hnul'' hne' hpath]
    rfl
  have horigin : t.origin (Path.before dir ++ name) = t.origin dir := by
    rw [origin, Path.isAbs_before hname, origin]
  have hstep : t.step place.reverse name =
      if maxNameLength < name.utf8ByteSize then .error .nameTooLong
      else if ((Entry.directory es).child? name).isNone then .error .missing
      else .ok (name :: place.reverse) := by
    rw [step, List.reverse_reverse, hget]
    simp [Entry.isDirectory, hname.nonempty, hname.ne_here, hname.ne_above]
  rw [find, locate_of_fits hnul'' hne' (by omega), horigin, Path.names_before hname.slash_not_mem,
    follow_concat (follow_resolved hplace), hstep]
  by_cases hsize : maxNameLength < name.utf8ByteSize
  · rw [if_pos hsize, if_pos (.inr hsize)]
    rfl
  rw [if_neg hsize, if_neg (not_or.2 ⟨hpath, hsize⟩)]
  cases hchild : (Entry.directory es).child? name with
  | none => rfl
  | some e =>
    have hget' : t.root.get? (name :: place.reverse).reverse = some e := by
      rw [List.reverse_cons, List.reverse_reverse, Entry.get?_append, hget, Option.bind_some, Entry.get?, hchild]
      rfl
    simp only [Option.isNone_some, Bool.false_eq_true, if_false, Except.map, ok_bind, hget', pure_eq_ok]

end Tree

end Files

end FlowAudit
