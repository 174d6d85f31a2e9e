import FlowAudit.Proofs.Files.Walk
import FlowAudit.Proofs.Table
import FlowAudit.Proofs.Text.Lower
import FlowAudit.Source.Directory

namespace FlowAudit

section Endings

variable {path n ending : String}

theorem lower_ending : ∀ ending ∈ definitionEndings, Text.lower ending = ending := by
  decide

theorem ending_of_suffix : ∀ e ∈ definitionEndings, ∀ e' ∈ definitionEndings, e.toList <:+ e'.toList →
    e = e' ∨ e = ".xml" ∧ e' = ".flow-meta.xml" := by
  decide

/-- The ending that is found is the one that was put there, unless a longer one is there by it. -/
theorem find?_ending (h : Text.lower ending ∈ definitionEndings)
    (hmeta : Text.lower ending = ".xml" → (Text.lower n).endsWith ".flow-meta" = false) :
    definitionEndings.find? (fun e ↦ (Text.lower (n ++ ending)).endsWith e) = some (Text.lower ending) := by
  rw [Text.lower_append]
  generalize Text.lower ending = ending at h hmeta
  have hsuffix : ending.toList <:+ (Text.lower n ++ ending).toList := by simp
  cases hfound : definitionEndings.find? (fun e ↦ (Text.lower n ++ ending).endsWith e) with
  | none => exact absurd (Text.endsWith_iff.2 hsuffix) (List.find?_eq_none.1 hfound ending h)
  | some e =>
    have hends : (Text.lower n ++ ending).endsWith e = true := by simpa using List.find?_some hfound
    have he := Text.endsWith_iff.1 hends
    have hmem := List.mem_of_find?_eq_some hfound
    obtain hle | hle := List.suffix_or_suffix_of_suffix he hsuffix
    · obtain rfl | ⟨rfl, rfl⟩ := ending_of_suffix e hmem ending h hle
      · rfl
      · -- The longer ending comes first.
        rw [definitionEndings, List.find?_cons, Text.endsWith_iff.2 hsuffix] at hfound
        exact hfound.symm
    · obtain rfl | ⟨rfl, rfl⟩ := ending_of_suffix ending h e hmem hle
      · rfl
      · have hsplit : ".flow-meta.xml".toList = ".flow-meta".toList ++ ".xml".toList := by decide
        rw [hsplit, String.toList_append, List.suffix_append_self_iff, ← Text.endsWith_iff, hmeta rfl] at he
        cases he

theorem length_lower (s : String) : (Text.lower s).length = s.length := by
  rw [Text.lower, ← String.length_toList, String.toList_ofList, List.length_map, String.length_toList]

theorem flowNameOfPath_of_base (hbase : Path.base path = n ++ ending)
    (h : Text.lower ending ∈ definitionEndings)
    (hmeta : Text.lower ending = ".xml" → (Text.lower n).endsWith ".flow-meta" = false) :
    flowNameOfPath path = n := by
  rw [flowNameOfPath, hbase]
  simp only [find?_ending h hmeta]
  rw [String.length_append, length_lower, Nat.add_sub_cancel, String.toList_append, ← String.length_toList,
    List.take_left, String.ofList_toList]

theorem flowNameOfPath_ne_of_meta (hbase : Path.base path = n ++ ".xml")
    (hmeta : (Text.lower n).endsWith ".flow-meta" = true) : flowNameOfPath path ≠ n := by
  have hends : (Text.lower (n ++ ".xml")).endsWith ".flow-meta.xml" = true := by
    have hsplit : ".flow-meta.xml".toList = ".flow-meta".toList ++ ".xml".toList := by decide
    rw [Text.lower_append, lower_ending ".xml" (by decide), Text.endsWith_iff, hsplit, String.toList_append,
      List.suffix_append_self_iff, ← Text.endsWith_iff, hmeta]
  have hfound : definitionEndings.find? (fun e ↦ (Text.lower (n ++ ".xml")).endsWith e) =
      some ".flow-meta.xml" := by
    rw [definitionEndings, List.find?_cons, hends]
  have hlength : 10 ≤ n.length := by
    have hle := (Text.endsWith_iff.1 hmeta).length_le
    rw [String.length_toList, String.length_toList, length_lower] at hle
    exact hle
  intro heq
  rw [flowNameOfPath, hbase, hfound] at heq
  have hshort := congrArg String.length heq
  rw [← String.length_toList, String.toList_ofList, List.length_take, String.length_toList,
    String.length_append] at hshort
  have hxml : ".xml".length = 4 := by decide
  have hflow : ".flow-meta.xml".length = 14 := by decide
  omega

theorem length_ending : ∀ ending ∈ definitionEndings, 3 ≤ ending.length := by
  decide

theorem utf8ByteSize_ending :
    ∀ ending ∈ definitionEndings, ending.utf8ByteSize ≤ ".flow-meta.xml".utf8ByteSize := by
  decide

theorem slash_not_mem_ending : ∀ ending ∈ definitionEndings, '/' ∉ ending.toList ∧ '\x00' ∉ ending.toList := by
  decide

theorem head?_ending : ∀ ending ∈ definitionEndings, ending.toList.head? = some '.' := by
  decide

theorem isName_append (h : ending ∈ definitionEndings) (hslash : '/' ∉ n.toList) :
    Path.IsName (n ++ ending) := by
  have hlong : 3 ≤ (n ++ ending).length := by
    have hlength := length_ending ending h
    rw [String.length_append]
    omega
  refine ⟨?_, ?_, ?_, by simp [hslash, slash_not_mem_ending ending h]⟩ <;> intro heq <;> rw [heq] at hlong <;>
    revert hlong <;> decide

/-- What the last name has from its last full stop on is an end of the path. -/
theorem ext_suffix (path : String) : (Path.ext path).toList <:+ path.toList := by
  rw [Path.ext]
  obtain ⟨name, hname⟩ : ∃ name, name = Path.afterSlash path.toList := ⟨_, rfl⟩
  have hafter : name <:+ path.toList := by
    rw [hname, Path.afterSlash, ← List.reverse_prefix, List.reverse_reverse]
    exact List.takeWhile_prefix _
  rw [← hname]
  split
  · next hdot =>
    refine List.IsSuffix.trans ?_ hafter
    rw [String.toList_ofList, ← List.reverse_prefix, List.reverse_cons, List.reverse_reverse]
    have hsplit := List.takeWhile_append_dropWhile (p := (· != '.')) (l := name.reverse)
    cases hdrop : name.reverse.dropWhile (· != '.') with
    | nil =>
      have hall := List.dropWhile_eq_nil_iff.1 hdrop '.' (by simpa using hdot)
      simp at hall
    | cons c rest =>
      obtain rfl : c = '.' := by
        have hhead := List.head_dropWhile_not (· != '.') (l := name.reverse) (by simp [hdrop])
        simpa [hdrop] using hhead
      exact ⟨rest, by rw [hdrop] at hsplit; simpa using hsplit⟩
  · simp

theorem exists_ending_of_ofPath? (h : (Format.ofPath? path).isSome = true) :
    ∃ ending ∈ definitionEndings, (Text.lower path).endsWith ending = true := by
  refine ⟨Text.lower (Path.ext path), ?_, ?_⟩
  · rw [Format.ofPath?] at h
    split at h
    case h_6 => cases h
    all_goals
      next hext =>
        rw [hext]
        decide
  · obtain ⟨cs, hcs⟩ := ext_suffix path
    rw [Text.endsWith_iff, Text.lower, Text.lower, String.toList_ofList, String.toList_ofList, ← hcs,
      List.map_append]
    exact List.suffix_append _ _

/-- The name of a flow and an ending, known but for its case, make up the name of its file. -/
theorem exists_eq_append (hformat : (Format.ofPath? path).isSome = true) (hbase : Path.base path = path) :
    ∃ ending, Text.lower ending ∈ definitionEndings ∧ path = flowNameOfPath path ++ ending := by
  obtain ⟨e, he, hends⟩ := exists_ending_of_ofPath? hformat
  rw [flowNameOfPath, hbase]
  cases hfound : definitionEndings.find? (fun e ↦ (Text.lower path).endsWith e) with
  | none => exact absurd hends (List.find?_eq_none.1 hfound e he)
  | some e =>
    have hends : (Text.lower path).endsWith e = true := by simpa using List.find?_some hfound
    obtain ⟨cs, hcs⟩ := Text.endsWith_iff.1 hends
    have hlength : cs.length = path.length - e.length := by
      have hlength := congrArg List.length hcs
      rw [Text.lower, String.toList_ofList, List.length_map, List.length_append, String.length_toList,
        String.length_toList] at hlength
      omega
    refine ⟨String.ofList (path.toList.drop (path.length - e.length)), ?_, ?_⟩
    · have hlower : Text.lower (String.ofList (path.toList.drop (path.length - e.length))) = e := by
        have hdrop : (cs ++ e.toList).drop cs.length = e.toList := List.drop_left
        rw [hcs, Text.lower, String.toList_ofList, hlength] at hdrop
        rw [← String.toList_inj, Text.lower, String.toList_ofList, String.toList_ofList, List.map_drop, hdrop]
      rw [hlower]
      exact List.mem_of_find?_eq_some hfound
    · dsimp only
      rw [← String.ofList_append, List.take_append_drop, String.ofList_toList]

end Endings

namespace Files

/-- What the entries of a directory can be: they have names of files, no two the same. -/
structure IsListing (es : List (String × Entry)) : Prop where
  isName : ∀ e ∈ es, Path.IsName e.1
  nul_not_mem : ∀ e ∈ es, '\x00' ∉ e.1.toList
  distinct : (es.map (·.1)).Nodup

theorem IsListing.child?_eq_some_iff {es : List (String × Entry)} (hes : IsListing es) {name : String}
    {e : Entry} : (Entry.directory es).child? name = some e ↔ (name, e) ∈ es := by
  rw [Entry.child?, Entry.entries, Option.map_eq_some_iff]
  constructor
  · rintro ⟨⟨name', e'⟩, hfind, rfl⟩
    obtain rfl : name' = name := by simpa using List.find?_some hfind
    exact List.mem_of_find?_eq_some hfind
  · intro hmem
    cases hfind : es.find? (·.1 == name) with
    | none => exact absurd (List.find?_eq_none.1 hfind _ hmem) (by simp)
    | some found =>
      have hsame : found.1 = (name, e).1 := by simpa using List.find?_some hfind
      have hfound := List.inj_on_of_nodup_map hes.distinct (List.mem_of_find?_eq_some hfind) hmem hsame
      exact ⟨found, rfl, congrArg Prod.snd hfound⟩

end Files

namespace Directory

open Files

variable {d : Directory} {es : List (String × Entry)} {names : List String} {n : String}

def IsShown (es : List (String × Entry)) (name : String) : Prop :=
  (∃ content modified, (name, .file content modified) ∈ es) ∧ (Format.ofPath? name).isSome = true ∧
    name.toList.head? ≠ some '.'

theorem list_eq_ok (hdir : d.tree.find d.path = .ok (.directory es)) :
    d.list = .ok (Table.ofList (((es.mergeSort fun a b ↦ a.1 ≤ b.1).filter fun (n, e) ↦
      !e.isDirectory && (Format.ofPath? n).isSome && n.toList.head? != some '.').map fun (n, _) ↦
        (flowNameOfPath n, ()))).keys := by
  rw [list, Tree.list, hdir]
  rfl

theorem mem_list_iff (hdir : d.tree.find d.path = .ok (.directory es)) (hlist : d.list = .ok names) :
    n ∈ names ↔ ∃ name, IsShown es name ∧ flowNameOfPath name = n := by
  rw [list_eq_ok hdir, Except.ok.injEq] at hlist
  rw [← hlist, Table.mem_keys_ofList]
  simp only [List.map_map, List.mem_map, List.mem_filter, List.mem_mergeSort, Function.comp_apply,
    Prod.exists, Bool.and_eq_true, Bool.not_eq_true', bne_iff_ne]
  constructor
  · rintro ⟨name, e, ⟨hmem, ⟨hfile, hformat⟩, hhidden⟩, rfl⟩
    cases e with
    | directory es => cases hfile
    | file content modified => exact ⟨name, ⟨⟨content, modified, hmem⟩, hformat, hhidden⟩, rfl⟩
  · rintro ⟨name, ⟨⟨content, modified, hmem⟩, hformat, hhidden⟩, rfl⟩
    exact ⟨name, _, ⟨hmem, ⟨rfl, hformat⟩, hhidden⟩, rfl⟩

/-- A listed name is that of a file without its ending, which is known but for its case. -/
theorem exists_file_of_listed (hes : IsListing es) (hdir : d.tree.find d.path = .ok (.directory es))
    (hlist : d.list = .ok names) (hn : n ∈ names) :
    n ≠ "" ∧ '/' ∉ n.toList ∧ '\x00' ∉ n.toList ∧
      ∃ ending, Text.lower ending ∈ definitionEndings ∧
        ∃ content modified, (n ++ ending, .file content modified) ∈ es := by
  obtain ⟨name, ⟨⟨content, modified, hmem⟩, hformat, hhidden⟩, rfl⟩ := (mem_list_iff hdir hlist).1 hn
  have hname := hes.isName _ hmem
  obtain ⟨ending, hending, heq⟩ := exists_eq_append hformat hname.base_eq
  generalize flowNameOfPath name = n at heq
  subst heq
  refine ⟨?_, fun hslash ↦ hname.slash_not_mem (by simp [hslash]),
    fun hnul ↦ hes.nul_not_mem _ hmem (by simp [hnul]), ending, hending, content, modified, hmem⟩
  -- A file that is only an ending is hidden.
  rintro rfl
  have hhead := head?_ending _ hending
  rw [Text.lower, String.toList_ofList, List.head?_map, Option.map_eq_some_iff] at hhead
  obtain ⟨c, hc, hlower⟩ := hhead
  rw [String.empty_append, hc, Text.eq_dot_of_lowerChar_eq hlower] at hhidden
  exact hhidden rfl

def IsPath (d : Directory) (n : String) : Prop := (Format.ofPath? n).isSome = true ∧ d.isFile n = true

/-- A flow whose name is short enough for a file with any of the endings. -/
structure Fits (d : Directory) (n : String) : Prop where
  name : (n ++ ".flow-meta.xml").utf8ByteSize ≤ maxNameLength
  path : (Path.join d.path (n ++ ".flow-meta.xml")).utf8ByteSize ≤ maxPathLength

instance (d : Directory) (n : String) : Decidable (d.IsPath n) := inferInstanceAs (Decidable (_ ∧ _))

def definitionAt (path : String) (content : List UInt8) (modified : Time) : Definition :=
  { name := flowNameOfPath path, format := ((Format.ofPath? path).map Format.name).getD "", content := content
    version := { version := 1, lastModified := modified.toUtc }, origin := path }

@[simp] theorem name_definitionAt (path : String) (content : List UInt8) (modified : Time) :
    (definitionAt path content modified).name = flowNameOfPath path := by
  rw [definitionAt]

@[simp] theorem origin_definitionAt (path : String) (content : List UInt8) (modified : Time) :
    (definitionAt path content modified).origin = path := by
  rw [definitionAt]

@[simp] theorem content_definitionAt (path : String) (content : List UInt8) (modified : Time) :
    (definitionAt path content modified).content = content := by
  rw [definitionAt]

theorem fetch_eq_ok {path : String} {content : List UInt8} {modified : Time}
    (hlocate : d.locate n = .ok path) (hfind : d.tree.find path = .ok (.file content modified)) :
    d.fetch n = .ok (definitionAt path content modified) := by
  rw [fetch, hlocate, ok_bind, hfind]
  rfl

theorem fetch_of_isPath (hne : n ≠ "") (h : d.IsPath n) :
    ∃ found content modified, d.fetch n = .ok found ∧ d.tree.find n = .ok (.file content modified) ∧
      found.origin = n ∧ found.name = flowNameOfPath n ∧ found.content = content := by
  obtain ⟨hformat, hfile⟩ := h
  have hlocate : d.locate n = .ok n := by
    rw [locate, if_neg (by simpa using hne), if_pos (by simp [hformat, hfile])]
  rw [isFile] at hfile
  split at hfile
  · next e hfind =>
    cases e with
    | directory es => cases hfile
    | file content modified =>
      exact ⟨definitionAt n content modified, content, modified, fetch_eq_ok hlocate hfind, hfind,
        origin_definitionAt _ _ _, name_definitionAt _ _ _, content_definitionAt _ _ _⟩
  · cases hfile

section Endings

/-- The files with the name of a flow and an ending are found where they are. -/
theorem find_ending (hdir : d.tree.find d.path = .ok (.directory es)) (hfits : d.Fits n)
    (hslash : '/' ∉ n.toList) (hnul : '\x00' ∉ n.toList) {ending : String} (h : ending ∈ definitionEndings) :
    d.tree.find (Path.join d.path (n ++ ending)) =
      match (Entry.directory es).child? (n ++ ending) with
      | some e => .ok e
      | none => .error .missing := by
  obtain ⟨place, hplace, -⟩ := Tree.find_eq_ok hdir
  have hne : d.path ≠ "" := (Tree.locate_eq_ok hplace).2.1
  have hsize := utf8ByteSize_ending ending h
  have hname := isName_append h hslash
  have hlongest := @isName_append n ".flow-meta.xml" (by decide) hslash
  obtain ⟨hfitsName, hfitsPath⟩ := hfits
  rw [Path.join_eq hne hlongest, String.utf8ByteSize_append, String.utf8ByteSize_append] at hfitsPath
  rw [String.utf8ByteSize_append] at hfitsName
  have hshort : ¬(maxPathLength < (Path.join d.path (n ++ ending)).utf8ByteSize ∨
      maxNameLength < (n ++ ending).utf8ByteSize) := by
    rw [Path.join_eq hne hname, String.utf8ByteSize_append, String.utf8ByteSize_append]
    omega
  exact (Tree.find_join hdir hname (by simp [hnul, slash_not_mem_ending ending h])).trans (if_neg hshort)

/-- Without a file of the name the next ending is tried, also where there is a directory. -/
theorem locateEnding_cons {ending : String} {endings : List String} (hes : IsListing es)
    (hfind : d.tree.find (Path.join d.path (n ++ ending)) =
      match (Entry.directory es).child? (n ++ ending) with
      | some e => .ok e
      | none => .error .missing)
    (h : ∀ content modified, (n ++ ending, .file content modified) ∉ es) :
    d.locateEnding n (ending :: endings) = d.locateEnding n endings := by
  cases hchild : (Entry.directory es).child? (n ++ ending) with
  | none =>
    rw [hchild] at hfind
    simp [locateEnding, Tree.stat, hfind, Except.mapError]
  | some e =>
    cases e with
    | file content modified => exact absurd (hes.child?_eq_some_iff.1 hchild) (h content modified)
    | directory below =>
      rw [hchild] at hfind
      simp [locateEnding, Tree.stat, hfind, Except.mapError, Entry.isDirectory]

theorem locateEnding_eq_error {endings : List String} (hes : IsListing es)
    (hfind : ∀ ending ∈ endings, d.tree.find (Path.join d.path (n ++ ending)) =
      match (Entry.directory es).child? (n ++ ending) with
      | some e => .ok e
      | none => .error .missing)
    (h : ∀ ending ∈ endings, ∀ content modified, (n ++ ending, .file content modified) ∉ es) :
    d.locateEnding n endings = .error (.notFound (n ++ " (searched " ++ d.path ++ ")")) := by
  induction endings with
  | nil => rfl
  | cons ending endings ih =>
    obtain ⟨hending, hendings⟩ := List.forall_mem_cons.1 hfind
    obtain ⟨hnone, hnones⟩ := List.forall_mem_cons.1 h
    rw [locateEnding_cons hes hending hnone, ih hendings hnones]

/-- The first of the endings with which there is a file decides, whatever directories there are. -/
theorem locateEnding_eq_ok {endings : List String} (hes : IsListing es)
    (hfind : ∀ ending ∈ endings, d.tree.find (Path.join d.path (n ++ ending)) =
      match (Entry.directory es).child? (n ++ ending) with
      | some e => .ok e
      | none => .error .missing)
    (h : ∃ ending ∈ endings, ∃ content modified, (n ++ ending, .file content modified) ∈ es) :
    ∃ before ending after content modified, endings = before ++ ending :: after ∧
      (∀ e ∈ before, ∀ content modified, (n ++ e, .file content modified) ∉ es) ∧
      (n ++ ending, .file content modified) ∈ es ∧
      d.locateEnding n endings = .ok (Path.join d.path (n ++ ending)) := by
  induction endings with
  | nil => simp at h
  | cons ending endings ih =>
    obtain ⟨hending, hendings⟩ := List.forall_mem_cons.1 hfind
    by_cases hfile : ∃ content modified, (n ++ ending, .file content modified) ∈ es
    · obtain ⟨content, modified, hmem⟩ := hfile
      refine ⟨[], ending, endings, content, modified, rfl, by simp, hmem, ?_⟩
      rw [hes.child?_eq_some_iff.2 hmem] at hending
      simp [locateEnding, Tree.stat, hending, Except.mapError, Entry.isDirectory]
    · have hrest : d.locateEnding n (ending :: endings) = d.locateEnding n endings :=
        locateEnding_cons hes hending fun content modified hmem ↦ hfile ⟨content, modified, hmem⟩
      obtain ⟨e, he, hmem⟩ := h
      obtain rfl | he := List.mem_cons.1 he
      · exact absurd hmem hfile
      · obtain ⟨before, e, after, content, modified, rfl, hbefore, hmem, hlocate⟩ := ih hendings ⟨e, he, hmem⟩
        refine ⟨ending :: before, e, after, content, modified, rfl, ?_, hmem, hrest.trans hlocate⟩
        exact List.forall_mem_cons.2 ⟨fun content modified hmem ↦ hfile ⟨content, modified, hmem⟩, hbefore⟩

end Endings

section Fetching

variable (hes : IsListing es) (hdir : d.tree.find d.path = .ok (.directory es)) (hne : n ≠ "")
  (hslash : '/' ∉ n.toList) (hnul : '\x00' ∉ n.toList) (hpath : ¬d.IsPath n)

include hne hpath in
theorem locate_of_not_isPath : d.locate n = d.locateEnding n definitionEndings := by
  rw [locate, if_neg (by simpa using hne), if_neg (by simpa [IsPath] using hpath)]

include hdir hne hslash hnul hpath in
theorem fetch_of_not_fits (hlong : ¬d.Fits n) :
    ∃ path, path = Path.join d.path (n ++ ".flow-meta.xml") ∧ d.fetch n =
      .error (.within ("stat " ++ path) (.plain (AccessError.message ⟨"stat", path, .nameTooLong⟩))) := by
  have hfind : d.tree.find (Path.join d.path (n ++ ".flow-meta.xml")) = .error .nameTooLong := by
    have hname := @isName_append n ".flow-meta.xml" (by decide) hslash
    rw [Tree.find_join hdir hname (by simp [hnul]), if_pos]
    by_contra hshort
    rw [not_or, Nat.not_lt, Nat.not_lt] at hshort
    exact hlong ⟨hshort.2, hshort.1⟩
  refine ⟨_, rfl, ?_⟩
  rw [fetch, locate_of_not_isPath hne hpath, definitionEndings, locateEnding]
  simp [Tree.stat, hfind, Except.mapError, error_bind]

include hes hdir hne hslash hnul hpath in
theorem fetch_of_no_file (hfits : d.Fits n)
    (hfile : ∀ ending ∈ definitionEndings, ∀ content modified, (n ++ ending, .file content modified) ∉ es) :
    d.fetch n = .error (.notFound (n ++ " (searched " ++ d.path ++ ")")) := by
  rw [fetch, locate_of_not_isPath hne hpath, locateEnding_eq_error hes
    (fun _ h ↦ find_ending hdir hfits hslash hnul h) hfile]
  rfl

include hes hdir hne hslash hnul hpath in
theorem fetch_of_file (hfits : d.Fits n)
    (hfile : ∃ ending ∈ definitionEndings, ∃ content modified, (n ++ ending, .file content modified) ∈ es) :
    ∃ found before ending after content modified, d.fetch n = .ok found ∧
      definitionEndings = before ++ ending :: after ∧
      (∀ e ∈ before, ∀ content modified, (n ++ e, .file content modified) ∉ es) ∧
      (n ++ ending, .file content modified) ∈ es ∧
      found.origin = Path.join d.path (n ++ ending) ∧ found.content = content ∧
      (found.name = n ↔ ¬(ending = ".xml" ∧ (Text.lower n).endsWith ".flow-meta" = true)) := by
  have hfind {ending : String} (h : ending ∈ definitionEndings) := find_ending hdir hfits hslash hnul h
  obtain ⟨before, ending, after, content, modified, hsplit, hbefore, hmem, hlocate⟩ :=
    locateEnding_eq_ok hes (fun _ ↦ hfind) hfile
  have hending : ending ∈ definitionEndings := by simp [hsplit]
  obtain ⟨place, hplace, -⟩ := Tree.find_eq_ok hdir
  have hjoin : Path.join d.path (n ++ ending) = Path.before d.path ++ (n ++ ending) :=
    Path.join_eq (Tree.locate_eq_ok hplace).2.1 (isName_append hending hslash)
  have hbase : Path.base (Path.join d.path (n ++ ending)) = n ++ ending :=
    hjoin ▸ (isName_append hending hslash).base_before d.path
  have hread := hfind hending
  rw [hes.child?_eq_some_iff.2 hmem] at hread
  refine ⟨definitionAt (Path.join d.path (n ++ ending)) content modified, before, ending, after, content,
    modified, fetch_eq_ok ((locate_of_not_isPath hne hpath).trans hlocate) hread, hsplit, hbefore, hmem,
    origin_definitionAt _ _ _, content_definitionAt _ _ _, ?_⟩
  rw [name_definitionAt]
  constructor
  · rintro hname ⟨rfl, hmeta⟩
    exact flowNameOfPath_ne_of_meta hbase hmeta hname
  · intro hmeta
    refine flowNameOfPath_of_base hbase ?_ fun hxml ↦ ?_ <;> rw [lower_ending ending hending] at *
    · exact hending
    · rw [← Bool.not_eq_true]
      exact fun hends ↦ hmeta ⟨hxml, hends⟩

end Fetching

/-- All names that a directory lists. Each is that of a file there without its ending, which is known but for
its case. A name that is itself the path of a definition file is read as that. For any other the file with
the first ending in their order is read, if one of them is there as it is written and none makes a name or
path too long, and this only then. It is read under the name that was listed, unless its ending is `.xml`
and taken for the end of `.flow-meta.xml`. -/
theorem listed_fetched (hes : IsListing es) (hdir : d.tree.find d.path = .ok (.directory es))
    (hlist : d.list = .ok names) (hn : n ∈ names) :
    (∃ ending, Text.lower ending ∈ definitionEndings ∧
      ∃ content modified, (n ++ ending, .file content modified) ∈ es) ∧
    (d.IsPath n → ∃ found content modified, d.fetch n = .ok found ∧
      d.tree.find n = .ok (.file content modified) ∧
      found.origin = n ∧ found.name = flowNameOfPath n ∧ found.content = content) ∧
    (¬d.IsPath n →
      ((∃ found, d.fetch n = .ok found) ↔ d.Fits n ∧
        ∃ ending ∈ definitionEndings, ∃ content modified, (n ++ ending, .file content modified) ∈ es) ∧
      ∀ found, d.fetch n = .ok found → ∃ before ending after content modified,
        definitionEndings = before ++ ending :: after ∧
        (∀ e ∈ before, ∀ content modified, (n ++ e, .file content modified) ∉ es) ∧
        (n ++ ending, .file content modified) ∈ es ∧
        found.origin = Path.join d.path (n ++ ending) ∧ found.content = content ∧
        (found.name = n ↔ ¬(ending = ".xml" ∧ (Text.lower n).endsWith ".flow-meta" = true))) := by
  obtain ⟨hne, hslash, hnul, hlisted⟩ := exists_file_of_listed hes hdir hlist hn
  refine ⟨hlisted, fetch_of_isPath hne, fun hpath ↦ ?_⟩
  have hfits (h : ∃ found, d.fetch n = .ok found) : d.Fits n := by
    by_contra hlong
    obtain ⟨path, -, hfetch⟩ := fetch_of_not_fits hdir hne hslash hnul hpath hlong
    simp [hfetch] at h
  have hfile (h : ∃ found, d.fetch n = .ok found) :
      ∃ ending ∈ definitionEndings, ∃ content modified, (n ++ ending, .file content modified) ∈ es := by
    by_contra hnone
    push Not at hnone
    rw [fetch_of_no_file hes hdir hne hslash hnul hpath (hfits h) hnone] at h
    simp at h
  refine ⟨⟨fun h ↦ ⟨hfits h, hfile h⟩, fun h ↦ ?_⟩, fun found hfound ↦ ?_⟩
  · obtain ⟨found, -, -, -, -, -, hfetch, -⟩ := fetch_of_file hes hdir hne hslash hnul hpath h.1 h.2
    exact ⟨found, hfetch⟩
  · obtain ⟨found', before, ending, after, content, modified, hfetch, hrest⟩ :=
      fetch_of_file hes hdir hne hslash hnul hpath (hfits ⟨found, hfound⟩) (hfile ⟨found, hfound⟩)
    obtain rfl : found' = found := Except.ok.inj (hfetch.symm.trans hfound)
    exact ⟨before, ending, after, content, modified, hrest⟩

/-- The entries of a directory with a file named like a flow and one named like a file, and with a directory
named like a file. -/
def shelfEntries : List (String × Entry) :=
  [("x.json.yaml", .file [1] .zero), ("a.b.json", .file [2] .zero), ("a.b.flow", .directory [])]

def shelf : Directory :=
  { tree.root := .directory [("x.json", .file [3] .zero), ("flows", .directory shelfEntries)], path := "flows" }

theorem isListing_shelfEntries : IsListing shelfEntries :=
  ⟨by decide, by decide, by decide⟩

theorem find_shelf : shelf.tree.find shelf.path = .ok (.directory shelfEntries) := by
  rw [Tree.find, Tree.locate_of_fits (by decide) (by decide) (by decide)]
  rfl

theorem mem_list_of_mem (hes : IsListing es) (hdir : d.tree.find d.path = .ok (.directory es))
    (hlist : d.list = .ok names) {ending : String} {content : List UInt8} {modified : Time}
    (hmem : (n ++ ending, .file content modified) ∈ es) (h : Text.lower ending ∈ definitionEndings)
    (hmeta : Text.lower ending = ".xml" → (Text.lower n).endsWith ".flow-meta" = false)
    (hformat : (Format.ofPath? (n ++ ending)).isSome = true) (hhidden : (n ++ ending).toList.head? ≠ some '.') :
    n ∈ names :=
  (mem_list_iff hdir hlist).2 ⟨n ++ ending, ⟨⟨content, modified, hmem⟩, hformat, hhidden⟩,
    flowNameOfPath_of_base (hes.isName _ hmem).base_eq h hmeta⟩

theorem mem_list_shelf {names : List String} (hlist : shelf.list = .ok names) :
    "x.json" ∈ names ∧ "a.b" ∈ names :=
  ⟨@mem_list_of_mem _ _ _ "x.json" isListing_shelfEntries find_shelf hlist ".yaml" [1] .zero
      (by simp [shelfEntries]) (by decide) (by decide) (by decide) (by decide),
    @mem_list_of_mem _ _ _ "a.b" isListing_shelfEntries find_shelf hlist ".json" [2] .zero
      (by simp [shelfEntries]) (by decide) (by decide) (by decide) (by decide)⟩

theorem isPath_shelf : shelf.IsPath "x.json" := by
  refine ⟨by decide, ?_⟩
  rw [isFile, Tree.find, Tree.locate_of_fits (by decide) (by decide) (by decide)]
  rfl

theorem flowNameOfPath_shelf : flowNameOfPath "x.json" = "x" :=
  @flowNameOfPath_of_base _ "x" ".json" (by decide) (by decide) (by decide)

/-- A name with a full stop is found among a directory and a file that are called like it, and one that is
itself a path is read from there. -/
theorem shelf_fetched :
    ∃ names, shelf.list = .ok names ∧ "a.b" ∈ names ∧ "x.json" ∈ names ∧
      (∃ found, shelf.fetch "a.b" = .ok found ∧ found.name = "a.b" ∧
        found.origin = Path.join "flows" "a.b.json" ∧ found.content = [2]) ∧
      ∃ found, shelf.fetch "x.json" = .ok found ∧ found.name = "x" ∧ found.origin = "x.json" := by
  have hlist := list_eq_ok find_shelf
  obtain ⟨hx, hab⟩ := mem_list_shelf hlist
  obtain ⟨-, -, hfetched⟩ := listed_fetched isListing_shelfEntries find_shelf hlist hab
  obtain ⟨-, hread, -⟩ := listed_fetched isListing_shelfEntries find_shelf hlist hx
  refine ⟨_, hlist, hab, hx, ?_, ?_⟩
  · obtain ⟨hiff, hfound⟩ := hfetched fun h ↦ absurd h.1 (by decide)
    obtain ⟨found, hfetch⟩ := hiff.2 ⟨⟨by decide, by decide⟩,
      ".json", by decide, [2], .zero, by simp [shelfEntries]⟩
    obtain ⟨-, ending, -, content, modified, -, -, hmem, horigin, hcontent, hname⟩ := hfound found hfetch
    obtain ⟨hending, rfl, -⟩ : "a.b" ++ ending = "a.b.json" ∧ content = [2] ∧ modified = .zero := by
      have hother : "a.b" ++ ending ≠ "x.json.yaml" := by
        intro heq
        have hhead := congrArg (List.head? ∘ String.toList) heq
        simp at hhead
      simpa [shelfEntries, hother] using hmem
    exact ⟨found, hfetch, hname.2 fun h ↦ absurd h.2 (by decide), by rw [horigin, hending]; rfl, hcontent⟩
  · obtain ⟨found, -, -, hfetch, -, horigin, hname, -⟩ := hread isPath_shelf
    exact ⟨found, hfetch, hname.trans flowNameOfPath_shelf, horigin⟩

def atticEntries : List (String × Entry) :=
  [("UP.JSON", .file [1] .zero), ("a.flow-meta.json", .file [2] .zero), ("a.flow-meta.xml", .file [3] .zero)]

def attic : Directory := { tree.root := .directory [("flows", .directory atticEntries)], path := "flows" }

theorem isListing_atticEntries : IsListing atticEntries :=
  ⟨by decide, by decide, by decide⟩

theorem find_attic : attic.tree.find attic.path = .ok (.directory atticEntries) := by
  rw [Tree.find, Tree.locate_of_fits (by decide) (by decide) (by decide)]
  rfl

theorem mem_list_attic {names : List String} (hlist : attic.list = .ok names) :
    "UP" ∈ names ∧ "a.flow-meta" ∈ names :=
  ⟨@mem_list_of_mem _ _ _ "UP" isListing_atticEntries find_attic hlist ".JSON" [1] .zero
      (by simp [atticEntries]) (by decide) (by decide) (by decide) (by decide),
    @mem_list_of_mem _ _ _ "a.flow-meta" isListing_atticEntries find_attic hlist ".json" [2] .zero
      (by simp [atticEntries]) (by decide) (by decide) (by decide) (by decide)⟩

theorem fetch_up : attic.fetch "UP" = .error (.notFound "UP (searched flows)") := by
  have hnames : ∀ ending ∈ definitionEndings, "UP" ++ ending ∉ atticEntries.map (·.1) := by decide
  exact fetch_of_no_file isListing_atticEntries find_attic (by decide) (by decide) (by decide)
    (fun h ↦ absurd h.1 (by decide)) ⟨by decide, by decide⟩
    fun ending hending _ _ hmem ↦ hnames ending hending (List.mem_map_of_mem hmem)

theorem fetch_meta : ∃ found, attic.fetch "a.flow-meta" = .ok found ∧ found.name ≠ "a.flow-meta" := by
  obtain ⟨found, before, ending, after, content, modified, hfetch, hsplit, hbefore, hmem, -, -, hname⟩ :=
    @fetch_of_file _ _ "a.flow-meta" isListing_atticEntries find_attic (by decide) (by decide) (by decide)
      (fun h ↦ absurd h.1 (by decide)) ⟨by decide, by decide⟩
      ⟨".xml", by decide, [3], .zero, by simp [atticEntries]⟩
  have hnames : ∀ ending ∈ definitionEndings, "a.flow-meta" ++ ending ∈ atticEntries.map (·.1) →
      ending = ".xml" ∨ ending = ".json" := by decide
  refine ⟨found, hfetch, hname.not.2 (not_not.2 ⟨?_, Text.endsWith_iff.2 (by decide)⟩)⟩
  rcases hnames ending (by simp [hsplit]) (List.mem_map_of_mem hmem) with hxml | rfl
  · exact hxml
  · -- The file with the ending `.xml` comes first.
    have horder : definitionEndings.Pairwise fun e e' ↦ ¬(e = ".json" ∧ e' = ".xml") := by decide
    have hxml : ".xml" ∈ definitionEndings := by decide
    rw [hsplit, List.pairwise_append, List.pairwise_cons] at horder
    rw [hsplit, List.mem_append, List.mem_cons] at hxml
    rcases hxml with hxml | heq | hxml
    · exact absurd (by simp [atticEntries]) (hbefore ".xml" hxml [3] .zero)
    · exact heq.symm
    · exact absurd ⟨rfl, rfl⟩ (horder.2.1.1 ".xml" hxml)

def longName : String := String.ofList (List.replicate 250 'n')

theorem toList_longName : longName.toList = List.replicate 250 'n' := String.toList_ofList

theorem head?_longName : longName.toList.head? = some 'n' := by
  rw [toList_longName]
  rfl

theorem not_mem_longName {c : Char} (h : c ≠ 'n') : c ∉ longName.toList := by
  rw [toList_longName]
  exact fun hmem ↦ h (List.eq_of_mem_replicate hmem)

def cellarEntries : List (String × Entry) := [(longName ++ ".json", .file [4] .zero)]

def cellar : Directory := { tree.root := .directory [("flows", .directory cellarEntries)], path := "flows" }

theorem isListing_cellarEntries : IsListing cellarEntries := by
  refine ⟨?_, ?_, by simp [cellarEntries]⟩
  · simpa [cellarEntries] using isName_append (by decide) (not_mem_longName (by decide))
  · simpa [cellarEntries] using not_mem_longName (by decide)

theorem find_cellar : cellar.tree.find cellar.path = .ok (.directory cellarEntries) := by
  rw [Tree.find, Tree.locate_of_fits (by decide) (by decide) (by decide)]
  rfl

theorem mem_list_cellar {names : List String} (hlist : cellar.list = .ok names) : longName ∈ names := by
  have hformat : (Format.ofPath? (longName ++ ".json")).isSome = true := by
    rw [Format.ofPath?, Path.ext, String.toList_append, toList_longName]
    decide
  exact @mem_list_of_mem _ _ _ longName isListing_cellarEntries find_cellar hlist ".json" [4] .zero
    (by simp [cellarEntries]) (by decide) (by decide) hformat (by simp [head?_longName])

theorem fetch_longName : ∃ e, cellar.fetch longName = .error e := by
  have hformat : ¬(Format.ofPath? longName).isSome = true := by
    rw [Format.ofPath?, Path.ext, toList_longName]
    decide
  have hne : longName ≠ "" := fun h ↦ by simpa [h] using head?_longName
  obtain ⟨path, -, hfetch⟩ := @fetch_of_not_fits _ _ longName find_cellar hne
    (not_mem_longName (by decide)) (not_mem_longName (by decide)) (fun h ↦ hformat h.1)
    fun h ↦ absurd h.name (by decide +kernel)
  exact ⟨_, hfetch⟩

/-- A name that is listed need not be fetched from the directory, nor under that name: it may be that of a
file elsewhere, its file may have an ending in capitals or be taken for one with a longer ending, and it may
be too long to be looked for. -/
theorem not_every_listed_fetched :
    (¬∀ (d : Directory) (es : List (String × Entry)) (names : List String), IsListing es →
      d.tree.find d.path = .ok (.directory es) → d.list = .ok names → ∀ n ∈ names,
        ∃ found, d.fetch n = .ok found ∧ found.name = n ∧ ∃ e ∈ es, found.origin = Path.join d.path e.1) ∧
    ∃ names, attic.list = .ok names ∧
      ("UP" ∈ names ∧ attic.fetch "UP" = .error (.notFound "UP (searched flows)")) ∧
      ("a.flow-meta" ∈ names ∧
        ∃ found, attic.fetch "a.flow-meta" = .ok found ∧ found.name ≠ "a.flow-meta") ∧
      ∃ names, cellar.list = .ok names ∧ ∃ n ∈ names, ∃ e, cellar.fetch n = .error e := by
  have hattic := list_eq_ok find_attic
  have hcellar := list_eq_ok find_cellar
  refine ⟨fun h ↦ ?_, _, hattic, ⟨(mem_list_attic hattic).1, fetch_up⟩, ⟨(mem_list_attic hattic).2, fetch_meta⟩,
    _, hcellar, longName, mem_list_cellar hcellar, fetch_longName⟩
  have hlist := list_eq_ok find_shelf
  obtain ⟨found, hfetch, hname, -⟩ :=
    h shelf shelfEntries _ isListing_shelfEntries find_shelf hlist "x.json" (mem_list_shelf hlist).1
  obtain ⟨found', -, -, hfetch', -, -, hname', -⟩ := fetch_of_isPath (by decide) isPath_shelf
  rw [hfetch', Except.ok.injEq] at hfetch
  subst hfetch
  rw [hname', flowNameOfPath_shelf] at hname
  exact absurd hname (by decide)

end Directory

end FlowAudit
