import FlowAudit.Health.Doctor
import FlowAudit.Proofs.Success
import FlowAudit.Proofs.Table
import FlowAudit.Proofs.Text.Utf8
import FlowAudit.Source.Directory
import FlowAudit.Source.Basic
import FlowAudit.Source.Stored

namespace FlowAudit.Health

section Search

variable {names : Array String} {name : String} {low high : Nat}

/-- The names before the lower place come before the name, and those from the upper place on do not. -/
structure Brackets (names : Array String) (name : String) (low high : Nat) : Prop where
  low_le : low ≤ high
  high_le : high ≤ names.size
  before : ∀ i (h : i < names.size), i < low → names[i] < name
  after : ∀ i (h : i < names.size), high ≤ i → name ≤ names[i]

theorem getElem_le_getElem (hsorted : names.toList.Pairwise (· < ·)) {i j : Nat} (hij : i ≤ j)
    (hj : j < names.size) : names[i] ≤ names[j] := by
  rcases Nat.lt_or_eq_of_le hij with hlt | rfl
  · exact (List.pairwise_iff_getElem.mp hsorted i j (by simp; omega) (by simpa using hj) hlt).le
  · exact le_rfl

theorem Brackets.half (hsorted : names.toList.Pairwise (· < ·)) (h : Brackets names name low high)
    (hlt : low < high) :
    if names[(low + high) / 2]?.any (· < name) then Brackets names name ((low + high) / 2 + 1) high
    else Brackets names name low ((low + high) / 2) := by
  have hhigh := h.high_le
  have hmiddle : (low + high) / 2 < names.size := by omega
  rw [Array.getElem?_eq_getElem hmiddle, Option.any_some]
  split
  · next hbefore =>
    refine ⟨by omega, h.high_le, fun i hi hle ↦ ?_, h.after⟩
    exact (getElem_le_getElem hsorted (by omega) hmiddle).trans_lt (of_decide_eq_true hbefore)
  · next hafter =>
    refine ⟨by omega, by omega, h.before, fun i hi hle ↦ ?_⟩
    have hname : name ≤ names[(low + high) / 2] := not_lt.mp fun h ↦ hafter (decide_eq_true h)
    exact hname.trans (getElem_le_getElem hsorted hle hi)

theorem brackets_placeOf (hsorted : names.toList.Pairwise (· < ·)) (h : Brackets names name low high) :
    Brackets names name (placeOf names name low high) (placeOf names name low high) := by
  fun_induction placeOf names name low high with
  | case1 low high hlt middle hbefore ih =>
    have hhalf := h.half hsorted hlt
    rw [if_pos hbefore] at hhalf
    exact ih hhalf
  | case2 low high hlt middle hafter ih =>
    have hhalf := h.half hsorted hlt
    rw [if_neg hafter] at hhalf
    exact ih hhalf
  | case3 low high hge =>
    obtain rfl : low = high := Nat.le_antisymm h.low_le (Nat.le_of_not_lt hge)
    exact h

/-- A name is found in an ascending list exactly if it is there. -/
theorem isKnown_iff (hsorted : names.toList.Pairwise (· < ·)) : isKnown names name = true ↔ name ∈ names := by
  have hall : Brackets names name 0 names.size :=
    ⟨Nat.zero_le _, le_rfl, fun i _ hi ↦ absurd hi (Nat.not_lt_zero i), fun i hi hle ↦ absurd hle hi.not_ge⟩
  have hplace := brackets_placeOf hsorted hall
  rw [isKnown, beq_iff_eq]
  constructor
  · exact Array.mem_of_getElem?
  · intro hmem
    obtain ⟨i, hi, rfl⟩ := Array.getElem_of_mem hmem
    have hle : placeOf names names[i] 0 names.size ≤ i := by
      by_contra hlt
      exact lt_irrefl _ (hplace.before i hi (by omega))
    have hin : placeOf names names[i] 0 names.size < names.size := by omega
    rw [Array.getElem?_eq_getElem hin]
    congr 1
    exact le_antisymm (getElem_le_getElem hsorted hle hi) (hplace.after _ hin le_rfl)

end Search

/-- The sources that list their names: definitions held in memory, those in a directory, and those in a table
of a database, whatever rows it has. -/
inductive Enumerates : Source → Prop
  | memory (ds : List Definition) (otherwise : Option Source) :
      Enumerates ((Memory.ofList ds).source otherwise)
  | directory (d : Directory) : Enumerates d.source
  | database (db : Database) (rows : List (String × StoredDefinition)) (isCanceled : Bool) :
      Enumerates ({ db with definitions := some (.ofList rows) : Database }.source isCanceled)

theorem isSorted_ofList_flows (ds : List Definition) : (Memory.ofList ds).flows.IsSorted :=
  List.foldlRecOn (motive := fun m ↦ m.flows.IsSorted) ds Memory.put .nil
    fun _ h _ _ ↦ Table.isSorted_insert h

theorem Enumerates.pairwise {src : Source} {names : List String} (h : Enumerates src)
    (hlist : src.list? = some (.ok names)) : names.Pairwise (· < ·) := by
  cases h with
  | memory ds otherwise =>
    cases hlist
    exact Table.pairwise_keys (isSorted_ofList_flows ds)
  | directory d =>
    obtain ⟨entries, -, hnames⟩ := bind_eq_ok.mp (Option.some.inj hlist)
    cases hnames
    exact Table.pairwise_keys (Table.isSorted_ofList _)
  | database db rows isCanceled =>
    obtain ⟨-, -, hkeys⟩ := bind_eq_ok.mp (Option.some.inj hlist)
    cases hkeys
    exact Table.pairwise_keys (Table.isSorted_ofList rows)

def Extends (r r' : Report) : Prop := ∃ cs, r'.checks = r.checks ++ cs ∧ ∀ c ∈ cs, c.name ≠ "subflows"

theorem extends_add {r : Report} {c : Check} (h : c.name ≠ "subflows") : Extends r (r.add c) :=
  ⟨[c], rfl, by simpa using h⟩

theorem Extends.trans {r r' r'' : Report} (h : Extends r r') (h' : Extends r' r'') : Extends r r'' := by
  obtain ⟨cs, hcs, hnames⟩ := h
  obtain ⟨cs', hcs', hnames'⟩ := h'
  refine ⟨cs ++ cs', by rw [hcs', hcs, List.append_assoc], fun c hc ↦ ?_⟩
  rcases List.mem_append.mp hc with hc | hc
  · exact hnames c hc
  · exact hnames' c hc

@[simp] theorem name_checkNone (category name : String) (items : List String) (bad good hint : String) :
    (checkNone category name items bad good hint).name = name := by
  unfold checkNone
  split <;> rfl

/-- A call in a definition. -/
structure CallSite where
  caller : String
  element : String
  target : String
  deriving DecidableEq

def CallSite.line (c : CallSite) : String := c.caller ++ ": " ++ c.element ++ " calls " ++ c.target

def readable? (src : Source) (name : String) : Option Metadata :=
  (src.fetch name).toOption.bind fun raw ↦ (Metadata.ofDefinition raw).toOption

def callSitesIn (name : String) (md : Metadata) : List CallSite :=
  (Graph.build md).elements.filterMap fun e ↦ e.calledFlow?.map fun target ↦ ⟨name, e.name, target⟩

/-- The calls of flows that are not among the names, in all definitions that can be read. -/
def unresolved (src : Source) (names : List String) : List CallSite :=
  (names.flatMap fun name ↦ ((readable? src name).map (callSitesIn name)).getD []).filter (·.target ∉ names)

namespace Doctor

variable {d : Doctor} {s : Survey} {names : List String}

theorem toOption_examine (d : Doctor) (name : String) :
    ((d.examine name).toOption.map fun p ↦ (p.name, Graph.build p.metadata)) =
      (readable? d.source name).map fun md ↦ (name, Graph.build md) := by
  unfold examine readable?
  cases d.source.fetch name with
  | error e => rfl
  | ok raw =>
    simp only [Except.toOption, Option.bind_some]
    cases Metadata.ofDefinition raw <;> rfl

theorem namesAfter_eq (known : List String) (hlist : d.source.list? = some (.ok names)) (hne : names ≠ []) :
    d.namesAfter known = names := by
  obtain ⟨first, rest, rfl⟩ := List.exists_cons_of_ne_nil hne
  simp only [namesAfter, hlist]

theorem checkSource_eq (known : List String) (hwaits : d.isCanceled = false)
    (hlist : d.source.list? = some (.ok names)) (hne : names ≠ []) :
    ∃ s, d.checkSource known = .ok s ∧ s.names = names ∧
      s.patients = names.filterMap (fun name ↦ (d.examine name).toOption) ∧
      ∀ c ∈ s.report.checks, c.name ≠ "subflows" := by
  have hnames := namesAfter_eq known hlist hne
  obtain ⟨first, rest, rfl⟩ := List.exists_cons_of_ne_nil hne
  simp only [checkSource, hlist, hnames, hwaits]
  refine ⟨_, rfl, rfl, List.filterMap_map, ?_⟩
  simp only [List.mem_cons, List.not_mem_nil, or_false, forall_eq_or_imp, forall_eq]
  split <;> exact ⟨by simp [listable], by simp⟩

def unresolvedLines (names : List String) (name : String) (g : Graph) : List String :=
  ((Call.all g {}).filter fun c ↦ !isKnown names.toArray c.flow).map fun c ↦
    name ++ ": " ++ c.element ++ " calls " ++ c.flow

theorem unresolvedLines_build (hsorted : names.Pairwise (· < ·)) (name : String) (md : Metadata) :
    unresolvedLines names name (Graph.build md) =
      ((callSitesIn name md).filter (·.target ∉ names)).map CallSite.line := by
  have hknown (target : String) : (!isKnown names.toArray target) = decide (target ∉ names) := by
    have hiff : isKnown names.toArray target = true ↔ target ∈ names :=
      (isKnown_iff (by simpa using hsorted)).trans List.mem_toArray
    rw [Bool.eq_iff_iff, Bool.not_eq_true', decide_eq_true_eq, ← hiff, Bool.not_eq_true]
  simp only [unresolvedLines, hknown, Call.all, callSitesIn, List.filter_filterMap, List.map_filterMap]
  congr 1
  ext e : 1
  cases e.calledFlow? with
  | none => rfl
  | some target => by_cases h : target ∈ names <;> simp [Option.filter_some, h, CallSite.line]

theorem flatMap_unresolvedLines (d : Doctor) (hsorted : names.Pairwise (· < ·)) :
    (((names.filterMap fun name ↦ (d.examine name).toOption).map fun p ↦
      (p.name, Graph.build p.metadata)).flatMap fun (name, g) ↦ unresolvedLines names name g) =
      (unresolved d.source names).map CallSite.line := by
  simp only [List.map_filterMap, toOption_examine]
  simp only [List.filterMap_eq_flatMap_toList, List.flatMap_assoc, unresolved, List.filter_flatMap,
    List.map_flatMap]
  congr 1
  ext name : 1
  cases readable? d.source name with
  | none => rfl
  | some md => simpa using unresolvedLines_build hsorted name md

def subflowsCheck (src : Source) (names : List String) : Check :=
  checkNone "References" "subflows" ((unresolved src names).map CallSite.line)
    " sub-workflow call(s) cannot be resolved" "All sub-workflow calls resolve"
    "Add the called flows to the source; they are excluded from cumulative metrics"

theorem checkReferences_eq (hsorted : names.Pairwise (· < ·)) (hnames : s.names = names)
    (hpatients : s.patients = names.filterMap fun name ↦ (d.examine name).toOption)
    (hne : s.patients ≠ []) : ∃ connectors : Check, connectors.name ≠ "subflows" ∧
      checkReferences s =
        { s with report := (s.report.add connectors).add (subflowsCheck d.source names) } := by
  have hlines := flatMap_unresolvedLines d hsorted
  rw [← hpatients] at hlines
  unfold checkReferences
  rw [if_neg (by simpa using hne), hnames, subflowsCheck, ← hlines]
  exact ⟨_, by simp, rfl⟩

theorem extends_of_checkRuns {store : Store} {done : Survey} (h : d.checkRuns s store = .ok done) :
    Extends s.report done.report := by
  obtain ⟨lasts, -, hdone⟩ := bind_eq_ok.mp h
  cases hdone
  exact (extends_add (by simp)).trans (extends_add (by simp))

theorem extends_of_checkStore {done : Survey} (h : d.checkStore s = .ok done) :
    Extends s.report done.report := by
  unfold checkStore at h
  dsimp only at h
  split at h
  · cases h
    exact extends_add (by simp [storeCheck])
  · split at h
    · cases h
      exact extends_add (by simp [storeCheck])
    · split at h
      · cases h
        exact extends_add (by simp [storeCheck])
      · have htable (message : String) :
            Extends s.report (s.report.add (storeCheck "table_exists" .pass message)) :=
          extends_add (by simp [storeCheck])
        split at h
        · cases h
          exact htable _
        · exact (htable _).trans (extends_of_checkRuns h)

/-- Whatever the store answers for the last runs of the names can be read back. -/
def RunsReadable (d : Doctor) (names : List String) : Prop :=
  ∀ store status, d.store = some store → store.status d.isCanceled = .ok status →
    ∀ name ∈ names, ∃ last, store.last d.isCanceled name = .ok last

theorem exists_checkRuns_eq {store : Store}
    (h : ∀ name ∈ s.names, ∃ last, store.last d.isCanceled name = .ok last) :
    ∃ done, d.checkRuns s store = .ok done := by
  cases hruns : d.checkRuns s store with
  | ok done => exact ⟨done, rfl⟩
  | error e =>
    -- the one thing that can fail is to read back the last run of a name
    rcases bind_eq_error.mp hruns with hlasts | ⟨lasts, -, hdone⟩
    · obtain ⟨name, hmem, hname⟩ := exists_of_mapM_eq_error hlasts
      obtain ⟨last, hlast⟩ := h name hmem
      rw [hlast] at hname
      cases hname
    · cases hdone

theorem exists_checkStore_eq (h : d.RunsReadable s.names) : ∃ done, d.checkStore s = .ok done := by
  unfold checkStore
  dsimp only
  split
  · exact ⟨_, rfl⟩
  · next store hstore =>
    split
    · exact ⟨_, rfl⟩
    · next status hstatus =>
      split
      · exact ⟨_, rfl⟩
      · split
        · exact ⟨_, rfl⟩
        · exact exists_checkRuns_eq (h store status hstore hstatus)

theorem filter_of_extends {r r' : Report} {connectors check : Check}
    (hsource : ∀ c ∈ r.checks, c.name ≠ "subflows") (hconnectors : connectors.name ≠ "subflows")
    (hcheck : check.name = "subflows")
    (h : Extends ((r.add connectors).add check) r') : r'.checks.filter (·.name == "subflows") = [check] := by
  obtain ⟨cs, hcs, hstore⟩ := h
  have hnone {l : List Check} (hl : ∀ c ∈ l, c.name ≠ "subflows") : l.filter (·.name == "subflows") = [] := by
    simpa using hl
  simp [hcs, Report.add, List.filter_append, hnone hsource, hnone hstore, hconnectors, hcheck]

theorem subflowsCheck_eq (src : Source) (names : List String) :
    let check := subflowsCheck src names
    check.details = "\n".intercalate ((unresolved src names).map CallSite.line) ∧
      (check.status = .pass ↔ unresolved src names = []) ∧
      (unresolved src names ≠ [] → check.status = .warn ∧ check.message =
        Text.decimal (unresolved src names).length ++ " sub-workflow call(s) cannot be resolved") := by
  unfold subflowsCheck checkNone
  cases unresolved src names with
  | nil => exact ⟨rfl, by simp, fun h ↦ absurd rfl h⟩
  | cons c cs => simp [plural]

theorem run_eq (known : List String) (hkind : Enumerates d.source) (hwaits : d.isCanceled = false)
    (hlist : d.source.list? = some (.ok names)) (hruns : d.RunsReadable names)
    (hread : ∃ name ∈ names, (readable? d.source name).isSome) :
    (d.run known).2 = names ∧ ∃ report, (d.run known).1 = .ok report ∧
      report.checks.filter (·.name == "subflows") = [subflowsCheck d.source names] := by
  obtain ⟨name, hmem, hname⟩ := hread
  have hne : names ≠ [] := List.ne_nil_of_mem hmem
  obtain ⟨s, hs, hnames, hpatients, hsource⟩ := checkSource_eq known hwaits hlist hne
  have hsome : s.patients ≠ [] := by
    rw [hpatients]
    intro hnil
    have hnone := List.filterMap_eq_nil_iff.mp hnil name hmem
    have hpair := toOption_examine d name
    rw [hnone] at hpair
    cases hmd : readable? d.source name with
    | none => simp [hmd] at hname
    | some md => simp [hmd] at hpair
  obtain ⟨connectors, hconnectors, hrefs⟩ :=
    checkReferences_eq (hkind.pairwise hlist) hnames hpatients hsome
  have hreadable : d.RunsReadable (checkReferences s).names := by
    rw [hrefs]
    exact hnames ▸ hruns
  obtain ⟨done, hdone⟩ := exists_checkStore_eq hreadable
  have hextends := extends_of_checkStore hdone
  rw [hrefs] at hextends
  refine ⟨namesAfter_eq known hlist hne, done.report, ?_, ?_⟩
  · simp only [run, hs, Except.mapError, ok_bind, hdone]
    rfl
  · exact filter_of_extends hsource hconnectors (by simp [subflowsCheck]) hextends

end Doctor

/-- A source lists some names, and the definition of one of them at least can be read. The names are in the
order of their bytes, and halving the list finds what is in it and nothing else. One check of a run is about
calls: it tells of those in definitions that can be read, name by name and in the order of the elements, of
flows that are not among the names; that the definition of a name cannot be read does not matter. It is
passed if there are none. -/
theorem unresolved_calls_reported {d : Doctor} {names : List String} (known : List String)
    (hkind : Enumerates d.source) (hwaits : d.isCanceled = false)
    (hlist : d.source.list? = some (.ok names)) (hruns : d.RunsReadable names)
    (hread : ∃ name ∈ names, (readable? d.source name).isSome) :
    (names.Pairwise fun a b ↦ Text.Utf8.encode a.toList < Text.Utf8.encode b.toList) ∧
    (∀ name, isKnown names.toArray name = true ↔ name ∈ names) ∧
    (d.run known).2 = names ∧
    ∃ report check, (d.run known).1 = .ok report ∧
      report.checks.filter (·.name == "subflows") = [check] ∧
      check.details = "\n".intercalate ((unresolved d.source names).map CallSite.line) ∧
      (check.status = .pass ↔ unresolved d.source names = []) ∧
      (unresolved d.source names ≠ [] → check.status = .warn ∧ check.message =
        Text.decimal (unresolved d.source names).length ++ " sub-workflow call(s) cannot be resolved") := by
  have hsorted := hkind.pairwise hlist
  obtain ⟨hnames, report, hok, hcheck⟩ := Doctor.run_eq known hkind hwaits hlist hruns hread
  refine ⟨?_, fun name ↦ ?_, hnames, report, _, hok, hcheck, Doctor.subflowsCheck_eq d.source names⟩
  · exact hsorted.imp fun h ↦ Text.Utf8.encode_lt_encode_iff.mpr (String.lt_iff_toList_lt.mp h)
  · exact (isKnown_iff (by simpa using hsorted)).trans List.mem_toArray

/-- The flow `Parent` calls `Broken`, which cannot be read, and two flows that are not there. -/
def brokenFamily : Memory :=
  let json (name text : String) : Definition :=
    { name := name, format := "json", content := Text.Utf8.encode text.toList }
  let mend := Text.braces "\"name\":\"Mend\",\"flowName\":\"Broken\""
  let seek := Text.braces "\"name\":\"Seek\",\"flowName\":\"Gone\""
  let ask := Text.braces "\"name\":\"Ask\",\"actionName\":\"Lost\",\"actionType\":\"flow\""
  .ofList [
    json "Parent" (Text.braces ("\"subflows\":[" ++ mend ++ "," ++ seek ++ "],\"actionCalls\":[" ++ ask ++ "]")),
    json "Broken" "[1]"]

def familyDoctor : Doctor :=
  { source := brokenFamily.source none, store := some { database := { runs := some [] } }, now := .zero }

theorem unresolved_calls_of_parent :
    ∃ report check, (familyDoctor.run []).1 = .ok report ∧
      report.checks.filter (·.name == "subflows") = [check] ∧ check.status = .warn ∧
      check.details = "Parent: Seek calls Gone\nParent: Ask calls Lost" := by
  have hkeys : brokenFamily.flows.keys = ["Broken", "Parent"] := by decide
  have hlist : familyDoctor.source.list? = some (.ok ["Broken", "Parent"]) := by
    rw [familyDoctor, Memory.source, hkeys]
  have hfamily : (readable? familyDoctor.source "Parent").isSome ∧
      unresolved familyDoctor.source ["Broken", "Parent"] =
        [⟨"Parent", "Seek", "Gone"⟩, ⟨"Parent", "Ask", "Lost"⟩] := by decide +kernel
  obtain ⟨hparent, hcalls⟩ := hfamily
  have hread : ∃ name ∈ ["Broken", "Parent"], (readable? familyDoctor.source name).isSome :=
    ⟨"Parent", by simp, hparent⟩
  have hruns : familyDoctor.RunsReadable ["Broken", "Parent"] := by
    intro store status hstore _ name _
    cases hstore
    have hnone : Engine.sqlite.latestFirst [] = [] := List.mergeSort_nil
    simp only [Store.last, Store.rows, Option.getD_some, List.filter_nil, hnone]
    exact ⟨none, rfl⟩
  obtain ⟨-, -, -, report, check, hrun, hcheck, hdetails, -, hwarn⟩ :=
    unresolved_calls_reported [] (.memory _ none) rfl hlist hruns hread
  rw [hcalls] at hdetails hwarn
  exact ⟨report, check, hrun, hcheck, (hwarn (by simp)).1, hdetails⟩

end FlowAudit.Health
