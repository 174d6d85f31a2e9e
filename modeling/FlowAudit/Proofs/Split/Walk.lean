import FlowAudit.Analysis.Split
import FlowAudit.Proofs.Fingerprint.Counted

namespace FlowAudit.Split

open Fingerprint

variable {root : Analysis} {grouped : List String}

/-- The flow and those below it, in the order in which they are met depth first. A name that has been
met is not entered again. -/
def met (root : Analysis) : List Analysis := countedOf [] root

theorem met_eq_cons (root : Analysis) : met root = root :: countedIn [root.name] root.children := by
  obtain ⟨f, children⟩ := root
  rw [met, countedOf, if_neg List.not_mem_nil]
  rfl

theorem mem_met_self (root : Analysis) : root ∈ met root := by
  rw [met_eq_cons]
  exact List.mem_cons_self

/-- The turn of a flow, with the names of the flows that are grouped by then. -/
structure Turn where
  flow : Analysis
  grouped : List String

namespace Turn

def recommendation (t : Turn) : Recommendation := (generate t.flow t.grouped).1

def classified (t : Turn) : List Analysis := fresh t.grouped t.flow.called

end Turn

def turns : List String → List Analysis → List Turn
  | _, [] => []
  | grouped, a :: as => ⟨a, grouped⟩ :: turns (generate a grouped).2 as

def turnsOf (root : Analysis) : List Turn := turns [root.name] (met root)

section Pass

def Progress.meet (p : Progress) (a : Analysis) : Progress :=
  let (r, grouped) := generate a p.grouped
  { seen := a.name :: p.seen, grouped := grouped
    found := if r.shouldSplit then r :: p.found else p.found }

theorem seen_foldl_meet (p : Progress) (as : List Analysis) :
    (as.foldl Progress.meet p).seen = as.reverse.map (·.name) ++ p.seen := by
  induction as generalizing p with
  | nil => rfl
  | cons a as ih =>
    rw [List.foldl_cons, ih]
    simp [Progress.meet]

theorem found_foldl_meet (p : Progress) (as : List Analysis) :
    (as.foldl Progress.meet p).found =
      (((turns p.grouped as).map Turn.recommendation).filter (·.shouldSplit)).reverse ++ p.found := by
  induction as generalizing p with
  | nil => rfl
  | cons a as ih =>
    let t : Turn := ⟨a, p.grouped⟩
    have hfound : (p.meet a).found =
        if t.recommendation.shouldSplit then t.recommendation :: p.found else p.found := rfl
    have hturns : turns p.grouped (a :: as) = t :: turns (p.meet a).grouped as := rfl
    rw [List.foldl_cons, ih, hfound, hturns, List.map_cons, List.filter_cons]
    split <;> simp

mutual

theorem walkFrom_eq_foldl (p : Progress) : ∀ a, walkFrom p a = (countedOf p.seen a).foldl Progress.meet p
  | .node f children => by
    rw [walkFrom, countedOf]
    by_cases hseen : f.name ∈ p.seen
    · rw [if_pos (by simpa using hseen), if_pos hseen]
      rfl
    · rw [if_neg (by simpa using hseen), if_neg hseen, List.foldl_cons]
      exact walkIn_eq_foldl _ children

theorem walkIn_eq_foldl (p : Progress) : ∀ as, walkIn p as = (countedIn p.seen as).foldl Progress.meet p
  | [] => rfl
  | none :: rest => by rw [walkIn, countedIn, walkIn_eq_foldl p rest]
  | some a :: rest => by
    rw [walkIn, countedIn, List.foldl_append, ← seen_foldl_meet, ← walkFrom_eq_foldl p a]
    exact walkIn_eq_foldl _ rest

end

theorem walk_eq (root : Analysis) :
    walk root = (generate root [root.name]).1 ::
      ((turns (generate root [root.name]).2 (countedIn [root.name] root.children)).map
        Turn.recommendation).filter (·.shouldSplit) := by
  rw [walk]
  dsimp only
  rw [walkIn_eq_foldl, found_foldl_meet, List.reverse_append, List.reverse_reverse]
  rfl

theorem turnsOf_eq_cons (root : Analysis) : turnsOf root = ⟨root, [root.name]⟩ ::
    turns (generate root [root.name]).2 (countedIn [root.name] root.children) := by
  rw [turnsOf, met_eq_cons, turns]

theorem exists_turn_of_mem_walk {r : Recommendation} (h : r ∈ walk root) :
    ∃ t ∈ turnsOf root, t.recommendation = r := by
  rw [walk_eq, List.mem_cons] at h
  rw [turnsOf_eq_cons]
  obtain rfl | h := h
  · exact ⟨_, List.mem_cons_self, rfl⟩
  · obtain ⟨t, ht, rfl⟩ := List.mem_map.1 (List.mem_of_mem_filter h)
    exact ⟨t, List.mem_cons_of_mem _ ht, rfl⟩

theorem flow_turns (grouped : List String) (as : List Analysis) :
    (turns grouped as).map (·.flow) = as := by
  induction as generalizing grouped with
  | nil => rfl
  | cons a as ih => rw [turns, List.map_cons, ih]

end Pass

section Met

mutual

theorem countedOf_sublist (seen : List String) : ∀ a, (countedOf seen a).Sublist a.nodes
  | .node f children => by
    rw [countedOf, Analysis.nodes, Analysis.visited, if_pos rfl]
    split
    · exact List.nil_sublist _
    · exact (countedIn_sublist _ children).cons_cons _

theorem countedIn_sublist (seen : List String) :
    ∀ as, (countedIn seen as).Sublist (Analysis.visitedIn (fun _ ↦ true) as)
  | [] => List.Sublist.refl _
  | none :: rest => by
    rw [countedIn, Analysis.visitedIn]
    exact countedIn_sublist seen rest
  | some a :: rest => by
    rw [countedIn, Analysis.visitedIn]
    exact (countedOf_sublist seen a).append (countedIn_sublist _ rest)

end

theorem nodup_met (root : Analysis) : ((met root).map (·.name)).Nodup := (nodup_countedOf [] root).1

theorem exists_met_of_child {m b : Analysis} (hm : m ∈ met root) (hb : some b ∈ m.children) :
    ∃ n ∈ met root, n.name = b.name :=
  ((isClosed_countedOf [] root).2 m hm b hb).resolve_left List.not_mem_nil

end Met

section Grouping

theorem nodup_fresh (grouped : List String) (as : List Analysis) :
    ((fresh grouped as).map (·.name)).Nodup ∧ ∀ b ∈ fresh grouped as, b.name ∉ grouped := by
  induction as generalizing grouped with
  | nil => simp [fresh]
  | cons a as ih =>
    rw [fresh]
    split
    · exact ih grouped
    · next hnew =>
      obtain ⟨hnodup, hfresh⟩ := ih (a.name :: grouped)
      simp only [List.mem_cons, not_or] at hfresh
      simp only [List.map_cons, List.nodup_cons, List.mem_map, not_exists, not_and,
        List.forall_mem_cons]
      exact ⟨⟨fun b hb ↦ (hfresh b hb).1, hnodup⟩, by simpa using hnew, fun b hb ↦ (hfresh b hb).2⟩

theorem mem_grouped_generate {a : Analysis} {name : String} : name ∈ (generate a grouped).2 ↔
    name ∈ (fresh grouped a.called).map (·.name) ∨ name ∈ grouped := by
  rw [generate, List.mem_append, List.mem_reverse]

theorem nodup_classified (grouped : List String) (as : List Analysis) :
    ((turns grouped as).flatMap fun t ↦ t.classified.map (·.name)).Nodup ∧
      ∀ t ∈ turns grouped as, ∀ b ∈ t.classified, b.name ∉ grouped := by
  induction as generalizing grouped with
  | nil => simp [turns]
  | cons a as ih =>
    obtain ⟨hfirst, hnew⟩ := nodup_fresh grouped a.called
    obtain ⟨hrest, hlater⟩ := ih (generate a grouped).2
    simp only [mem_grouped_generate, not_or] at hlater
    rw [turns, List.flatMap_cons, List.nodup_append, List.forall_mem_cons]
    refine ⟨⟨hfirst, hrest, ?_⟩, hnew, fun t ht b hb ↦ (hlater t ht b hb).2⟩
    rintro x hx y hy rfl
    obtain ⟨t, ht, hy⟩ := List.mem_flatMap.1 hy
    obtain ⟨b, hb, rfl⟩ := List.mem_map.1 hy
    exact (hlater t ht b hb).1 hx

theorem mem_classNames {as : List Analysis} {c : String} (h : c ∈ classNames as) :
    ∃ b ∈ as, c = className b.name (classify b).suffix := by
  obtain ⟨g, -, hc⟩ := List.mem_filterMap.1 h
  obtain ⟨b, hfind, rfl⟩ := Option.map_eq_some_iff.1 hc
  have hclass : classify b = g := by simpa using List.find?_some hfind
  exact ⟨b, List.mem_of_find?_eq_some hfind, by rw [hclass]⟩

theorem classNames_eq_nil_iff {as : List Analysis} : classNames as = [] ↔ as = [] := by
  constructor
  · intro h
    rw [List.eq_nil_iff_forall_not_mem]
    intro b hb
    have hgroup : classify b ∈ Group.all := by cases classify b <;> decide
    have hnone := List.filterMap_eq_nil_iff.1 h (classify b) hgroup
    rw [Option.map_eq_none_iff, List.find?_eq_none] at hnone
    exact hnone b hb (decide_eq_true rfl)
  · rintro rfl
    rfl

/-- The class names that are suggested in a turn are made from the flows that are classified in it. -/
theorem mem_suggested {t : Turn} {names : List String} {c : String}
    (h : t.recommendation.suggestedClassNames = some names) (hc : c ∈ names) :
    (t.classified = [] ∧ c = defaultClassName) ∨
      ∃ b ∈ t.classified, c = className b.name (classify b).suffix := by
  have hnames : (if (classNames t.classified).isEmpty then [defaultClassName]
      else classNames t.classified) = names := Option.some.inj h
  subst hnames
  split at hc
  · next hempty =>
    exact .inl ⟨classNames_eq_nil_iff.1 (List.isEmpty_iff.1 hempty), List.mem_singleton.1 hc⟩
  · exact .inr (mem_classNames hc)

end Grouping

/-- The totals of a flow are over one of the limits. -/
def Exceeds (f : Findings) : Prop := 15 < f.cumulativeComplexity ∨ 5 < operations f

instance (f : Findings) : Decidable (Exceeds f) :=
  inferInstanceAs (Decidable (15 < f.cumulativeComplexity ∨ 5 < operations f))

theorem shouldSplit_iff (t : Turn) : t.recommendation.shouldSplit = true ↔ Exceeds t.flow.findings := by
  have hreasons : t.recommendation.shouldSplit = !(reasons t.flow.findings).isEmpty := rfl
  rw [hreasons, reasons, Exceeds]
  by_cases hcomplexity : 15 < t.flow.findings.cumulativeComplexity <;>
    by_cases hops : 5 < operations t.flow.findings <;> simp [hcomplexity, hops]

/-- A flow is recommended to be split if the first one of its name that is met has totals over a
limit, and only then. -/
theorem exists_recommended_iff (root : Analysis) (name : String) :
    (∃ r ∈ walk root, r.flow = name ∧ r.shouldSplit = true) ↔
      ∃ m ∈ met root, m.name = name ∧ Exceeds m.findings := by
  rw [← flow_turns [root.name] (met root), ← turnsOf]
  constructor
  · rintro ⟨r, hr, rfl, hsplit⟩
    obtain ⟨t, ht, rfl⟩ := exists_turn_of_mem_walk hr
    exact ⟨t.flow, List.mem_map_of_mem ht, rfl, (shouldSplit_iff t).1 hsplit⟩
  · rintro ⟨m, hm, rfl, hexceeds⟩
    obtain ⟨t, ht, rfl⟩ := List.mem_map.1 hm
    have hsplit := (shouldSplit_iff t).2 hexceeds
    refine ⟨t.recommendation, ?_, rfl, hsplit⟩
    rw [walk_eq]
    rw [turnsOf_eq_cons] at ht
    obtain rfl | ht := List.mem_cons.1 ht
    · exact List.mem_cons_self
    · exact List.mem_cons_of_mem _ (List.mem_filter.2 ⟨List.mem_map_of_mem ht, hsplit⟩)

/-- The recommendations start with that for the flow itself. The others are those of the flows below
that should be split, in the order in which the flows are met, and each name is met once. No flow is
classified in two turns, nor is the flow itself in any, and the class names suggested in a turn are made
from the flows that are classified in it. -/
theorem recommends_each_flow_once (root : Analysis) :
    ((met root).Sublist root.nodes ∧ ((met root).map (·.name)).Nodup ∧
      ∀ m ∈ met root, ∀ b, some b ∈ m.children → ∃ n ∈ met root, n.name = b.name) ∧
    (turnsOf root).map (·.flow) = met root ∧
    (∃ later, turnsOf root = ⟨root, [root.name]⟩ :: later ∧
      walk root = (generate root [root.name]).1 ::
        (later.filter (·.recommendation.shouldSplit)).map Turn.recommendation) ∧
    (∀ t ∈ turnsOf root, t.recommendation.flow = t.flow.name) ∧
    ((walk root).map (·.flow)).Nodup ∧
    ((turnsOf root).flatMap fun t ↦ t.classified.map (·.name)).Nodup ∧
    (∀ t ∈ turnsOf root, ∀ b ∈ t.classified, b.name ≠ root.name) ∧
    ∀ t ∈ turnsOf root, ∃ names, t.recommendation.suggestedClassNames = some names ∧
      ∀ c ∈ names, (t.classified = [] ∧ c = defaultClassName) ∨
        ∃ b ∈ t.classified, c = className b.name (classify b).suffix := by
  have hwalk : walk root = (generate root [root.name]).1 ::
      ((turns (generate root [root.name]).2 (countedIn [root.name] root.children)).filter
        (·.recommendation.shouldSplit)).map Turn.recommendation := by
    rw [walk_eq, List.filter_map]
    rfl
  have hflows : (turnsOf root).map (·.recommendation.flow) = (met root).map (·.name) := by
    have h := congrArg (List.map Analysis.name) (flow_turns [root.name] (met root))
    rwa [List.map_map] at h
  obtain ⟨hnodup, hnew⟩ := nodup_classified [root.name] (met root)
  refine ⟨⟨countedOf_sublist [] root, nodup_met root, fun m hm b ↦ exists_met_of_child hm⟩,
    flow_turns _ _, ⟨_, turnsOf_eq_cons root, hwalk⟩, fun t _ ↦ rfl, ?_, hnodup,
    fun t ht b hb ↦ by simpa using hnew t ht b hb, fun t _ ↦ ⟨_, rfl, fun c ↦ mem_suggested rfl⟩⟩
  refine List.Nodup.sublist ?_ (hflows ▸ nodup_met root)
  rw [hwalk, turnsOf_eq_cons, List.map_cons, List.map_cons, List.map_map]
  exact (List.filter_sublist.map _).cons_cons _

end FlowAudit.Split
