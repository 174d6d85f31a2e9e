import FlowAudit.Metrics
import FlowAudit.Proofs.Graph.Steps
import FlowAudit.Proofs.Loops.Ownership

namespace FlowAudit.Loops

open Relation

variable {g : Graph} {opts : Options} {s : State} {x : Element} {c : Context} {owners : Owners}
  {inner outer loop a b : String}

namespace Owners

theorem reaches_iff :
    owners.chain.reaches loop [] a = true ↔ TransGen (Points owners.owner?) a loop :=
  Chain.reaches_iff

end Owners

theorem nestedUnder_iff : nestedUnder c loop owners = true ↔ c.isInLoop = true ∧
    (c.loop = loop ∨ loop ∈ c.path ∨ TransGen (Points owners.owner?) c.loop loop) := by
  simp only [nestedUnder, Bool.and_eq_true, Bool.or_eq_true, beq_iff_eq, List.contains_iff_mem,
    Owners.reaches_iff, or_assoc]

/-- Every loop has one owner at most, so that the owner that is listed is the one that is found. -/
theorem points_owner?_of_owned (hg : g.Distinct) (hrun : ReflTransGen (Moves g opts) {} s)
    (hnames : ∀ e ∈ g.elements, e.name ≠ "") (h : Owned (ownersOf g s.context?) a b) :
    Points (ownersOf g s.context?).owner? a b := by
  have hpoints := ((owned_ownersOf_iff hg hrun).mp h).2
  have hsome : ((ownersOf g s.context?).find? (·.1 == a)).isSome := by
    rw [List.find?_isSome]
    exact ⟨_, h, by simp⟩
  obtain ⟨⟨k, v⟩, hfind⟩ := Option.isSome_iff_exists.mp hsome
  have hk : k = a := by simpa using List.find?_some hfind
  have hother := ((owned_ownersOf_iff hg hrun).mp (List.mem_of_find?_eq_some hfind)).2
  rw [hk, Points, hpoints, Option.some.injEq] at hother
  have hb : b ≠ "" := by
    obtain ⟨c, hc, rfl⟩ := State.owner?_eq_some.mp hpoints
    obtain ⟨_, -, -, l, _, hw⟩ := witnessed_run hg hrun hc
    exact hw.loop ▸ hnames l (Graph.mem_loops.mp hw.isLoop).1
  simp [Points, Owners.owner?, hfind, ← hother, hb]

/-- The elements that are passed on the way are no loops, so that an element which is none itself is
in a loop by its context or by the owners only. -/
theorem not_mem_path (hg : g.Distinct) (hrun : ReflTransGen (Moves g opts) {} s)
    (hx : x ∈ g.elements) (hk : x.kind ≠ .loop) (hc : s.context? x.name = some c)
    (hloop : g.isLoop loop = true) : loop ∉ c.path := by
  intro hmem
  obtain ⟨x', hx', hn, l, path, hw⟩ := witnessed_run hg hrun hc
  obtain rfl := hg.eq_of_name hx' hx hn
  rw [hw.names] at hmem
  obtain ⟨a, ha, rfl⟩ := List.mem_map.mp hmem
  have hak : a.kind = .loop := (hg.isLoop_iff (hw.mem a ha)).mp hloop
  rw [← List.dropLast_append_getLast? x' hw.last] at ha
  obtain ha | ha := List.mem_append.mp ha
  · exact hw.inner a ha hak
  · exact hk (List.mem_singleton.mp ha ▸ hak)

theorem nestedUnder_of_owned (hg : g.Distinct) (hrun : ReflTransGen (Moves g opts) {} s)
    (hnames : ∀ e ∈ g.elements, e.name ≠ "") (hx : x ∈ g.elements) (hk : x.kind ≠ .loop)
    (hc : s.context? x.name = some c)
    (howned : TransGen (Owned (ownersOf g s.context?)) inner outer)
    (h : nestedUnder c inner (ownersOf g s.context?) = true) :
    nestedUnder c outer (ownersOf g s.context?) = true := by
  have hpoints : TransGen (Points (ownersOf g s.context?).owner?) inner outer :=
    TransGen.mono (fun _ _ ↦ points_owner?_of_owned hg hrun hnames) _ _ howned
  obtain ⟨hin, hwhere⟩ := nestedUnder_iff.mp h
  refine nestedUnder_iff.mpr ⟨hin, .inr (.inr ?_)⟩
  obtain rfl | hpath | hchain := hwhere
  · exact hpoints
  · obtain ⟨y, hfirst, -⟩ := TransGen.head'_iff.mp howned
    have hloop := ((owned_ownersOf_iff hg hrun).mp hfirst).1
    exact absurd hpath (not_mem_path hg hrun hx hk hc hloop)
  · exact hchain.trans hpoints

end FlowAudit.Loops

namespace FlowAudit

open Loops Relation

namespace LoopLoad

variable {l m : LoopLoad}

theorem penalty_mono (hdml : l.dml ≤ m.dml) (hsoql : l.soql ≤ m.soql)
    (hsubflows : l.subflows ≤ m.subflows) : l.penalty ≤ m.penalty := by
  have hsort : ∀ {k n : Nat} (points : Nat), k ≤ n →
      (if 0 < k then points else 0) ≤ if 0 < n then points else 0 := by
    intro k n points hkn
    split
    · rw [if_pos (by omega)]
    · exact Nat.zero_le _
  have hops : l.ops ≤ m.ops := by
    unfold ops
    omega
  unfold penalty
  have hmany : min 20 ((l.ops - 5) * 2) ≤ min 20 ((m.ops - 5) * 2) := by omega
  have := hsort 30 hdml
  have := hsort 20 hsoql
  have := hsort 15 hsubflows
  omega

end LoopLoad

namespace Metrics

variable {members : List (Element × Context)} {owners : Owners} {inner outer : String}

/-- If all operations of a sort that run in one loop run in the other too, then there are no more of
them. -/
theorem length_kinds_le {p : StepKind → Bool}
    (h : ∀ m ∈ members, p m.1.kind = true → nestedUnder m.2 inner owners = true →
      nestedUnder m.2 outer owners = true) :
    (((members.filter fun (_, c) ↦ nestedUnder c inner owners).map fun (e, _) ↦ e.kind).filter
        p).length ≤
      (((members.filter fun (_, c) ↦ nestedUnder c outer owners).map fun (e, _) ↦ e.kind).filter
        p).length := by
  have hswap : ∀ loop, (((members.filter fun (_, c) ↦ nestedUnder c loop owners).map
      fun (e, _) ↦ e.kind).filter p).length =
        members.countP fun m ↦ p m.1.kind && nestedUnder m.2 loop owners := by
    intro loop
    rw [List.filter_map, List.length_map, List.filter_filter, List.countP_eq_length_filter]
    rfl
  rw [hswap, hswap]
  refine List.countP_mono_left fun m hm hcount ↦ ?_
  rw [Bool.and_eq_true] at hcount ⊢
  exact ⟨hcount.1, h m hm hcount.1 hcount.2⟩

section Loads

variable {g : Graph} {opts : Options} {s : State} {name : String}

theorem mem_iterated {m : Element × Context} :
    m ∈ iterated g s ↔ m.1 ∈ g.elements ∧ s.context? m.1.name = some m.2 := by
  simp only [iterated, List.mem_filterMap, Option.map_eq_some_iff]
  constructor
  · rintro ⟨e, he, c, hc, rfl⟩
    exact ⟨he, hc⟩
  · rintro ⟨he, hc⟩
    exact ⟨m.1, he, m.2, hc, rfl⟩

theorem filter_loadsOf (hg : g.Distinct) (hloop : g.isLoop name = true) :
    (loadsOf g s).filter (·.loop == name) =
      [loadOf (iterated g s) (ownersOf g s.context?) name] := by
  have hkind : g.kind? name = some .loop := by simpa [Graph.isLoop] using hloop
  obtain ⟨l, hfind, hk⟩ := Option.map_eq_some_iff.mp hkind
  obtain ⟨hle, rfl⟩ := Graph.mem_of_find? hfind
  have hl : l ∈ g.loops := Graph.mem_loops.mpr ⟨hle, hk⟩
  have hnodup : g.loops.Nodup := (List.Nodup.of_map _ hg).filter _
  have hsame : g.loops.filter (fun l' ↦ l'.name == l.name) = g.loops.filter (· == l) := by
    refine List.filter_congr fun l' hl' ↦ ?_
    have hiff : l'.name = l.name ↔ l' = l :=
      ⟨hg.eq_of_name (Graph.mem_loops.mp hl').1 hle, fun h ↦ h ▸ rfl⟩
    simp [hiff, Bool.beq_eq_decide_eq]
  rw [loadsOf, List.filter_map]
  change (g.loops.filter fun l' ↦ l'.name == l.name).map _ = _
  rw [hsame, List.filter_beq, List.count_eq_one_of_mem hnodup hl]
  rfl

/-- Operations are not loops, so that those which run in a loop run in the loops around it. -/
theorem length_kinds_le_of_owned (hg : g.Distinct) (hrun : ReflTransGen (Moves g opts) {} s)
    (hnames : ∀ e ∈ g.elements, e.name ≠ "") {p : StepKind → Bool} (hp : p .loop = false)
    (h : TransGen (Owned (ownersOf g s.context?)) inner outer) :
    ((((iterated g s).filter fun (_, c) ↦ nestedUnder c inner (ownersOf g s.context?)).map
        fun (e, _) ↦ e.kind).filter p).length ≤
      ((((iterated g s).filter fun (_, c) ↦ nestedUnder c outer (ownersOf g s.context?)).map
        fun (e, _) ↦ e.kind).filter p).length := by
  apply length_kinds_le
  intro m hm hkind
  obtain ⟨hx, hc⟩ := mem_iterated.mp hm
  have hk : m.1.kind ≠ .loop := by
    intro hk
    rw [hk, hp] at hkind
    cases hkind
  exact nestedUnder_of_owned hg hrun hnames hx hk hc h

end Loads

/-- A loop is charged for everything that the loops inside it are charged for. If the one loop lies
in the other, through any number of loops, then each of both has one load, and the outer loop's has
at least as many operations of each sort and at least the penalty of the inner one's. -/
theorem outer_loop_charged_as_much (md : Metadata) (opts : Options) (depth : Int)
    {inner outer : String}
    (h : TransGen (Owned (ownersOf (Graph.build md) (propagate (Graph.build md) opts).context?))
      inner outer) :
    let m := compute md (Graph.build md) (propagate (Graph.build md) opts) depth
    ∃ i o, m.loads.filter (·.loop == inner) = [i] ∧ m.loads.filter (·.loop == outer) = [o] ∧
      i.dml ≤ o.dml ∧ i.soql ≤ o.soql ∧ i.subflows ≤ o.subflows ∧ i.penalty ≤ o.penalty := by
  have hg := Graph.distinct_build md
  have hrun := propagate_run (Graph.build md) opts
  have hnames := fun e (he : e ∈ (Graph.build md).elements) ↦ Graph.name_ne_empty md he
  obtain ⟨_, hfirst, -⟩ := TransGen.head'_iff.mp h
  obtain ⟨_, -, hlast⟩ := TransGen.tail'_iff.mp h
  have hinner := ((owned_ownersOf_iff hg hrun).mp hfirst).1
  have houter := (((owned_ownersOf_iff hg hrun).mp hlast).2).isLoop hg hrun
  have hdml := length_kinds_le_of_owned hg hrun hnames (p := (·.isDml)) rfl h
  have hsoql := length_kinds_le_of_owned hg hrun hnames (p := (·.isSoql)) rfl h
  have hsubflows := length_kinds_le_of_owned hg hrun hnames (p := (· = .subflow)) rfl h
  exact ⟨_, _, filter_loadsOf hg hinner, filter_loadsOf hg houter, hdml, hsoql, hsubflows,
    LoopLoad.penalty_mono hdml hsoql hsubflows⟩

/-- The records that the inner loop of `nestedFlow` writes, and the call for which it is left, are
charged to the outer loop as well. -/
theorem nested_operations_charged_twice :
    let g := Graph.build nestedFlow
    TransGen (Owned (ownersOf g (propagate g {}).context?)) "Inner" "Outer" ∧
    ∃ i o, (compute nestedFlow g (propagate g {}) 0).loads.filter (·.loop == "Inner") = [i] ∧
      (compute nestedFlow g (propagate g {}) 0).loads.filter (·.loop == "Outer") = [o] ∧
      i.dml = 2 ∧ i.subflows = 1 ∧ 2 ≤ o.dml ∧ 1 ≤ o.subflows ∧ i.penalty ≤ o.penalty := by
  intro g
  have howned : ("Inner", "Outer") ∈ ownersOf g (propagate g {}).context? := by decide +kernel
  have hload : (compute nestedFlow g (propagate g {}) 0).loads.filter (·.loop == "Inner") =
      [⟨"Inner", 2, 0, 1⟩] := by decide +kernel
  obtain ⟨i, o, hi, ho, hdml, -, hsubflows, hpenalty⟩ :=
    outer_loop_charged_as_much nestedFlow {} 0 (.single howned)
  obtain rfl : i = ⟨"Inner", 2, 0, 1⟩ := List.singleton_inj.mp (hi.symm.trans hload)
  exact ⟨.single howned, _, o, hi, ho, rfl, rfl, hdml, hsubflows, hpenalty⟩

end Metrics

end FlowAudit
