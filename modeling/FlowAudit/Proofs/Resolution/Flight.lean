import FlowAudit.Proofs.Resolution.Effects
import FlowAudit.Proofs.Resolution.Totals
import Mathlib.Data.List.Induction

namespace FlowAudit.Resolve

variable {src : Source} {opts : Resolver.Options} {q : Request} {m : Moment} {name : String}

/-- The books of a resolver that analyzes flows of these names for their entries are in order. -/
structure Sound (r : Resolver) (names : List String) : Prop where
  orderly : r.Orderly names
  remembered : r.asked = r.fetched.map (·.1)
  distinct : (r.fetched.map (·.1)).Nodup
  silent : ∀ e ∈ r.log, e.message ≠ waitMessage

theorem sound_empty : Sound {} [] :=
  ⟨Resolver.orderly_empty, rfl, List.nodup_nil, fun _ h ↦ absurd h List.not_mem_nil⟩

theorem Sound.mem_chain (h : Sound m.resolver m.kept) (hopen : m.resolver.find? name = some none) :
    name ∈ m.chain :=
  Moment.mem_chain_of_mem_kept ((h.orderly.open_iff name).mp hopen)

theorem Sound.next (h : Sound m.resolver m.kept) (src : Source) (opts : Resolver.Options) :
    Sound (m.next src opts).resolver (m.next src opts).kept := by
  have heffect := effect_next src opts m
  refine ⟨h.orderly.move heffect.move, heffect.gathers.remembered h.remembered,
    heffect.gathers.distinct h.distinct, fun e he ↦ ?_⟩
  obtain he | hmessage | hopen := heffect.gathers.said e he
  · exact h.silent e he
  · exact hmessage
  · obtain ⟨depth, name, isInLoop, -, hchain, hopen⟩ := hopen
    exact absurd (h.mem_chain hopen) hchain

theorem Sound.iterate (h : Sound m.resolver m.kept) (src : Source) (opts : Resolver.Options)
    (n : Nat) : Sound ((Moment.next src opts)^[n] m).resolver ((Moment.next src opts)^[n] m).kept := by
  induction n with
  | zero => exact h
  | succ n ih =>
    rw [Function.iterate_succ_apply']
    exact ih.next src opts

def afterCalls (opts : Resolver.Options) (calls : List (Source × Request)) : Resolver :=
  calls.foldl (fun r call ↦ ((call.2.answer call.1 opts).run r).2) {}

theorem afterCalls_concat (calls : List (Source × Request)) (src : Source) (q : Request) :
    afterCalls opts (calls ++ [(src, q)]) =
      ((q.answer src opts).run (afterCalls opts calls)).2 := by
  rw [afterCalls, List.foldl_concat]
  rfl

def moment (opts : Resolver.Options) (earlier : List (Source × Request)) (src : Source) (q : Request)
    (n : Nat) : Moment :=
  (Moment.next src opts)^[n] (.initial q (afterCalls opts earlier))

theorem moment_succ (earlier : List (Source × Request)) (n : Nat) :
    moment opts earlier src q (n + 1) = (moment opts earlier src q n).next src opts :=
  Function.iterate_succ_apply' ..

theorem exists_moment_final (opts : Resolver.Options) (earlier : List (Source × Request))
    (src : Source) (q : Request) : ∃ n, moment opts earlier src q n =
      .final ((q.answer src opts).run (afterCalls opts earlier)) :=
  reaches_answer src opts q (afterCalls opts earlier)

theorem sound_afterCalls (opts : Resolver.Options) (calls : List (Source × Request)) :
    Sound (afterCalls opts calls) [] := by
  induction calls using List.reverseRecOn with
  | nil => exact sound_empty
  | append_singleton calls call ih =>
    obtain ⟨src, q⟩ := call
    obtain ⟨n, hn⟩ := reaches_answer src opts q (afterCalls opts calls)
    have hfinal := Sound.iterate (m := .initial q (afterCalls opts calls)) ih src opts n
    rw [hn] at hfinal
    rw [afterCalls_concat]
    exact hfinal

theorem sound_moment (opts : Resolver.Options) (earlier : List (Source × Request)) (src : Source)
    (q : Request) (n : Nat) :
    Sound (moment opts earlier src q n).resolver (moment opts earlier src q n).kept :=
  Sound.iterate (m := .initial q (afterCalls opts earlier)) (sound_afterCalls opts earlier) src opts n

/-- At every moment of the work on a request, which ends with the answer, the flows with open entries
are among those being analyzed. So whenever a flow is looked up, there is no entry for it or one that
is settled, and it is never logged that an entry was found open. -/
theorem never_waits_for_itself (opts : Resolver.Options) (earlier : List (Source × Request))
    (src : Source) (q : Request) :
    (∃ n, moment opts earlier src q n =
      .final ((q.answer src opts).run (afterCalls opts earlier))) ∧
    (∀ n name, (moment opts earlier src q n).resolver.find? name = some none →
      name ∈ (moment opts earlier src q n).chain) ∧
    (∀ n depth name isInLoop,
      (moment opts earlier src q n).control = .ask depth name isInLoop →
      name ∉ (moment opts earlier src q n).chain →
      (moment opts earlier src q n).resolver.find? name = none ∨
        ∃ o, (moment opts earlier src q n).resolver.find? name = some (some o)) ∧
    ∀ e ∈ ((q.answer src opts).run (afterCalls opts earlier)).2.log, e.message ≠ waitMessage := by
  have hsound := sound_moment opts earlier src q
  obtain ⟨last, hlast⟩ := exists_moment_final opts earlier src q
  refine ⟨⟨last, hlast⟩, fun n name ↦ (hsound n).mem_chain, ?_, fun e he ↦ ?_⟩
  · intro n depth name isInLoop _ hchain
    cases hfind : (moment opts earlier src q n).resolver.find? name with
    | none => exact .inl rfl
    | some e =>
      cases e with
      | none => exact absurd ((hsound n).mem_chain hfind) hchain
      | some o => exact .inr ⟨o, rfl⟩
  · have hfinal := hsound last
    rw [hlast] at hfinal
    exact hfinal.silent e he

-- `C` is analyzed within its own analysis, while its entry and that of `B` are open.
example : (moment { maxDepth := 4 } [] recursiveFlows (.named "A") 10).chain = ["A", "B", "C", "C"] ∧
    (moment { maxDepth := 4 } [] recursiveFlows (.named "A") 10).resolver.entries.map
      (fun e ↦ (e.1, e.2.isNone)) = [("C", true), ("B", true)] := by
  decide +kernel

end FlowAudit.Resolve
