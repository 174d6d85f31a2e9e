import FlowAudit.Proofs.Resolution.Flight

namespace FlowAudit.Resolve

variable {src : Source} {opts : Resolver.Options} {q : Request} {name : String} {o : Outcome}
  {earlier calls : List (Source × Request)}

def CalledAt (opts : Resolver.Options) (calls : List (Source × Request)) (name : String)
    (depth : Int) : Prop :=
  ∃ earlier src q later n, calls = earlier ++ (src, q) :: later ∧
    (name, depth) ∈ (moment opts earlier src q n).control.calls

theorem mem_fetched_moment {n : Nat}
    (h : name ∈ (moment opts earlier src q n).resolver.fetched.map (·.1)) :
    name ∈ (afterCalls opts earlier).fetched.map (·.1) ∨ q = .named name ∨
      ∃ depth < (opts.maxDepth : Int), ∃ k,
        (name, depth) ∈ (moment opts earlier src q k).control.calls := by
  induction n with
  | zero => exact .inl h
  | succ n ih =>
    have heffect := effect_next src opts (moment opts earlier src q n)
    rw [← moment_succ] at heffect
    obtain h | hneeds | ⟨depth, hdepth, hcalls⟩ := heffect.gathers.only name h
    · exact ih h
    · -- Only the request itself is followed up without a call.
      cases n with
      | zero =>
        refine .inr (.inl ?_)
        cases q with
        | named root => exact congrArg _ (Option.some.inj hneeds)
        | given d => cases hneeds
        | called depth name isInLoop => cases hneeds
      | succ n =>
        have hwithin := (effect_next src opts (moment opts earlier src q n)).within
        rw [← moment_succ] at hwithin
        obtain ⟨depth, hdepth, hcalls⟩ := hwithin name hneeds
        exact .inr (.inr ⟨depth, hdepth, n + 1, hcalls⟩)
    · exact .inr (.inr ⟨depth, hdepth, n + 1, hcalls⟩)

theorem CalledAt.append {depth : Int} (h : CalledAt opts calls name depth)
    (later : List (Source × Request)) : CalledAt opts (calls ++ later) name depth := by
  obtain ⟨earlier, src, q, rest, n, rfl, hn⟩ := h
  exact ⟨earlier, src, q, rest ++ later, n, by simp, hn⟩

/-- A definition was fetched for a request, or for a call that does not lie too deep. -/
theorem mem_fetched_afterCalls (h : name ∈ (afterCalls opts calls).fetched.map (·.1)) :
    (∃ src, (src, .named name) ∈ calls) ∨
      ∃ depth < (opts.maxDepth : Int), CalledAt opts calls name depth := by
  induction calls using List.reverseRecOn with
  | nil => cases h
  | append_singleton calls call ih =>
    obtain ⟨src, q⟩ := call
    obtain ⟨n, hn⟩ := exists_moment_final opts calls src q
    rw [afterCalls_concat] at h
    have hmoment : name ∈ (moment opts calls src q n).resolver.fetched.map (·.1) := hn ▸ h
    obtain h | rfl | ⟨depth, hdepth, k, hk⟩ := mem_fetched_moment hmoment
    · obtain ⟨src', hmem⟩ | ⟨depth, hdepth, hcalled⟩ := ih h
      · exact .inl ⟨src', List.mem_append_left _ hmem⟩
      · exact .inr ⟨depth, hdepth, hcalled.append _⟩
    · exact .inl ⟨src, by simp⟩
    · exact .inr ⟨depth, hdepth, calls, src, q, [], k, rfl, hk⟩

theorem find?_moment (h : (afterCalls opts earlier).find? name = some (some o)) (src : Source)
    (q : Request) (n : Nat) :
    (moment opts earlier src q n).resolver.find? name = some (some o) := by
  induction n with
  | zero => exact h
  | succ n ih =>
    rw [moment_succ]
    exact (sound_moment opts earlier src q n).orderly.find?_move (effect_next src opts _).move ih

theorem find?_afterCalls_append (h : (afterCalls opts calls).find? name = some (some o))
    (later : List (Source × Request)) :
    (afterCalls opts (calls ++ later)).find? name = some (some o) := by
  induction later using List.reverseRecOn with
  | nil => rwa [List.append_nil]
  | append_singleton later call ih =>
    obtain ⟨src, q⟩ := call
    obtain ⟨n, hn⟩ := exists_moment_final opts (calls ++ later) src q
    have hmoment := find?_moment ih src q n
    rw [hn] at hmoment
    rw [← List.append_assoc, afterCalls_concat]
    exact hmoment

/-- A flow that has been analyzed is told of from its entry. -/
theorem resolveAt_eq_served {r : Resolver} {depth : Int} {isInLoop : Bool}
    (h : r.find? name = some (some o)) (hdepth : depth < opts.maxDepth) :
    (resolveAt src opts depth name isInLoop).run r = (o.served, { r with hits := r.hits + 1 }) := by
  obtain ⟨left, hleft⟩ : ∃ left, ((opts.maxDepth : Int) - depth).toNat = left + 1 :=
    ⟨((opts.maxDepth : Int) - depth).toNat - 1, by omega⟩
  rw [resolveAt, hleft, resolve, if_neg (by simp)]
  simp only [StateT.run_bind, StateT.run_get, pure_bind, h]
  rfl

/-- Whatever was asked of a resolver, each time with the source as it was then: the source was asked at
most once for each flow, and only for flows that were asked for or called at a depth below the limit;
there is one settled entry for each time that one was missing and made; and what came of a flow is
told to all later calls below the limit, an analysis as one that was made earlier. -/
theorem fetched_and_analyzed_once (opts : Resolver.Options) (calls : List (Source × Request)) :
    (afterCalls opts calls).asked.Nodup ∧
    (∀ name ∈ (afterCalls opts calls).asked, (∃ src, (src, .named name) ∈ calls) ∨
      ∃ depth < (opts.maxDepth : Int), CalledAt opts calls name depth) ∧
    ((afterCalls opts calls).misses = (afterCalls opts calls).computations ∧
      (afterCalls opts calls).computations = (afterCalls opts calls).entries.length ∧
      ((afterCalls opts calls).entries.map (·.1)).Nodup ∧
      ∀ name, (afterCalls opts calls).find? name ≠ some none) ∧
    ∀ name o, (afterCalls opts calls).find? name = some (some o) →
      ∀ later src depth isInLoop, depth < (opts.maxDepth : Int) →
        ((resolveAt src opts depth name isInLoop).run (afterCalls opts (calls ++ later))).1 =
          o.served := by
  have hsound := sound_afterCalls opts calls
  have horderly := hsound.orderly
  refine ⟨?_, fun name hname ↦ ?_, ⟨?_, horderly.computations, horderly.distinct, ?_⟩, ?_⟩
  · rw [hsound.remembered]
    exact hsound.distinct
  · rw [hsound.remembered] at hname
    exact mem_fetched_afterCalls hname
  · rw [horderly.misses, horderly.computations]
  · intro name hopen
    cases (horderly.open_iff name).mp hopen
  · intro name o hfind later src depth isInLoop hdepth
    rw [resolveAt_eq_served (find?_afterCalls_append hfind later) hdepth]

-- The root has no entry, and the flow that is not there has one.
example :
    let calls := [(recursiveFlows, .named "A"), (recursiveFlows, .called 1 "C" false)]
    let r := afterCalls { maxDepth := 4 } calls
    r.asked = ["D", "C", "B", "A"] ∧ r.entries.map (·.1) = ["D", "C", "B"] ∧ r.misses = 3 ∧
      r.hits = 2 := by
  decide +kernel

end FlowAudit.Resolve
