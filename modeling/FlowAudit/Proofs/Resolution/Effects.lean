import FlowAudit.Proofs.Resolution.Entries

namespace FlowAudit.Resolve

variable {α : Type} {src : Source} {opts : Resolver.Options} {Allowed Allowed' : String → Prop}
  {Waits : Prop} {r r' : Resolver} {name : String} {depth : Int} {c : Control} {s : List Suspended}

def waitMessage : String := "sub-workflow in flight on a waiting resolution"

/-- The source is asked for no definitions but allowed ones, and for none that the resolver has got. An
entry is logged to be open only if it is. -/
structure Gathers (Allowed : String → Prop) (Waits : Prop) (r r' : Resolver) : Prop where
  remembered : r.asked = r.fetched.map (·.1) → r'.asked = r'.fetched.map (·.1)
  distinct : (r.fetched.map (·.1)).Nodup → (r'.fetched.map (·.1)).Nodup
  only : ∀ name ∈ r'.fetched.map (·.1), name ∈ r.fetched.map (·.1) ∨ Allowed name
  said : ∀ e ∈ r'.log, e ∈ r.log ∨ e.message ≠ waitMessage ∨ Waits

structure Fetches (Allowed : String → Prop) (Waits : Prop) (r r' : Resolver) : Prop extends
    Resolver.SameEntries r r', Gathers Allowed Waits r r'

namespace Fetches

theorem refl (r : Resolver) : Fetches Allowed Waits r r :=
  ⟨⟨rfl, rfl, rfl⟩, ⟨id, id, fun _ ↦ .inl, fun _ ↦ .inl⟩⟩

theorem mono (h : Fetches Allowed Waits r r') (hmono : ∀ name, Allowed name → Allowed' name) :
    Fetches Allowed' Waits r r' :=
  { h with only := fun name hname ↦ (h.only name hname).imp_right (hmono name) }

theorem log (level : Log.Level) {message : String} (attributes : List (String × Log.Value))
    (hm : message ≠ waitMessage ∨ Waits) :
    Ensures (Fetches Allowed Waits r) (Resolve.log level message attributes) fun _ ↦
      Fetches Allowed Waits r := by
  refine Ensures.modify fun r' h ↦ { h with said := fun e he ↦ ?_ }
  obtain rfl | he := List.mem_cons.mp he
  · exact .inr hm
  · exact h.said e he

theorem fetch (src : Source) (hname : Allowed name) :
    Ensures (Fetches Allowed Waits r) (Resolve.fetch src name) fun _ ↦ Fetches Allowed Waits r := by
  refine Ensures.get_bind fun r' h ↦ ?_
  cases hf : r'.fetched.find? (·.1 == name) with
  | some p => exact Ensures.pure fun _ heq ↦ heq ▸ h
  | none =>
    have hnew : name ∉ r'.fetched.map (·.1) := by
      intro hmem
      obtain ⟨p, hp, rfl⟩ := List.mem_map.mp hmem
      simpa using List.find?_eq_none.mp hf p hp
    rintro _ rfl
    refine { h with
      remembered := fun hr ↦ congrArg _ (h.remembered hr), distinct := fun hd ↦ ?_
      only := fun n hn ↦ ?_ }
    · exact List.nodup_cons.mpr ⟨hnew, h.distinct hd⟩
    · obtain rfl | hn := List.mem_cons.mp hn
      · exact .inr hname
      · exact h.only n hn

theorem prefetch (src : Source) (opts : Resolver.Options) {names : List String}
    (hnames : depth < opts.maxDepth → ∀ name ∈ names, Allowed name) :
    Ensures (Fetches Allowed Waits r) (Resolve.prefetch src opts depth names) fun _ ↦
      Fetches Allowed Waits r := by
  refine Ensures.get_bind fun r' h ↦ ?_
  dsimp only
  split
  next hif =>
    simp only [Bool.and_eq_true, decide_eq_true_eq] at hif
    refine (Ensures.forM fun name hname ↦ ?_).weaken (fun _ heq ↦ heq ▸ h) fun _ _ h ↦ h
    have hallowed := hnames hif.1.1 name (List.mem_of_mem_filter hname)
    exact Ensures.bind (fetch src hallowed) fun _ ↦ Ensures.pure fun _ h ↦ h
  next => exact Ensures.pure fun _ heq ↦ heq ▸ h

theorem enter (h : Fetches Allowed Waits r r') (name : String) :
    Fetches Allowed Waits (r.enter name) (r'.enter name) where
  entries := by rw [Resolver.enter, Resolver.enter, h.entries]
  misses := by rw [Resolver.enter, Resolver.enter, h.misses]
  computations := by rw [Resolver.enter, Resolver.enter, h.computations]
  remembered := h.remembered
  distinct := h.distinct
  only := h.only
  said := h.said

theorem callOne (o : Outcome) (a : Analysis) (name : String) (isInLoop : Bool) :
    Ensures (Fetches Allowed Waits r) (callOne (fun _ _ ↦ pure o) a name isInLoop) fun _ ↦
      Fetches Allowed Waits r := by
  refine Ensures.bind (Q := fun _ ↦ Fetches Allowed Waits r) (Ensures.pure fun _ h ↦ h) fun o ↦ ?_
  cases o with
  | ok child => exact Ensures.pure fun _ h ↦ h
  | error e => exact Ensures.bind (log _ _ (.inl (by decide))) fun _ ↦ Ensures.pure fun _ h ↦ h

end Fetches

namespace Control

def openFlow? : Control → Option (String × Bool)
  | make isKept _ name => some (name, isKept)
  | work t => some (t.name, t.isKept)
  | start _ | ask _ _ _ | tell _ => none

def needs? : Control → Option String
  | start (.named root) => some root
  | make _ _ name => some name
  | start (.given _) | start (.called _ _ _) | ask _ _ _ | work _ | tell _ => none

def calls : Control → List (String × Int)
  | ask depth name _ | make _ depth name => [(name, depth)]
  | work t => t.waiting.map fun call ↦ (call.1, t.depth + 1)
  | start _ | tell _ => []

def MayFetch (opts : Resolver.Options) (c c' : Control) (name : String) : Prop :=
  c.needs? = some name ∨ ∃ depth < (opts.maxDepth : Int), (name, depth) ∈ c'.calls

end Control

namespace Moment

def openFlows (m : Moment) : List (String × Bool) :=
  m.control.openFlow?.toList ++ m.suspended.map fun f ↦ (f.1.name, f.1.isKept)

def chain (m : Moment) : List String := (m.openFlows.map (·.1)).reverse

def kept (m : Moment) : List String := (m.openFlows.filter (·.2)).map (·.1)

theorem mem_chain_of_mem_kept {m : Moment} (h : name ∈ m.kept) : name ∈ m.chain := by
  obtain ⟨p, hp, rfl⟩ := List.mem_map.mp h
  exact List.mem_reverse.mpr (List.mem_map_of_mem (List.mem_of_mem_filter hp))

theorem chain_ask (depth : Int) (name : String) (isInLoop : Bool) (s : List Suspended)
    (r : Resolver) : chain ⟨.ask depth name isInLoop, s, r⟩ = chainOf s := by
  simp [chain, openFlows, Control.openFlow?, chainOf]

/-- A flow is looked up, and its entry is still open. -/
def FindsOpen (m : Moment) : Prop :=
  ∃ depth name isInLoop, m.control = .ask depth name isInLoop ∧ name ∉ m.chain ∧
    m.resolver.find? name = some none

def Within (opts : Resolver.Options) (m : Moment) : Prop :=
  ∀ name, m.control.needs? = some name →
    ∃ depth < (opts.maxDepth : Int), (name, depth) ∈ m.control.calls

/-- What becomes of a resolver from one moment to the next. -/
structure Effect (opts : Resolver.Options) (m m' : Moment) : Prop where
  move : Resolver.Move m.resolver m.kept m'.resolver m'.kept
  gathers : Gathers (m.control.MayFetch opts m'.control) m.FindsOpen m.resolver m'.resolver
  within : m'.Within opts

end Moment

open Moment

def During (m : Moment) : Resolver → Prop :=
  Fetches (m.control.needs? = some ·) m.FindsOpen m.resolver

theorem During.mayFetch {m : Moment} (h : During m r') (c' : Control) :
    Fetches (m.control.MayFetch opts c') m.FindsOpen m.resolver r' :=
  h.mono fun _ ↦ .inl

theorem effect_pure {m : Moment} {c' : Control} {s' : List Suspended}
    (hkept : (⟨c', s', m.resolver⟩ : Moment).kept = m.kept)
    (hwithin : Within opts ⟨c', s', m.resolver⟩) :
    Ensures (During m) (pure (c', s')) fun p r' ↦ m.Effect opts ⟨p.1, p.2, r'⟩ :=
  Ensures.pure fun _ h ↦ ⟨hkept ▸ .stay h.toSameEntries, (h.mayFetch c').toGathers, hwithin⟩

/-- The flow under analysis gives what came of it to its entry, if it is analyzed for one. -/
theorem effect_settle {m : Moment} {isKept : Bool} (o : Outcome)
    (hkept : m.kept = (if isKept then [name] else []) ++ (⟨.tell o, s, m.resolver⟩ : Moment).kept) :
    Ensures (During m) (do settle isKept name o; return (.tell o, s)) fun p r' ↦
      m.Effect opts ⟨p.1, p.2, r'⟩ := by
  have hwithin : Within opts ⟨.tell o, s, m.resolver⟩ := by rintro _ ⟨⟩
  cases isKept with
  | false => exact effect_pure (hkept.symm) hwithin
  | true =>
    refine Ensures.bind (Q := fun _ r' ↦ m.Effect opts ⟨.tell o, s, r'⟩)
      (Ensures.modify fun r' h ↦ ?_) fun _ ↦ Ensures.pure fun _ h ↦ h
    refine ⟨hkept ▸ .finish (h.finish name o), ?_, hwithin⟩
    exact { (h.mayFetch _).toGathers with }

/-- The analysis of a flow begins, with the definitions fetched ahead of its calls. -/
theorem effect_takeUp {m : Moment} {isKept : Bool} (md : Metadata) (version : Version)
    (hkept : (if isKept then [name] else []) ++ (⟨.tell default, s, m.resolver⟩ : Moment).kept =
      m.kept) :
    Ensures (During m)
      (do return (.work (← takeUp src opts isKept depth name md version), s)) fun p r' ↦
      m.Effect opts ⟨p.1, p.2, r'⟩ := by
  let t : Task := ⟨name, depth, isKept, ownAnalysis opts md (some version) depth, callsOf opts md⟩
  have hprefetch : Ensures (During m)
      (prefetch src opts (depth + 1) ((callsOf opts md).map (·.1))) fun _ ↦
      Fetches (m.control.MayFetch opts (.work t)) m.FindsOpen m.resolver := by
    refine (Fetches.prefetch src opts fun hdepth n hn ↦ .inr ⟨depth + 1, hdepth, ?_⟩).weaken
      (fun r' h ↦ h.mayFetch _) fun _ _ h ↦ h
    obtain ⟨call, hcall, rfl⟩ := List.mem_map.mp hn
    exact List.mem_map_of_mem hcall
  refine Ensures.bind (Ensures.bind hprefetch fun _ ↦ Ensures.pure (Q := fun t' r' ↦ t' = t ∧
    Fetches (m.control.MayFetch opts (.work t)) m.FindsOpen m.resolver r') fun _ h ↦ ⟨rfl, h⟩)
    fun t' ↦ Ensures.pure ?_
  rintro r' ⟨rfl, h⟩
  have hkept' : (⟨.work t, s, r'⟩ : Moment).kept = m.kept := by
    rw [← hkept]
    cases isKept <;> rfl
  exact ⟨hkept' ▸ .stay h.toSameEntries, h.toGathers, by rintro _ ⟨⟩⟩

theorem effect_start (q : Request) :
    Ensures (During ⟨.start q, s, r⟩) (step src opts (.start q) s) fun p r' ↦
      Effect opts ⟨.start q, s, r⟩ ⟨p.1, p.2, r'⟩ := by
  cases q with
  | named root =>
    refine Ensures.bind (Fetches.fetch src rfl) fun fetched ↦ ?_
    cases fetched <;> exact effect_pure rfl (by rintro _ ⟨⟩)
  | given d =>
    simp only [step]
    cases Metadata.ofDefinition d with
    | error e => exact effect_pure rfl (by rintro _ ⟨⟩)
    | ok md => exact effect_takeUp md d.version rfl
  | called depth name isInLoop => exact effect_pure rfl (by rintro _ ⟨⟩)

theorem within_make {isKept : Bool} (hlimit : depth < opts.maxDepth) :
    Within opts ⟨.make isKept depth name, s, r⟩ := by
  rintro _ ⟨⟩
  exact ⟨depth, hlimit, List.mem_singleton_self _⟩

theorem effect_enter {isInLoop : Bool} (attributes : List (String × Log.Value))
    (hlimit : depth < opts.maxDepth) (hnew : r.find? name = none) :
    Ensures (During ⟨.ask depth name isInLoop, s, r⟩) (do
        modify (Resolver.enter name)
        log .debug "resolving sub-workflow" attributes
        return (.make true depth name, s)) fun p r' ↦
      Effect opts ⟨.ask depth name isInLoop, s, r⟩ ⟨p.1, p.2, r'⟩ := by
  refine Ensures.bind (Q := fun _ ↦ Fetches _ _ (r.enter name))
    (Ensures.modify fun _ h ↦ h.enter name) fun _ ↦ ?_
  refine Ensures.bind (Fetches.log _ _ (.inl (by decide))) fun _ ↦ Ensures.pure fun _ h ↦ ?_
  exact ⟨.enter hnew h.toSameEntries, { (h.mono fun _ ↦ .inl).toGathers with }, within_make hlimit⟩

theorem effect_ask (depth : Int) (name : String) (isInLoop : Bool) :
    Ensures (During ⟨.ask depth name isInLoop, s, r⟩) (step src opts (.ask depth name isInLoop) s) fun p r' ↦
      Effect opts ⟨.ask depth name isInLoop, s, r⟩ ⟨p.1, p.2, r'⟩ := by
  simp only [step]
  split
  next => exact Ensures.bind (Fetches.log _ _ (.inl (by decide))) fun _ ↦ effect_pure rfl (by rintro _ ⟨⟩)
  next hlimit =>
    have hlimit : depth < opts.maxDepth := by omega
    split
    next => exact Ensures.bind (Fetches.log _ _ (.inl (by decide))) fun _ ↦
      effect_pure rfl (within_make hlimit)
    next hchain =>
      refine Ensures.get_bind fun r' h ↦ ?_
      cases hfind : r'.find? name with
      | none =>
        have hnew : r.find? name = none := by rw [← h.find?, hfind]
        exact (effect_enter _ hlimit hnew).weaken (fun _ heq ↦ heq ▸ h) fun _ _ h ↦ h
      | some e =>
        cases e with
        | none =>
          have hopen : FindsOpen ⟨.ask depth name isInLoop, s, r⟩ := by
            refine ⟨depth, name, isInLoop, rfl, ?_, by rw [← h.find?, hfind]⟩
            simpa [chain_ask] using hchain
          refine Ensures.bind (Q := fun _ ↦ During _) ?_ fun _ ↦ effect_pure rfl (within_make hlimit)
          exact (Fetches.log _ _ (.inr hopen)).weaken (fun _ heq ↦ heq ▸ h) fun _ _ h ↦ h
        | some o =>
          refine Ensures.bind (Q := fun _ ↦ During _) (Ensures.modify fun _ heq ↦ ?_) fun _ ↦
            effect_pure rfl (by rintro _ ⟨⟩)
          exact heq ▸ { h with }

theorem effect_make (isKept : Bool) (depth : Int) (name : String) :
    Ensures (During ⟨.make isKept depth name, s, r⟩) (step src opts (.make isKept depth name) s) fun p r' ↦
      Effect opts ⟨.make isKept depth name, s, r⟩ ⟨p.1, p.2, r'⟩ := by
  refine Ensures.bind (Fetches.fetch src rfl) fun fetched ↦ ?_
  have hkept (o : Outcome) : (⟨.make isKept depth name, s, r⟩ : Moment).kept =
      (if isKept then [name] else []) ++ (⟨.tell o, s, r⟩ : Moment).kept := by
    cases isKept <;> rfl
  cases fetched with
  | error e => exact effect_settle _ (hkept _)
  | ok d =>
    dsimp only
    cases Metadata.ofDefinition d with
    | error e => exact effect_settle _ (hkept _)
    | ok md => exact effect_takeUp md d.version (hkept _).symm

theorem effect_work (t : Task) :
    Ensures (During ⟨.work t, s, r⟩) (step src opts (.work t) s) fun p r' ↦
      Effect opts ⟨.work t, s, r⟩ ⟨p.1, p.2, r'⟩ := by
  obtain ⟨name, depth, isKept, a, calls⟩ := t
  cases calls with
  | nil =>
    refine effect_settle _ ?_
    cases isKept <;> rfl
  | cons call calls => exact effect_pure rfl (by rintro _ ⟨⟩)

theorem effect_tell (o : Outcome) :
    Ensures (During ⟨.tell o, s, r⟩) (step src opts (.tell o) s) fun p r' ↦
      Effect opts ⟨.tell o, s, r⟩ ⟨p.1, p.2, r'⟩ := by
  cases s with
  | nil => exact effect_pure rfl (by rintro _ ⟨⟩)
  | cons f s =>
    refine Ensures.bind (Fetches.callOne o _ _ _) fun a ↦ ?_
    exact effect_pure rfl (by rintro _ ⟨⟩)

/-- What a step can do. -/
theorem effect_next (src : Source) (opts : Resolver.Options) (m : Moment) :
    m.Effect opts (m.next src opts) := by
  suffices h : Ensures (During m) (step src opts m.control m.suspended) fun p r' ↦
      m.Effect opts ⟨p.1, p.2, r'⟩ from h m.resolver (Fetches.refl m.resolver)
  obtain ⟨c, s, r⟩ := m
  cases c with
  | start q => exact effect_start q
  | ask depth name isInLoop => exact effect_ask depth name isInLoop
  | make isKept depth name => exact effect_make isKept depth name
  | work t => exact effect_work t
  | tell o => exact effect_tell o

end FlowAudit.Resolve
