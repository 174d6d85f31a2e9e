import FlowAudit.Graph.Basic
import FlowAudit.Loops.Chain
import FlowAudit.Loops.Context
import FlowAudit.Text.Character

namespace FlowAudit.Loops

def stripMergeField (expr : String) : String :=
  let cs := Text.trimChars expr.toList
  match cs with
  | '{' :: '!' :: rest =>
    if rest.getLast? == some '}' then String.ofList (Text.trimChars rest.dropLast)
    else String.ofList cs
  | cs => String.ofList cs

def referencesLoop (expr loop : String) : Bool :=
  loop != "" && loop.toList.isPrefixOf expr.toList &&
    match expr.toList.drop loop.toList.length with
    | [] => true
    | c :: _ => c == '.'

structure Options where
  /-- Passes contexts on from elements found by reference as well. -/
  alternate : Bool := false
  /-- Leaves out the edge by which a loop is left. -/
  excludeExitEdges : Bool := false
  deriving Inhabited, Repr, DecidableEq

structure Assignment where
  name : String
  context : Context
  deriving Inhabited, Repr, DecidableEq

/-- Contexts are only ever assigned: the context of an element is the latest one. -/
structure State where
  /-- The assignments made, the latest first. -/
  log : List Assignment := []
  /-- The elements claimed by a loop that leads to them, in order. -/
  seeded : List String := []
  /-- The elements placed in a loop by reference, in order. -/
  referenced : List String := []
  /-- The number of scans for contexts to pass on. -/
  rounds : Nat := 0
  deriving Inhabited, Repr, DecidableEq

namespace State

def context? (s : State) (name : String) : Option Context :=
  (s.log.find? (·.name == name)).map (·.context)

def assign (name : String) (c : Context) (s : State) : State := { s with log := ⟨name, c⟩ :: s.log }

def hasHeld (s : State) (name loop : String) (depth : Nat) : Bool :=
  s.log.any fun a => a.name == name && a.context.loop == loop && a.context.depth == depth

def owner? (s : State) (name : String) : Option String := (s.context? name).map (·.loop)

theorem mem_names_of_owner? (s : State) (a b : String) (h : s.owner? a = some b) :
    a ∈ s.log.map (·.name) := by
  simp only [owner?, context?, Option.map_map, Option.map_eq_some_iff] at h
  obtain ⟨x, hfind, -⟩ := h
  have hx : x.name = a := by simpa using List.find?_some hfind
  exact hx ▸ List.mem_map_of_mem (List.mem_of_find?_eq_some hfind)

def chain (s : State) : Chain := ⟨s.owner?, s.log.map (·.name), s.mem_names_of_owner?⟩

def encloses (s : State) (outer inner : String) : Bool := s.chain.reaches outer [] inner

end State

variable (g : Graph) (opts : Options)

/-- The targets that contexts pass to. The edge by which a loop is left counts, unless it is excluded,
but never into another loop. -/
def followed (e : Element) : List String :=
  let targets := g.targetsOf e
  if e.kind = .loop then
    let inside := (e.edges.filter (·.kind ≠ .noMoreValues)).map (·.target)
    targets.filter fun t => inside.contains t || (!opts.excludeExitEdges && !g.isLoop t)
  else targets

def kindsOf (names : List String) : List StepKind := names.filterMap g.kind?

def entering (loop : String) (depth : Nat) (t : String) : Context :=
  { loop := loop, depth := depth, path := [t], pathKinds := kindsOf g [t], via := .connector }

def claim (loop : String) (s : State) (t : String) : State :=
  if t == loop || (s.context? t).isSome then s
  else { s.assign t (entering g loop 1 t) with seeded := s.seeded ++ [t] }

/-- The claims of all loops: of several, the first loop's stands. -/
def seed (s : State) : State :=
  g.loops.foldl (fun s l => (followed g opts l).foldl (claim g l.name) s) s

/-- The context that the element, which has the context `c`, would give to its target. -/
def candidate? (e : Element) (c : Context) (t : String) : Option Context :=
  -- nothing is passed back to the loop, nor to the element itself
  if t == c.loop || t == e.name then none
  else if e.kind = .loop then some (entering g e.name (c.depth + 1) t)
  else some { c with isInLoop := true, path := c.path ++ [t], pathKinds := c.pathKinds ++ kindsOf g [t] }

/-- Whether the element may take the context. A claimed element stays with its loop, no loop and depth
is taken twice, depths do not exceed the number of loops, and no loop comes to lie in one that it
contains. -/
def accepts (s : State) (t : String) (c : Context) : Bool :=
  c.depth ≤ g.loops.length && !(g.isLoop t && s.encloses t c.loop) &&
    match s.context? t with
    | none => true
    | some old => !(s.seeded.contains t && old.loop != c.loop) && !s.hasHeld t c.loop c.depth

/-- Offers a context to an element; tells whether it was taken. -/
def offer (s : State) (t : String) (c : Context) : State × Bool :=
  if accepts g s t c then (s.assign t c, true) else (s, false)

def passOn (s : State × Bool) (e : Element) : State × Bool :=
  match s.1.context? e.name with
  | none => s
  | some c =>
    (followed g opts e).foldl (fun (s, changed) t =>
      match candidate? g e c t with
      | none => (s, changed)
      | some cand =>
        let (s, taken) := offer g s t cand
        (s, changed || taken)) s

def scan (s : State) : State × Bool :=
  g.elements.foldl (passOn g opts) ({ s with rounds := s.rounds + 1 }, false)

def settle : Nat → State → State × Bool
  | fuel, s =>
    -- a scan that changes something assigns a context, so the bound as fuel is never used up
    match scan g opts s with
    | (s, false) => (s, false)
    | (s, true) =>
      match fuel with
      | 0 => (s, true)
      | fuel + 1 => ((settle fuel s).1, true)

/-- The number of contexts that elements can ever take, which bounds the scans. -/
def bound : Nat := g.elements.length * g.loops.length * g.loops.length

def takesValues (k : StepKind) : Bool :=
  k = .assignment || k = .recordLookup || k = .recordCreate || k = .recordUpdate ||
    k = .recordDelete || k = .subflow || k = .actionCall

def referencedLoop? (e : Element) : Option String :=
  e.valueExpressions.findSome? fun expr =>
    (g.loops.find? fun l => referencesLoop (stripMergeField expr) l.name).map (·.name)

def placeByReference (s : State × Bool) (e : Element) : State × Bool :=
  if !takesValues e.kind || (s.1.context? e.name).isSome then s
  else match referencedLoop? g e with
    | none => s
    | some loop =>
      let c : Context :=
        { loop := loop, depth := 1, path := [e.name], pathKinds := [e.kind], via := .reference }
      ({ s.1.assign e.name c with referenced := s.1.referenced ++ [e.name] }, true)

def references (s : State) : State × Bool := g.elements.foldl (placeByReference g) (s, false)

/-- Reference passes and scans in turn, until one of them changes nothing. -/
def alternate : Nat → State → State
  | fuel, s =>
    match references g s with
    | (s, false) => s
    | (s, true) =>
      match settle g opts (bound g) s with
      | (s, false) => s
      | (s, true) =>
        match fuel with
        | 0 => s
        | fuel + 1 => alternate fuel s

/-- Every loop first claims the elements that it leads to. Contexts are then passed along edges until nothing
changes. At last, elements outside all loops that mention a loop's variable are placed in that loop. -/
def propagate : State :=
  if g.loops.isEmpty then {}
  else
    let (s, _) := settle g opts (bound g) (seed g opts {})
    if opts.alternate then alternate g opts g.elements.length s else (references g s).1

def contexts (s : State) : List (String × Context) :=
  g.elements.filterMap fun e => (s.context? e.name).map (e.name, ·)

end FlowAudit.Loops
