import FlowAudit.Command.Flag
import FlowAudit.Text.Character
import FlowAudit.Text.Utf8

namespace FlowAudit.Command

inductive Verb where
  | root
  | analyze
  | validate
  | graph
  | importFlows
  | status
  | doctor
  | serve
  | config
  | showConfig
  | version
  | help
  | completion
  deriving Inhabited, Repr, DecidableEq

namespace Verb

def name : Verb → String
  | root => "flowscope"
  | analyze => "analyze"
  | validate => "validate"
  | graph => "graph"
  | importFlows => "import"
  | status => "status"
  | doctor => "doctor"
  | serve => "serve"
  | config => "config"
  | showConfig => "show"
  | version => "version"
  | help => "help"
  | completion => "completion"

def children : Verb → List Verb
  | root =>
    [analyze, validate, graph, importFlows, status, doctor, serve, config, version, help, completion]
  | config => [showConfig]
  | _ => []

def path : Verb → String
  | root => "flowscope"
  | showConfig => "flowscope config show"
  | v => "flowscope " ++ v.name

def isRunnable : Verb → Bool
  | root | config | completion => false
  | _ => true

def wordCount? : Verb → Option Nat
  | analyze | graph => some 1
  | _ => none

def globalFlags : List Flag := [
  { name := "config", usage := "config file (default: auto-discover flowscope.yaml)" },
  { name := "verbose", short := some 'v', kind := .count,
    usage := "increase verbosity (can be repeated)" },
  { name := "quiet", short := some 'q', kind := .switch, usage := "suppress non-error output" }]

def dirFlag : Flag := { name := "dir", usage := "flows directory (overrides flows_dir and source)" }

def dbFlag : Flag := { name := "db", usage := "store URL (overrides store.url)" }

def sourceDbFlag : Flag := { name := "db", usage := "store URL for the sql source" }

def formatFlag (default usage : String) : Flag :=
  { name := "format", short := some 'o', kind := .text default, usage := usage }

def analysisFlags : List Flag := [
  dirFlag,
  { name := "max-depth", kind := .whole 0,
    usage := "sub-workflow recursion limit (default from config)" },
  { name := "workers", kind := .whole 0,
    usage := "concurrent sub-workflow fetches (default from config)" },
  { name := "alternate", kind := .switch,
    usage := "repeat connector and reference passes until stable" },
  { name := "exclude-exit-edges", kind := .switch,
    usage := "do not treat a loop's exit target as inside the loop" }]

def ownFlags : Verb → List Flag
  | analyze => analysisFlags ++ [
      formatFlag "text" "output format: text, json or yaml",
      dbFlag,
      { name := "store", kind := .switch, usage := "record the run in the store" },
      { name := "dry-run", kind := .switch, usage := "print the SQL that would record the run" },
      { name := "force", kind := .switch, usage := "record the run even if the flow is unchanged" },
      { name := "check", kind := .switch, usage := "exit 1 when the flow needs bulkification" }]
  | validate => [dirFlag, sourceDbFlag]
  | graph => analysisFlags ++ [
      formatFlag "text" "output format: text, dot, json or yaml",
      sourceDbFlag]
  | importFlows => [{ name := "dir", usage := "flows directory (overrides flows_dir)" }, dbFlag]
  | status => [
      dbFlag,
      { name := "limit", kind := .whole 10, usage := "number of recent runs to list" }]
  | doctor => [
      dirFlag,
      dbFlag,
      { name := "verbose", kind := .switch, usage := "show detailed output" }]
  | serve => analysisFlags ++ [
      { name := "addr", usage := "listen address (overrides serve.addr)" },
      dbFlag]
  | showConfig => [
      { name := "source", kind := .switch,
        usage := "summarize the config file, flow source and run store first" },
      formatFlag "yaml" "output format: yaml or json"]
  | _ => []

def inheritedFlags (v : Verb) : List Flag :=
  globalFlags.filter fun f => !v.ownFlags.any (·.name == f.name)

def flags (v : Verb) : List Flag := v.ownFlags ++ v.inheritedFlags

def helpFlag (v : Verb) : Flag :=
  { name := "help", short := some 'h', kind := .switch, usage := "help for " ++ v.name }

/-- Whether the value of a flag is the next argument. Flags of one character are ASCII. -/
def takesNext (v : Verb) (s : String) : Bool :=
  if s.contains '=' then false
  else match s.toList with
    | '-' :: '-' :: name => !v.flags.any fun f => f.isOptional && f.name == String.ofList name
    | ['-', c] => c.toNat < 0x80 && !v.flags.any fun f => f.isOptional && f.short == some c
    | _ => false

/-- The words among the arguments. A flag whose value would be the last argument ends them. -/
def words (v : Verb) : List String → List String
  | [] => []
  | s :: rest =>
    if s == "--" then []
    else if v.takesNext s then
      match rest with
      | [] | [_] => []
      | _ :: rest => words v rest
    else if s != "" && !s.startsWith "-" then s :: words v rest
    else words v rest

def withoutWord (v : Verb) (word : String) : List String → List String
  | [] => []
  | s :: rest =>
    if s == "--" then s :: rest
    else if v.takesNext s then
      match rest with
      | [] => [s]
      | value :: rest => s :: value :: withoutWord v word rest
    else if s == word then rest
    else s :: withoutWord v word rest

def step (v : Verb) (args : List String) : Option (Verb × List String) :=
  match v.words args with
  | [] => none
  | word :: _ =>
    (v.children.find? (·.name == word)).map fun child => (child, v.withoutWord word args)

def maxLevel : Nat := 2

def descend : Nat → Verb → List String → Verb × List String
  | 0, v, args => (v, args)
  | n + 1, v, args =>
    match v.step args with
    | some (child, rest) => descend n child rest
    | none => (v, args)

/-- The fewest changes of a byte that make one text the other; `row` holds those for the beginnings
of the second text. -/
def nextRow (x : UInt8) (left : Nat) : List (UInt8 × Nat) → Nat → List Nat
  | [], _ => []
  | (y, above) :: rest, corner =>
    let d := min (min (above + 1) (left + 1)) (if x == y then corner else corner + 1)
    d :: nextRow x d rest above

def distance (s t : String) : Nat :=
  let t := Text.Utf8.encode t.toList
  let rows := (Text.Utf8.encode s.toList).foldl (fun (row : Nat × List Nat) x =>
    let first := row.1 + 1
    (first, nextRow x first (t.zip row.2) row.1)) (0, (List.range t.length).map (· + 1))
  rows.2.getLastD rows.1

/-- The commands that a mistyped word may mean: near to it, or beginning with it. -/
def suggestions (word : String) : List String :=
  let word := Text.lower word
  ((root.children.filter (· != help)).map name).filter fun n =>
    distance word n ≤ 2 || n.startsWith word

def find (args : List String) : Except UsageError (Verb × List String) :=
  let (v, rest) := descend maxLevel root args
  match v, v.words rest with
  | root, word :: _ => .error (.unknownCommand word (suggestions word))
  | v, _ => .ok (v, rest)

end Verb

end FlowAudit.Command
