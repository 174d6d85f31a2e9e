import FlowAudit.Command.Verb

namespace FlowAudit.Command

namespace Verb

def summary : Verb → String
  | root => "Static analysis for Salesforce Flows"
  | analyze => "Analyze a workflow and its sub-workflows"
  | validate => "Validate workflow definitions"
  | graph => "Print a workflow's element graph"
  | importFlows => "Copy definition files into the SQL source"
  | status => "Show recorded analysis runs"
  | doctor => "Run health checks"
  | serve => "Serve analyses over HTTP"
  | config => "Configuration utilities"
  | showConfig => "Show effective configuration"
  | version => "Print version information"
  | help => "Help about any command"
  | completion => "Generate the autocompletion script for the specified shell"

def description : Verb → List String
  | root => [
      "flowscope - Static analysis for Salesforce Flows",
      "",
      "flowscope builds the element graph of a workflow, finds every element that",
      "runs inside a loop, follows sub-workflow calls, and scores how badly the",
      "workflow needs bulkification before it hits governor limits."]
  | analyze => [
      "Analyze a workflow: build its element graph, find elements running inside",
      "loops, resolve sub-workflows, and score the need for bulkification.",
      "",
      "The argument is a flow name looked up in the configured source, or a path to",
      "a definition file."]
  | validate => [
      "Parse workflow definitions and report structural warnings such as",
      "connectors that target missing elements and duplicate element names.",
      "",
      "With no arguments every definition in the source is validated."]
  | graph => [
      "Print the element graph of one workflow, marking every element that runs",
      "inside a loop. Sub-workflows are not followed."]
  | importFlows => [
      "Copy workflow definitions from the flows directory into the store",
      "database's definitions table, for use with source: sql.",
      "",
      "Each definition is parsed first; malformed files are not imported."]
  | status => ["Show the run store state and the most recent analysis runs."]
  | doctor => ["Run health checks on the flow source and run store."]
  | serve => [
      "Serve analyses over HTTP. When a store is configured, recorded runs can",
      "be read back and posted definitions can be recorded with ?store=true."]
  | showConfig => [
      "Show the effective configuration after merging defaults, .env, config file,",
      "and FLOWSCOPE_* environment variables. Passwords are masked.",
      "",
      "With --source, a summary of where flow definitions are read from and where",
      "analysis runs are recorded is printed first."]
  | help => [
      "Help provides help for any command in the application.",
      "Simply type flowscope help [path to command] for full details."]
  | completion => [
      "Generate the autocompletion script for flowscope for the specified shell.",
      "See each sub-command's help for details on how to use the generated script."]
  | v => [v.summary]

def examples : Verb → List String
  | analyze => [
      "  # Analyze a flow from the flows directory",
      "  flowscope analyze Account_After_Save",
      "",
      "  # Analyze a file and print JSON",
      "  flowscope analyze flows/Account_After_Save.flow-meta.xml --format json",
      "",
      "  # Record the run, skipping it if nothing changed",
      "  flowscope analyze Account_After_Save --store",
      "",
      "  # Preview the SQL that would record the run",
      "  flowscope analyze Account_After_Save --dry-run",
      "",
      "  # Fail (exit 1) when the flow needs bulkification",
      "  flowscope analyze Account_After_Save --check"]
  | validate => [
      "  # Validate every flow in the flows directory",
      "  flowscope validate",
      "",
      "  # Validate specific flows",
      "  flowscope validate Account_After_Save flows/Contact_Sync.flow-meta.xml"]
  | graph => [
      "  # Render with Graphviz",
      "  flowscope graph Account_After_Save --format dot | dot -Tsvg > flow.svg"]
  | importFlows => [
      "  # Import every flow in the flows directory",
      "  flowscope import --db postgres://localhost/flows",
      "",
      "  # Import selected flows",
      "  flowscope import Account_After_Save Contact_Sync"]
  | status => [
      "  # Check status",
      "  flowscope status --db postgres://localhost/flows"]
  | doctor => [
      "  # Run health checks",
      "  flowscope doctor",
      "",
      "  # Run with verbose output",
      "  flowscope doctor --verbose"]
  | serve => [
      "  # Serve on the configured address",
      "  flowscope serve",
      "",
      "  # Analyze a flow",
      "  curl localhost:8080/v1/flows/Account_After_Save/analysis"]
  | showConfig => [
      "  # Show effective configuration",
      "  flowscope config show",
      "",
      "  # Show where flows and runs live, then the configuration as JSON",
      "  flowscope config show --source -o json"]
  | _ => []

def operands : Verb → String
  | analyze | graph => " <flow>"
  | validate | importFlows => " [flow...]"
  | help => " [command]"
  | _ => ""

def listing (v : Verb) : String × String := (v.name, v.summary)

/-- The commands below a command, with their summaries, and the headings that they are listed under. -/
def groups : Verb → List (String × List (String × String))
  | root => [
      ("Analysis:", [analyze, graph, validate].map listing),
      ("Store:", [doctor, importFlows, serve, status].map listing),
      ("Utility:", [config, version].map listing),
      ("Additional Commands:", [completion, help].map listing)]
  | config => [("Available Commands:", [showConfig.listing])]
  | completion =>
    let shells := ["bash", "fish", "powershell", "zsh"]
    [("Available Commands:",
      shells.map fun s => (s, "Generate the autocompletion script for " ++ s))]
  | _ => []

end Verb

def Flag.placeholder (f : Flag) : String :=
  match f.kind with
  | .text _ => " string"
  | .whole _ => " int"
  | .switch => ""
  | .count => " count"

def Flag.defaultNote (f : Flag) : String :=
  match f.kind with
  | .text s => if s == "" then "" else " (default " ++ Text.quote s ++ ")"
  | .whole n => if n == 0 then "" else " (default " ++ Text.decimalInt n ++ ")"
  | _ => ""

def Flag.heading (f : Flag) : String :=
  (match f.short with
    | some c => "  -" ++ String.singleton c ++ ", --"
    | none => "      --") ++ f.name ++ f.placeholder

def flagLines (flags : List Flag) : List String :=
  let flags := flags.mergeSort fun a b => a.name ≤ b.name
  let width := (flags.map fun f => f.heading.length).foldl max 0
  flags.map fun f =>
    f.heading ++ String.ofList (List.replicate (width - f.heading.length + 3) ' ') ++ f.usage ++
      f.defaultNote

namespace Verb

def listingLine (entry : String × String) : String :=
  "  " ++ entry.1 ++ String.ofList (List.replicate (12 - entry.1.length) ' ') ++ entry.2

def usageLines (v : Verb) : List String :=
  let titled (title : String) (lines : List String) := if lines.isEmpty then [] else "" :: title :: lines
  let nested := !v.groups.isEmpty
  ["Usage:"] ++
    (if v.isRunnable then ["  " ++ v.path ++ v.operands ++ " [flags]"] else []) ++
    (if nested then ["  " ++ v.path ++ " [command]"] else []) ++
    titled "Examples:" v.examples ++
    (v.groups.flatMap fun (title, entries) => titled title (entries.map listingLine)) ++
    titled "Flags:" (flagLines (v.helpFlag :: if v = root then globalFlags else v.ownFlags)) ++
    (if v = root then [] else titled "Global Flags:" (flagLines v.inheritedFlags)) ++
    (if nested then
      ["", "Use \"" ++ v.path ++ " [command] --help\" for more information about a command."]
    else [])

def usageText (v : Verb) : String := String.join (v.usageLines.map (· ++ "\n"))

def helpText (v : Verb) : String :=
  String.join ((v.description ++ [""]).map (· ++ "\n")) ++ v.usageText

end Verb

end FlowAudit.Command
