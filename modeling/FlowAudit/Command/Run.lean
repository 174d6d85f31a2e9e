import FlowAudit.Command.Flows
import FlowAudit.Command.Help
import FlowAudit.Command.Report

namespace FlowAudit.Command

/-- How a command ends that has not failed. -/
inductive Ending where
  | done
  /-- Requests are to be answered from now on. -/
  | serve (serving : Serving)

namespace Program

def usage {α : Type} (r : Except UsageError α) : Program α :=
  lift id (r.mapError fun e => .plain e.message)

def configure : Program Unit := do
  let s ← get
  let (config, path) ← lift (.exitWith .config "loading configuration")
    (Config.load s.files s.environment (s.arguments.text "config"))
  set { s with config := config, configPath := path }

def help (words : List String) : Program Unit :=
  match Verb.find words with
  | .ok (v, _) => print v.helpText
  | .error _ => do
    let topics := " ".intercalate (words.map fun w => "`" ++ w ++ "`")
    note ("Unknown help topic [" ++ topics ++ "]")
    modify fun s => { s with stderr := Verb.root.usageText :: s.stderr }

def execute (v : Verb) (words : List String) : Program Ending := do
  let first := words.headD ""
  match v with
  | .root | .config | .completion => print v.helpText
  | .help => help words
  | .version => printLine (Release.describe (← get).toolchain)
  | .analyze => do configure; analyze first
  | .validate => do configure; validate words
  | .graph => do configure; graph first
  | .importFlows => do configure; importFlows words
  | .status => do configure; status
  | .doctor => do configure; doctor
  | .showConfig => do configure; showConfig
  | .serve =>
    configure
    return .serve (← serve)
  return .done

def dispatch (args : List String) : Program Ending := do
  let (v, rest) ← usage (Verb.find args)
  let a ← usage (Arguments.parse (v.helpFlag :: v.flags) rest)
  modify fun s => { s with arguments := a }
  if a.switch "help" || !v.isRunnable then
    print v.helpText
    return .done
  match v.wordCount? with
  | some n => if a.words.length != n then usage (.error (.wrongCount n a.words.length))
  | none => pure ()
  execute v a.words

end Program

/-- What came of a command. -/
structure Result where
  stdout : String
  stderr : String
  code : Nat
  /-- What is to be served. -/
  serving : Option Serving := none

namespace Result

def fail (r : Result) (e : Failure) : Result :=
  { r with stderr := r.stderr ++ "Error: " ++ e.message ++ "\n", code := e.status.code, serving := none }

def cannotServe (r : Result) (reason : String) : Result :=
  r.fail (.exitWith .general "serving" (.plain reason))

end Result

def run (w : World) (args : List String) : Result × World :=
  let (outcome, s) := (Program.dispatch args).run.run { toWorld := w }
  let r : Result := {
    stdout := String.join s.stdout.reverse
    stderr := String.join s.stderr.reverse
    code := 0 }
  let result := match outcome with
    | .ok .done => r
    | .ok (.serve serving) => { r with serving := some serving }
    | .error e => r.fail e
  -- What is kept in memory only ends with the command.
  (result, { s.toWorld with databases := s.databases.filter fun (key, _) => key.startsWith "/" })

end FlowAudit.Command
