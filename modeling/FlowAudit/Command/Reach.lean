import FlowAudit.Command.Session

namespace FlowAudit.Command

/-- The paths where settings may be: in the working directory and above it, or where the command line
says. -/
def settingsPaths (working : String) (fuel : Nat) : List String :=
  match fuel with
  | 0 => []
  | fuel + 1 =>
    ["flowscope.yaml", "flowscope.yml", ".git", ".env"].map (Path.join working) ++
      if Path.dir working == working then [] else settingsPaths (Path.dir working) fuel

def argumentsOf (args : List String) : Arguments :=
  match Verb.find args with
  | .ok (v, rest) => ((Arguments.parse (v.helpFlag :: v.flags) rest).toOption).getD {}
  | .error _ => {}

def earlyPaths (working : String) (args : List String) : List String :=
  let explicit := (argumentsOf args).text "config"
  settingsPaths working Config.maxClimb ++
    if explicit == "" then [] else [explicit, Path.join (Path.dir explicit) ".env"]

structure Reach where
  /-- Where flows are. -/
  flows : List String := []
  /-- The file of the database, if it is in one. -/
  database : Option String := none

def reach (w : World) (args : List String) : Reach :=
  let a := argumentsOf args
  match Config.load w.files w.environment (a.text "config") with
  | .error _ => {}
  | .ok (c, _) =>
    let dsn := if a.text "db" != "" then a.text "db" else (c.dsn.toOption).getD ""
    { flows := c.flowsDirOr (a.text "dir") :: a.words
      database :=
        match c.dialect, Database.Location.ofText dsn with
        | .ok .sqlite, .file path => some path
        | _, _ => none }

end FlowAudit.Command
