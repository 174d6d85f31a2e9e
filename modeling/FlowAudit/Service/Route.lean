import FlowAudit.Web.Request

namespace FlowAudit

inductive Route where
  | health
  | flows
  | analysis (flow : String)
  | latestRun (flow : String)
  | analyze
  deriving Inhabited, Repr, DecidableEq

namespace Route

/-- The route of a path. The name of a flow may be empty. -/
def ofPath? (method path : String) : Option Route :=
  match method, path.splitOn "/" with
  | "GET", ["", "healthz"] => some health
  | "GET", ["", "v1", "flows"] => some flows
  | "GET", ["", "v1", "flows", name, "analysis"] => some (analysis name)
  | "GET", ["", "v1", "flows", name, "runs", "latest"] => some (latestRun name)
  | "POST", ["", "v1", "analyze"] => some analyze
  | _, _ => none

def isBranch (method path : String) : Bool :=
  match method, path.splitOn "/" with
  | "GET", ["", "v1", "flows", _] => true
  | _, _ => false

/-- The path without the slash at its end, when that leads to a route, or to routes. -/
def withoutSlash? (method path : String) : Option String :=
  match path.toList.reverse with
  | '/' :: rest =>
    let shorter := String.ofList rest.reverse
    if (ofPath? method shorter).isSome || isBranch method shorter then some shorter else none
  | _ => none

end Route

end FlowAudit
