import FlowAudit.Failure
import FlowAudit.Json.Printer
import FlowAudit.Yaml.Printer

namespace FlowAudit.Render

def structured (format : String) (j : Json) : Except Failure String :=
  if format == "json" then .ok j.pretty
  else if format == "yaml" then
    (Yaml.render j).mapError fun e => .within "encoding yaml" (.plain ("yaml: " ++ e.message))
  else .error (.plain ("unsupported structured format " ++ Text.quote format))

def structuredUnless (fault : Option String) (format : String) (j : Json) : Except Failure String :=
  match fault, format with
  | some e, "json" => .error (.plain e)
  | some e, "yaml" => .error (.within "encoding yaml" (.within "error marshaling into JSON" (.plain e)))
  | _, _ => structured format j

def checkFormat (format : String) (allowed : List String) : Except Failure Unit :=
  if allowed.contains format then .ok ()
  else .error (.exit .config ("unknown output format " ++ Text.quote format ++
    " (want one of " ++ ", ".intercalate allowed ++ ")"))

end FlowAudit.Render
