import FlowAudit.Database.Error
import FlowAudit.Document.OfJson
import FlowAudit.Json.Token
import FlowAudit.Markup.Token
import FlowAudit.Text.Quoted
import FlowAudit.Yaml.ToJson

namespace FlowAudit

/-- The kinds of failure that callers tell apart. -/
inductive Cause where
  | canceled
  | fetchFailure
  | malformedInput
  | notFound
  | depthExceeded
  | unresolvedReference
  deriving Inhabited, Repr, DecidableEq

namespace Cause

def all : List Cause :=
  [canceled, fetchFailure, malformedInput, notFound, depthExceeded, unresolvedReference]

def message : Cause → String
  | canceled => "context canceled"
  | fetchFailure => "flowscope: sub-workflow fetch failed"
  | malformedInput => "flowscope: malformed flow metadata"
  | notFound => "flowscope: flow not found"
  | depthExceeded => "flowscope: maximum recursion depth reached"
  | unresolvedReference => "flowscope: unresolved reference"

end Cause

/-- Why a definition has no canonical form. -/
inductive Malformed where
  | unknownFormat (format : String)
  | storedFormat (name format : String)
  | rootNotObject
  | metadataNotObject
  | wrongRoot (name : String)
  | markup (e : Markup.SyntaxError)
  | json (e : Json.SyntaxError)
  | misfit (e : Document.Misfit)
  | yaml (e : Yaml.ReadError)
  deriving Inhabited, Repr, DecidableEq

def Malformed.message : Malformed → String
  | unknownFormat format => "unknown format " ++ Text.quote format
  | storedFormat name format => name ++ " has unknown format " ++ Text.quote format
  | rootNotObject => "root must be a JSON object"
  | metadataNotObject => "Metadata must be a JSON object"
  | wrongRoot name => "expected element Flow but have " ++ name
  | markup e => e.message
  | json e => e.message
  | misfit e => e.message
  | yaml e => e.message

/-- How a command ends that has failed. -/
inductive Exit where
  | general
  | config
  | malformed
  | database
  | notFound
  deriving Inhabited, Repr, DecidableEq

def Exit.code : Exit → Nat
  | general => 1
  | config => 2
  | malformed => 3
  | database => 4
  | notFound => 5

inductive Failure where
  | malformed (reason : Malformed)
  | notFound (subject : String)
  | fetchFailed (inner : Failure)
  /-- A failure that is its cause and nothing more. -/
  | bare (cause : Cause)
  | database (e : Database.Error)
  | plain (text : String)
  /-- A failure met while doing something. -/
  | within (context : String) (inner : Failure)
  /-- The end of a command. -/
  | exit (status : Exit) (text : String)
  /-- The end of a command because of another failure. -/
  | exitWith (status : Exit) (context : String) (inner : Failure)
  deriving Inhabited, Repr, DecidableEq

namespace Failure

def message : Failure → String
  | malformed reason => Cause.malformedInput.message ++ ": " ++ reason.message
  | notFound subject => Cause.notFound.message ++ ": " ++ subject
  | fetchFailed inner => Cause.fetchFailure.message ++ ": " ++ inner.message
  | bare cause => cause.message
  | database e => e.message
  | plain text => text
  | within context inner => context ++ ": " ++ inner.message
  | exit _ text => text
  | exitWith _ context inner => context ++ ": " ++ inner.message

def hasCause (c : Cause) : Failure → Bool
  | malformed _ => c = .malformedInput
  | notFound _ => c = .notFound
  | fetchFailed inner => c = .fetchFailure || inner.hasCause c
  | bare cause => c = cause
  | database _ | plain _ | exit _ _ => false
  | within _ inner | exitWith _ _ inner => inner.hasCause c

/-- How a command ends with the failure: the outermost end in it counts. -/
def status : Failure → Exit
  | exit status _ | exitWith status _ _ => status
  | fetchFailed inner | within _ inner => inner.status
  | malformed _ | notFound _ | bare _ | database _ | plain _ => .general

def ofAnalysis (context : String) (inner : Failure) : Failure :=
  let status :=
    if inner.hasCause .notFound then Exit.notFound
    else if inner.hasCause .malformedInput then .malformed
    else .general
  .exitWith status context inner

def causes (e : Failure) : List Cause := Cause.all.filter fun c => e.hasCause c

end Failure

end FlowAudit
