import FlowAudit.Config.Setting
import FlowAudit.Text.Quoted
import FlowAudit.Text.Utf8

namespace FlowAudit.Command

/-- What a flag holds, with what it holds when it is not given. -/
inductive FlagKind where
  | text (default : String)
  | whole (default : Int)
  | switch
  /-- Holds how many times it was given. -/
  | count
  deriving Inhabited, Repr, DecidableEq

structure Flag where
  name : String
  short : Option Char := none
  kind : FlagKind := .text ""
  usage : String
  deriving Inhabited, Repr, DecidableEq

inductive FlagValue where
  | text (s : String)
  | whole (n : Int)
  | switch (b : Bool)
  deriving Inhabited, Repr, DecidableEq

/-- Why arguments are refused. -/
inductive UsageError where
  | badSyntax (argument : String)
  | unknownFlag (name : String)
  | unknownShort (c : Char) (group : String)
  | missingValue (name : String)
  | missingShortValue (c : Char) (group : String)
  | badValue (value flag reason : String)
  | wrongCount (wanted received : Nat)
  | unknownCommand (name : String) (suggestions : List String)
  deriving Inhabited, Repr, DecidableEq

def quoteChar (c : Char) : String :=
  if c == '\'' then "'\\''"
  else if c == '"' then "'\"'"
  else "'" ++ String.ofList (((Text.quote (String.singleton c)).toList.drop 1).dropLast) ++ "'"

/-- How an unknown flag of one character is shown: one that is not ASCII by the first byte of that
code point which is the first byte of its own encoding. -/
def quoteShort (c : Char) : String :=
  let firstByte (c : Char) : Char := Char.ofNat (((Text.Utf8.encodeChar c).head?.map UInt8.toNat).getD 0)
  quoteChar (firstByte (firstByte c))

def UsageError.message : UsageError → String
  | badSyntax argument => "bad flag syntax: " ++ argument
  | unknownFlag name => "unknown flag: --" ++ name
  | unknownShort c group => "unknown shorthand flag: " ++ quoteShort c ++ " in -" ++ group
  | missingValue name => "flag needs an argument: --" ++ name
  | missingShortValue c group => "flag needs an argument: " ++ quoteChar c ++ " in -" ++ group
  | badValue value flag reason =>
    "invalid argument " ++ Text.quote value ++ " for " ++ Text.quote flag ++ " flag: " ++ reason
  | wrongCount wanted received =>
    "accepts " ++ Text.decimal wanted ++ " arg(s), received " ++ Text.decimal received
  | unknownCommand name suggestions =>
    "unknown command " ++ Text.quote name ++ " for \"flowscope\"" ++
      (if suggestions.isEmpty then ""
        else "\n\nDid you mean this?\n" ++ String.join (suggestions.map fun s => "\t" ++ s ++ "\n"))

namespace Flag

def isOptional (f : Flag) : Bool :=
  match f.kind with
  | .switch | .count => true
  | _ => false

def title (f : Flag) : String :=
  match f.short with
  | some c => "-" ++ String.singleton c ++ ", --" ++ f.name
  | none => "--" ++ f.name

def start (f : Flag) : FlagValue :=
  match f.kind with
  | .text s => .text s
  | .whole n => .whole n
  | .switch => .switch false
  | .count => .whole 0

end Flag

/-- Arguments as they are understood. -/
structure Arguments where
  values : List (String × FlagValue) := []
  words : List String := []
  deriving Inhabited, Repr, DecidableEq

namespace Arguments

variable (a : Arguments)

def get? (name : String) : Option FlagValue := (a.values.find? (·.1 == name)).map (·.2)

def set (name : String) (v : FlagValue) : Arguments :=
  { a with values := (name, v) :: a.values.filter (·.1 != name) }

def text (name : String) : String :=
  match a.get? name with
  | some (.text s) => s
  | _ => ""

def whole (name : String) : Int :=
  match a.get? name with
  | some (.whole n) => n
  | _ => 0

def switch (name : String) : Bool :=
  match a.get? name with
  | some (.switch b) => b
  | _ => false

def read (f : Flag) (value : Option String) : Except UsageError FlagValue :=
  let refuse (call reason s : String) : UsageError :=
    .badValue s f.title ("strconv." ++ call ++ ": parsing " ++ Text.quote s ++ ": " ++ reason)
  let number (s : String) : Except UsageError FlagValue :=
    match Setting.readLiteral? s with
    | some n => if Setting.fits n then .ok (.whole n) else .error (refuse "ParseInt" "value out of range" s)
    | none => .error (refuse "ParseInt" "invalid syntax" s)
  match f.kind, value with
  | .text _, s => .ok (.text (s.getD ""))
  | .whole _, s => number (s.getD "")
  | .switch, none => .ok (.switch true)
  | .switch, some s =>
    match if s == "" then none else Setting.readFlag? s with
    | some b => .ok (.switch b)
    | none => .error (refuse "ParseBool" "invalid syntax" s)
  | .count, none => .ok (.whole (a.whole f.name + 1))
  | .count, some s => if s == "+1" then .ok (.whole (a.whole f.name + 1)) else number s

def assign (f : Flag) (value : Option String) : Except UsageError Arguments := do
  return a.set f.name (← a.read f value)

abbrev Waiting := Option (Flag × UsageError)

def shorts (flags : List Flag) (a : Arguments) : List Char → Except UsageError (Arguments × Waiting)
  | [] => .ok (a, none)
  | c :: rest =>
    let group := String.ofList (c :: rest)
    if group.startsWith "test." then .ok (a, none)
    else match flags.find? (·.short == some c) with
      | none => .error (.unknownShort c group)
      | some f =>
        match rest with
        | '=' :: x :: value => do return (← a.assign f (some (String.ofList (x :: value))), none)
        | _ =>
          if f.isOptional then
            match a.assign f none with
            | .ok a => shorts flags a rest
            | .error e => .error e
          else if rest.isEmpty then .ok (a, some (f, .missingShortValue c group))
          else do return (← a.assign f (some (String.ofList rest)), none)

def long (flags : List Flag) (argument : String) : Except UsageError (Arguments × Waiting) := do
  let body := argument.toList.drop 2
  match body with
  | [] | '-' :: _ | '=' :: _ => throw (.badSyntax argument)
  | _ =>
    let name := String.ofList (body.takeWhile (· != '='))
    match flags.find? (·.name == name), body.dropWhile (· != '=') with
    | none, _ => throw (.unknownFlag name)
    | some f, '=' :: value => return (← a.assign f (some (String.ofList value)), none)
    | some f, _ =>
      if f.isOptional then return (← a.assign f none, none)
      else return (a, some (f, .missingValue name))

def parseFrom (flags : List Flag) (a : Arguments) (waiting : Waiting) :
    List String → Except UsageError Arguments
  | [] =>
    match waiting with
    | some (_, e) => .error e
    | none => .ok a
  | s :: rest =>
    match waiting with
    | some (f, _) => do parseFrom flags (← a.assign f (some s)) none rest
    | none =>
      if s == "--" then .ok { a with words := a.words ++ rest }
      else if s.startsWith "--" then do
        let (a, waiting) ← a.long flags s
        parseFrom flags a waiting rest
      else if s.startsWith "-" && s != "-" then do
        let (a, waiting) ← shorts flags a (s.toList.drop 1)
        parseFrom flags a waiting rest
      else parseFrom flags { a with words := a.words ++ [s] } none rest

def parse (flags : List Flag) (args : List String) : Except UsageError Arguments :=
  parseFrom flags { values := flags.map fun f => (f.name, f.start) } none args

end Arguments

end FlowAudit.Command
