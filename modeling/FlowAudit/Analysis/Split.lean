import FlowAudit.Analysis.Basic
import FlowAudit.Text.Numeral

namespace FlowAudit.Split

/-- Flows by the most significant work that they do. -/
inductive Group where
  | dataAccess
  | dataModification
  | businessLogic
  | utility
  deriving Inhabited, Repr, DecidableEq

namespace Group

def all : List Group := [dataAccess, dataModification, businessLogic, utility]

def name : Group → String
  | dataAccess => "DataAccess"
  | dataModification => "DataModification"
  | businessLogic => "BusinessLogic"
  | utility => "Utility"

def suffix : Group → String
  | dataAccess => "DataService"
  | dataModification => "DataManager"
  | businessLogic => "BusinessService"
  | utility => "Processor"

end Group

def classify (a : Analysis) : Group :=
  if a.hasKind .recordLookup then .dataAccess
  else if a.hasKind .recordCreate || a.hasKind .recordUpdate || a.hasKind .recordDelete then
    .dataModification
  else if a.hasKind .decision then .businessLogic
  else .utility

def pascalCase : Bool → List Char → List Char
  | _, [] => []
  | starts, c :: rest =>
    if c.isAlphanum then (if starts then c.toUpper else c) :: pascalCase false rest
    else pascalCase true rest

/-- An identifier for a flow, which starts with a letter. It is cut to the limit, if that is
positive. -/
def sanitize (name : String) (limit : Int) : String :=
  let cs := pascalCase true name.toList
  let cs := if cs.head?.any Char.isAlpha then cs else "Flow".toList ++ cs
  String.ofList (if 0 < limit then cs.take limit.toNat else cs)

def maxClassNameLength : Nat := 40

def className (name suffix : String) : String :=
  sanitize name ((maxClassNameLength : Int) - suffix.utf8ByteSize) ++ suffix

def defaultClassName : String := "MainFlowProcessor"

/-- The number of operations on the database, as a word of 64 bits with a sign. -/
def operations (f : Findings) : Int := wrap64 (f.cumulativeDmlCount + f.cumulativeSoqlCount)

def reasons (f : Findings) : List String :=
  let d := Text.decimalInt
  let ops := operations f
  (if 15 < f.cumulativeComplexity then
    ["cumulative complexity " ++ d f.cumulativeComplexity ++ " exceeds 15"] else []) ++
  (if 5 < ops then
    [d ops ++ " cumulative DML and SOQL operations (" ++ d f.cumulativeDmlCount ++ " DML, " ++
      d f.cumulativeSoqlCount ++ " SOQL) exceed 5"] else [])

def fresh (grouped : List String) : List Analysis → List Analysis
  | [] => []
  | a :: rest =>
    if grouped.contains a.name then fresh grouped rest else a :: fresh (a.name :: grouped) rest

/-- A class name for each group in which one of the flows is, after the first of them. -/
def classNames (called : List Analysis) : List String :=
  Group.all.filterMap fun g =>
    (called.find? fun a => classify a = g).map fun a => className a.name g.suffix

/-- The recommendation for one flow. The flows it calls that are grouped already are passed over, and
the others are grouped with it. -/
def generate (a : Analysis) (grouped : List String) : Recommendation × List String :=
  let f := a.findings
  let d := Text.decimalInt
  let rs := reasons f
  let called := fresh grouped a.called
  let names := classNames called
  ({ flow := f.name
     shouldSplit := !rs.isEmpty
     reason := if rs.isEmpty then
         "cumulative complexity " ++ d f.cumulativeComplexity ++ " and " ++
           d (operations f) ++ " operations are within limits"
       else "; ".intercalate rs
     suggestedClassNames := some (if names.isEmpty then [defaultClassName] else names) },
    (called.map Analysis.name).reverse ++ grouped)

structure Progress where
  /-- The flows with a recommendation. -/
  seen : List String
  /-- The flows that a class was suggested for. -/
  grouped : List String
  /-- The recommendations so far, the latest first. -/
  found : List Recommendation

mutual

/-- The recommendations for a called flow and those below it, unless it was seen before. -/
def walkFrom (p : Progress) : Analysis → Progress
  | .node f children =>
    if p.seen.contains f.name then p
    else
      let (r, grouped) := generate (.node f children) p.grouped
      walkIn
        { seen := f.name :: p.seen, grouped := grouped
          found := if r.shouldSplit then r :: p.found else p.found } children

def walkIn (p : Progress) : List (Option Analysis) → Progress
  | [] => p
  | none :: rest => walkIn p rest
  | some a :: rest => walkIn (walkFrom p a) rest

end

def walk (root : Analysis) : List Recommendation :=
  let (r, grouped) := generate root [root.name]
  (walkIn { seen := [root.name], grouped := grouped, found := [r] } root.children).found.reverse

end FlowAudit.Split
