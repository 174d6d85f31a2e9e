import FlowAudit.MergeField.Parser
import FlowAudit.Text.Character

namespace FlowAudit.MergeField

def afterOpening? : List Char → Option (List Char)
  | [] => none
  | '{' :: '!' :: rest => some rest
  | _ :: rest => afterOpening? rest

theorem length_of_afterOpening? {cs rest : List Char} (h : afterOpening? cs = some rest) :
    rest.length < cs.length := by
  fun_induction afterOpening? cs with
  | case1 => cases h
  | case2 =>
    cases h
    simp only [List.length_cons]
    omega
  | case3 c cs _ ih =>
    have hrest := ih h
    simp only [List.length_cons]
    omega

/-- What the first merge field holds, and the text after it. A field goes on to the first closing
brace. -/
def firstField? (cs : List Char) : Option (List Char × List Char) :=
  match afterOpening? cs with
  | none => none
  | some rest =>
    match rest.dropWhile (· != '}') with
    | [] => none
    | _ :: after => some (rest.takeWhile (· != '}'), after)

theorem length_of_firstField? {cs field after : List Char} (h : firstField? cs = some (field, after)) :
    after.length < cs.length := by
  unfold firstField? at h
  split at h
  · cases h
  · next rest hopen =>
    have hrest := length_of_afterOpening? hopen
    split at h
    · cases h
    · next hclose =>
      cases h
      have hdrop := (List.dropWhile_suffix (l := rest) (· != '}')).length_le
      rw [hclose, List.length_cons] at hdrop
      omega

/-- The contents of the merge fields of a text that are not blank. -/
def fieldsIn (cs : List Char) : List String :=
  match _h : firstField? cs with
  | none => []
  | some (field, after) =>
    let field := Text.trimChars field
    if field.isEmpty then fieldsIn after else String.ofList field :: fieldsIn after
termination_by cs.length
decreasing_by all_goals exact length_of_firstField? _h

def mergeFields (expr : String) : List String := fieldsIn expr.toList

def dollarSpelling : String := "__dollar_"

def spellDollars (s : String) : String :=
  String.ofList (s.toList.flatMap fun c => if c == '$' then dollarSpelling.toList else [c])

/-- The paths of the references in a merge field. A field that is no expression has none. -/
def references (field : String) : List (List String) :=
  match parse? (spellDollars field) with
  | none => []
  | some e => e.paths.map fun path =>
    match path with
    | [] => []
    | root :: rest => root.replace dollarSpelling "$" :: rest

/-- Whether a reference leads to another record, which takes three names: the record that it starts
from, the relation and the field. -/
def isCrossObjectPath (path : List String) : Bool := 3 ≤ path.length

def isCrossObject (expr : String) : Bool :=
  (mergeFields expr).any fun field => (references field).any isCrossObjectPath

end FlowAudit.MergeField
