namespace FlowAudit.MergeField

inductive Expr where
  | literal
  | text (s : String)
  | name (s : String)
  /-- A member, named by the property `s` in `base.s` and in `base["s"]`. -/
  | member (base property : Expr)
  /-- A run of members of which some are optional. -/
  | chain (inner : Expr)
  /-- Anything else that is made of parts. -/
  | compound (parts : List Expr)
  deriving Inhabited, Repr

namespace Expr

def path? : Expr → Option (List String)
  | name s => some [s]
  | member base (text s) => base.path?.map (· ++ [s])
  | _ => none

mutual

def paths : Expr → List (List String)
  | literal | text _ => []
  | name s => [[s]]
  | member base property =>
    (path? (member base property)).toList ++ base.paths ++ property.paths
  | chain inner => inner.paths
  | compound parts => pathsOf parts

def pathsOf : List Expr → List (List String)
  | [] => []
  | e :: rest => e.paths ++ pathsOf rest

end

end Expr

end FlowAudit.MergeField
