namespace FlowAudit

abbrev Table (α : Type) := List (String × α)

namespace Table

variable {α : Type}

def get? (t : Table α) (key : String) : Option α := (t.find? (·.1 == key)).map (·.2)

def insert (key : String) (a : α) : Table α → Table α
  | [] => [(key, a)]
  | (k, b) :: rest =>
    if key < k then (key, a) :: (k, b) :: rest
    else if key == k then (key, a) :: rest
    else (k, b) :: insert key a rest

/-- The table of a list of entries, of which the last one for a key counts. -/
def ofList (entries : List (String × α)) : Table α :=
  entries.foldl (fun t (k, a) => insert k a t) []

def keys (t : Table α) : List String := t.map (·.1)

end Table

end FlowAudit
