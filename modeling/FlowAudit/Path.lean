namespace FlowAudit.Path

def names (path : String) : List String := (path.toList.splitOn '/').map String.ofList

def dropTrailing (x : Char) (cs : List Char) : List Char := (cs.reverse.dropWhile (· == x)).reverse

def afterSlash (cs : List Char) : List Char := (cs.reverse.takeWhile (· != '/')).reverse

/-- The last name of a path: `.` for the empty path, and `/` for one of slashes alone. -/
def base (path : String) : String :=
  if path == "" then "."
  else
    match afterSlash (dropTrailing '/' path.toList) with
    | [] => "/"
    | cs => String.ofList cs

/-- What the last name has from its last full stop on. -/
def ext (path : String) : String :=
  let name := (afterSlash path.toList).reverse
  if name.contains '.' then String.ofList ('.' :: (name.takeWhile (· != '.')).reverse) else ""

/-- The names of a path after `.` and `..` have been followed; `..` goes no higher than the root. -/
def resolveNames (rooted : Bool) : List String → List String → List String
  | done, [] => done
  | done, n :: rest =>
    if n == "" || n == "." then resolveNames rooted done rest
    else if n == ".." then
      match done with
      | d :: more =>
        if d == ".." then resolveNames rooted (".." :: done) rest else resolveNames rooted more rest
      | [] => resolveNames rooted (if rooted then [] else [".."]) rest
    else resolveNames rooted (n :: done) rest

/-- The shortest path to the same place. -/
def clean (path : String) : String :=
  let rooted := path.toList.head? == some '/'
  let joined := "/".intercalate (resolveNames rooted [] (names path)).reverse
  if rooted then "/" ++ joined else if joined == "" then "." else joined

def join (dir name : String) : String :=
  if dir == "" then (if name == "" then "" else clean name)
  else clean (dir ++ "/" ++ name)

def isAbs (path : String) : Bool := path.toList.head? == some '/'

def dir (path : String) : String :=
  clean (String.ofList (path.toList.reverse.dropWhile (· != '/')).reverse)

end FlowAudit.Path
