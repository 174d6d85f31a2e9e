namespace FlowAudit.Text.Columns

abbrev Line := List (List Char)

def gap : Nat := 2

def reaches (column : Nat) (line : Line) : Bool := column + 1 < line.length

def padBlock (column : Nat) (block : List Line) : List Line :=
  let width := (block.map fun line => (line.getD column []).length).foldl max 0 + gap
  block.map fun line =>
    if reaches column line then
      line.modify column fun cell => cell ++ List.replicate (width - cell.length) ' '
    else line

/-- Pads a column. A line that does not reach it parts the lines around it. -/
def padColumn (lines : List Line) (column : Nat) : List Line :=
  (lines.splitBy fun a b => reaches column a && reaches column b).flatMap (padBlock column)

def isTab (c : Char) : Bool := c == '\t' || c == '\x0b'

def alignPage (page : List Char) : List (List Char) :=
  let lines : List Line := (page.splitOn '\n').map (List.splitOnP isTab)
  let columns := (lines.map List.length).foldl max 0
  ((List.range columns).foldl padColumn lines).map List.flatten

/-- The text with its columns padded. A form feed ends a line and a page, and columns do not go on from
one page to the next. -/
def align (s : String) : String :=
  String.ofList (['\n'].intercalate ((s.toList.splitOn '\x0c').flatMap alignPage))

end FlowAudit.Text.Columns
