import FlowAudit.Text.Numeral

namespace FlowAudit.Yaml.Timestamp

def daysIn (year month : Nat) : Nat :=
  if month == 2 then
    if year % 4 == 0 && (year % 100 != 0 || year % 400 == 0) then 29 else 28
  else if month == 4 || month == 6 || month == 9 || month == 11 then 30
  else 31

def short? : List Char → Option (Nat × List Char)
  | a :: b :: rest =>
    if a.isDigit && b.isDigit then (Text.readDigits? 10 [a, b]).map (·, rest)
    else if a.isDigit then (Text.readDigits? 10 [a]).map (·, b :: rest)
    else none
  | [a] => if a.isDigit then (Text.readDigits? 10 [a]).map (·, []) else none
  | [] => none

def expect? (x : Char) : List Char → Option (List Char)
  | c :: rest => if c == x then some rest else none
  | [] => none

def date? (cs : List Char) : Option (List Char) := do
  let year ← Text.readDigits? 10 (cs.take 4)
  if cs.length < 4 then none
  let cs ← expect? '-' (cs.drop 4)
  let (month, cs) ← short? cs
  let cs ← expect? '-' cs
  let (day, cs) ← short? cs
  if 1 ≤ month && month ≤ 12 && 1 ≤ day && day ≤ daysIn year month then some cs else none

def dropFraction : List Char → List Char
  | p :: d :: rest =>
    if (p == '.' || p == ',') && d.isDigit then rest.dropWhile Char.isDigit else p :: d :: rest
  | cs => cs

def time? (cs : List Char) : Option (List Char) := do
  let (hour, cs) ← short? cs
  let cs ← expect? ':' cs
  let (minute, cs) ← short? cs
  let cs ← expect? ':' cs
  let (second, cs) ← short? cs
  if hour < 24 && minute < 60 && second < 60 then some (dropFraction cs) else none

def zone? (cs : List Char) : Option (List Char) :=
  match cs with
  | 'Z' :: rest => some rest
  | sign :: a :: b :: ':' :: c :: d :: rest => do
    if sign != '+' && sign != '-' then none
    let hours ← Text.readDigits? 10 [a, b]
    let minutes ← Text.readDigits? 10 [c, d]
    if hours ≤ 24 && minutes ≤ 60 then some rest else none
  | _ => none

/-- Whether the text is a date, a date and a time with a zone, or a date and a time after blanks
without one. -/
def isTimestamp (s : String) : Bool :=
  match date? s.toList with
  | some [] => true
  | some (sep :: cs) =>
    if sep == 'T' || sep == 't' then ((time? cs).bind zone?) == some []
    else if sep == ' ' then time? (cs.dropWhile (· == ' ')) == some []
    else false
  | none => false

end FlowAudit.Yaml.Timestamp
