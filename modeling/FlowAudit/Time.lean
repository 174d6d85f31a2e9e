import FlowAudit.Text.Numeral

namespace FlowAudit

structure Time where
  /-- Seconds since the beginning of 1970 in UTC. -/
  seconds : Int
  nanos : Nat := 0
  /-- Seconds that the zone is ahead of UTC. -/
  offset : Int := 0
  deriving Inhabited, Repr, DecidableEq

namespace Time

def daysFromCivil (year : Int) (month day : Nat) : Int :=
  -- years are taken to begin in March, so that a leap day is the last of its year
  let y := if month ≤ 2 then year - 1 else year
  let era := y.fdiv 400
  let yearOfEra := y - era * 400
  let shifted : Int := if 2 < month then (month : Int) - 3 else month + 9
  let dayOfYear := (153 * shifted + 2) / 5 + day - 1
  let dayOfEra := yearOfEra * 365 + yearOfEra / 4 - yearOfEra / 100 + dayOfYear
  era * 146097 + dayOfEra - 719468

def civilFromDays (days : Int) : Int × Int × Int :=
  let z := days + 719468
  let era := z.fdiv 146097
  let dayOfEra := z - era * 146097
  let yearOfEra := (dayOfEra - dayOfEra / 1460 + dayOfEra / 36524 - dayOfEra / 146096) / 365
  let dayOfYear := dayOfEra - (365 * yearOfEra + yearOfEra / 4 - yearOfEra / 100)
  let shifted := (5 * dayOfYear + 2) / 153
  let day := dayOfYear - (153 * shifted + 2) / 5 + 1
  let month := if shifted < 10 then shifted + 3 else shifted - 9
  let year := yearOfEra + era * 400 + (if month ≤ 2 then 1 else 0)
  (year, month, day)

def isLeap (year : Int) : Bool := year % 4 == 0 && (year % 100 != 0 || year % 400 == 0)

def daysInMonth (year : Int) (month : Nat) : Nat :=
  if month == 2 then if isLeap year then 29 else 28
  else if month == 4 || month == 6 || month == 9 || month == 11 then 30
  else 31

def zero : Time := { seconds := daysFromCivil 1 1 1 * 86400 }

/-- Whether both are the same instant, whatever the zones. -/
def same (a b : Time) : Bool := a.seconds == b.seconds && a.nanos == b.nanos

def isZero (t : Time) : Bool := t.same zero

def before (a b : Time) : Bool :=
  a.seconds < b.seconds || (a.seconds == b.seconds && a.nanos < b.nanos)

def toUtc (t : Time) : Time := { t with offset := 0 }

/-- The time from one instant to another, in nanoseconds, as far as 64 bits with a sign reach. -/
def since (later earlier : Time) : Int :=
  let span := (later.seconds - earlier.seconds) * 1000000000 + ((later.nanos : Int) - earlier.nanos)
  max (-0x8000000000000000) (min span 0x7FFFFFFFFFFFFFFF)

def year (t : Time) : Int := (civilFromDays ((t.seconds + t.offset).fdiv 86400)).1

/-- A number with at least so many digits; a minus sign does not count. -/
def pad (width : Nat) (n : Int) : String :=
  (if n < 0 then "-" else "") ++ Text.padded width n.natAbs

def fraction (nanos : Nat) : String :=
  if nanos == 0 then ""
  else "." ++ String.ofList (((Text.padded 9 nanos).toList.reverse.dropWhile (· == '0')).reverse)

def zoneText (offset : Int) : String :=
  if offset == 0 then "Z"
  else
    let minutes := offset.natAbs / 60
    (if offset ≤ -60 then "-" else "+") ++ Text.padded 2 (minutes / 60) ++ ":" ++
      Text.padded 2 (minutes % 60)

def wholeMinutes (offset : Int) : Int :=
  if offset < 0 then -(-offset / 60 * 60) else offset / 60 * 60

/-- The time at which calendar and clock show the same in a zone of whole minutes. -/
def inMinutes (t : Time) : Time :=
  { t with seconds := t.seconds + t.offset - wholeMinutes t.offset, offset := wholeMinutes t.offset }

def clockText (separator : String) (t : Time) : String :=
  let here := t.seconds + t.offset
  let days := here.fdiv 86400
  let second := here - days * 86400
  let (year, month, day) := civilFromDays days
  pad 4 year ++ "-" ++ pad 2 month ++ "-" ++ pad 2 day ++ separator ++ pad 2 (second / 3600) ++ ":" ++
    pad 2 (second / 60 % 60) ++ ":" ++ pad 2 (second % 60)

def text (t : Time) : String := t.clockText "T" ++ fraction t.nanos ++ zoneText t.offset

def secondsText (t : Time) : String := t.clockText "T" ++ zoneText t.offset

/-- Why a time has no text that others would read. -/
inductive Unwritable where
  | year
  | zoneHour
  deriving Inhabited, Repr, DecidableEq

def Unwritable.message : Unwritable → String
  | year => "year outside of range [0,9999]"
  | zoneHour => "timezone hour outside of range [0,23]"

def Unwritable.report (u : Unwritable) : String :=
  "json: error calling MarshalJSON for type *time.Time: " ++ u.message

def unwritable? (t : Time) : Option Unwritable :=
  if t.year < 0 || 9999 < t.year then some .year
  else if 24 * 3600 ≤ t.offset.natAbs then some .zoneHour
  else none

def twoDigits? (a b : Char) : Option Nat :=
  if a.isDigit && b.isDigit then Text.readDigits? 10 [a, b] else none

def shortNumber? : List Char → Option (Nat × List Char)
  | a :: b :: rest =>
    match twoDigits? a b with
    | some n => some (n, rest)
    | none => (Text.readDigits? 10 [a]).map fun n => (n, b :: rest)
  | _ => none

/-- The offset of a zone. As many do, an hour may be the 24th and a minute the 60th. -/
def readZone? : List Char → Option Int
  | ['Z'] => some 0
  | [sign, a, b, ':', c, d] => do
    let hours ← twoDigits? a b
    let minutes ← twoDigits? c d
    if 24 < hours || 60 < minutes then none
    let offset : Int := hours * 3600 + minutes * 60
    if sign == '+' then some offset else if sign == '-' then some (-offset) else none
  | _ => none

/-- Decimals of a second as nanoseconds; digits after the ninth are dropped. -/
def readNanos? (digits : List Char) : Option Nat :=
  let nine := (digits ++ List.replicate 9 '0').take 9
  Text.readDigits? 10 nine

def splitFraction : List Char → List Char × List Char
  | [] => ([], [])
  | c :: rest =>
    let (digits, after) := rest.span Char.isDigit
    if (c == '.' || c == ',') && !digits.isEmpty then (digits, after) else ([], c :: rest)

def readDate? : List Char → Option ((Int × Nat × Nat) × List Char)
  | y₁ :: y₂ :: y₃ :: y₄ :: '-' :: m₁ :: m₂ :: '-' :: d₁ :: d₂ :: rest => do
    let year : Int := (← twoDigits? y₁ y₂) * 100 + (← twoDigits? y₃ y₄)
    let month ← twoDigits? m₁ m₂
    let day ← twoDigits? d₁ d₂
    if month < 1 || 12 < month || day < 1 || daysInMonth year month < day then none
    return ((year, month, day), rest)
  | _ => none

def readClock? (cs : List Char) : Option (Nat × List Char) := do
  let (hour, rest) ← shortNumber? cs
  match rest with
  | ':' :: n₁ :: n₂ :: ':' :: s₁ :: s₂ :: rest =>
    let minute ← twoDigits? n₁ n₂
    let second ← twoDigits? s₁ s₂
    if 24 ≤ hour || 60 ≤ minute || 60 ≤ second then none
    return (hour * 3600 + minute * 60 + second, rest)
  | _ => none

def ofText? (s : String) : Option Time := do
  match ← readDate? s.toList with
  | ((year, month, day), 'T' :: rest) =>
    let (second, rest) ← readClock? rest
    let (digits, rest) := splitFraction rest
    let nanos ← readNanos? digits
    let offset ← readZone? rest
    return { seconds := daysFromCivil year month day * 86400 + second - offset
             nanos := nanos, offset := offset }
  | _ => none

end Time

end FlowAudit
