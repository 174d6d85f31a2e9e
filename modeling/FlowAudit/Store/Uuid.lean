import FlowAudit.Text.Character
import FlowAudit.Text.Numeral

namespace FlowAudit.Uuid

def isHex (c : Char) : Bool := (Text.digitValue? c).any (· < 16)

def grouped (ds : List Char) : List Char :=
  ds.take 8 ++ '-' :: (ds.drop 8).take 4 ++ '-' :: (ds.drop 12).take 4 ++ '-' :: (ds.drop 16).take 4 ++
    '-' :: ds.drop 20

def readGrouped? (cs : List Char) : Option (List Char) :=
  let ds := cs.filter (· != '-')
  if ds.length == 32 && ds.all isHex && grouped ds == cs then some ds else none

/-- The usual form of an identifier, which may be written without groups, in braces or with the
leading name of its sort. -/
def normalize? (s : String) : Option String :=
  let cs := s.toList
  let ds? := match s.utf8ByteSize with
    | 36 => readGrouped? cs
    | 45 =>
      if Text.isWord "urn:uuid:" (String.ofList (cs.take 9)) then readGrouped? (cs.drop 9) else none
    | 38 => if cs.length == 38 then readGrouped? ((cs.drop 1).take 36) else none
    | 32 => if cs.length == 32 && cs.all isHex then some cs else none
    | _ => none
  ds?.map fun ds => String.ofList (grouped (ds.map Char.toLower))

end FlowAudit.Uuid
