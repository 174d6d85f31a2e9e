import FlowAudit.Analysis.Basic
import FlowAudit.Digest.Sha256
import FlowAudit.Text.Utf8

namespace FlowAudit.Fingerprint

/-- How a flow below counts: its name, with the version and the time of it when they are known. -/
def part (f : Findings) : String :=
  match f.version with
  | none => f.name
  | some v => f.name ++ "@" ++ Text.decimalInt v.version ++ "@" ++ v.lastModified.toUtc.text

mutual

/-- The parts of an analysis and those below it, each name once, with the names seen. -/
def partsOf (seen : List String) : Analysis → List String × List String
  | .node f children =>
    if seen.contains f.name then ([], seen)
    else
      let (ps, seen) := partsIn (f.name :: seen) children
      (part f :: ps, seen)

def partsIn (seen : List String) : List (Option Analysis) → List String × List String
  | [] => ([], seen)
  | none :: rest => partsIn seen rest
  | some a :: rest =>
    let (ps, seen) := partsOf seen a
    let (qs, seen) := partsIn seen rest
    (ps ++ qs, seen)

end

def parts (a : Analysis) : List String := (partsIn [] a.children).1.mergeSort (· ≤ ·)

def compute (content : List UInt8) (a : Option Analysis) : String :=
  let below := (a.map parts).getD []
  -- names may hold anything, zeros too, so the parts cannot always be told apart
  Sha256.hexDigest (content ++ below.flatMap fun p => 0 :: p.toUTF8.toList)

end FlowAudit.Fingerprint
