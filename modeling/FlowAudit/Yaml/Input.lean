import FlowAudit.Text.Utf8

namespace FlowAudit.Yaml

def isLegal (c : Char) : Bool :=
  let n := c.toNat
  n == 0x09 || n == 0x0A || n == 0x0D || (0x20 ≤ n && n ≤ 0x7E) || n == 0x85 ||
    (0xA0 ≤ n && n ≤ 0xD7FF) || (0xE000 ≤ n && n ≤ 0xFFFD) || 0x10000 ≤ n

/-- What the next bytes are. -/
inductive Decoded where
  /-- A character that a text may hold, with its size in bytes. -/
  | char (c : Char) (size : Nat)
  /-- Bytes that are no such character. -/
  | bad (size : Nat)
  /-- The beginning of a character of which the rest is missing. -/
  | short
  deriving Inhabited, Repr, DecidableEq

def Decoded.ofChar (c : Char) (size : Nat) : Decoded :=
  if isLegal c then .char c size else .bad size

def continuationCount? (b : UInt8) : Option Nat :=
  if b < 0x80 then some 0
  else if b / 32 == 6 then some 1
  else if b / 16 == 14 then some 2
  else if b / 8 == 30 then some 3
  else none

def decodeUtf8 : List UInt8 → List Decoded
  | [] => []
  | b :: rest =>
    match continuationCount? b with
    | none => [.bad 1]
    | some n =>
      let tail := rest.take n
      if tail.length < n then [.short]
      else match Text.Utf8.decode (b :: tail) with
        | [some c] => .ofChar c (n + 1) :: decodeUtf8 (rest.drop n)
        | _ => [.bad (n + 1)]
termination_by bytes => bytes.length
decreasing_by simp only [List.length_drop, List.length_cons]; omega

def utf16Unit (bigEndian : Bool) (a b : UInt8) : Nat :=
  if bigEndian then a.toNat * 256 + b.toNat else b.toNat * 256 + a.toNat

def decodeUtf16 (bigEndian : Bool) : List UInt8 → List Decoded
  | [] => []
  | [_] => [.short]
  | a :: b :: rest =>
    let n := utf16Unit bigEndian a b
    if 0xDC00 ≤ n && n < 0xE000 then [.bad 2]
    else if 0xD800 ≤ n && n < 0xDC00 then
      match rest with
      | c :: d :: rest =>
        let m := utf16Unit bigEndian c d
        if 0xDC00 ≤ m && m < 0xE000 then
          .ofChar (Char.ofNat (0x10000 + (n - 0xD800) * 0x400 + (m - 0xDC00))) 4 ::
            decodeUtf16 bigEndian rest
        else [.bad 4]
      | _ => [.short]
    else .ofChar (Char.ofNat n) 2 :: decodeUtf16 bigEndian rest

/-- A text as it is taken in. -/
structure Supply where
  /-- The characters of the blocks that can be read. -/
  text : List Char
  /-- The number of characters in each of these blocks. -/
  blocks : List Nat
  /-- Whether something that cannot be read follows. -/
  isCut : Bool

def blockSize : Nat := 512

/-- Divides characters into blocks. The present block begins at `start` and has `count` characters so
far; `blocks` are those before it, and `text` all characters, the last one first. A character goes to
the next block if it does not fit; one of which the end is missing is noticed after all others. -/
def divide (start position count : Nat) (blocks : List Nat) (text : List Char) :
    List Decoded → Supply
  | [] => ⟨text.reverse, (count :: blocks).reverse, false⟩
  | .char c size :: rest =>
    if position + size ≤ start + blockSize then
      divide start (position + size) (count + 1) blocks (c :: text) rest
    else divide position (position + size) 1 (count :: blocks) (c :: text) rest
  | .bad size :: _ =>
    if position + size ≤ start + blockSize then ⟨(text.drop count).reverse, blocks.reverse, true⟩
    else ⟨text.reverse, (count :: blocks).reverse, true⟩
  | .short :: _ => ⟨text.reverse, (count :: blocks).reverse, true⟩

def supply (bytes : List UInt8) : Supply :=
  match bytes with
  | 0xEF :: 0xBB :: 0xBF :: rest => divide 0 3 0 [] [] (decodeUtf8 rest)
  | 0xFF :: 0xFE :: rest => divide 0 2 0 [] [] (decodeUtf16 false rest)
  | 0xFE :: 0xFF :: rest => divide 0 2 0 [] [] (decodeUtf16 true rest)
  | bytes => divide 0 0 0 [] [] (decodeUtf8 bytes)

end FlowAudit.Yaml
