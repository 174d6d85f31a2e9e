namespace FlowAudit.Text.Utf8

def isContinuation (b : UInt8) : Bool := 0x80 ≤ b && b ≤ 0xBF

def payload (b : UInt8) : Nat := b.toNat % 64

/-- The code point of the sequence that begins with the byte `b`, with the number of further bytes
it takes. Overlong forms, surrogates and values past U+10FFFF begin no sequence. -/
def sequence? (b : UInt8) (rest : List UInt8) : Option (Char × Nat) :=
  if b < 0x80 then some (Char.ofNat b.toNat, 0)
  else if 0xC2 ≤ b && b ≤ 0xDF then
    match rest with
    | c :: _ =>
      if isContinuation c then some (Char.ofNat ((b.toNat % 32) * 64 + payload c), 1) else none
    | _ => none
  else if 0xE0 ≤ b && b ≤ 0xEF then
    match rest with
    | c :: d :: _ =>
      let low : UInt8 := if b == 0xE0 then 0xA0 else 0x80
      let high : UInt8 := if b == 0xED then 0x9F else 0xBF
      if low ≤ c && c ≤ high && isContinuation d then
        some (Char.ofNat (((b.toNat % 16) * 64 + payload c) * 64 + payload d), 2)
      else none
    | _ => none
  else if 0xF0 ≤ b && b ≤ 0xF4 then
    match rest with
    | c :: d :: e :: _ =>
      let low : UInt8 := if b == 0xF0 then 0x90 else 0x80
      let high : UInt8 := if b == 0xF4 then 0x8F else 0xBF
      if low ≤ c && c ≤ high && isContinuation d && isContinuation e then
        some (Char.ofNat ((((b.toNat % 8) * 64 + payload c) * 64 + payload d) * 64 + payload e), 3)
      else none
    | _ => none
  else none

def decode : List UInt8 → List (Option Char)
  | [] => []
  | b :: rest =>
    match sequence? b rest with
    | some (c, n) => some c :: decode (rest.drop n)
    | none => none :: decode rest
termination_by bytes => bytes.length
decreasing_by all_goals simp; try omega

def replacement : Char := '�'

/-- The characters of the bytes, each ill-formed byte replaced by U+FFFD. -/
def decodeLossy (bytes : List UInt8) : List Char := (decode bytes).map (·.getD replacement)

def width (c : Char) : Nat :=
  if c.toNat < 0x80 then 1 else if c.toNat < 0x800 then 2 else if c.toNat < 0x10000 then 3 else 4

def encodeChar (c : Char) : List UInt8 :=
  let n := c.toNat
  let tail (k : Nat) : UInt8 := UInt8.ofNat (0x80 + n / Nat.pow 64 k % 64)
  if n < 0x80 then [UInt8.ofNat n]
  else if n < 0x800 then [UInt8.ofNat (0xC0 + n / 64), tail 0]
  else if n < 0x10000 then [UInt8.ofNat (0xE0 + n / 4096), tail 1, tail 0]
  else [UInt8.ofNat (0xF0 + n / 262144), tail 2, tail 1, tail 0]

def encode (cs : List Char) : List UInt8 := cs.flatMap encodeChar

end FlowAudit.Text.Utf8
