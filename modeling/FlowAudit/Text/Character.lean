namespace FlowAudit.Text

def inRanges (ranges : List (Nat × Nat)) (n : Nat) : Bool :=
  ranges.any fun r => r.1 ≤ n && n ≤ r.2

/-- The characters with the property White_Space. -/
def isBlank (c : Char) : Bool :=
  let n := c.toNat
  (9 ≤ n && n ≤ 13) || n == 0x20 || n == 0x85 || n == 0xA0 || n == 0x1680 ||
    (0x2000 ≤ n && n ≤ 0x200A) || n == 0x2028 || n == 0x2029 || n == 0x202F || n == 0x205F ||
    n == 0x3000

def dropBlankEnd (cs : List Char) : List Char := (cs.reverse.dropWhile isBlank).reverse

def trimChars (cs : List Char) : List Char := dropBlankEnd (cs.dropWhile isBlank)

def trim (s : String) : String := String.ofList (trimChars s.toList)

/-- The characters past ASCII whose lower-case form takes another number of bytes, with that form. -/
def resizedByLower : List (Nat × Nat) :=
  [(0x130, 0x69), (0x23A, 0x2C65), (0x23E, 0x2C66), (0x1E9E, 0xDF), (0x2126, 0x3C9), (0x212A, 0x6B),
    (0x212B, 0xE5), (0x2C62, 0x26B), (0x2C64, 0x27D), (0x2C6D, 0x251), (0x2C6E, 0x271),
    (0x2C6F, 0x250), (0x2C70, 0x252), (0x2C7E, 0x23F), (0x2C7F, 0x240), (0xA78D, 0x265),
    (0xA7AA, 0x266), (0xA7AB, 0x25C), (0xA7AC, 0x261), (0xA7AD, 0x26C), (0xA7AE, 0x26A),
    (0xA7B0, 0x29E), (0xA7B1, 0x287), (0xA7B2, 0x29D), (0xA7C5, 0x282), (0xA7CB, 0x264),
    (0xA7DC, 0x19B)]

/-- The lower-case form, where it is ASCII or takes another number of bytes. -/
def lowerChar (c : Char) : Char :=
  if c.toNat < 0x80 then c.toLower
  else ((resizedByLower.lookup c.toNat).map Char.ofNat).getD c

def lower (s : String) : String := String.ofList (s.toList.map lowerChar)

/-- Simple case folding, for characters that fold to an ASCII one. -/
def foldChar (c : Char) : Char :=
  if c.toNat == 0x17F then 's' else if c.toNat == 0x212A then 'k' else c.toLower

def fold (s : String) : String := String.ofList (s.toList.map foldChar)

def isWord (word s : String) : Bool := fold s == fold word

def openBrace : String := "\x7b"

def closeBrace : String := "\x7d"

@[simp] theorem toList_openBrace : openBrace.toList = ['{'] := by simp [openBrace]

@[simp] theorem toList_closeBrace : closeBrace.toList = ['}'] := by simp [closeBrace]

def braces (inner : String) : String := openBrace ++ inner ++ closeBrace

end FlowAudit.Text
