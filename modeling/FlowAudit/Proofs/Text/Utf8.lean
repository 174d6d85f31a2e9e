import FlowAudit.Text.Utf8
import Mathlib.Data.String.Basic

namespace FlowAudit.Text.Utf8

section Sequences

variable {n : Nat} {b c d e : UInt8} {rest : List UInt8}

theorem isContinuation_of_toNat (hc : c.toNat = 0x80 + n % 64) : isContinuation c = true := by
  simp [isContinuation, UInt8.le_iff_toNat_le, hc]
  omega

theorem payload_of_toNat (hc : c.toNat = 0x80 + n % 64) : payload c = n % 64 := by
  rw [payload, hc]
  omega

theorem sequence?_one (hn : n < 0x80) (hb : b.toNat = n) :
    sequence? b rest = some (Char.ofNat n, 0) := by
  have h1 : b < 0x80 := by simp [UInt8.lt_iff_toNat_lt, hb, hn]
  simp only [sequence?, if_pos h1, hb]

theorem sequence?_two (hn : 0x80 ≤ n) (hn' : n < 0x800) (hb : b.toNat = 0xC0 + n / 64)
    (hc : c.toNat = 0x80 + n % 64) : sequence? b (c :: rest) = some (Char.ofNat n, 1) := by
  have h1 : ¬b < 0x80 := by
    simp [UInt8.lt_iff_toNat_lt, hb]
    omega
  have h2 : (0xC2 ≤ b && b ≤ 0xDF) = true := by
    simp [UInt8.le_iff_toNat_le, hb]
    omega
  have hvalue : b.toNat % 32 * 64 + n % 64 = n := by omega
  simp only [sequence?, if_neg h1, if_pos h2, isContinuation_of_toNat hc, payload_of_toNat hc, if_true,
    hvalue]

/-- The second byte of a sequence is one that continues it; after some first bytes it has another bound, so
that there are neither overlong forms nor surrogates nor values that are too great. -/
theorem second_byte {first last low high : UInt8} {m : Nat} (hc : c.toNat = 0x80 + m % 64)
    (hlow : b.toNat = first.toNat → low.toNat ≤ c.toNat)
    (hhigh : b.toNat = last.toNat → c.toNat ≤ high.toNat) :
    (if b == first then low else 0x80) ≤ c ∧ c ≤ (if b == last then high else 0xBF) := by
  constructor
  · split
    · next h => exact UInt8.le_iff_toNat_le.2 (hlow (congrArg UInt8.toNat (eq_of_beq h)))
    · simp [UInt8.le_iff_toNat_le, hc]
  · split
    · next h => exact UInt8.le_iff_toNat_le.2 (hhigh (congrArg UInt8.toNat (eq_of_beq h)))
    · simp [UInt8.le_iff_toNat_le, hc]
      omega

theorem sequence?_three (hn : 0x800 ≤ n) (hn' : n < 0x10000) (hvalid : n < 0xD800 ∨ 0xDFFF < n)
    (hb : b.toNat = 0xE0 + n / 4096) (hc : c.toNat = 0x80 + n / 64 % 64)
    (hd : d.toNat = 0x80 + n % 64) : sequence? b (c :: d :: rest) = some (Char.ofNat n, 2) := by
  have h1 : ¬b < 0x80 := by
    simp [UInt8.lt_iff_toNat_lt, hb]
    omega
  have h2 : ¬(0xC2 ≤ b && b ≤ 0xDF) = true := by
    simp [UInt8.le_iff_toNat_le, hb]
    omega
  have h3 : (0xE0 ≤ b && b ≤ 0xEF) = true := by
    simp [UInt8.le_iff_toNat_le, hb]
    omega
  have hlow : b.toNat = (0xE0 : UInt8).toNat → (0xA0 : UInt8).toNat ≤ c.toNat := by
    simp [hb, hc]
    omega
  have hhigh : b.toNat = (0xED : UInt8).toNat → c.toNat ≤ (0x9F : UInt8).toNat := by
    simp [hb, hc]
    omega
  obtain ⟨hlow, hhigh⟩ := second_byte hc hlow hhigh
  have hvalue : (b.toNat % 16 * 64 + n / 64 % 64) * 64 + n % 64 = n := by omega
  simp only [sequence?, if_neg h1, if_neg h2, if_pos h3, hlow, hhigh, isContinuation_of_toNat hd,
    payload_of_toNat hc, payload_of_toNat hd, decide_true, Bool.and_self, if_true, hvalue]

theorem sequence?_four (hn : 0x10000 ≤ n) (hn' : n < 0x110000)
    (hb : b.toNat = 0xF0 + n / 262144) (hc : c.toNat = 0x80 + n / 4096 % 64)
    (hd : d.toNat = 0x80 + n / 64 % 64) (he : e.toNat = 0x80 + n % 64) :
    sequence? b (c :: d :: e :: rest) = some (Char.ofNat n, 3) := by
  have h1 : ¬b < 0x80 := by
    simp [UInt8.lt_iff_toNat_lt, hb]
    omega
  have h2 : ¬(0xC2 ≤ b && b ≤ 0xDF) = true := by
    simp [UInt8.le_iff_toNat_le, hb]
    omega
  have h3 : ¬(0xE0 ≤ b && b ≤ 0xEF) = true := by
    simp [UInt8.le_iff_toNat_le, hb]
    omega
  have h4 : (0xF0 ≤ b && b ≤ 0xF4) = true := by
    simp [UInt8.le_iff_toNat_le, hb]
    omega
  have hlow : b.toNat = (0xF0 : UInt8).toNat → (0x90 : UInt8).toNat ≤ c.toNat := by
    simp [hb, hc]
    omega
  have hhigh : b.toNat = (0xF4 : UInt8).toNat → c.toNat ≤ (0x8F : UInt8).toNat := by
    simp [hb, hc]
    omega
  obtain ⟨hlow, hhigh⟩ := second_byte hc hlow hhigh
  have hvalue : ((b.toNat % 8 * 64 + n / 4096 % 64) * 64 + n / 64 % 64) * 64 + n % 64 = n := by omega
  simp only [sequence?, if_neg h1, if_neg h2, if_neg h3, if_pos h4, hlow, hhigh,
    isContinuation_of_toNat hd, isContinuation_of_toNat he, payload_of_toNat hc, payload_of_toNat hd,
    payload_of_toNat he, decide_true, Bool.and_self, if_true, hvalue]

end Sequences

/-- The bytes of a character are read as the character. -/
theorem decode_encodeChar_append (c : Char) (rest : List UInt8) :
    decode (encodeChar c ++ rest) = some c :: decode rest := by
  have hvalid : c.toNat < 0xD800 ∨ 0xDFFF < c.toNat ∧ c.toNat < 0x110000 := c.valid
  have hread {b : UInt8} {bs : List UInt8}
      (h : sequence? b (bs ++ rest) = some (Char.ofNat c.toNat, bs.length)) :
      decode (b :: bs ++ rest) = some c :: decode rest := by
    rw [List.cons_append, decode, h, Char.ofNat_toNat]
    simp
  have hbyte {k : Nat} (h : k < 256) : (UInt8.ofNat k).toNat = k := UInt8.toNat_ofNat_of_lt' h
  have h0 : Nat.pow 64 0 = 1 := rfl
  have h1 : Nat.pow 64 1 = 64 := rfl
  have h2 : Nat.pow 64 2 = 4096 := rfl
  unfold encodeChar
  simp only [h0, h1, h2, Nat.div_one]
  split
  · next hn => exact hread (sequence?_one hn (hbyte (by omega)))
  · split
    · exact hread (sequence?_two (by omega) (by omega) (hbyte (by omega)) (hbyte (by omega)))
    · split
      · exact hread (sequence?_three (by omega) (by omega) (by omega) (hbyte (by omega)) (hbyte (by omega))
          (hbyte (by omega)))
      · exact hread (sequence?_four (by omega) (by omega) (hbyte (by omega)) (hbyte (by omega))
          (hbyte (by omega)) (hbyte (by omega)))

theorem decode_encode (cs : List Char) : decode (encode cs) = cs.map some := by
  induction cs with
  | nil => simp [encode, decode]
  | cons c cs ih => rw [encode, List.flatMap_cons, decode_encodeChar_append, ← encode, ih, List.map_cons]

theorem decodeLossy_encode (cs : List Char) : decodeLossy (encode cs) = cs := by
  rw [decodeLossy, decode_encode, List.map_map]
  exact List.map_id cs

section Order

theorem toNat_byte {k : Nat} (h : k < 256) : (UInt8.ofNat k).toNat = k := UInt8.toNat_ofNat_of_lt' h

/-- The bytes of characters are in the order of the characters, whatever follows them. -/
theorem encodeChar_append_lt {c d : Char} (h : c < d) (xs ys : List UInt8) :
    encodeChar c ++ xs < encodeChar d ++ ys := by
  have hlt : c.toNat < d.toNat := h
  have hc : c.toNat < 0xD800 ∨ 0xDFFF < c.toNat ∧ c.toNat < 0x110000 := c.valid
  have hd : d.toNat < 0xD800 ∨ 0xDFFF < d.toNat ∧ d.toNat < 0x110000 := d.valid
  have h0 : Nat.pow 64 0 = 1 := rfl
  have h1 : Nat.pow 64 1 = 64 := rfl
  have h2 : Nat.pow 64 2 = 4096 := rfl
  unfold encodeChar
  simp only [h0, h1, h2, Nat.div_one]
  split_ifs <;>
    simp (disch := omega) only [List.cons_append, List.cons_lt_cons_iff, UInt8.lt_iff_toNat_lt,
      ← UInt8.toNat_inj, toNat_byte] <;> omega

theorem encode_cons (c : Char) (cs : List Char) : encode (c :: cs) = encodeChar c ++ encode cs :=
  List.flatMap_cons

theorem encodeChar_ne_nil (c : Char) : encodeChar c ≠ [] := by
  unfold encodeChar
  simp only
  split_ifs <;> simp

theorem encode_lt_of_lt {cs ds : List Char} (h : cs < ds) : encode cs < encode ds := by
  induction h with
  | @nil d ds =>
    obtain ⟨b, bs, hd⟩ := List.exists_cons_of_ne_nil (encodeChar_ne_nil d)
    rw [encode_cons, hd]
    exact List.nil_lt_cons b _
  | rel h =>
    rw [encode_cons, encode_cons]
    exact encodeChar_append_lt h _ _
  | cons h ih =>
    rw [encode_cons, encode_cons]
    exact List.append_left_lt ih

theorem encode_lt_encode_iff {cs ds : List Char} : encode cs < encode ds ↔ cs < ds := by
  refine ⟨fun h ↦ ?_, encode_lt_of_lt⟩
  rcases lt_trichotomy cs ds with hlt | rfl | hgt
  · exact hlt
  · exact absurd h (List.lt_irrefl _)
  · exact absurd h (List.lt_asymm (encode_lt_of_lt hgt))

end Order

end FlowAudit.Text.Utf8
