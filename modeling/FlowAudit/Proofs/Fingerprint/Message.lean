import FlowAudit.Fingerprint
import FlowAudit.Proofs.Time.Text

namespace FlowAudit.Fingerprint

def bytes (s : String) : List UInt8 := s.toUTF8.toList

def message (content : List UInt8) (a : Analysis) : List UInt8 :=
  content ++ (parts a).flatMap fun p ↦ 0 :: bytes p

theorem compute_eq (content : List UInt8) (a : Analysis) :
    compute content (some a) = Sha256.hexDigest (message content a) :=
  rfl

section Bytes

variable {s t : String}

theorem toList_loop (bs : ByteArray) (i : Nat) (r : List UInt8) :
    ByteArray.toList.loop bs i r = r.reverse ++ bs.data.toList.drop i := by
  fun_induction ByteArray.toList.loop bs i r with
  | case1 i r h ih =>
    have hdrop : bs.data.toList.drop i = bs.get! i :: bs.data.toList.drop (i + 1) := by
      have hi : i < bs.data.size := h
      rw [List.drop_eq_getElem_cons (by simpa using hi)]
      exact congrArg (· :: _) (getElem!_pos bs.data i hi).symm
    rw [ih, hdrop, List.reverse_cons, List.append_assoc, List.singleton_append]
  | case2 i r h =>
    have hi : bs.data.size ≤ i := Nat.le_of_not_lt h
    rw [List.drop_eq_nil_of_le (by simpa using hi), List.append_nil]

theorem bytes_eq (s : String) : bytes s = s.toByteArray.data.toList := by
  rw [bytes, ByteArray.toList, toList_loop]
  rfl

theorem bytes_eq_flatMap (s : String) : bytes s = s.toList.flatMap String.utf8EncodeChar := by
  rw [bytes_eq, ← String.utf8Encode_toList, List.utf8Encode, List.data_toByteArray]

theorem bytes_append (s t : String) : bytes (s ++ t) = bytes s ++ bytes t := by
  simp [bytes_eq_flatMap]

theorem bytes_inj (h : bytes s = bytes t) : s = t := by
  rw [bytes_eq, bytes_eq, Array.toList_inj] at h
  exact String.toByteArray_inj.1 (ByteArray.ext h)

theorem zero_not_mem_utf8EncodeChar {c : Char} (hc : c ≠ '\x00') : 0 ∉ String.utf8EncodeChar c := by
  have hval : 0 < c.val.toNat := by
    refine Nat.pos_of_ne_zero fun h ↦ hc ?_
    exact Char.ext (UInt32.toNat_inj.1 h)
  have hbyte {n : Nat} (h : 0 < n) (h' : n < 256) : (0 : UInt8) ≠ UInt8.ofNat n := by
    intro heq
    have hn : 0 = n := by simpa [UInt8.toNat_ofNat_of_lt' h'] using congrArg UInt8.toNat heq
    omega
  unfold String.utf8EncodeChar
  dsimp only
  split
  · simp only [List.mem_cons, List.not_mem_nil, or_false]
    exact hbyte hval (by omega)
  · split
    · simp only [List.mem_cons, List.not_mem_nil, or_false, not_or]
      exact ⟨hbyte (by omega) (by omega), hbyte (by omega) (by omega)⟩
    · split
      · simp only [List.mem_cons, List.not_mem_nil, or_false, not_or]
        exact ⟨hbyte (by omega) (by omega), hbyte (by omega) (by omega), hbyte (by omega) (by omega)⟩
      · simp only [List.mem_cons, List.not_mem_nil, or_false, not_or]
        exact ⟨hbyte (by omega) (by omega), hbyte (by omega) (by omega), hbyte (by omega) (by omega),
          hbyte (by omega) (by omega)⟩

theorem zero_not_mem_bytes (h : ∀ c ∈ s.toList, c ≠ '\x00') : 0 ∉ bytes s := by
  rw [bytes_eq_flatMap, List.mem_flatMap]
  rintro ⟨c, hc, hmem⟩
  exact zero_not_mem_utf8EncodeChar (h c hc) hmem

end Bytes

section Pieces

def pieces (bs : List UInt8) : List (List UInt8) := bs.splitOn 0

theorem pieces_append_flatMap (bs : List UInt8) (ps : List String) :
    pieces (bs ++ ps.flatMap fun p ↦ 0 :: bytes p) =
      pieces bs ++ ps.flatMap fun p ↦ pieces (bytes p) := by
  induction ps generalizing bs with
  | nil => simp
  | cons p ps ih =>
    rw [List.flatMap_cons, List.flatMap_cons, List.cons_append, pieces, List.splitOn_append_cons_self]
    exact congrArg _ (ih (bytes p))

theorem exists_pieces_append (bs : List UInt8) :
    ∃ ps p, ∀ cs, 0 ∉ cs → pieces (bs ++ cs) = ps ++ [p ++ cs] := by
  induction bs with
  | nil => exact ⟨[], [], fun cs hcs ↦ List.splitOn_eq_singleton hcs⟩
  | cons b bs ih =>
    obtain ⟨ps, p, h⟩ := ih
    have hcons (cs : List UInt8) : pieces (b :: bs ++ cs) =
        if b == 0 then [] :: pieces (bs ++ cs) else (pieces (bs ++ cs)).modifyHead (b :: ·) :=
      List.splitOn_cons_eq_if_modifyHead b (bs ++ cs)
    by_cases hb : b = 0
    · refine ⟨[] :: ps, p, fun cs hcs ↦ ?_⟩
      rw [hcons, if_pos (by simpa using hb), h cs hcs, List.cons_append]
    · have hb' : ¬(b == 0) = true := by simpa using hb
      cases ps with
      | nil =>
        refine ⟨[], b :: p, fun cs hcs ↦ ?_⟩
        rw [hcons, if_neg hb', h cs hcs]
        rfl
      | cons q ps =>
        refine ⟨(b :: q) :: ps, p, fun cs hcs ↦ ?_⟩
        rw [hcons, if_neg hb', h cs hcs]
        rfl

/-- Messages that differ in one part tell it, if the part differs after a name. -/
theorem eq_of_message_eq {content : List UInt8} {ps ps' rest : List String} {name s s' : String}
    (hps : ps.Perm ((name ++ s) :: rest)) (hps' : ps'.Perm ((name ++ s') :: rest))
    (hs : 0 ∉ bytes s) (hs' : 0 ∉ bytes s')
    (h : (content ++ ps.flatMap fun p ↦ 0 :: bytes p) = content ++ ps'.flatMap fun p ↦ 0 :: bytes p) :
    s = s' := by
  have hpieces := congrArg pieces h
  rw [pieces_append_flatMap, pieces_append_flatMap, List.append_right_inj] at hpieces
  have hperm := (hps.flatMap_right fun p ↦ pieces (bytes p)).symm.trans
    (hpieces ▸ hps'.flatMap_right fun p ↦ pieces (bytes p))
  rw [List.flatMap_cons, List.flatMap_cons, List.perm_append_right_iff, bytes_append,
    bytes_append] at hperm
  obtain ⟨qs, q, hq⟩ := exists_pieces_append (bytes name)
  rw [hq _ hs, hq _ hs', List.perm_append_left_iff, List.perm_singleton, List.singleton_inj,
    List.append_right_inj] at hperm
  exact bytes_inj hperm

end Pieces

def versionText (v : Version) : String :=
  "@" ++ Text.decimalInt v.version ++ "@" ++ v.lastModified.toUtc.text

theorem part_of_some {f : Findings} {v : Version} (h : f.version = some v) :
    part f = f.name ++ versionText v := by
  simp [part, h, versionText, String.append_assoc]

theorem decimalInt_eq_pad (n : Int) : Text.decimalInt n = Time.pad 1 n := by
  have hlength : 1 - (Nat.toDigits 10 n.natAbs).length = 0 := by
    have hpos := List.length_pos_iff.2 (Nat.toDigits_ne_nil (n := n.natAbs) (b := 10))
    omega
  have hdigits : Text.padded 1 n.natAbs = Text.decimal n.natAbs := by
    simp [Text.padded, Text.decimal, hlength]
  rw [Text.decimalInt, Time.pad, hdigits]
  split <;> simp

theorem eq_of_versionText_eq {v v' : Version} (hnanos : v.lastModified.nanos < 10 ^ 9)
    (hnanos' : v'.lastModified.nanos < 10 ^ 9) (h : versionText v = versionText v') :
    v.version = v'.version ∧ v.lastModified.toUtc = v'.lastModified.toUtc := by
  have hlist := congrArg String.toList h
  simp only [versionText, decimalInt_eq_pad, String.toList_append, List.append_assoc,
    show "@".toList = ['@'] from rfl, List.cons_append, List.nil_append, List.cons.injEq,
    true_and] at hlist
  obtain ⟨hversion, htime⟩ := Time.pad_append_inj (by simp) (by simp) hlist
  have htext := String.toList_inj.1 (List.cons.inj htime).2
  exact ⟨hversion, Time.eq_of_text_eq rfl hnanos hnanos' htext⟩

theorem ne_zero_of_mem_pad {w : Nat} {n : Int} {c : Char} (h : c ∈ (Time.pad w n).toList) :
    c ≠ '\x00' := by
  rintro rfl
  rw [Time.pad, String.toList_append, List.mem_append] at h
  obtain h | h := h
  · split at h <;> simp at h
  · exact absurd (Text.isDigit_of_mem_padded h) (by decide)

theorem zero_not_mem_versionText (v : Version) : 0 ∉ bytes (versionText v) := by
  have hpadded (w n : Nat) : ∀ c ∈ (Text.padded w n).toList, c ≠ '\x00' := by
    rw [← Time.pad_natCast]
    exact fun c ↦ ne_zero_of_mem_pad
  have hfraction : ∀ c ∈ (Time.fraction v.lastModified.toUtc.nanos).toList, c ≠ '\x00' := by
    rw [Time.toList_fraction]
    split
    · simp
    · rintro c hc rfl
      obtain hc | hc := List.mem_cons.1 hc
      · cases hc
      · exact absurd (Time.isDigit_of_mem_decimals hc) (by decide)
  have hzone : Time.zoneText v.lastModified.toUtc.offset = "Z" := rfl
  obtain ⟨y, m, d, h, n, s, hshows⟩ := Time.exists_shows v.lastModified.toUtc
  refine zero_not_mem_bytes ?_
  simp only [versionText, Time.text, hshows.text_eq, decimalInt_eq_pad, hzone, String.toList_append,
    List.forall_mem_append, and_assoc]
  exact ⟨by simp, fun c ↦ ne_zero_of_mem_pad, by simp, fun c ↦ ne_zero_of_mem_pad, by simp,
    hpadded _ _, by simp, hpadded _ _, by simp, hpadded _ _, by simp, hpadded _ _, by simp,
    hpadded _ _, hfraction, by simp⟩

end FlowAudit.Fingerprint
