import AccountService.JavaScript

/-!
# The UTF-8 decoder of a buffer

The decoder reads back what an encoder has written, whatever follows: after the
first byte of a character it waits for exactly the bytes the character has, and
for the first of them it accepts the range the encoder stays within.  On any
bytes at all it never writes more characters than it reads bytes.
-/

namespace AccountService.JavaScript

/-! ## One byte -/

theorem decodeUtf8_cons (s : Option Pending) (b : UInt8) (bs : List UInt8) :
    decodeUtf8 s (b :: bs) =
      (decodeByte s b.toNat).1 ++ decodeUtf8 (decodeByte s b.toNat).2 bs := by
  cases s <;> rfl

/-- A byte of a sequence that is not its last. -/
theorem decodeByte_more {need code lo hi b : ℕ} (hlo : lo ≤ b) (hhi : b ≤ hi) :
    decodeByte (some ⟨need + 2, code, lo, hi⟩) b =
      ([], some ⟨need + 1, code * 64 + b % 64, 0x80, 0xBF⟩) := by
  simp only [decodeByte]
  rw [if_pos ⟨hlo, hhi⟩, if_neg (by omega)]
  rfl

/-- The last byte of a sequence. -/
theorem decodeByte_last {code lo hi b : ℕ} (hlo : lo ≤ b) (hhi : b ≤ hi) :
    decodeByte (some ⟨1, code, lo, hi⟩) b = ([Char.ofNat (code * 64 + b % 64)], none) := by
  simp only [decodeByte, if_true]
  rw [if_pos ⟨hlo, hhi⟩]

/-- The first byte of a character of two bytes. -/
theorem leadByte_two {n : ℕ} (hlo : 0x80 ≤ n) (hhi : n ≤ 0x7FF) :
    leadByte (n / 64 % 0x20 + 0xC0) = ([], some ⟨1, n / 64, 0x80, 0xBF⟩) := by
  have hmod : n / 64 % 0x20 = n / 64 := Nat.mod_eq_of_lt (by omega)
  unfold leadByte
  rw [hmod, if_neg (by omega), if_pos (by omega), Nat.add_sub_cancel]

/-- The first byte of a character of three bytes, with a range that has the
second: the surrogates are what it excludes. -/
theorem leadByte_three {n : ℕ} (hlo : 0x800 ≤ n) (hhi : n ≤ 0xFFFF)
    (hscalar : n < 0xD800 ∨ 0xDFFF < n) :
    ∃ lo hi, leadByte (n / 4096 % 0x10 + 0xE0) = ([], some ⟨2, n / 4096, lo, hi⟩) ∧
      lo ≤ n / 64 % 0x40 + 0x80 ∧ n / 64 % 0x40 + 0x80 ≤ hi := by
  have hmod : n / 4096 % 0x10 = n / 4096 := Nat.mod_eq_of_lt (by omega)
  unfold leadByte
  rw [hmod, if_neg (by omega), if_neg (by omega)]
  by_cases hfirst : n / 4096 = 0
  · exact ⟨0xA0, 0xBF, by rw [hfirst]; rfl, by omega, by omega⟩
  · rw [if_neg (by omega)]
    by_cases hsurrogates : n / 4096 = 0xD
    · exact ⟨0x80, 0x9F, by rw [hsurrogates]; rfl, by omega, by omega⟩
    · rw [if_neg (by omega), if_pos (by omega), Nat.add_sub_cancel]
      exact ⟨0x80, 0xBF, rfl, by omega, by omega⟩

/-- The first byte of a character of four bytes, with a range that has the
second. -/
theorem leadByte_four {n : ℕ} (hlo : 0x10000 ≤ n) (hhi : n < 0x110000) :
    ∃ lo hi, leadByte (n / 262144 % 0x08 + 0xF0) = ([], some ⟨3, n / 262144, lo, hi⟩) ∧
      lo ≤ n / 4096 % 0x40 + 0x80 ∧ n / 4096 % 0x40 + 0x80 ≤ hi := by
  have hmod : n / 262144 % 0x08 = n / 262144 := Nat.mod_eq_of_lt (by omega)
  unfold leadByte
  rw [hmod, if_neg (by omega), if_neg (by omega), if_neg (by omega), if_neg (by omega),
    if_neg (by omega)]
  by_cases hfirst : n / 262144 = 0
  · exact ⟨0x90, 0xBF, by rw [hfirst]; rfl, by omega, by omega⟩
  · rw [if_neg (by omega)]
    by_cases hlast : n / 262144 = 4
    · exact ⟨0x80, 0x8F, by rw [hlast]; rfl, by omega, by omega⟩
    · rw [if_pos (by omega), Nat.add_sub_cancel]
      exact ⟨0x80, 0xBF, rfl, by omega, by omega⟩

/-! ## One character -/

/-- The encoder's byte for a number that is one. -/
theorem toNat_ofNat_byte {n : ℕ} (h : n < 256) : (UInt8.ofNat n).toNat = n := by
  rw [UInt8.toNat_ofNat', Nat.mod_eq_of_lt (by omega)]

/-- The byte that carries the lowest six bits of a number. -/
theorem toNat_tailByte (n : ℕ) : (UInt8.ofNat (n % 0x40 + 0x80)).toNat = n % 0x40 + 0x80 :=
  toNat_ofNat_byte (by omega)

/-- The last byte of a character completes its code point. -/
theorem decodeUtf8_tailByte {n code lo hi : ℕ} (hcode : code = n / 64)
    (hlo : lo ≤ n % 0x40 + 0x80) (hhi : n % 0x40 + 0x80 ≤ hi) (bs : List UInt8) :
    decodeUtf8 (some ⟨1, code, lo, hi⟩) (UInt8.ofNat (n % 0x40 + 0x80) :: bs) =
      Char.ofNat n :: decodeUtf8 none bs := by
  have hpoint : code * 64 + (n % 0x40 + 0x80) % 64 = n := by omega
  rw [decodeUtf8_cons, toNat_tailByte, decodeByte_last hlo hhi, hpoint]
  rfl

/-- A byte between the first and the last adds six bits to the code point. -/
theorem decodeUtf8_middleByte {n need code lo hi : ℕ} (hcode : code = n / 64)
    (hlo : lo ≤ n % 0x40 + 0x80) (hhi : n % 0x40 + 0x80 ≤ hi) (bs : List UInt8) :
    decodeUtf8 (some ⟨need + 2, code, lo, hi⟩) (UInt8.ofNat (n % 0x40 + 0x80) :: bs) =
      decodeUtf8 (some ⟨need + 1, n, 0x80, 0xBF⟩) bs := by
  have hpoint : code * 64 + (n % 0x40 + 0x80) % 64 = n := by omega
  rw [decodeUtf8_cons, toNat_tailByte, decodeByte_more hlo hhi, hpoint]
  rfl

/-- **A character is read back from its bytes**, and the decoder is then
between characters. -/
theorem decodeUtf8_utf8EncodeChar (c : Char) (bs : List UInt8) :
    decodeUtf8 none (String.utf8EncodeChar c ++ bs) = c :: decodeUtf8 none bs := by
  have hscalar : c.val.toNat < 0xD800 ∨ 0xDFFF < c.val.toNat ∧ c.val.toNat < 0x110000 := c.valid
  have hchar : Char.ofNat c.val.toNat = c := Char.ofNat_toNat c
  simp only [String.utf8EncodeChar]
  generalize c.val.toNat = n at hscalar hchar
  by_cases hone : n ≤ 0x7F
  · rw [if_pos hone, List.singleton_append, decodeUtf8_cons, toNat_ofNat_byte (by omega)]
    simp only [decodeByte, leadByte]
    rw [if_pos (by omega), hchar]
    rfl
  rw [if_neg hone]
  by_cases htwo : n ≤ 0x7FF
  · rw [if_pos htwo, List.cons_append, List.singleton_append, decodeUtf8_cons,
      toNat_ofNat_byte (by omega)]
    simp only [decodeByte]
    rw [leadByte_two (by omega) htwo, List.nil_append,
      decodeUtf8_tailByte rfl (by omega) (by omega), hchar]
  rw [if_neg htwo]
  by_cases hthree : n ≤ 0xFFFF
  · obtain ⟨lo, hi, hlead, hlo, hhi⟩ := leadByte_three (n := n) (by omega) hthree (by omega)
    rw [if_pos hthree, List.cons_append, decodeUtf8_cons, toNat_ofNat_byte (by omega)]
    simp only [decodeByte]
    rw [hlead, List.nil_append, List.cons_append, List.singleton_append,
      decodeUtf8_middleByte (by omega) hlo hhi, decodeUtf8_tailByte rfl (by omega) (by omega),
      hchar]
  · obtain ⟨lo, hi, hlead, hlo, hhi⟩ := leadByte_four (n := n) (by omega) (by omega)
    rw [if_neg hthree, List.cons_append, decodeUtf8_cons, toNat_ofNat_byte (by omega)]
    simp only [decodeByte]
    rw [hlead, List.nil_append, List.cons_append, List.cons_append, List.singleton_append,
      decodeUtf8_middleByte (by omega) hlo hhi,
      decodeUtf8_middleByte (by omega) (by omega) (by omega),
      decodeUtf8_tailByte rfl (by omega) (by omega), hchar]

/-! ## Whole buffers -/

/-- What `ByteArray.toList` has still to read, behind what it has read. -/
private theorem toList_loop (bs : ByteArray) (i : ℕ) (read : List UInt8) :
    ByteArray.toList.loop bs i read = read.reverse ++ bs.data.toList.drop i := by
  fun_induction ByteArray.toList.loop bs i read with
  | case1 i read hlt ih =>
      have hget : bs.get! i = bs.data.toList[i] := getElem!_pos bs.data i hlt
      rw [ih, List.drop_eq_getElem_cons (i := i) hlt, hget, List.reverse_cons, List.append_assoc,
        List.singleton_append]
  | case2 i read hlt =>
      rw [List.drop_eq_nil_of_le (Nat.le_of_not_lt hlt), List.append_nil]

/-- The UTF-8 bytes of a string, character by character. -/
theorem toUTF8_toList (s : String) :
    s.toUTF8.toList = s.toList.flatMap String.utf8EncodeChar := by
  have hlist : s.toUTF8.toList = s.toUTF8.data.toList := toList_loop s.toUTF8 0 []
  rw [hlist, String.toUTF8_eq_toByteArray, ← String.utf8Encode_toList]
  exact List.toList_data_toByteArray

/-- A text in ASCII has a byte for each character. -/
theorem length_toUTF8_of_ascii {s : String} (hascii : ∀ c ∈ s.toList, c.toNat < 0x80) :
    s.toUTF8.toList.length = s.toList.length := by
  rw [toUTF8_toList]
  generalize s.toList = cs at hascii
  induction cs with
  | nil => rfl
  | cons c cs ih =>
      have hsize : c.utf8Size = 1 :=
        Char.utf8Size_eq_one_iff.mpr (UInt32.le_iff_toNat_le.mpr
          (Nat.le_of_lt_succ (hascii c List.mem_cons_self)))
      rw [List.flatMap_cons, List.length_append, String.length_utf8EncodeChar, hsize,
        ih fun d hd => hascii d (List.mem_cons_of_mem c hd), List.length_cons, Nat.add_comm]

/-- **What was encoded is read back in front of whatever follows.** -/
theorem decodeUtf8_toUTF8 (s : String) (bs : List UInt8) :
    decodeUtf8 none (s.toUTF8.toList ++ bs) = s.toList ++ decodeUtf8 none bs := by
  rw [toUTF8_toList]
  induction s.toList with
  | nil => rfl
  | cons c cs ih =>
      rw [List.flatMap_cons, List.append_assoc, decodeUtf8_utf8EncodeChar, ih, List.cons_append]

/-- A first byte is a character of its own or begins a sequence. -/
theorem length_leadByte (b : ℕ) : (leadByte b).1.length + (leadByte b).2.toList.length = 1 := by
  unfold leadByte
  repeat (first | split | rfl)

theorem length_decodeByte_le (s : Option Pending) (b : ℕ) :
    (decodeByte s b).1.length + (decodeByte s b).2.toList.length ≤ s.toList.length + 1 := by
  have hlead := length_leadByte b
  cases s with
  | none => exact hlead.le
  | some p =>
      simp only [decodeByte, Option.toList_some, List.length_singleton]
      split
      · split <;> simp
      · simp only [List.length_cons]
        omega

/-- The decoder writes no more characters than it reads bytes, the unfinished
sequence counted as one. -/
theorem length_decodeUtf8_le (s : Option Pending) (bs : List UInt8) :
    (decodeUtf8 s bs).length ≤ bs.length + s.toList.length := by
  induction bs generalizing s with
  | nil => cases s <;> simp [decodeUtf8]
  | cons b bs ih =>
      have hbyte := length_decodeByte_le s b.toNat
      have hrest := ih (decodeByte s b.toNat).2
      rw [decodeUtf8_cons, List.length_append, List.length_cons]
      omega

/-- **The text of a buffer is no longer than the buffer.** -/
theorem length_utf8ToString_le (bs : List UInt8) :
    (utf8ToString bs).toList.length ≤ bs.length := by
  rw [utf8ToString, String.toList_ofList]
  exact length_decodeUtf8_le none bs

/-- What was encoded in two parts is the text of both. -/
theorem utf8ToString_toUTF8_append (s t : String) :
    utf8ToString (s.toUTF8.toList ++ t.toUTF8.toList) = s ++ t := by
  have hend : decodeUtf8 none t.toUTF8.toList = t.toList := by
    have h := decodeUtf8_toUTF8 t []
    rwa [List.append_nil, decodeUtf8, List.append_nil] at h
  rw [utf8ToString, decodeUtf8_toUTF8, hend, ← String.toList_append, String.ofList_toList]

end AccountService.JavaScript
