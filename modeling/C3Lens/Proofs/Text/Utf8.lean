import C3Lens.Text.Utf8

/-!
# Texts read back from their bytes

The UTF-8 form of a text is read back as the text (`decodeLossy_encode`), so `decode?` takes it
(`decode?_encode`). The first byte of a character tells how many bytes follow and which the second
one may be; `decodeFrom_encodeChar` follows the reader through the bytes of one character, by the
number of its bytes and, for three and four, by the first of them.
-/

namespace C3Lens.Utf8

theorem toList_loop (bytes : ByteArray) (i : Nat) (seen : List UInt8) :
    ByteArray.toList.loop bytes i seen = seen.reverse ++ bytes.data.toList.drop i := by
  fun_induction ByteArray.toList.loop bytes i seen with
  | case1 i seen h ih =>
    have inside : i < bytes.data.toList.length := h
    rw [ih, List.drop_eq_getElem_cons inside, List.reverse_cons, List.append_assoc,
      List.singleton_append]
    congr
    exact getElem!_pos bytes.data i h
  | case2 i seen h =>
    have outside : bytes.data.toList.length ≤ i := Nat.le_of_not_lt h
    rw [List.drop_eq_nil_of_le outside, List.append_nil]

/-- The bytes of a text are those of its characters. -/
theorem encode_eq (s : String) : encode s = s.toList.flatMap String.utf8EncodeChar := by
  rw [encode]
  conv => lhs; rw [← String.ofList_toList (s := s)]
  show (s.toList.flatMap String.utf8EncodeChar).toByteArray.toList = _
  rw [ByteArray.toList, toList_loop, List.toList_data_toByteArray]
  rfl

theorem encode_singleton (c : Char) : encode (String.singleton c) = String.utf8EncodeChar c := by
  rw [encode_eq, String.toList_singleton, List.flatMap_singleton]

/-! ## The bytes of a character -/

theorem decodeFrom_inside_last {low high code b : Nat} (bs : List Nat) (h : low ≤ b ∧ b ≤ high) :
    decodeFrom (.inside 1 low high code) (b :: bs) =
      Char.ofNat (code * 64 + (b - 0x80)) :: decodeFrom .start bs := by
  simp [decodeFrom, h.1, h.2]

theorem decodeFrom_inside_more {more low high code b : Nat} (bs : List Nat) (many : 1 < more)
    (h : low ≤ b ∧ b ≤ high) :
    decodeFrom (.inside more low high code) (b :: bs) =
      decodeFrom (.inside (more - 1) 0x80 0xBF (code * 64 + (b - 0x80))) bs := by
  simp [decodeFrom, h.1, h.2, show ¬ more ≤ 1 by omega]

theorem decodeFrom_start_lead {b more low high code : Nat} (bs : List Nat) (wide : 0x80 ≤ b)
    (h : lead? b = some (more, low, high, code)) :
    decodeFrom .start (b :: bs) = decodeFrom (.inside more low high code) bs := by
  simp [decodeFrom, begin, show ¬ b < 0x80 by omega, h]

/-- What the first byte of a character of three bytes says. -/
theorem lead?_three {v : Nat} (low : 0x7FF < v) (high : v ≤ 0xFFFF) (valid : v < 0xD800 ∨ 0xDFFF < v) :
    ∃ first last, lead? (v / 4096 % 16 + 0xE0) = some (2, first, last, v / 4096) ∧
      first ≤ v / 64 % 64 + 0x80 ∧ v / 64 % 64 + 0x80 ≤ last := by
  have lead : v / 4096 % 16 + 0xE0 = v / 4096 + 0xE0 := by omega
  rw [lead]
  by_cases e0 : v / 4096 = 0
  · exact ⟨0xA0, 0xBF, by simp [lead?, e0], by omega, by omega⟩
  by_cases ed : v / 4096 = 13
  · exact ⟨0x80, 0x9F, by simp [lead?, ed], by omega, by omega⟩
  · refine ⟨0x80, 0xBF, ?_, by omega, by omega⟩
    simp only [lead?, Bool.and_eq_true, decide_eq_true_eq]
    rw [if_neg (by omega), if_neg (by omega), if_neg (by omega), if_pos (by omega),
      show v / 4096 + 0xE0 - 0xE0 = v / 4096 by omega]

/-- What the first byte of a character of four bytes says. -/
theorem lead?_four {v : Nat} (low : 0xFFFF < v) (valid : v < 0x110000) :
    ∃ first last, lead? (v / 262144 % 8 + 0xF0) = some (3, first, last, v / 262144) ∧
      first ≤ v / 4096 % 64 + 0x80 ∧ v / 4096 % 64 + 0x80 ≤ last := by
  have lead : v / 262144 % 8 + 0xF0 = v / 262144 + 0xF0 := by omega
  rw [lead]
  by_cases f0 : v / 262144 = 0
  · exact ⟨0x90, 0xBF, by simp [lead?, f0], by omega, by omega⟩
  by_cases f4 : v / 262144 = 4
  · exact ⟨0x80, 0x8F, by simp [lead?, f4], by omega, by omega⟩
  · refine ⟨0x80, 0xBF, ?_, by omega, by omega⟩
    simp only [lead?, Bool.and_eq_true, decide_eq_true_eq]
    rw [if_neg (by omega), if_neg (by omega), if_neg (by omega), if_neg (by omega),
      if_neg (by omega), if_pos (by omega), show v / 262144 + 0xF0 - 0xF0 = v / 262144 by omega]

/-- The bytes of a character, as numbers. -/
theorem map_toNat_utf8EncodeChar (c : Char) : (String.utf8EncodeChar c).map UInt8.toNat =
    if c.toNat ≤ 0x7F then [c.toNat]
    else if c.toNat ≤ 0x7FF then [c.toNat / 64 % 32 + 0xC0, c.toNat % 64 + 0x80]
    else if c.toNat ≤ 0xFFFF then
      [c.toNat / 4096 % 16 + 0xE0, c.toNat / 64 % 64 + 0x80, c.toNat % 64 + 0x80]
    else [c.toNat / 262144 % 8 + 0xF0, c.toNat / 4096 % 64 + 0x80, c.toNat / 64 % 64 + 0x80,
      c.toNat % 64 + 0x80] := by
  have byte : ∀ n, n < 256 → (UInt8.ofNat n).toNat = n := fun n h => UInt8.toNat_ofNat_of_lt' h
  show (String.utf8EncodeChar c).map UInt8.toNat = _
  rw [String.utf8EncodeChar, show c.val.toNat = c.toNat from rfl]
  split
  next => rw [List.map_cons, byte _ (by omega), List.map_nil]
  split
  next => rw [List.map_cons, List.map_cons, byte _ (by omega), byte _ (by omega), List.map_nil]
  split
  next =>
    rw [List.map_cons, List.map_cons, List.map_cons, byte _ (by omega), byte _ (by omega),
      byte _ (by omega), List.map_nil]
  next =>
    rw [List.map_cons, List.map_cons, List.map_cons, List.map_cons, byte _ (by omega),
      byte _ (by omega), byte _ (by omega), byte _ (by omega), List.map_nil]

/-- The bytes of a character are read as the character. -/
theorem decodeFrom_encodeChar (c : Char) (bs : List Nat) :
    decodeFrom .start ((String.utf8EncodeChar c).map UInt8.toNat ++ bs) = c :: decodeFrom .start bs := by
  have valid : c.toNat < 0xD800 ∨ 0xDFFF < c.toNat ∧ c.toNat < 0x110000 := c.valid
  have whole : Char.ofNat c.toNat = c := Char.ofNat_toNat c
  rw [map_toNat_utf8EncodeChar]
  generalize c.toNat = v at valid whole
  split
  next one =>
    simp [decodeFrom, begin, show v < 0x80 by omega, whole]
  split
  next low two =>
    have lead : lead? (v / 64 % 32 + 0xC0) = some (1, 0x80, 0xBF, v / 64) := by
      simp only [lead?, Bool.and_eq_true, decide_eq_true_eq]
      rw [if_pos (by omega), show v / 64 % 32 + 0xC0 - 0xC0 = v / 64 by omega]
    rw [List.cons_append, decodeFrom_start_lead _ (by omega) lead, List.cons_append,
      decodeFrom_inside_last _ (by omega), List.nil_append,
      show v / 64 * 64 + (v % 64 + 0x80 - 0x80) = v by omega, whole]
  split
  next low three =>
    obtain ⟨first, last, lead, fits⟩ := lead?_three (by omega) three (by omega)
    rw [List.cons_append, decodeFrom_start_lead _ (by omega) lead, List.cons_append,
      decodeFrom_inside_more _ (by omega) fits, List.cons_append,
      decodeFrom_inside_last _ (by omega), List.nil_append,
      show (v / 4096 * 64 + (v / 64 % 64 + 0x80 - 0x80)) * 64 + (v % 64 + 0x80 - 0x80) = v by omega,
      whole]
  next low =>
    obtain ⟨first, last, lead, fits⟩ := lead?_four (v := v) (by omega) (by omega)
    rw [List.cons_append, decodeFrom_start_lead _ (by omega) lead, List.cons_append,
      decodeFrom_inside_more _ (by omega) fits, List.cons_append,
      decodeFrom_inside_more _ (by omega) (by omega), List.cons_append,
      decodeFrom_inside_last _ (by omega), List.nil_append,
      show ((v / 262144 * 64 + (v / 4096 % 64 + 0x80 - 0x80)) * 64 + (v / 64 % 64 + 0x80 - 0x80)) * 64 +
        (v % 64 + 0x80 - 0x80) = v by omega, whole]

/-! ## Texts -/

/-- A text is read back from its bytes. -/
theorem decodeLossy_encode (s : String) : decodeLossy (encode s) = s := by
  have read : ∀ cs : List Char,
      decodeFrom .start ((cs.flatMap String.utf8EncodeChar).map UInt8.toNat) = cs := by
    intro cs
    induction cs with
    | nil => rfl
    | cons c cs ih => rw [List.flatMap_cons, List.map_append, decodeFrom_encodeChar, ih]
  rw [decodeLossy, encode_eq, read, String.ofList_toList]

/-- The bytes of a text are taken as the text. -/
theorem decode?_encode (s : String) : decode? (encode s) = some s := by
  simp [decode?, decodeLossy_encode]

end C3Lens.Utf8
