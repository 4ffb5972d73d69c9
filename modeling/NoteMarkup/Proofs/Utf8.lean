import NoteMarkup.Text.Utf8

/-! The octets of a text are read as that text. Each character is written with one to four octets, and
the reader ends every character at its last octet with all its bits. -/

namespace NoteMarkup.Text

variable {place first need low high bits lead n : Nat} {rest : List UInt8} {c : Char}

theorem toNat_ofNat_octet (h : n < 256) : (UInt8.ofNat n).toNat = n := by
  rw [UInt8.toNat_ofNat', Nat.mod_eq_of_lt h]

theorem charsFrom_ascii (h : n < 128) :
    charsFrom place none (UInt8.ofNat n :: rest) =
      (charsFrom (place + 1) none rest).map (Char.ofNat n :: ·) := by
  simp only [charsFrom, toNat_ofNat_octet (show n < 256 by omega), h, if_true]

/-- An octet that starts a character. -/
theorem charsFrom_start {p : Pending} (outside : 128 ≤ n) (inRange : n < 256)
    (h : Pending.start? place n = some p) :
    charsFrom place none (UInt8.ofNat n :: rest) = charsFrom (place + 1) (some p) rest := by
  simp only [charsFrom, toNat_ofNat_octet inRange, if_neg (show ¬n < 128 by omega), h]

/-- An octet that goes on with a character and does not end it. -/
theorem charsFrom_more (atLeast : low ≤ n) (atMost : n ≤ high) (inRange : n < 256) :
    charsFrom place (some ⟨lead, first, need + 2, low, high, bits⟩) (UInt8.ofNat n :: rest) =
      charsFrom (place + 1) (some ⟨lead, first, need + 1, 0x80, 0xbf, bits * 64 + (n - 0x80)⟩)
        rest := by
  have fits : (decide (n < low) || decide (high < n)) = false := by
    simp [atLeast, atMost]
  simp only [charsFrom, toNat_ofNat_octet inRange, fits, Bool.false_eq_true, if_false,
    if_neg (show ¬need + 2 ≤ 1 by omega)]
  rfl

/-- An octet that ends a character. -/
theorem charsFrom_last (atLeast : low ≤ n) (atMost : n ≤ high) (inRange : n < 256) :
    charsFrom place (some ⟨lead, first, 1, low, high, bits⟩) (UInt8.ofNat n :: rest) =
      (charsFrom (place + 1) none rest).map (Char.ofNat (bits * 64 + (n - 0x80)) :: ·) := by
  have fits : (decide (n < low) || decide (high < n)) = false := by
    simp [atLeast, atMost]
  simp only [charsFrom, toNat_ofNat_octet inRange, fits, Bool.false_eq_true, if_false,
    Nat.le_refl, if_true]

theorem start?_two (least : 0xc2 ≤ n) (most : n < 0xe0) :
    Pending.start? place n = some ⟨n, place, 1, 0x80, 0xbf, n - 0xc0⟩ := by
  rw [Pending.start?, if_neg (by omega), if_pos most]

/-- The second of three octets `m` is in the range that the first one leaves for it. -/
theorem start?_three {m : Nat} (least : 0xe0 ≤ n) (most : n < 0xf0) (atLeast : 0x80 ≤ m)
    (atMost : m ≤ 0xbf) (needed : n = 0xe0 → 0xa0 ≤ m) (noSurrogate : n = 0xed → m ≤ 0x9f) :
    ∃ low high, Pending.start? place n = some ⟨n, place, 2, low, high, n - 0xe0⟩ ∧
      low ≤ m ∧ m ≤ high := by
  rw [Pending.start?, if_neg (by omega), if_neg (by omega)]
  by_cases first : n = 0xe0
  · subst first
    exact ⟨_, _, rfl, needed rfl, atMost⟩
  · by_cases surrogates : n = 0xed
    · subst surrogates
      exact ⟨_, _, rfl, atLeast, noSurrogate rfl⟩
    · rw [if_neg (by simpa using first), if_neg (by simpa using surrogates), if_pos most]
      exact ⟨_, _, rfl, atLeast, atMost⟩

/-- The second of four octets `m` is in the range that the first one leaves for it. -/
theorem start?_four {m : Nat} (least : 0xf0 ≤ n) (most : n ≤ 0xf4) (atLeast : 0x80 ≤ m)
    (atMost : m ≤ 0xbf) (needed : n = 0xf0 → 0x90 ≤ m) (inRange : n = 0xf4 → m ≤ 0x8f) :
    ∃ low high, Pending.start? place n = some ⟨n, place, 3, low, high, n - 0xf0⟩ ∧
      low ≤ m ∧ m ≤ high := by
  rw [Pending.start?, if_neg (by omega), if_neg (by omega), if_neg (by simp; omega),
    if_neg (by simp; omega), if_neg (by omega)]
  by_cases first : n = 0xf0
  · subst first
    exact ⟨_, _, rfl, needed rfl, atMost⟩
  · by_cases last : n = 0xf4
    · subst last
      exact ⟨_, _, rfl, atLeast, inRange rfl⟩
    · rw [if_neg (by simpa using first), if_pos (by omega)]
      exact ⟨_, _, rfl, atLeast, atMost⟩

theorem charsFrom_two {v : Nat} (least : 0x80 ≤ v) (most : v ≤ 0x7ff) :
    charsFrom place none (UInt8.ofNat (v / 64 % 32 + 192) :: UInt8.ofNat (v % 64 + 128) :: rest) =
      (charsFrom (place + 2) none rest).map (Char.ofNat v :: ·) := by
  have whole : (v / 64 % 32 + 192 - 0xc0) * 64 + (v % 64 + 128 - 0x80) = v := by omega
  rw [charsFrom_start (by omega) (by omega) (start?_two (by omega) (by omega)),
    charsFrom_last (by omega) (by omega) (by omega), whole]

theorem charsFrom_three {v : Nat} (least : 0x800 ≤ v) (most : v ≤ 0xffff)
    (noSurrogate : v < 0xd800 ∨ 0xdfff < v) :
    charsFrom place none (UInt8.ofNat (v / 4096 % 16 + 224) :: UInt8.ofNat (v / 64 % 64 + 128) ::
      UInt8.ofNat (v % 64 + 128) :: rest) =
      (charsFrom (place + 3) none rest).map (Char.ofNat v :: ·) := by
  have whole : ((v / 4096 % 16 + 224 - 0xe0) * 64 + (v / 64 % 64 + 128 - 0x80)) * 64 +
      (v % 64 + 128 - 0x80) = v := by omega
  obtain ⟨low, high, starts, atLeast, atMost⟩ := @start?_three place (v / 4096 % 16 + 224)
    (v / 64 % 64 + 128) (by omega) (by omega) (by omega) (by omega) (by omega) (by omega)
  rw [charsFrom_start (by omega) (by omega) starts, charsFrom_more atLeast atMost (by omega),
    charsFrom_last (by omega) (by omega) (by omega), whole]

theorem charsFrom_four {v : Nat} (least : 0x10000 ≤ v) (most : v < 0x110000) :
    charsFrom place none (UInt8.ofNat (v / 262144 % 8 + 240) ::
      UInt8.ofNat (v / 4096 % 64 + 128) :: UInt8.ofNat (v / 64 % 64 + 128) ::
      UInt8.ofNat (v % 64 + 128) :: rest) =
      (charsFrom (place + 4) none rest).map (Char.ofNat v :: ·) := by
  have whole : (((v / 262144 % 8 + 240 - 0xf0) * 64 + (v / 4096 % 64 + 128 - 0x80)) * 64 +
      (v / 64 % 64 + 128 - 0x80)) * 64 + (v % 64 + 128 - 0x80) = v := by omega
  obtain ⟨low, high, starts, atLeast, atMost⟩ := @start?_four place (v / 262144 % 8 + 240)
    (v / 4096 % 64 + 128) (by omega) (by omega) (by omega) (by omega) (by omega) (by omega)
  rw [charsFrom_start (by omega) (by omega) starts, charsFrom_more atLeast atMost (by omega),
    charsFrom_more (by omega) (by omega) (by omega),
    charsFrom_last (by omega) (by omega) (by omega), whole]

/-- A character is read from the octets that write it. -/
theorem charsFrom_utf8EncodeChar (place : Nat) (c : Char) (rest : List UInt8) :
    ∃ next, charsFrom place none (String.utf8EncodeChar c ++ rest) =
      (charsFrom next none rest).map (c :: ·) := by
  have valid : c.val.toNat < 0xd800 ∨ 0xdfff < c.val.toNat ∧ c.val.toNat < 0x110000 := c.valid
  have same : Char.ofNat c.val.toNat = c := Char.ofNat_toNat c
  suffices read : ∃ next, charsFrom place none (String.utf8EncodeChar c ++ rest) =
      (charsFrom next none rest).map (Char.ofNat c.val.toNat :: ·) by rwa [same] at read
  unfold String.utf8EncodeChar
  dsimp only
  split
  · exact ⟨_, charsFrom_ascii (by omega)⟩
  · split
    · exact ⟨_, charsFrom_two (by omega) (by omega)⟩
    · split
      · exact ⟨_, charsFrom_three (by omega) (by omega) (by omega)⟩
      · exact ⟨_, charsFrom_four (by omega) (by omega)⟩

theorem charsFrom_flatMap (place : Nat) (s : List Char) :
    charsFrom place none (s.flatMap String.utf8EncodeChar) = .ok s := by
  induction s generalizing place with
  | nil => rfl
  | cons c s ih =>
      obtain ⟨next, read⟩ := charsFrom_utf8EncodeChar place c (s.flatMap String.utf8EncodeChar)
      rw [List.flatMap_cons, read, ih]
      rfl

theorem toList_loop (bs : ByteArray) (i : Nat) (r : List UInt8) :
    ByteArray.toList.loop bs i r = r.reverse ++ bs.data.toList.drop i := by
  fun_induction ByteArray.toList.loop bs i r with
  | case1 i r inside ih =>
      have bound : i < bs.data.toList.length := inside
      have octet : bs.get! i = bs.data.toList[i] := getElem!_pos bs.data i bound
      rw [ih, List.drop_eq_getElem_cons bound, List.reverse_cons, List.append_assoc, octet]
      rfl
  | case2 i r outside =>
      have done : bs.data.toList.drop i = [] := List.drop_eq_nil_of_le (Nat.le_of_not_lt outside)
      rw [done, List.append_nil]

/-- The octets of a text are read as that text. -/
theorem ofOctets_toUTF8 (s : String) : ofOctets s.toUTF8.toList = .ok s.toList := by
  have octets : s.toUTF8.toList = s.toList.flatMap String.utf8EncodeChar := by
    rw [String.toUTF8_eq_toByteArray, ← String.utf8Encode_toList, List.utf8Encode, ByteArray.toList,
      toList_loop, List.toList_data_toByteArray]
    rfl
  rw [octets, ofOctets, charsFrom_flatMap]

end NoteMarkup.Text
