/-
Texts as bytes and back.

What encodes a text is read as that text, whatever bytes come behind
(`decode_encode_append`). The bytes of a file are read with line feeds for
line ends and without what encodes no character. So writing what was read
gives the same bytes exactly if nothing had to be changed or left out:
they encode a text, and no carriage return is in it (`encode_ofFile_iff`).
What is read a second time is what was read the first time in any case
(`ofFile_encode_ofFile`).
-/
import FreeLabel.Text.Utf8

namespace FreeLabel.Text

-- ================================================================= bytes

variable {k : Nat}

theorem toNat_byte (h : k < 256) : (UInt8.ofNat k).toNat = k := UInt8.toNat_ofNat_of_lt h

theorem following?_two (h : 0xC2 ≤ k) (h' : k < 0xE0) :
    following? (UInt8.ofNat k) = some (1, 0x80, 0xBF) := by
  have hall : ∀ k < 0xE0, 0xC2 ≤ k → following? (UInt8.ofNat k) = some (1, 0x80, 0xBF) := by
    decide +kernel
  exact hall k h' h

theorem following?_three (h : 0xE0 ≤ k) (h' : k < 0xF0) :
    following? (UInt8.ofNat k)
      = some (2, if k = 0xE0 then 0xA0 else 0x80, if k = 0xED then 0x9F else 0xBF) := by
  have hall : ∀ k < 0xF0, 0xE0 ≤ k → following? (UInt8.ofNat k)
      = some (2, if k = 0xE0 then 0xA0 else 0x80, if k = 0xED then 0x9F else 0xBF) := by
    decide +kernel
  exact hall k h' h

theorem following?_four (h : 0xF0 ≤ k) (h' : k < 0xF5) :
    following? (UInt8.ofNat k)
      = some (3, if k = 0xF0 then 0x90 else 0x80, if k = 0xF4 then 0x8F else 0xBF) := by
  have hall : ∀ k < 0xF5, 0xF0 ≤ k → following? (UInt8.ofNat k)
      = some (3, if k = 0xF0 then 0x90 else 0x80, if k = 0xF4 then 0x8F else 0xBF) := by
    decide +kernel
  exact hall k h' h

/-- A byte in its range is read onto what was read before. -/
theorem takeFollowing_byte {lo hi : UInt8} (hlo : lo.toNat ≤ k) (hhi : k ≤ hi.toNat)
    (acc n : Nat) (bs : Bytes) :
    takeFollowing lo hi acc (n + 1) (UInt8.ofNat k :: bs)
      = takeFollowing 0x80 0xBF (acc * 64 + k % 64) n bs := by
  have hk : (UInt8.ofNat k).toNat = k := toNat_byte (by have := hi.toNat_lt; omega)
  rw [takeFollowing, if_pos, hk]
  simp only [UInt8.le_iff_toNat_le, hk, decide_eq_true hlo, decide_eq_true hhi, Bool.and_self]

/-- A character that takes several bytes is read if they can be. -/
theorem decode_lead (mark : Text) {n code : Nat} {lo hi : UInt8} {bs rest : Bytes}
    (hk : 0x80 ≤ k) (hk' : k < 256) (hlead : following? (UInt8.ofNat k) = some (n, lo, hi))
    (hrest : takeFollowing lo hi (leadBits n (UInt8.ofNat k)) n bs = (some code, rest)) :
    decode mark (UInt8.ofNat k :: bs) = Char.ofNat code :: decode mark rest := by
  have hlarge : ¬ UInt8.ofNat k < 0x80 := by
    rw [UInt8.lt_iff_toNat_lt, toNat_byte hk']
    exact Nat.not_lt.2 hk
  rw [decode, if_neg hlarge, hlead]
  simp only [hrest]
  rfl

theorem leadBits_byte (n : Nat) (h : k < 256) :
    leadBits n (UInt8.ofNat k) = k % Nat.pow 2 (6 - n) := by
  rw [leadBits, toNat_byte h]

-- ============================================================ characters

variable {v : Nat} (mark : Text) (bs : Bytes)

/-- Two bytes that encode a number are read as its character. -/
theorem decode_two (h : 0x7F < v) (h' : v ≤ 0x7FF) :
    decode mark (UInt8.ofNat (v / 64 % 0x20 + 0xC0) :: UInt8.ofNat (v % 0x40 + 0x80) :: bs)
      = Char.ofNat v :: decode mark bs := by
  refine decode_lead mark (by omega) (by omega) (following?_two (by omega) (by omega)) ?_
  have hvalue : (v / 64 % 0x20 + 0xC0) % 32 * 64 + (v % 0x40 + 0x80) % 64 = v := by omega
  rw [takeFollowing_byte (Nat.le_add_left 0x80 _) (by show _ ≤ 0xBF; omega), takeFollowing,
    leadBits_byte 1 (by omega)]
  exact congrArg (fun n => (some n, bs)) hvalue

/-- Three bytes that encode a number are read as its character, if it is
that of one. -/
theorem decode_three (h : 0x7FF < v) (h' : v ≤ 0xFFFF) (hvalid : v < 0xD800 ∨ 0xDFFF < v) :
    decode mark (UInt8.ofNat (v / 4096 % 0x10 + 0xE0) ::
        UInt8.ofNat (v / 64 % 0x40 + 0x80) :: UInt8.ofNat (v % 0x40 + 0x80) :: bs)
      = Char.ofNat v :: decode mark bs := by
  refine decode_lead mark (by omega) (by omega) (following?_three (by omega) (by omega)) ?_
  have hvalue : ((v / 4096 % 0x10 + 0xE0) % 16 * 64 + (v / 64 % 0x40 + 0x80) % 64) * 64
      + (v % 0x40 + 0x80) % 64 = v := by omega
  have hleast : (if v / 4096 % 0x10 + 0xE0 = 0xE0 then 0xA0 else 0x80 : UInt8).toNat
      ≤ v / 64 % 0x40 + 0x80 := by
    split
    · show 0xA0 ≤ _
      omega
    · exact Nat.le_add_left 0x80 _
  have hmost : v / 64 % 0x40 + 0x80
      ≤ (if v / 4096 % 0x10 + 0xE0 = 0xED then 0x9F else 0xBF : UInt8).toNat := by
    split
    · show _ ≤ 0x9F
      omega
    · show _ ≤ 0xBF
      omega
  rw [takeFollowing_byte hleast hmost,
    takeFollowing_byte (Nat.le_add_left 0x80 _) (by show _ ≤ 0xBF; omega), takeFollowing,
    leadBits_byte 2 (by omega)]
  exact congrArg (fun n => (some n, bs)) hvalue

/-- Four bytes that encode a number are read as its character. -/
theorem decode_four (h : 0xFFFF < v) (h' : v < 0x110000) :
    decode mark (UInt8.ofNat (v / 262144 % 0x08 + 0xF0) ::
        UInt8.ofNat (v / 4096 % 0x40 + 0x80) :: UInt8.ofNat (v / 64 % 0x40 + 0x80) ::
        UInt8.ofNat (v % 0x40 + 0x80) :: bs)
      = Char.ofNat v :: decode mark bs := by
  refine decode_lead mark (by omega) (by omega) (following?_four (by omega) (by omega)) ?_
  have hvalue : (((v / 262144 % 0x08 + 0xF0) % 8 * 64 + (v / 4096 % 0x40 + 0x80) % 64) * 64
      + (v / 64 % 0x40 + 0x80) % 64) * 64 + (v % 0x40 + 0x80) % 64 = v := by omega
  have hleast : (if v / 262144 % 0x08 + 0xF0 = 0xF0 then 0x90 else 0x80 : UInt8).toNat
      ≤ v / 4096 % 0x40 + 0x80 := by
    split
    · show 0x90 ≤ _
      omega
    · exact Nat.le_add_left 0x80 _
  have hmost : v / 4096 % 0x40 + 0x80
      ≤ (if v / 262144 % 0x08 + 0xF0 = 0xF4 then 0x8F else 0xBF : UInt8).toNat := by
    split
    · show _ ≤ 0x8F
      omega
    · show _ ≤ 0xBF
      omega
  rw [takeFollowing_byte hleast hmost,
    takeFollowing_byte (Nat.le_add_left 0x80 _) (by show _ ≤ 0xBF; omega),
    takeFollowing_byte (Nat.le_add_left 0x80 _) (by show _ ≤ 0xBF; omega), takeFollowing,
    leadBits_byte 3 (by omega)]
  exact congrArg (fun n => (some n, bs)) hvalue

/-- The encoding of a character is read as the character. -/
theorem decode_encodeChar_append (c : Char) :
    decode mark (String.utf8EncodeChar c ++ bs) = c :: decode mark bs := by
  have hvalid : c.val.toNat < 0xD800 ∨ 0xDFFF < c.val.toNat ∧ c.val.toNat < 0x110000 := c.valid
  have hc : Char.ofNat c.val.toNat = c := Char.ofNat_toNat c
  unfold String.utf8EncodeChar
  simp only
  generalize c.val.toNat = v at hvalid hc
  rw [← hc]
  split
  next hone =>
    have hsmall : UInt8.ofNat v < 0x80 := by
      rw [UInt8.lt_iff_toNat_lt, toNat_byte (by omega)]
      exact Nat.lt_succ_of_le hone
    rw [List.singleton_append, decode, if_pos hsmall, toNat_byte (by omega)]
  next hone =>
    split
    next htwo => exact decode_two mark bs (by omega) htwo
    next htwo =>
      split
      next hthree => exact decode_three mark bs (by omega) hthree (by omega)
      next hthree => exact decode_four mark bs (by omega) (by omega)

/-- The encoding of a text is read as the text, whatever comes behind. -/
theorem decode_encode_append (t : Text) :
    decode mark (encode t ++ bs) = t ++ decode mark bs := by
  induction t with
  | nil => rfl
  | cons c t ih =>
      unfold encode at ih ⊢
      rw [List.flatMap_cons, List.append_assoc, decode_encodeChar_append, ih]
      rfl

theorem decode_encode (t : Text) : decode mark (encode t) = t := by
  have happend := decode_encode_append mark [] t
  rwa [List.append_nil, decode, List.append_nil] at happend

-- ================================================================= files

variable {bs}

theorem return_not_mem_normalizeLineEnds (t : Text) : '\r' ∉ normalizeLineEnds t := by
  fun_induction normalizeLineEnds t with
  | case1 => exact List.not_mem_nil
  | case2 s ih =>
      rw [List.mem_cons, not_or]
      exact ⟨by decide, ih⟩
  | case3 c s _ ih =>
      rw [List.mem_cons, not_or]
      refine ⟨?_, ih⟩
      split
      · decide
      · exact fun heq => absurd heq.symm ‹_›

/-- A text without carriage returns is read as it is. -/
theorem normalizeLineEnds_eq_self {t : Text} (h : '\r' ∉ t) : normalizeLineEnds t = t := by
  fun_induction normalizeLineEnds t with
  | case1 => rfl
  | case2 s ih => exact absurd List.mem_cons_self h
  | case3 c s _ ih =>
      have hreturn : c ≠ '\r' := fun heq => h (heq ▸ List.mem_cons_self)
      rw [if_neg hreturn, ih fun hmem => h (List.mem_cons_of_mem c hmem)]

theorem ofFile_encode (t : Text) : ofFile (encode t) = normalizeLineEnds t := by
  rw [ofFile, decode_encode]

/-- What was read from a file is read again when it has been written. -/
theorem ofFile_encode_ofFile (bs : Bytes) : ofFile (encode (ofFile bs)) = ofFile bs := by
  rw [ofFile_encode]
  exact normalizeLineEnds_eq_self (return_not_mem_normalizeLineEnds _)

/-- A file keeps its bytes when what was read from it is written, exactly if
they encode a text without carriage returns. -/
theorem encode_ofFile_iff :
    encode (ofFile bs) = bs ↔ ∃ t : Text, '\r' ∉ t ∧ encode t = bs := by
  constructor
  · exact fun h => ⟨ofFile bs, return_not_mem_normalizeLineEnds _, h⟩
  · rintro ⟨t, hreturn, rfl⟩
    rw [ofFile_encode, normalizeLineEnds_eq_self hreturn]

end FreeLabel.Text
