import GlycinNg.Rust.Checked

/-! # C strings as text

`CStr::to_str`, which refuses what is not UTF-8, and `CStr::to_string_lossy`, which puts
a replacement character where a sequence breaks off. The other way, `CString::new` takes
the text that has no NUL in it. -/
namespace Rust

/-- `CStr::to_str`. -/
def toStr (bytes : Bytes) : Option String := String.fromUTF8? ⟨bytes.toArray⟩

/-- The length a first byte announces; 0 for a byte that starts nothing. -/
def utf8CharWidth (first : UInt8) : Nat :=
  if first < 0x80 then 1
  else if first < 0xc2 then 0
  else if first < 0xe0 then 2
  else if first < 0xf0 then 3
  else if first < 0xf5 then 4
  else 0

def isContinuation (b : UInt8) : Bool := b &&& 0xc0 == 0x80

/-- The second bytes a first byte of three or four admits: no overlong form, no
surrogate and nothing above the last scalar value. -/
def secondFits (first second : UInt8) : Bool :=
  if first = 0xe0 then decide (0xa0 ≤ second ∧ second ≤ 0xbf)
  else if first = 0xed then decide (0x80 ≤ second ∧ second ≤ 0x9f)
  else if first = 0xf0 then decide (0x90 ≤ second ∧ second ≤ 0xbf)
  else if first = 0xf4 then decide (0x80 ≤ second ∧ second ≤ 0x8f)
  else isContinuation second

/-- The scalar value of a first byte's own bits and the continuation bytes. -/
def scalar (bits : Nat) (continuations : Bytes) : Char :=
  Char.ofNat (continuations.foldl (fun v b => v * 64 + b.toNat % 64) bits)

/-- The characters of a byte string; a sequence that breaks off counts as one
replacement character. The first argument bounds the number of sequences. -/
def lossyChars : Nat → Bytes → List Char
  | 0, _ => []
  | _, [] => []
  | n + 1, first :: rest =>
    match utf8CharWidth first, rest with
    | 1, _ => scalar first.toNat [] :: lossyChars n rest
    | 2, b :: rest' =>
      if isContinuation b then scalar (first.toNat % 32) [b] :: lossyChars n rest'
      else '\uFFFD' :: lossyChars n rest
    | 3, b :: rest' =>
      if secondFits first b then
        match rest' with
        | c :: rest'' =>
          if isContinuation c then scalar (first.toNat % 16) [b, c] :: lossyChars n rest''
          else '\uFFFD' :: lossyChars n rest'
        | [] => ['\uFFFD']
      else '\uFFFD' :: lossyChars n rest
    | 4, b :: rest' =>
      if secondFits first b then
        match rest' with
        | c :: rest'' =>
          if isContinuation c then
            match rest'' with
            | d :: rest''' =>
              if isContinuation d then scalar (first.toNat % 8) [b, c, d] :: lossyChars n rest'''
              else '\uFFFD' :: lossyChars n rest''
            | [] => ['\uFFFD']
          else '\uFFFD' :: lossyChars n rest'
        | [] => ['\uFFFD']
      else '\uFFFD' :: lossyChars n rest
    | _, _ => '\uFFFD' :: lossyChars n rest

/-- `CStr::to_string_lossy`. -/
def toStringLossy (bytes : Bytes) : String := String.ofList (lossyChars bytes.length bytes)

/-- A truncated sequence is one replacement character, a stray byte another. -/
example : toStringLossy [0x61, 0xe2, 0x82, 0x62, 0xff, 0xc3, 0xa9] = "a\uFFFDb\uFFFDé" := by
  decide

/-! ## Text as C strings -/

/-- `str::as_bytes`. -/
def utf8 (s : String) : Bytes := s.toByteArray.data.toList

/-- `CString`: the bytes before the NUL that ends it. -/
structure CString where
  bytes : Bytes
  noNul : 0 ∉ bytes
  deriving DecidableEq

/-- `CString::new`, which refuses a NUL inside. -/
def CString.new (s : String) : Option CString :=
  if h : 0 ∉ utf8 s then some ⟨utf8 s, h⟩ else none

/-- A text without the character NUL. -/
def NulFree (s : String) : Prop := '\x00' ∉ s.toList

instance (s : String) : Decidable (NulFree s) := inferInstanceAs (Decidable ('\x00' ∉ s.toList))

theorem utf8_injective {s t : String} (h : utf8 s = utf8 t) : s = t := by
  apply String.toByteArray_inj.mp
  exact ByteArray.ext (Array.toList_inj.mp h)

/-- Text survives the way to bytes and back. -/
theorem toStr_utf8 (s : String) : toStr (utf8 s) = some s := by
  rw [toStr, utf8, Array.toArray_toList, String.fromUTF8?, dif_pos s.isValidUTF8]
  rfl

theorem utf8_eq_flatMap (s : String) : utf8 s = s.toList.flatMap String.utf8EncodeChar := by
  rw [utf8, ← String.utf8Encode_toList, List.utf8Encode, List.data_toByteArray]

theorem zero_eq_ofNat_iff (n : Nat) : (0 : UInt8) = UInt8.ofNat n ↔ n % 256 = 0 := by
  rw [← UInt8.toNat_inj, UInt8.toNat_ofNat']
  exact eq_comm

/-- Only NUL has the byte 0 in its encoding. -/
theorem zero_mem_utf8EncodeChar (c : Char) :
    (0 : UInt8) ∈ String.utf8EncodeChar c ↔ c = '\x00' := by
  have hc : c = '\x00' ↔ c.val.toNat = 0 := by
    rw [← Char.val_inj, ← UInt32.toNat_inj]
    rfl
  rw [hc, String.utf8EncodeChar]
  repeat' split
  all_goals
    simp only [List.mem_cons, List.not_mem_nil, or_false, zero_eq_ofNat_iff]
    omega

theorem nulFree_iff (s : String) : NulFree s ↔ 0 ∉ utf8 s := by
  rw [NulFree, utf8_eq_flatMap, List.mem_flatMap, not_iff_not]
  simp [zero_mem_utf8EncodeChar]

namespace CString

theorem bytes_injective {c c' : CString} (h : c.bytes = c'.bytes) : c = c' := by
  cases c
  cases c'
  cases h
  rfl

/-- What becomes a C string, and which. -/
theorem new_eq_some_iff {s : String} {c : CString} :
    CString.new s = some c ↔ NulFree s ∧ c.bytes = utf8 s := by
  rw [nulFree_iff, CString.new]
  split
  · rename_i h
    rw [Option.some.injEq]
    exact ⟨fun heq => ⟨h, heq ▸ rfl⟩, fun heq => bytes_injective heq.2.symm⟩
  · rename_i h
    exact iff_of_false nofun fun heq => h heq.1

theorem exists_new {s : String} (h : NulFree s) :
    ∃ c, CString.new s = some c ∧ c.bytes = utf8 s :=
  ⟨⟨utf8 s, (nulFree_iff s).mp h⟩, new_eq_some_iff.mpr ⟨h, rfl⟩, rfl⟩

theorem new_injective {s t : String} {c : CString} (hs : CString.new s = some c)
    (ht : CString.new t = some c) : s = t :=
  utf8_injective ((new_eq_some_iff.mp hs).2.symm.trans (new_eq_some_iff.mp ht).2)

end CString

/-! ## Text through `to_string_lossy` -/

theorem utf8CharWidth_ofNat {k : Nat} (hk : k < 256) : utf8CharWidth (UInt8.ofNat k) =
    if k < 0x80 then 1 else if k < 0xc2 then 0 else if k < 0xe0 then 2 else if k < 0xf0 then 3
    else if k < 0xf5 then 4 else 0 := by
  have hall : ∀ k : Fin 256, utf8CharWidth (UInt8.ofNat k.val) =
      if k.val < 0x80 then 1 else if k.val < 0xc2 then 0 else if k.val < 0xe0 then 2
      else if k.val < 0xf0 then 3 else if k.val < 0xf5 then 4 else 0 := by decide +kernel
  exact hall ⟨k, hk⟩

theorem isContinuation_ofNat {k : Nat} (hk : k < 64) :
    isContinuation (UInt8.ofNat (k + 0x80)) = true := by
  have hall : ∀ k : Fin 64, isContinuation (UInt8.ofNat (k.val + 0x80)) = true := by
    decide +kernel
  exact hall ⟨k, hk⟩

/-- A second byte of three: the form is not overlong, and not a surrogate. -/
theorem secondFits_three {a b : Nat} (ha : a < 16) (hb : b < 64) (hlong : a = 0 → 32 ≤ b)
    (hsurrogate : a = 13 → b < 32) :
    secondFits (UInt8.ofNat (a + 0xe0)) (UInt8.ofNat (b + 0x80)) = true := by
  have hall : ∀ (a : Fin 16) (b : Fin 64), (a.val = 0 → 32 ≤ b.val) → (a.val = 13 → b.val < 32) →
      secondFits (UInt8.ofNat (a.val + 0xe0)) (UInt8.ofNat (b.val + 0x80)) = true := by
    decide +kernel
  exact hall ⟨a, ha⟩ ⟨b, hb⟩ hlong hsurrogate

/-- A second byte of four: the form is not overlong, and not above the last scalar value. -/
theorem secondFits_four {a b : Nat} (ha : a < 5) (hb : b < 64) (hlong : a = 0 → 16 ≤ b)
    (hlast : a = 4 → b < 16) :
    secondFits (UInt8.ofNat (a + 0xf0)) (UInt8.ofNat (b + 0x80)) = true := by
  have hall : ∀ (a : Fin 5) (b : Fin 64), (a.val = 0 → 16 ≤ b.val) → (a.val = 4 → b.val < 16) →
      secondFits (UInt8.ofNat (a.val + 0xf0)) (UInt8.ofNat (b.val + 0x80)) = true := by
    decide +kernel
  exact hall ⟨a, ha⟩ ⟨b, hb⟩ hlong hlast

theorem scalar_eq {bits : Nat} {continuations : Bytes} {c : Char}
    (h : continuations.foldl (fun v b => v * 64 + b.toNat % 64) bits = c.toNat) :
    scalar bits continuations = c := by
  rw [scalar, h, Char.ofNat_toNat]

theorem lossyChars_encode (n : Nat) (c : Char) (rest : Bytes) :
    lossyChars (n + 1) (String.utf8EncodeChar c ++ rest) = c :: lossyChars n rest := by
  have hvalid : c.toNat < 0xd800 ∨ 0xdfff < c.toNat ∧ c.toNat < 0x110000 := c.valid
  have hc : c.val.toNat = c.toNat := rfl
  rw [String.utf8EncodeChar, hc]
  generalize hv : c.toNat = v at *
  split_ifs with h₁ h₂ h₃
  · have hwidth : utf8CharWidth (UInt8.ofNat v) = 1 := by
      rw [utf8CharWidth_ofNat (by omega), if_pos (by omega)]
    have hscalar : scalar (UInt8.ofNat v).toNat [] = c :=
      scalar_eq (by simp; omega)
    simp only [List.cons_append, List.nil_append, lossyChars, hwidth, hscalar]
  · have hwidth : utf8CharWidth (UInt8.ofNat (v / 64 % 0x20 + 0xc0)) = 2 := by
      rw [utf8CharWidth_ofNat (by omega), if_neg (by omega), if_neg (by omega), if_pos (by omega)]
    have hscalar : scalar ((UInt8.ofNat (v / 64 % 0x20 + 0xc0)).toNat % 32)
        [UInt8.ofNat (v % 0x40 + 0x80)] = c := scalar_eq (by simp; omega)
    simp only [List.cons_append, List.nil_append, lossyChars, hwidth, hscalar]
    rw [if_pos (isContinuation_ofNat (by omega))]
  · have hwidth : utf8CharWidth (UInt8.ofNat (v / 4096 % 0x10 + 0xe0)) = 3 := by
      rw [utf8CharWidth_ofNat (by omega), if_neg (by omega), if_neg (by omega), if_neg (by omega),
        if_pos (by omega)]
    have hsecond : secondFits (UInt8.ofNat (v / 4096 % 0x10 + 0xe0))
        (UInt8.ofNat (v / 64 % 0x40 + 0x80)) = true :=
      secondFits_three (by omega) (by omega) (by omega) (by omega)
    have hscalar : scalar ((UInt8.ofNat (v / 4096 % 0x10 + 0xe0)).toNat % 16)
        [UInt8.ofNat (v / 64 % 0x40 + 0x80), UInt8.ofNat (v % 0x40 + 0x80)] = c :=
      scalar_eq (by simp; omega)
    simp only [List.cons_append, List.nil_append, lossyChars, hwidth, hscalar]
    rw [if_pos hsecond, if_pos (isContinuation_ofNat (by omega))]
  · have hwidth : utf8CharWidth (UInt8.ofNat (v / 262144 % 0x08 + 0xf0)) = 4 := by
      rw [utf8CharWidth_ofNat (by omega), if_neg (by omega), if_neg (by omega), if_neg (by omega),
        if_neg (by omega), if_pos (by omega)]
    have hsecond : secondFits (UInt8.ofNat (v / 262144 % 0x08 + 0xf0))
        (UInt8.ofNat (v / 4096 % 0x40 + 0x80)) = true :=
      secondFits_four (by omega) (by omega) (by omega) (by omega)
    have hscalar : scalar ((UInt8.ofNat (v / 262144 % 0x08 + 0xf0)).toNat % 8)
        [UInt8.ofNat (v / 4096 % 0x40 + 0x80), UInt8.ofNat (v / 64 % 0x40 + 0x80),
          UInt8.ofNat (v % 0x40 + 0x80)] = c :=
      scalar_eq (by simp; omega)
    simp only [List.cons_append, List.nil_append, lossyChars, hwidth, hscalar]
    rw [if_pos hsecond, if_pos (isContinuation_ofNat (by omega)),
      if_pos (isContinuation_ofNat (by omega))]

theorem lossyChars_nil (n : Nat) : lossyChars n [] = [] := by
  cases n <;> rfl

/-- Every character is read back from its encoding. -/
theorem lossyChars_flatMap (chars : List Char) {n : Nat} (hn : chars.length ≤ n) :
    lossyChars n (chars.flatMap String.utf8EncodeChar) = chars := by
  induction chars generalizing n with
  | nil => exact lossyChars_nil n
  | cons c chars ih =>
    obtain ⟨m, rfl⟩ : ∃ m, n = m + 1 := ⟨n - 1, by simp at hn; omega⟩
    rw [List.flatMap_cons, lossyChars_encode, ih (by simpa using hn)]

theorem length_le_length_flatMap (chars : List Char) :
    chars.length ≤ (chars.flatMap String.utf8EncodeChar).length := by
  induction chars with
  | nil => exact Nat.le_refl 0
  | cons c chars ih =>
    have hpos := c.utf8Size_pos
    rw [List.flatMap_cons, List.length_append, List.length_cons, String.length_utf8EncodeChar]
    omega

/-- What is UTF-8 comes through unchanged. -/
theorem toStringLossy_utf8 (s : String) : toStringLossy (utf8 s) = s := by
  rw [toStringLossy, utf8_eq_flatMap, lossyChars_flatMap _ (length_le_length_flatMap _),
    String.ofList_toList]

end Rust
