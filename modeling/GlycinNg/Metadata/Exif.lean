import GlycinNg.Rust.Bytes
import GlycinNg.Sniff

/-! # The EXIF orientation parser

`metadata/exif.rs`. `parseOrientation` reads arbitrary bytes and is shown never
to index out of bounds; on the encoding of a TIFF directory it returns the value
of the first entry that carries the orientation tag. -/
namespace GlycinNg.Exif
open Rust

def exifPrefix : Bytes := ascii "Exif" ++ [0, 0]
def orientationTag : UInt16 := 0x0112
def ifdEntryBytes : Nat := 12

/-- The byte-order mark with its magic number: `MM\0*` or `II*\0`. -/
def magic (bigEndian : Bool) : Bytes :=
  if bigEndian then [0x4d, 0x4d, 0x00, 0x2a] else [0x49, 0x49, 0x2a, 0x00]

def stripExifPrefix (blob : Bytes) : Bytes :=
  if exifPrefix.isPrefixOf blob then blob.drop exifPrefix.length else blob

def readU16 (b : Bytes) (bigEndian : Bool) : Checked UInt16 := do
  let b₀ ← index b 0
  let b₁ ← index b 1
  return u16OfBytes bigEndian b₀ b₁

def readU32 (b : Bytes) (bigEndian : Bool) : Checked UInt32 := do
  let b₀ ← index b 0
  let b₁ ← index b 1
  let b₂ ← index b 2
  let b₃ ← index b 3
  return u32OfBytes bigEndian b₀ b₁ b₂ b₃

/-- `tiff.get(entries_start..entries_end)`, with the checked bounds before it. -/
def entriesOf (tiff : Bytes) (ifdOffset numEntries : Nat) : Option Bytes := do
  let entriesStart ← checkedAdd ifdOffset 2
  let entriesEnd ← checkedAdd entriesStart (← checkedMul numEntries ifdEntryBytes)
  getRange tiff entriesStart entriesEnd

/-- The entry loop, from entry `i` with `n` entries to go. -/
def scanEntries (entries : Bytes) (bigEndian : Bool) : (n i : Nat) → Checked (Option UInt16)
  | 0, _ => .ok none
  | n + 1, i => do
    let off ← usizeMul i ifdEntryBytes
    let entry ← slice entries off (← usizeAdd off ifdEntryBytes)
    let tag ← readU16 (← slice entry 0 2) bigEndian
    if tag ≠ orientationTag then scanEntries entries bigEndian n (i + 1)
    else
      let value ← readU16 (← slice entry 8 10) bigEndian
      return some value

/-- The directory part of `parse_orientation`, once the byte order is known. -/
def parseDirectory (tiff : Bytes) (bigEndian : Bool) : Checked (Option UInt16) := do
  let ifdOffset ← readU32 (← slice tiff 4 8) bigEndian
  match getFrom tiff ifdOffset.toNat with
  | none => return none
  | some ifd =>
    if ifd.length < 2 then return none
    else
      let numEntries ← readU16 (← slice ifd 0 2) bigEndian
      match entriesOf tiff ifdOffset.toNat numEntries.toNat with
      | none => return none
      | some entries => scanEntries entries bigEndian numEntries.toNat 0

/-- `exif::parse_orientation`. -/
def parseOrientation (blob : Bytes) : Checked (Option UInt16) := do
  let tiff := stripExifPrefix blob
  if tiff.length < 8 then return none
  else
    let mark ← slice tiff 0 4
    if mark = magic true then parseDirectory tiff true
    else if mark = magic false then parseDirectory tiff false
    else return none

/-! ## Arbitrary bytes -/

theorem readU16_ok {b : Bytes} (h : 2 ≤ b.length) (bigEndian : Bool) :
    ∃ v, readU16 b bigEndian = .ok v := by
  obtain ⟨b₀, b₁, rest, rfl⟩ : ∃ b₀ b₁ rest, b = b₀ :: b₁ :: rest := by
    match b, h with
    | b₀ :: b₁ :: rest, _ => exact ⟨b₀, b₁, rest, rfl⟩
  exact ⟨_, rfl⟩

theorem readU32_ok {b : Bytes} (h : 4 ≤ b.length) (bigEndian : Bool) :
    ∃ v, readU32 b bigEndian = .ok v := by
  obtain ⟨b₀, b₁, b₂, b₃, rest, rfl⟩ : ∃ b₀ b₁ b₂ b₃ rest, b = b₀ :: b₁ :: b₂ :: b₃ :: rest := by
    match b, h with
    | b₀ :: b₁ :: b₂ :: b₃ :: rest, _ => exact ⟨b₀, b₁, b₂, b₃, rest, rfl⟩
  exact ⟨_, rfl⟩

theorem entriesOf_length {tiff entries : Bytes} {ifdOffset numEntries : Nat}
    (h : entriesOf tiff ifdOffset numEntries = some entries) :
    entries.length = numEntries * ifdEntryBytes := by
  simp only [entriesOf, checkedAdd, checkedMul, getRange, bind, Option.bind_eq_some_iff,
    Option.ite_none_right_eq_some, Option.some.injEq] at h
  obtain ⟨_, ⟨-, rfl⟩, _, ⟨-, rfl⟩, _, ⟨-, rfl⟩, ⟨-, hle⟩, rfl⟩ := h
  rw [List.length_take, List.length_drop]
  omega

/-- The loop stays inside a directory of whole entries. -/
theorem scanEntries_ok {entries : Bytes} (bigEndian : Bool) {n i : Nat}
    (h : entries.length = (i + n) * ifdEntryBytes) (hsize : entries.length < usizeValues) :
    ∃ r, scanEntries entries bigEndian n i = .ok r := by
  induction n generalizing i with
  | zero => exact ⟨none, rfl⟩
  | succ n ih =>
    have hend : i * ifdEntryBytes + ifdEntryBytes ≤ entries.length := by
      rw [h, ← Nat.succ_mul]
      exact Nat.mul_le_mul_right _ (by omega)
    rw [scanEntries, usizeMul_ok (by omega), ok_bind, usizeAdd_ok (by omega), ok_bind,
      slice_window hend, ok_bind]
    have hlen := length_window hend
    generalize (entries.drop _).take _ = entry at hlen ⊢
    simp only [ifdEntryBytes] at hlen
    rw [slice_ok (by omega) (by omega), ok_bind]
    obtain ⟨tag, htag⟩ := readU16_ok (b := (entry.drop 0).take (2 - 0)) (by simp; omega) bigEndian
    rw [htag, ok_bind]
    split
    · exact ih (by rw [h]; congr 1; omega)
    · rw [slice_ok (by omega) (by omega), ok_bind]
      obtain ⟨value, hvalue⟩ := readU16_ok (b := (entry.drop 8).take (10 - 8))
        (by rw [List.length_take, List.length_drop]; omega) bigEndian
      rw [hvalue, ok_bind]
      exact ⟨_, rfl⟩

theorem parseDirectory_ok {tiff : Bytes} (h : 8 ≤ tiff.length) (bigEndian : Bool) :
    ∃ r, parseDirectory tiff bigEndian = .ok r := by
  rw [parseDirectory, slice_ok (by omega) h, ok_bind]
  obtain ⟨off, hoff⟩ := readU32_ok (b := (tiff.drop 4).take (8 - 4))
    (by rw [List.length_take, List.length_drop]; omega) bigEndian
  rw [hoff, ok_bind]
  split
  · exact ⟨_, rfl⟩
  · rename_i ifd _
    split
    · exact ⟨_, rfl⟩
    · rw [slice_ok (by omega) (by omega), ok_bind]
      obtain ⟨count, hcount⟩ := readU16_ok (b := (ifd.drop 0).take (2 - 0))
        (by rw [List.length_take, List.length_drop]; omega) bigEndian
      rw [hcount, ok_bind]
      split
      · exact ⟨_, rfl⟩
      · rename_i entries he
        have hlen := entriesOf_length he
        have hcount := count.toNat_lt
        exact scanEntries_ok bigEndian (by rw [hlen, Nat.zero_add])
          (by rw [hlen]; simp only [ifdEntryBytes, usizeValues]; omega)

/-- The parser reads any byte string without a panic. -/
theorem parseOrientation_ok (blob : Bytes) : ∃ r, parseOrientation blob = .ok r := by
  unfold parseOrientation
  dsimp only
  generalize stripExifPrefix blob = tiff
  split
  · exact ⟨_, rfl⟩
  · rw [slice_ok (by omega) (by omega), ok_bind]
    split
    · exact parseDirectory_ok (by omega) true
    · split
      · exact parseDirectory_ok (by omega) false
      · exact ⟨_, rfl⟩

theorem readU16_u16Bytes (bigEndian : Bool) (v : UInt16) :
    readU16 (u16Bytes bigEndian v) bigEndian = .ok v := by
  obtain ⟨b₀, b₁, hb, hv⟩ := u16Bytes_eq bigEndian v
  rw [hb, ← hv]
  rfl

theorem readU32_u32Bytes (bigEndian : Bool) (v : UInt32) :
    readU32 (u32Bytes bigEndian v) bigEndian = .ok v := by
  obtain ⟨b₀, b₁, b₂, b₃, hb, hv⟩ := u32Bytes_eq bigEndian v
  rw [hb, ← hv]
  rfl

/-! ## Encoded directories -/

/-- A twelve-byte directory entry. -/
structure Entry where
  tag : UInt16
  kind : UInt16
  count : UInt32
  v₀ : UInt8
  v₁ : UInt8
  v₂ : UInt8
  v₃ : UInt8

namespace Entry

def encode (bigEndian : Bool) (e : Entry) : Bytes :=
  u16Bytes bigEndian e.tag ++ u16Bytes bigEndian e.kind ++ u32Bytes bigEndian e.count ++
    [e.v₀, e.v₁, e.v₂, e.v₃]

/-- The 16-bit value in the first two bytes of the value field. -/
def value (bigEndian : Bool) (e : Entry) : UInt16 := u16OfBytes bigEndian e.v₀ e.v₁

@[simp] theorem length_encode (bigEndian : Bool) (e : Entry) :
    (e.encode bigEndian).length = ifdEntryBytes := by
  simp [encode, ifdEntryBytes]

theorem readTag_encode (bigEndian : Bool) (e : Entry) :
    readU16 (((e.encode bigEndian).drop 0).take (2 - 0)) bigEndian = .ok e.tag := by
  rw [List.drop_zero, encode, List.append_assoc, List.append_assoc,
    List.take_left' (length_u16Bytes bigEndian e.tag), readU16_u16Bytes]

theorem readValue_encode (bigEndian : Bool) (e : Entry) :
    readU16 (((e.encode bigEndian).drop 8).take (10 - 8)) bigEndian =
      .ok (e.value bigEndian) := by
  have hlen : (u16Bytes bigEndian e.tag ++ u16Bytes bigEndian e.kind ++
      u32Bytes bigEndian e.count).length = 8 := by simp
  rw [encode, List.drop_left' hlen]
  rfl

end Entry

/-- An EXIF blob built from a directory: the optional prefix, the TIFF header,
any bytes up to the directory, its entries, and anything after it. The offset and
the entry count fit their fields. -/
structure Blob where
  prefixed : Bool
  bigEndian : Bool
  filler : Bytes
  entries : List Entry
  trailing : Bytes
  offset_lt : 8 + filler.length < 2 ^ 32
  entries_lt : entries.length < 2 ^ 16

namespace Blob

/-- The bytes before the directory. -/
def header (b : Blob) : Bytes :=
  magic b.bigEndian ++ u32Bytes b.bigEndian (UInt32.ofNat (8 + b.filler.length)) ++ b.filler

/-- The directory with what follows it. -/
def directory (b : Blob) : Bytes :=
  u16Bytes b.bigEndian (UInt16.ofNat b.entries.length) ++
    (b.entries.flatMap (Entry.encode b.bigEndian) ++ b.trailing)

def encode (b : Blob) : Bytes :=
  (if b.prefixed then exifPrefix else []) ++ (b.header ++ b.directory)

/-- The value of the first entry with the orientation tag. -/
def orientation (b : Blob) : Option UInt16 :=
  (b.entries.find? fun e => e.tag == orientationTag).map (Entry.value b.bigEndian)

theorem length_header (b : Blob) : b.header.length = 8 + b.filler.length := by
  cases h : b.bigEndian <;> simp [header, magic, h] <;> omega

theorem length_entries (b : Blob) :
    (b.entries.flatMap (Entry.encode b.bigEndian)).length = b.entries.length * ifdEntryBytes := by
  simp [List.length_flatMap]

/-- The prefix is recognised, and a TIFF mark is never taken for it. -/
theorem stripExifPrefix_encode (b : Blob) : stripExifPrefix b.encode = b.header ++ b.directory := by
  cases hp : b.prefixed with
  | true => simp [stripExifPrefix, encode, hp]
  | false =>
    have hne : exifPrefix.isPrefixOf (b.header ++ b.directory) = false := by
      cases hb : b.bigEndian <;> rw [header, hb] <;> rfl
    simp [stripExifPrefix, encode, hp, hne]

theorem offset_toNat (b : Blob) :
    (UInt32.ofNat (8 + b.filler.length)).toNat = 8 + b.filler.length := by
  rw [UInt32.toNat_ofNat', Nat.mod_eq_of_lt b.offset_lt]

theorem count_toNat (b : Blob) : (UInt16.ofNat b.entries.length).toNat = b.entries.length := by
  rw [UInt16.toNat_ofNat', Nat.mod_eq_of_lt b.entries_lt]

/-- The mark in the first four bytes. -/
theorem take_mark (b : Blob) :
    ((b.header ++ b.directory).drop 0).take (4 - 0) = magic b.bigEndian := by
  have hm : (magic b.bigEndian).length = 4 - 0 := by cases b.bigEndian <;> rfl
  rw [List.drop_zero, header, List.append_assoc, List.append_assoc, List.take_left' hm]

/-- The directory offset in the next four. -/
theorem take_offset (b : Blob) :
    ((b.header ++ b.directory).drop 4).take (8 - 4) =
      u32Bytes b.bigEndian (UInt32.ofNat (8 + b.filler.length)) := by
  have hm : (magic b.bigEndian).length = 4 := by cases b.bigEndian <;> rfl
  rw [header, List.append_assoc, List.append_assoc, List.drop_left' hm,
    List.take_left' (length_u32Bytes _ _)]

theorem getFrom_directory (b : Blob) :
    getFrom (b.header ++ b.directory) (8 + b.filler.length) = some b.directory := by
  have hlen := b.length_header
  rw [getFrom, if_pos (by rw [List.length_append]; omega), List.drop_left' hlen]

theorem take_count (b : Blob) :
    (b.directory.drop 0).take (2 - 0) =
      u16Bytes b.bigEndian (UInt16.ofNat b.entries.length) := by
  rw [List.drop_zero, directory, List.take_left' (length_u16Bytes _ _)]

theorem length_directory (b : Blob) :
    b.directory.length = 2 + (b.entries.length * ifdEntryBytes + b.trailing.length) := by
  rw [directory, List.length_append, length_u16Bytes, List.length_append, b.length_entries]

theorem entriesOf_encode (b : Blob) :
    entriesOf (b.header ++ b.directory) (8 + b.filler.length) b.entries.length =
      some (b.entries.flatMap (Entry.encode b.bigEndian)) := by
  have hoff := b.offset_lt
  have hcount := b.entries_lt
  have hdir := b.length_directory
  have hsize : 8 + b.filler.length + 2 + b.entries.length * ifdEntryBytes < usizeValues := by
    simp only [ifdEntryBytes, usizeValues]
    omega
  have hpre : (b.header ++ u16Bytes b.bigEndian (UInt16.ofNat b.entries.length)).length =
      8 + b.filler.length + 2 := by
    rw [List.length_append, b.length_header, length_u16Bytes]
  simp only [entriesOf, checkedAdd_some (show 8 + b.filler.length + 2 < usizeValues by omega),
    checkedMul_some (show b.entries.length * ifdEntryBytes < usizeValues by omega),
    checkedAdd_some hsize, bind, Option.bind_some, getRange, List.length_append, b.length_header]
  rw [if_pos (by omega), directory, ← List.append_assoc, List.drop_left' hpre,
    Nat.add_sub_cancel_left, List.take_left' b.length_entries]

end Blob

/-- The loop over encoded entries finds the first one with the tag. -/
theorem scanEntries_encode (bigEndian : Bool) (es : List Entry) {pre : Bytes} {i : Nat}
    (hpre : pre.length = i * ifdEntryBytes)
    (hsize : pre.length + es.length * ifdEntryBytes < usizeValues) :
    scanEntries (pre ++ es.flatMap (Entry.encode bigEndian)) bigEndian es.length i =
      .ok ((es.find? fun e => e.tag == orientationTag).map (Entry.value bigEndian)) := by
  induction es generalizing pre i with
  | nil => rfl
  | cons e es ih =>
    rw [List.length_cons, Nat.succ_mul] at hsize
    have hsplit : ((pre ++ (e :: es).flatMap (Entry.encode bigEndian)).drop
        (i * ifdEntryBytes)).take ifdEntryBytes = e.encode bigEndian := by
      rw [List.drop_left' hpre, List.flatMap_cons, List.take_left' (e.length_encode bigEndian)]
    have hlen : i * ifdEntryBytes + ifdEntryBytes ≤
        (pre ++ (e :: es).flatMap (Entry.encode bigEndian)).length := by
      rw [List.length_append, List.flatMap_cons, List.length_append, e.length_encode]
      omega
    rw [List.length_cons, scanEntries, usizeMul_ok (by omega), ok_bind, usizeAdd_ok (by omega),
      ok_bind, slice_window hlen, ok_bind, hsplit,
      slice_ok (by omega) (by rw [e.length_encode]; decide), ok_bind, e.readTag_encode, ok_bind]
    by_cases htag : e.tag = orientationTag
    · rw [if_neg (not_not.mpr htag), slice_ok (by omega) (by rw [e.length_encode]; decide), ok_bind,
        e.readValue_encode, ok_bind, List.find?_cons_of_pos (by simpa using htag)]
      rfl
    · rw [if_pos htag, List.find?_cons_of_neg (by simpa using htag), List.flatMap_cons,
        ← List.append_assoc]
      exact ih (by rw [List.length_append, hpre, e.length_encode, Nat.succ_mul])
        (by rw [List.length_append, e.length_encode]; omega)

/-- The directory is found at the offset the header names. -/
theorem parseDirectory_encode (b : Blob) :
    parseDirectory (b.header ++ b.directory) b.bigEndian = .ok b.orientation := by
  have hhead := b.length_header
  have hdir := b.length_directory
  have hcount := b.entries_lt
  rw [parseDirectory, slice_ok (by omega) (by rw [List.length_append]; omega), ok_bind,
    b.take_offset, readU32_u32Bytes, ok_bind, b.offset_toNat, b.getFrom_directory]
  dsimp only
  rw [if_neg (by omega), slice_ok (by omega) (by omega), ok_bind, b.take_count, readU16_u16Bytes,
    ok_bind, b.count_toNat, b.entriesOf_encode]
  have hsize : ([] : Bytes).length + b.entries.length * ifdEntryBytes < usizeValues := by
    simp only [List.length_nil, ifdEntryBytes, usizeValues]
    omega
  exact scanEntries_encode b.bigEndian b.entries (i := 0) rfl hsize

/-- Parsing inverts encoding. -/
theorem parseOrientation_encode (b : Blob) : parseOrientation b.encode = .ok b.orientation := by
  have hlen : 8 ≤ (b.header ++ b.directory).length := by
    rw [List.length_append, b.length_header]
    omega
  have hdir := parseDirectory_encode b
  rw [parseOrientation]
  rw [b.stripExifPrefix_encode, if_neg (by omega), slice_ok (by omega) (by omega), ok_bind,
    b.take_mark]
  cases hb : b.bigEndian with
  | true => rw [if_pos rfl, ← hb, hdir]
  | false => rw [if_neg (by decide), if_pos rfl, ← hb, hdir]

end GlycinNg.Exif
