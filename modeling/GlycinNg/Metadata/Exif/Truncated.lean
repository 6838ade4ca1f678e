import GlycinNg.Metadata.Exif

/-! # Truncated EXIF blobs

A blob that is cut off before the end of its directory has no orientation: the cut falls
into the header, the filler, the entry count or the entries, and each of the parser's
look-ups fails where its bytes are missing. -/
namespace GlycinNg.Exif
open Rust

/-- Bytes before the cut are as they were. -/
theorem take_drop_take {l : Bytes} {m a k : Nat} (h : a + k ≤ m) :
    ((l.take m).drop a).take k = (l.drop a).take k := by
  rw [List.drop_take, List.take_take, Nat.min_eq_left (by omega)]

/-- Entries that end behind the buffer are not found. -/
theorem entriesOf_eq_none {tiff : Bytes} {ifdOffset numEntries : Nat}
    (h : tiff.length < ifdOffset + 2 + numEntries * ifdEntryBytes) :
    entriesOf tiff ifdOffset numEntries = none := by
  cases hentries : entriesOf tiff ifdOffset numEntries with
  | none => rfl
  | some entries =>
    simp only [entriesOf, checkedAdd, checkedMul, getRange, bind, Option.bind_eq_some_iff,
      Option.ite_none_right_eq_some, Option.some.injEq] at hentries
    obtain ⟨_, ⟨-, rfl⟩, _, ⟨-, rfl⟩, _, ⟨-, rfl⟩, ⟨-, hle⟩, -⟩ := hentries
    omega

namespace Blob
variable (b : Blob)

/-- The length of the TIFF part up to the end of the directory. -/
def tiffEnd : Nat := 8 + b.filler.length + 2 + b.entries.length * ifdEntryBytes

/-- The length of the blob up to the end of the directory. -/
def directoryEnd : Nat := (if b.prefixed then exifPrefix.length else 0) + b.tiffEnd

variable {b} {m : Nat}

theorem length_take (h : m < b.tiffEnd) : ((b.header ++ b.directory).take m).length = m := by
  have hhead := b.length_header
  have hdir := b.length_directory
  rw [tiffEnd] at h
  rw [List.length_take, List.length_append]
  omega

/-- Behind the header, the cut leaves less than the directory. -/
theorem parseDirectory_take (h : m < b.tiffEnd) (hheader : 8 ≤ m) :
    parseDirectory ((b.header ++ b.directory).take m) b.bigEndian = .ok none := by
  have hlen := length_take h
  have hhead := b.length_header
  rw [parseDirectory, slice_ok (by omega) (by omega), ok_bind, take_drop_take (by omega),
    b.take_offset, readU32_u32Bytes, ok_bind, b.offset_toNat]
  by_cases hoffset : 8 + b.filler.length ≤ m
  case neg =>
    rw [getFrom, if_neg (by omega)]
    rfl
  have hifd : ((b.header ++ b.directory).take m).drop (8 + b.filler.length) =
      b.directory.take (m - (8 + b.filler.length)) := by
    rw [List.drop_take, List.drop_left' hhead]
  rw [getFrom, if_pos (by omega), hifd]
  dsimp only
  by_cases hcount : m - (8 + b.filler.length) < 2
  · rw [if_pos (by rw [List.length_take]; omega)]
    rfl
  · have hdir := b.length_directory
    rw [if_neg (by rw [List.length_take]; omega),
      slice_ok (by omega) (by rw [List.length_take]; omega), ok_bind, take_drop_take (by omega),
      b.take_count, readU16_u16Bytes, ok_bind, b.count_toNat, entriesOf_eq_none]
    · rfl
    · rw [hlen]
      exact h

/-- A blob whose TIFF part is cut off before the end of the directory. -/
theorem parse_take {blob : Bytes} (h : m < b.tiffEnd)
    (hstrip : stripExifPrefix blob = (b.header ++ b.directory).take m) :
    parseOrientation blob = .ok none := by
  have hlen := length_take h
  rw [parseOrientation, hstrip]
  by_cases hheader : m < 8
  · rw [if_pos (by omega)]
    rfl
  · have hdir := parseDirectory_take h (Nat.not_lt.mp hheader)
    rw [if_neg (by omega), slice_ok (by omega) (by omega), ok_bind, take_drop_take (by omega),
      b.take_mark]
    cases hb : b.bigEndian with
    | true => rw [if_pos rfl, ← hb, hdir]
    | false => rw [if_neg (by decide), if_pos rfl, ← hb, hdir]

/-- A TIFF mark, whole or cut off, is never taken for the prefix. -/
theorem stripExifPrefix_take (m : Nat) :
    stripExifPrefix ((b.header ++ b.directory).take m) = (b.header ++ b.directory).take m := by
  have hne : exifPrefix.isPrefixOf ((b.header ++ b.directory).take m) = false := by
    cases m with
    | zero => rfl
    | succ m => cases hb : b.bigEndian <;> rw [header, hb] <;> rfl
  rw [stripExifPrefix, hne]
  rfl

end Blob

/-- Too few bytes for a TIFF header. -/
theorem parseOrientation_short {blob : Bytes} (h : blob.length < 8) :
    parseOrientation blob = .ok none := by
  have hle : (stripExifPrefix blob).length ≤ blob.length := by
    rw [stripExifPrefix]
    split
    · rw [List.length_drop]
      omega
    · exact Nat.le_refl _
  rw [parseOrientation, if_pos (by omega)]
  rfl

/-- Cut off anywhere before the end of its directory, a blob has no orientation. -/
theorem parseOrientation_take (b : Blob) {n : Nat} (h : n < b.directoryEnd) :
    parseOrientation (b.encode.take n) = .ok none := by
  have hlen : exifPrefix.length = 6 := rfl
  rw [Blob.directoryEnd] at h
  cases hp : b.prefixed with
  | false =>
    rw [hp] at h
    have hencode : b.encode.take n = (b.header ++ b.directory).take n := by
      simp [Blob.encode, hp]
    rw [hencode]
    exact Blob.parse_take (by simpa using h) (b.stripExifPrefix_take n)
  | true =>
    rw [hp, if_pos rfl] at h
    have hencode : b.encode = exifPrefix ++ (b.header ++ b.directory) := by
      simp [Blob.encode, hp]
    rw [hencode]
    by_cases hcut : n < exifPrefix.length
    · -- the cut falls into the prefix
      apply parseOrientation_short
      rw [List.length_take]
      omega
    · have hn : n = exifPrefix.length + (n - exifPrefix.length) := by omega
      rw [hn, List.take_length_add_append]
      have hm : n - exifPrefix.length < b.tiffEnd := by omega
      apply Blob.parse_take hm
      simp [stripExifPrefix]

/-- Parsing inverts encoding, finds nothing in what is cut off before the end of the
directory, and reads any bytes without a panic. -/
theorem parseOrientation_inverts (b : Blob) :
    parseOrientation b.encode = .ok b.orientation ∧
      (∀ n < b.directoryEnd, parseOrientation (b.encode.take n) = .ok none) ∧
      ∀ blob, ∃ value, parseOrientation blob = .ok value :=
  ⟨parseOrientation_encode b, fun _ => parseOrientation_take b, parseOrientation_ok⟩

/-- Orientation 6 in the second of two entries, behind the prefix and two bytes of
filler. -/
example : parseOrientation (Blob.encode ⟨true, false, [1, 2],
    [⟨0x0100, 3, 1, 9, 0, 0, 0⟩, ⟨0x0112, 3, 1, 6, 0, 0, 0⟩], [5], by decide, by decide⟩) =
      .ok (some 6) := by decide +kernel

end GlycinNg.Exif
