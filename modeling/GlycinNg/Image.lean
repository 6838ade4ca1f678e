import GlycinNg.Sandbox
import Std.Data.TreeMap

/-! # Pixel formats, textures, frames and images

`memory.rs` and `image.rs`. A `Texture` carries the two checks of
`Texture::from_parts` as fields, so every texture of the development has a
buffer of `stride * height` bytes whose rows hold `width` pixels. -/
namespace GlycinNg
open Rust

/-- `memory::MemoryFormat`. -/
inductive MemoryFormat where
  | g8 | g8a8 | g8a8Premultiplied | g16 | g16a16 | g16a16Premultiplied
  | r8g8b8 | r8g8b8a8 | r8g8b8a8Premultiplied
  | b8g8r8 | b8g8r8a8 | b8g8r8a8Premultiplied
  | a8r8g8b8 | a8r8g8b8Premultiplied | a8b8g8r8
  | r16g16b16 | r16g16b16a16 | r16g16b16a16Premultiplied
  | r16g16b16Float | r16g16b16a16Float
  | r32g32b32Float | r32g32b32a32Float | r32g32b32a32FloatPremultiplied
  deriving DecidableEq, Repr

def MemoryFormat.bytesPerPixel : MemoryFormat → Nat
  | .g8 => 1
  | .g8a8 | .g8a8Premultiplied | .g16 => 2
  | .r8g8b8 | .b8g8r8 => 3
  | .r8g8b8a8 | .r8g8b8a8Premultiplied | .b8g8r8a8 | .b8g8r8a8Premultiplied
  | .a8r8g8b8 | .a8r8g8b8Premultiplied | .a8b8g8r8 | .g16a16 | .g16a16Premultiplied => 4
  | .r16g16b16 | .r16g16b16Float => 6
  | .r16g16b16a16 | .r16g16b16a16Premultiplied | .r16g16b16a16Float => 8
  | .r32g32b32Float => 12
  | .r32g32b32a32Float | .r32g32b32a32FloatPremultiplied => 16

theorem MemoryFormat.bytesPerPixel_pos (f : MemoryFormat) : 0 < f.bytesPerPixel := by
  cases f <;> decide

theorem MemoryFormat.bytesPerPixel_le (f : MemoryFormat) : f.bytesPerPixel ≤ 16 := by
  cases f <;> decide

/-- EXIF orientations, in the order of the TIFF tag. -/
inductive Orientation where
  | normal | flipHorizontal | rotate180 | flipVertical
  | transpose | rotate90 | transverse | rotate270
  deriving DecidableEq, Repr

namespace Orientation

/-- `Orientation::from_exif`. -/
def fromExif (value : UInt16) : Orientation :=
  match value.toNat with
  | 2 => .flipHorizontal
  | 3 => .rotate180
  | 4 => .flipVertical
  | 5 => .transpose
  | 6 => .rotate90
  | 7 => .transverse
  | 8 => .rotate270
  | _ => .normal

/-- `Orientation::exif_value`. -/
def exifValue : Orientation → UInt16
  | .normal => 1
  | .flipHorizontal => 2
  | .rotate180 => 3
  | .flipVertical => 4
  | .transpose => 5
  | .rotate90 => 6
  | .transverse => 7
  | .rotate270 => 8

/-- `Orientation::swaps_axes`. -/
def swapsAxes : Orientation → Bool
  | .transpose | .rotate90 | .transverse | .rotate270 => true
  | .normal | .flipHorizontal | .rotate180 | .flipVertical => false

@[simp] theorem fromExif_exifValue (o : Orientation) : fromExif o.exifValue = o := by
  cases o <;> rfl

end Orientation

/-! ## Textures -/

/-- `image::Texture`, with what `from_parts` has checked. -/
structure Texture where
  width : UInt32
  height : UInt32
  stride : UInt32
  format : MemoryFormat
  data : Bytes
  data_length : data.length = stride.toNat * height.toNat
  row_le : width.toNat * format.bytesPerPixel ≤ stride.toNat
  deriving DecidableEq, Repr

/-- The largest `u32`. -/
def u32Max : Nat := 2 ^ 32 - 1

namespace Texture

/-- `Texture::from_parts`. -/
def fromParts (width height stride : UInt32) (format : MemoryFormat) (data : Bytes) :
    Option Texture :=
  match h : checkedMul stride.toNat height.toNat with
  | none => none
  | some expected =>
    if hlen : data.length ≠ expected then none
    else if hrow : stride.toNat < width.toNat * format.bytesPerPixel then none
    else
      some ⟨width, height, stride, format, data,
        (not_not.mp hlen).trans (eq_of_checkedMul h), Nat.not_lt.mp hrow⟩

/-- `from_parts` accepts exactly the buffers whose length and stride match. -/
theorem fromParts_eq_some {width height stride : UInt32} {format : MemoryFormat} {data : Bytes}
    {t : Texture} :
    fromParts width height stride format data = some t ↔
      t.width = width ∧ t.height = height ∧ t.stride = stride ∧ t.format = format ∧
        t.data = data := by
  have hmul := checkedMul_some (Limits.mul_u32_lt stride height)
  constructor
  · intro h
    unfold fromParts at h
    split at h
    · cases h
    · split_ifs at h
      cases h
      exact ⟨rfl, rfl, rfl, rfl, rfl⟩
  · rintro ⟨rfl, rfl, rfl, rfl, rfl⟩
    have hl := t.data_length
    have hr := t.row_le
    unfold fromParts
    split
    · rename_i h
      rw [hmul] at h
      cases h
    · rename_i expected h
      have he := eq_of_checkedMul h
      rw [dif_neg (by omega), dif_neg (by omega)]

theorem fromParts_isSome {width height stride : UInt32} {format : MemoryFormat} {data : Bytes} :
    (∃ t, fromParts width height stride format data = some t) ↔
      data.length = stride.toNat * height.toNat ∧
        width.toNat * format.bytesPerPixel ≤ stride.toNat := by
  constructor
  · rintro ⟨t, h⟩
    obtain ⟨rfl, rfl, rfl, rfl, rfl⟩ := fromParts_eq_some.mp h
    exact ⟨t.data_length, t.row_le⟩
  · rintro ⟨hl, hr⟩
    exact ⟨⟨width, height, stride, format, data, hl, hr⟩,
      fromParts_eq_some.mpr ⟨rfl, rfl, rfl, rfl, rfl⟩⟩

theorem fromParts_eq_none {width height stride : UInt32} {format : MemoryFormat} {data : Bytes} :
    fromParts width height stride format data = none ↔
      ¬ (data.length = stride.toNat * height.toNat ∧
        width.toNat * format.bytesPerPixel ≤ stride.toNat) := by
  rw [← fromParts_isSome, ← Option.isSome_iff_exists, Option.not_isSome_iff_eq_none]

end Texture

/-! ## Frames and images -/

/-- `image::Frame`. -/
structure Frame where
  texture : Texture
  delay : Option Duration
  deriving DecidableEq, Repr

namespace Frame

def width (f : Frame) : UInt32 := f.texture.width
def height (f : Frame) : UInt32 := f.texture.height

end Frame

/-- `BTreeMap<String, String>`. -/
abbrev TextMap := Std.TreeMap String String

/-- The four CICP bytes. -/
structure Cicp where
  colorPrimaries : UInt8
  transferCharacteristics : UInt8
  matrixCoefficients : UInt8
  videoFullRangeFlag : UInt8
  deriving DecidableEq, Repr

/-- `image::Image`. -/
structure Image where
  width : UInt32
  height : UInt32
  formatName : String
  orientation : Orientation
  iccProfile : Option Bytes
  exif : Option Bytes
  metadataKeyValue : Option TextMap
  cicp : Option Cicp
  frames : List Frame
  sandboxPosture : SandboxPosture

namespace Image

/-- `Image::from_parts`. -/
def fromParts (formatName : String) (width height : UInt32) (frames : List Frame) : Image where
  width := width
  height := height
  formatName := formatName
  orientation := .normal
  iccProfile := none
  exif := none
  metadataKeyValue := none
  cicp := none
  frames := frames
  sandboxPosture := .none

def setOrientation (img : Image) (o : Orientation) : Image := { img with orientation := o }

def setIccProfile (img : Image) (profile : Bytes) : Image := { img with iccProfile := some profile }

def setExif (img : Image) (exif : Bytes) : Image := { img with exif := some exif }

/-- An empty map is stored as `None`. -/
def setMetadataKeyValue (img : Image) (map : TextMap) : Image :=
  { img with metadataKeyValue := if map.isEmpty then none else some map }

def setCicp (img : Image) (cicp : Cicp) : Image := { img with cicp := some cicp }

def setSandboxPosture (img : Image) (posture : SandboxPosture) : Image :=
  { img with sandboxPosture := posture }

/-- `Image::replace_frames`. -/
def replaceFrames (img : Image) (frames : List Frame) (width height : UInt32) : Image :=
  { img with frames := frames, width := width, height := height }

def firstFrame (img : Image) : Option Frame := img.frames.head?

end Image

end GlycinNg
