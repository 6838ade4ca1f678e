import GlycinNg.Formats.Codec
import GlycinNg.Sniff

/-! # The encoder

`encoder.rs`. Frames are queued as raw bytes with whatever sizes the caller gives;
`to_rgba8` checks them, bounds its output and samples them pixel by pixel. The
codecs behind it are an `ImageEncoders`. -/
namespace GlycinNg
open Rust

/-- The `Debug` text of a memory format. -/
def MemoryFormat.debug : MemoryFormat → String
  | .g8 => "G8"
  | .g8a8 => "G8a8"
  | .g8a8Premultiplied => "G8a8Premultiplied"
  | .g16 => "G16"
  | .g16a16 => "G16a16"
  | .g16a16Premultiplied => "G16a16Premultiplied"
  | .r8g8b8 => "R8g8b8"
  | .r8g8b8a8 => "R8g8b8a8"
  | .r8g8b8a8Premultiplied => "R8g8b8a8Premultiplied"
  | .b8g8r8 => "B8g8r8"
  | .b8g8r8a8 => "B8g8r8a8"
  | .b8g8r8a8Premultiplied => "B8g8r8a8Premultiplied"
  | .a8r8g8b8 => "A8r8g8b8"
  | .a8r8g8b8Premultiplied => "A8r8g8b8Premultiplied"
  | .a8b8g8r8 => "A8b8g8r8"
  | .r16g16b16 => "R16g16b16"
  | .r16g16b16a16 => "R16g16b16a16"
  | .r16g16b16a16Premultiplied => "R16g16b16a16Premultiplied"
  | .r16g16b16Float => "R16g16b16Float"
  | .r16g16b16a16Float => "R16g16b16a16Float"
  | .r32g32b32Float => "R32g32b32Float"
  | .r32g32b32a32Float => "R32g32b32a32Float"
  | .r32g32b32a32FloatPremultiplied => "R32g32b32a32FloatPremultiplied"

/-- `encoder::EncodeFrame`. -/
structure EncodeFrame where
  width : UInt32
  height : UInt32
  stride : UInt32
  format : MemoryFormat
  data : Bytes
  deriving DecidableEq, Repr

/-- `encoder::Encoder`. -/
structure Encoder where
  target : KnownFormat
  frames : List EncodeFrame
  quality : UInt8
  compression : UInt8
  iccProfile : Option Bytes
  metadata : List (String × String)
  deriving DecidableEq, Repr

/-- `KnownFormat::name`. -/
def KnownFormat.name : KnownFormat → String
  | .png => "png"
  | .jpeg => "jpeg"
  | .gif => "gif"
  | .webP => "webp"
  | .tiff => "tiff"
  | .bmp => "bmp"
  | .ico => "ico"
  | .tga => "tga"
  | .qoi => "qoi"
  | .exr => "exr"
  | .pnm => "pnm"
  | .dds => "dds"
  | .jxl => "jxl"
  | .svg => "svg"

/-- The encoders of the `image` crate, with the options the engine gives them;
their errors are only ever displayed, and they are taken not to panic. -/
structure ImageEncoders where
  png : (icc : Option Bytes) → Bytes → UInt32 → UInt32 → Except String Bytes
  jpeg : (quality : UInt8) → (icc : Option Bytes) → Bytes → UInt32 → UInt32 → Except String Bytes
  gif : Bytes → UInt32 → UInt32 → Except String Bytes
  webP : (icc : Option Bytes) → Bytes → UInt32 → UInt32 → Except String Bytes
  tiff : Bytes → UInt32 → UInt32 → Except String Bytes
  bmp : Bytes → UInt32 → UInt32 → Except String Bytes

namespace Encoder

/-! ## Sampling -/

def maxOutputBytes : Nat := 1 <<< 30

/-- `((c as u32 * 255) / a as u32).min(255) as u8`. -/
def unpremul (c a : UInt8) : UInt8 := UInt8.ofNat (min (c.toNat * 255 / a.toNat) 255)

def unpremulG8 (g a : UInt8) : UInt8 × UInt8 := if a = 0 then (0, 0) else (unpremul g a, a)

def unpremulRgb8 (r g b a : UInt8) : UInt8 × UInt8 × UInt8 × UInt8 :=
  if a = 0 then (0, 0, 0, 0) else (unpremul r a, unpremul g a, unpremul b a, a)

/-- `sample_rgba8`; `none` for the formats that are not of 8 bits. -/
def sampleRgba8 (fmt : MemoryFormat) (p : Bytes) :
    Checked (Option (UInt8 × UInt8 × UInt8 × UInt8)) := do
  match fmt with
  | .g8 => do
    let g ← index p 0
    return some (g, g, g, 255)
  | .g8a8 => do
    let g ← index p 0
    return some (g, g, g, ← index p 1)
  | .g8a8Premultiplied => do
    let (g, a) := unpremulG8 (← index p 0) (← index p 1)
    return some (g, g, g, a)
  | .r8g8b8 => return some (← index p 0, ← index p 1, ← index p 2, 255)
  | .b8g8r8 => return some (← index p 2, ← index p 1, ← index p 0, 255)
  | .r8g8b8a8 => return some (← index p 0, ← index p 1, ← index p 2, ← index p 3)
  | .r8g8b8a8Premultiplied =>
    return some (unpremulRgb8 (← index p 0) (← index p 1) (← index p 2) (← index p 3))
  | .b8g8r8a8 => return some (← index p 2, ← index p 1, ← index p 0, ← index p 3)
  | .b8g8r8a8Premultiplied =>
    return some (unpremulRgb8 (← index p 2) (← index p 1) (← index p 0) (← index p 3))
  | .a8r8g8b8 => return some (← index p 1, ← index p 2, ← index p 3, ← index p 0)
  | .a8r8g8b8Premultiplied =>
    return some (unpremulRgb8 (← index p 1) (← index p 2) (← index p 3) (← index p 0))
  | .a8b8g8r8 => return some (← index p 3, ← index p 2, ← index p 1, ← index p 0)
  | _ => return none

/-! ## `to_rgba8` -/

/-- The checks of `to_rgba8`; the answer is the length of a row. -/
def checkFrame (dataLen : Nat) (width height stride : UInt32) (format : MemoryFormat) :
    Except Error Nat := do
  let rowBytes ← okOr (checkedMul width.toNat format.bytesPerPixel)
    (.limitExceeded "row width overflow")
  failIf (rowBytes > stride.toNat)
    (.malformed s!"stride {stride.toNat} narrower than {rowBytes} bytes/row")
  let outStride ← okOr (checkedMul width.toNat 4) (.limitExceeded "output stride overflow")
  let outTotal ← okOr (checkedMul outStride height.toNat) (.limitExceeded "output size overflow")
  failIf (outTotal > maxOutputBytes) (.limitExceeded "output exceeds 1 GiB")
  if height > 0 then
    let needed ← okOr ((checkedMul (height.toNat - 1) stride.toNat).bind (checkedAdd · rowBytes))
      (.limitExceeded "input size overflow")
    failIf (dataLen < needed) (.truncated "texture data shorter than dimensions")
  return rowBytes

/-- The pixels of a row from `x` on. -/
def convertRow (format : MemoryFormat) (row : Bytes) : (n x : Nat) → Checked (Except Error Bytes)
  | 0, _ => return .ok []
  | n + 1, x => do
    let bpp := format.bytesPerPixel
    let p ← slice row (x * bpp) (x * bpp + bpp)
    match ← sampleRgba8 format p with
    | none => return .error (.internal ("no rgba8 sampler for " ++ format.debug))
    | some (r, g, b, a) =>
      match ← convertRow format row n (x + 1) with
      | .error e => return .error e
      | .ok rest => return .ok ([r, g, b, a] ++ rest)

/-- The rows from `y` on. -/
def convertRows (data : Bytes) (width stride : UInt32) (format : MemoryFormat) (rowBytes : Nat) :
    (n y : Nat) → Checked (Except Error Bytes)
  | 0, _ => return .ok []
  | n + 1, y => do
    let rowOffset ← usizeMul y stride.toNat
    let row ← slice data rowOffset (← usizeAdd rowOffset rowBytes)
    match ← convertRow format row width.toNat 0 with
    | .error e => return .error e
    | .ok out =>
      match ← convertRows data width stride format rowBytes n (y + 1) with
      | .error e => return .error e
      | .ok rest => return .ok (out ++ rest)

def toRgba8 (data : Bytes) (width height stride : UInt32) (format : MemoryFormat) :
    Checked (Except Error Bytes) :=
  match checkFrame data.length width height stride format with
  | .error e => return .error e
  | .ok rowBytes => convertRows data width stride format rowBytes height.toNat 0

/-- What `to_rgba8` asks of a frame before it reads a pixel. -/
structure Accepts (dataLen : Nat) (width height stride : UInt32) (format : MemoryFormat) :
    Prop where
  row_le : width.toNat * format.bytesPerPixel ≤ stride.toNat
  output_le : width.toNat * 4 * height.toNat ≤ 2 ^ 30
  data_le : height.toNat = 0 ∨
    (height.toNat - 1) * stride.toNat + width.toNat * format.bytesPerPixel ≤ dataLen

/-- Its checks decide that, without an overflow of their own getting in the way. -/
theorem checkFrame_ok_iff {dataLen : Nat} {width height stride : UInt32} {format : MemoryFormat}
    {rowBytes : Nat} :
    checkFrame dataLen width height stride format = .ok rowBytes ↔
      rowBytes = width.toNat * format.bytesPerPixel ∧
        Accepts dataLen width height stride format := by
  have hw := width.toNat_lt
  have hrow : width.toNat * format.bytesPerPixel ≤ 2 ^ 32 * 16 :=
    Nat.mul_le_mul hw.le format.bytesPerPixel_le
  simp only [checkFrame, checkedMul_some (show width.toNat *
    format.bytesPerPixel < usizeValues by rw [usizeValues]; omega), checkedMul_some (show
    width.toNat * 4 < usizeValues by rw [usizeValues]; omega)]
  constructor
  · intro h
    obtain ⟨_, hrowBytes, h⟩ := bind_eq_ok.mp h
    cases hrowBytes
    obtain ⟨_, hle, h⟩ := bind_eq_ok.mp h
    obtain ⟨_, hstride, h⟩ := bind_eq_ok.mp h
    cases hstride
    obtain ⟨total, htotal, h⟩ := bind_eq_ok.mp h
    obtain ⟨_, hmax, h⟩ := bind_eq_ok.mp h
    have hle := Nat.not_lt.mp (failIf_eq_ok.mp hle)
    have hmax := Nat.not_lt.mp (failIf_eq_ok.mp hmax)
    rw [eq_of_checkedMul (okOr_eq_ok.mp htotal)] at hmax
    split at h
    · obtain ⟨needed, hneeded, h⟩ := bind_eq_ok.mp h
      obtain ⟨_, hlen, h⟩ := bind_eq_ok.mp h
      obtain ⟨rows, hrows, hneeded⟩ := Option.bind_eq_some_iff.mp (okOr_eq_ok.mp hneeded)
      have hlen := Nat.not_lt.mp (failIf_eq_ok.mp hlen)
      rw [eq_of_checkedAdd hneeded, eq_of_checkedMul hrows] at hlen
      cases h
      exact ⟨rfl, hle, hmax, .inr hlen⟩
    · rename_i hheight
      cases h
      refine ⟨rfl, hle, hmax, .inl ?_⟩
      simpa [UInt32.lt_iff_toNat_lt] using hheight
  · rintro ⟨rfl, hle, hmax, hlen⟩
    rw [okOr, ok_bind, failIf_ok (Nat.not_lt.mpr hle), ok_bind, okOr, ok_bind,
      checkedMul_some (by rw [usizeValues]; omega), okOr, ok_bind,
      failIf_ok (show ¬ width.toNat * 4 * height.toNat > maxOutputBytes from Nat.not_lt.mpr hmax),
      ok_bind]
    split
    · rename_i hheight
      have hpos : 0 < height.toNat := by simpa [UInt32.lt_iff_toNat_lt] using hheight
      have hlen := hlen.resolve_left (Nat.ne_of_gt hpos)
      have harea := Limits.mul_u32_lt height stride
      have hrows : (height.toNat - 1) * stride.toNat + stride.toNat =
          height.toNat * stride.toNat := by
        rw [← Nat.succ_mul, Nat.succ_eq_add_one, Nat.sub_add_cancel hpos]
      rw [checkedMul_some (by rw [usizeValues]; omega), Option.bind_some,
        checkedAdd_some (by rw [usizeValues]; omega), okOr, ok_bind,
        failIf_ok (Nat.not_lt.mpr hlen), ok_bind]
      rfl
    · rfl

/-! ## Flattening -/

/-- `over_white`. -/
def overWhite (a c : UInt8) : UInt8 :=
  UInt8.ofNat ((c.toNat * a.toNat + 255 * (255 - a.toNat) + 127) / 255)

/-- The body of the loop of `flatten_over_white`. -/
def flattenPixel (buf : Bytes) (i : Nat) : Checked Bytes := do
  let a ← index buf (i * 4 + 3)
  let r := overWhite a (← index buf (i * 4))
  let g := overWhite a (← index buf (i * 4 + 1))
  let b := overWhite a (← index buf (i * 4 + 2))
  let buf ← setIndex buf (i * 3) r
  let buf ← setIndex buf (i * 3 + 1) g
  setIndex buf (i * 3 + 2) b

def flattenOverWhite (buf : Bytes) : Checked Bytes := do
  let pixels := buf.length / 4
  let buf ← (List.range pixels).foldlM flattenPixel buf
  return buf.take (pixels * 3)

/-! ## Encoding -/

def isSupported : KnownFormat → Bool
  | .png | .jpeg | .gif | .webP | .tiff | .bmp => true
  | _ => false

def new (target : KnownFormat) : Except Error Encoder :=
  if !isSupported target then .error .unsupportedFormat
  else
    .ok {
      target := target
      frames := []
      quality := 75
      compression := 6
      iccProfile := none
      metadata := [] }

/-- A new encoder is for a supported format and has no frames. -/
theorem new_eq_ok {target : KnownFormat} {e : Encoder} (h : new target = .ok e) :
    isSupported target = true ∧ e.frames = [] := by
  rw [new] at h
  split at h
  · cases h
  · rename_i hsupported
    cases h
    exact ⟨by simpa using hsupported, rfl⟩

section
variable (encoder : Encoder)

def addFrame (frame : EncodeFrame) : Encoder :=
  { encoder with frames := encoder.frames ++ [frame] }

def setQuality (quality : UInt8) : Encoder := { encoder with quality := quality }

def setCompression (compression : UInt8) : Encoder := { encoder with compression := compression }

def setIccProfile (icc : Option Bytes) : Encoder := { encoder with iccProfile := icc }

def addMetadata (key value : String) : Encoder :=
  { encoder with metadata := encoder.metadata ++ [(key, value)] }

def encodeDispatch (codecs : ImageEncoders) (rgba : Bytes) (width height : UInt32) :
    Checked (Except Error Bytes) := do
  let failed (message : String) : Error := .encoder encoder.target.name message
  match encoder.target with
  | .png => return (codecs.png encoder.iccProfile rgba width height).mapError failed
  | .jpeg => do
    let rgb ← flattenOverWhite rgba
    return (codecs.jpeg encoder.quality encoder.iccProfile rgb width height).mapError failed
  | .gif => return (codecs.gif rgba width height).mapError failed
  | .webP => return (codecs.webP encoder.iccProfile rgba width height).mapError failed
  | .tiff => return (codecs.tiff rgba width height).mapError failed
  | .bmp => return (codecs.bmp rgba width height).mapError failed
  | _ => return .error .unsupportedFormat

def encode (codecs : ImageEncoders) : Checked (Except Error Bytes) :=
  match encoder.frames with
  | [] => return .error (.internal "no frames queued for encode")
  | [frame] => do
    match ← toRgba8 frame.data frame.width frame.height frame.stride frame.format with
    | .error e => return .error e
    | .ok rgba => encoder.encodeDispatch codecs rgba frame.width frame.height
  | _ => return .error (.internal "multi-frame encoding is not yet supported")

end

end Encoder
end GlycinNg
