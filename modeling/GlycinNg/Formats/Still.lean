import Mathlib.Tactic.Ring
import GlycinNg.Formats.Codec

/-! # Formats of one picture

`formats/jpeg.rs`, `tiff.rs`, `qoi.rs` and `image_rs.rs`. A file that is one
picture is decoded in one call. TIFF reads the header first; the other crates
hand over header and pixels together, so their decoders check the header when
the pixels are already there. The `image` crate holds the header against limits
of its own in between. -/
namespace GlycinNg
open Rust

namespace Jpeg

inductive PixelFormat where
  | l8 | l16 | rgb24 | cmyk32
  deriving DecidableEq, Repr

/-- `jpeg_decoder::Error`. -/
inductive DecodingError where
  | io (message : String)
  | format (message : String)
  | internal (display : String)
  | unsupported (feature : String)

structure ImageInfo where
  width : UInt16
  height : UInt16
  pixelFormat : PixelFormat

/-- `jpeg_decoder::Decoder` on one input: what `decode` answers, and what the
accessors answer after it. -/
structure Decoder where
  decode : Except DecodingError Bytes
  info : Option ImageInfo
  iccProfile : Option Bytes
  exifData : Option Bytes

abbrev Crate := Bytes → Decoder

def mapErr : DecodingError → Error
  | .io e => .io e
  | .format msg => .malformed msg
  | .internal display => .decoder "jpeg" display
  | .unsupported feature => .decoder "jpeg" ("unsupported jpeg feature: " ++ feature)

def mapFormat : PixelFormat → Except Error MemoryFormat
  | .l8 => .ok .g8
  | .l16 => .ok .g16
  | .rgb24 => .ok .r8g8b8
  | .cmyk32 => .error (.decoder "jpeg" "CMYK pixel format is not supported")

def picture (littleEndian : Bool) (info : ImageInfo) (format : MemoryFormat) (pixels : Bytes) :
    Picture where
  width := info.width.toUInt32
  height := info.height.toUInt32
  format := format
  data := if info.pixelFormat = .l16 then beToNativeU16 littleEndian pixels else pixels

/-- `jpeg::decode`. -/
def decode (jpeg : Crate) (littleEndian : Bool) (bytes : Bytes) (opts : DecodeOptions) :
    Decode Image := do
  let decoder := jpeg bytes
  let pixels ← Traced.perform .jpegDecode (decoder.decode.mapError mapErr)
  let info ← okOr decoder.info (.decoder "jpeg" "no image info after decode")
  opts.limits.checkDimensions info.width.toUInt32 info.height.toUInt32 1
  let format ← mapFormat info.pixelFormat
  let image ← stillImage "jpeg" (picture littleEndian info format pixels)
  return decoder.iccProfile.elim image image.setIccProfile

/-- The one picture of the file. -/
def Decoder.delivery (decoder : Decoder) (littleEndian : Bool) : Option Delivery := do
  let pixels ← decoder.decode.toOption
  let info ← decoder.info
  let format ← (mapFormat info.pixelFormat).toOption
  return (picture littleEndian info format pixels).delivery

theorem decode_ok {jpeg : Crate} {littleEndian : Bool} {bytes : Bytes} {opts : DecodeOptions}
    {img : Image} (h : (decode jpeg littleEndian bytes opts).result = .ok img) :
    ∃ p : Picture, (jpeg bytes).delivery littleEndian = some p.delivery ∧
      opts.limits.Fits p.width p.height 1 ∧ img.Carries p.delivery ∧ img.exif = none := by
  obtain ⟨pixels, hpixels, h⟩ := Traced.perform_bind_eq_ok.mp h
  obtain ⟨info, hinfo, h⟩ := Traced.lift_bind_eq_ok.mp h
  obtain ⟨_, hcheck, h⟩ := Traced.lift_bind_eq_ok.mp h
  obtain ⟨format, hformat, h⟩ := Traced.lift_bind_eq_ok.mp h
  obtain ⟨image, himage, h⟩ := Traced.lift_bind_eq_ok.mp h
  rw [mapError_eq_ok] at hpixels
  rw [okOr_eq_ok] at hinfo
  obtain ⟨hcarries, hexif⟩ := stillImage_ok himage
  refine ⟨picture littleEndian info format pixels, ?_, Limits.checkDimensions_ok_iff.mp hcheck, ?_⟩
  · simp [Decoder.delivery, hpixels, hinfo, hformat, Except.toOption]
  · cases h
    cases (jpeg bytes).iccProfile <;>
      exact ⟨⟨hcarries.width, hcarries.height, hcarries.orientation, hcarries.frames⟩, hexif⟩

/-- The decode succeeds, in an accepted pixel format and with one sample for
each channel of each pixel. -/
def Decoder.Documented (decoder : Decoder) : Prop :=
  ∃ pixels info format, decoder.decode = .ok pixels ∧ decoder.info = some info ∧
    mapFormat info.pixelFormat = .ok format ∧
    pixels.length = info.width.toNat * format.bytesPerPixel * info.height.toNat

theorem decode_bookkeeping {jpeg : Crate} {littleEndian : Bool} {bytes : Bytes}
    {opts : DecodeOptions} {e : Error} (hdoc : (jpeg bytes).Documented)
    (h : (decode jpeg littleEndian bytes opts).result = .error e) : ¬ e.IsBookkeeping := by
  obtain ⟨pixels, info, format, hpixels, hinfo, hformat, hlen⟩ := hdoc
  have hpacked : (picture littleEndian info format pixels).Packed := by
    simp only [Picture.Packed, Picture.rowBytes, picture, UInt16.toNat_toUInt32]
    split
    · rw [length_beToNativeU16, hlen]
    · exact hlen
  dsimp only [decode] at h
  rw [Traced.result_perform_bind hpixels, Traced.result_lift_bind (okOr_eq_ok.mpr hinfo)] at h
  rcases Traced.lift_bind_eq_error.mp h with h | ⟨_, -, h⟩
  · exact not_isBookkeeping_check h
  rw [Traced.result_lift_bind hformat] at h
  rcases Traced.lift_bind_eq_error.mp h with h | ⟨_, -, h⟩
  · exact not_isBookkeeping_still hpacked h
  · cases h

/-- No header stops this decoder: the pixels come first. -/
theorem decode_not_gated (jpeg : Crate) (littleEndian : Bool) (bytes : Bytes)
    (opts : DecodeOptions) : ¬ Gated (decode jpeg littleEndian bytes opts) :=
  (Expands.bind (expands_perform rfl)).not_gated

end Jpeg

namespace Tiff

/-- `tiff::ColorType`: the accepted families with their bit depth. -/
inductive ColorType where
  | gray (bits : UInt8)
  | grayA (bits : UInt8)
  | rgb (bits : UInt8)
  | rgba (bits : UInt8)
  | other (debug : String)

def ColorType.debug : ColorType → String
  | .gray bits => "Gray(" ++ toString bits ++ ")"
  | .grayA bits => "GrayA(" ++ toString bits ++ ")"
  | .rgb bits => "RGB(" ++ toString bits ++ ")"
  | .rgba bits => "RGBA(" ++ toString bits ++ ")"
  | .other debug => debug

/-- `tiff::decoder::DecodingResult`. -/
inductive DecodingResult where
  | u8 (samples : Bytes)
  | u16 (samples : List UInt16)
  | other (debug : String)

/-- `tiff::TiffError`, grouped as `map_err` groups it. -/
inductive DecodingError where
  | ioError (message : String)
  | limitsExceeded
  | malformed (display : String)
  | unsupported (display : String)

/-- `tiff::decoder::Decoder`. -/
structure Decoder where
  dimensions : Except DecodingError (UInt32 × UInt32)
  colortype : Except DecodingError ColorType
  readImage : Except DecodingError DecodingResult

abbrev Crate := Bytes → Except DecodingError Decoder

def mapErr : DecodingError → Error
  | .ioError e => .io e
  | .limitsExceeded => .limitExceeded "tiff internal"
  | .malformed display => .malformed display
  | .unsupported display => .decoder "tiff" display

def mapFormat (color : ColorType) : Except Error MemoryFormat :=
  match color with
  | .gray 8 => .ok .g8
  | .gray 16 => .ok .g16
  | .grayA 8 => .ok .g8a8
  | .grayA 16 => .ok .g16a16
  | .rgb 8 => .ok .r8g8b8
  | .rgb 16 => .ok .r16g16b16
  | .rgba 8 => .ok .r8g8b8a8
  | .rgba 16 => .ok .r16g16b16a16
  | other => .error (.decoder "tiff" ("unsupported color type: " ++ other.debug))

def sampleBytes (littleEndian : Bool) : DecodingResult → Except Error Bytes
  | .u8 v => .ok v
  | .u16 v => .ok (u16ToNativeBytes littleEndian v)
  | .other debug => .error (.decoder "tiff" ("unsupported sample format: " ++ debug))

/-- `tiff::decode`. -/
def decode (tiff : Crate) (littleEndian : Bool) (bytes : Bytes) (opts : DecodeOptions) :
    Decode Image := do
  let decoder ← Traced.perform .tiffNew ((tiff bytes).mapError mapErr)
  let (width, height) ← Traced.perform .tiffDimensions (decoder.dimensions.mapError mapErr)
  opts.limits.checkDimensions width height 1
  let color ← Traced.perform .tiffColortype (decoder.colortype.mapError mapErr)
  let format ← mapFormat color
  let result ← Traced.perform .tiffReadImage (decoder.readImage.mapError mapErr)
  let data ← sampleBytes littleEndian result
  stillImage "tiff" ⟨width, height, format, data⟩

/-- The one picture of the file. -/
def Decoder.delivery (decoder : Decoder) (littleEndian : Bool) : Option Delivery := do
  let size ← decoder.dimensions.toOption
  let color ← decoder.colortype.toOption
  let format ← (mapFormat color).toOption
  let result ← decoder.readImage.toOption
  let data ← (sampleBytes littleEndian result).toOption
  return (Picture.mk size.1 size.2 format data).delivery

theorem decode_ok {tiff : Crate} {littleEndian : Bool} {bytes : Bytes} {opts : DecodeOptions}
    {img : Image} (h : (decode tiff littleEndian bytes opts).result = .ok img) :
    ∃ decoder, ∃ p : Picture, tiff bytes = .ok decoder ∧
      decoder.delivery littleEndian = some p.delivery ∧
      opts.limits.Fits p.width p.height 1 ∧ img.Carries p.delivery := by
  obtain ⟨decoder, hdecoder, h⟩ := Traced.perform_bind_eq_ok.mp h
  obtain ⟨⟨width, height⟩, hsize, h⟩ := Traced.perform_bind_eq_ok.mp h
  obtain ⟨_, hcheck, h⟩ := Traced.lift_bind_eq_ok.mp h
  obtain ⟨color, hcolor, h⟩ := Traced.perform_bind_eq_ok.mp h
  obtain ⟨format, hformat, h⟩ := Traced.lift_bind_eq_ok.mp h
  obtain ⟨result, hresult, h⟩ := Traced.perform_bind_eq_ok.mp h
  obtain ⟨data, hdata, h⟩ := Traced.lift_bind_eq_ok.mp h
  rw [mapError_eq_ok] at hdecoder hsize hcolor hresult
  refine ⟨decoder, ⟨width, height, format, data⟩, hdecoder, ?_,
    Limits.checkDimensions_ok_iff.mp hcheck, (stillImage_ok h).1⟩
  simp [Decoder.delivery, hsize, hcolor, hformat, hresult, hdata, Except.toOption]

/-- Every call succeeds, the color type is accepted, and the samples are as many
and as wide as it says. -/
def Decoder.Documented (decoder : Decoder) (littleEndian : Bool) : Prop :=
  ∃ width height color format result data,
    decoder.dimensions = .ok (width, height) ∧ decoder.colortype = .ok color ∧
      mapFormat color = .ok format ∧ decoder.readImage = .ok result ∧
      sampleBytes littleEndian result = .ok data ∧
      data.length = width.toNat * format.bytesPerPixel * height.toNat

theorem decode_bookkeeping {tiff : Crate} {littleEndian : Bool} {bytes : Bytes}
    {opts : DecodeOptions} {decoder : Decoder} {e : Error} (hdecoder : tiff bytes = .ok decoder)
    (hdoc : decoder.Documented littleEndian)
    (h : (decode tiff littleEndian bytes opts).result = .error e) : ¬ e.IsBookkeeping := by
  obtain ⟨width, height, color, format, result, data, hsize, hcolor, hformat, hresult, hdata,
    hlen⟩ := hdoc
  have hpacked : (Picture.mk width height format data).Packed := hlen
  rw [decode, Traced.result_perform_bind hdecoder, Traced.result_perform_bind hsize] at h
  rcases Traced.lift_bind_eq_error.mp h with h | ⟨_, -, h⟩
  · exact not_isBookkeeping_check h
  rw [Traced.result_perform_bind hcolor, Traced.result_lift_bind hformat,
    Traced.result_perform_bind hresult, Traced.result_lift_bind hdata] at h
  exact not_isBookkeeping_still hpacked h

/-- A header over a limit ends the decode before the image is read. -/
theorem decode_gated {tiff : Crate} {littleEndian : Bool} {bytes : Bytes} {opts : DecodeOptions}
    {decoder : Decoder} {width height : UInt32} (hdecoder : tiff bytes = .ok decoder)
    (hsize : decoder.dimensions = .ok (width, height)) (h : ¬ opts.limits.Fits width height 1) :
    Gated (decode tiff littleEndian bytes opts) :=
  (gated_perform hdecoder rfl).mpr ((gated_perform hsize rfl).mpr (gated_check h))

end Tiff

namespace Qoi

/-- `qoi::Error`. -/
inductive DecodingError where
  | ioError (message : String)
  | other (display : String)

inductive Channels where
  | rgb | rgba
  deriving DecidableEq, Repr

structure Header where
  width : UInt32
  height : UInt32
  channels : Channels

/-- A QOI file: its header, and the pixels that follow it. -/
structure Stream where
  header : Except DecodingError Header
  pixels : Except DecodingError Bytes

abbrev Crate := Bytes → Stream

/-- `qoi::decode_to_vec`, which decodes the header first. -/
def Stream.decodeToVec (stream : Stream) : Except DecodingError (Header × Bytes) := do
  let header ← stream.header
  let pixels ← stream.pixels
  return (header, pixels)

def mapErr : DecodingError → Error
  | .ioError e => .io e
  | .other display => .malformed display

def mapFormat : Channels → MemoryFormat
  | .rgb => .r8g8b8
  | .rgba => .r8g8b8a8

def picture (header : Header) (pixels : Bytes) : Picture :=
  ⟨header.width, header.height, mapFormat header.channels, pixels⟩

/-- `qoi::decode`. -/
def decode (qoi : Crate) (bytes : Bytes) (opts : DecodeOptions) : Decode Image := do
  let (header, pixels) ←
    Traced.perform .qoiDecodeToVec ((qoi bytes).decodeToVec.mapError mapErr)
  opts.limits.checkDimensions header.width header.height 1
  stillImage "qoi" (picture header pixels)

/-- The one picture of the file. -/
def Stream.delivery (stream : Stream) : Option Delivery := do
  let file ← stream.decodeToVec.toOption
  return (picture file.1 file.2).delivery

theorem decode_ok {qoi : Crate} {bytes : Bytes} {opts : DecodeOptions} {img : Image}
    (h : (decode qoi bytes opts).result = .ok img) :
    ∃ p : Picture, (qoi bytes).delivery = some p.delivery ∧ opts.limits.Fits p.width p.height 1 ∧
      img.Carries p.delivery := by
  obtain ⟨⟨header, pixels⟩, hfile, h⟩ := Traced.perform_bind_eq_ok.mp h
  obtain ⟨_, hcheck, h⟩ := Traced.lift_bind_eq_ok.mp h
  rw [mapError_eq_ok] at hfile
  refine ⟨picture header pixels, ?_, Limits.checkDimensions_ok_iff.mp hcheck, (stillImage_ok h).1⟩
  simp [Stream.delivery, hfile, Except.toOption]

/-- The decode succeeds with one byte for each channel of each pixel. -/
def Stream.Documented (stream : Stream) : Prop :=
  ∃ header pixels, stream.decodeToVec = .ok (header, pixels) ∧
    pixels.length =
      header.width.toNat * (mapFormat header.channels).bytesPerPixel * header.height.toNat

theorem decode_bookkeeping {qoi : Crate} {bytes : Bytes} {opts : DecodeOptions} {e : Error}
    (hdoc : (qoi bytes).Documented) (h : (decode qoi bytes opts).result = .error e) :
    ¬ e.IsBookkeeping := by
  obtain ⟨header, pixels, hfile, hlen⟩ := hdoc
  have hpacked : (picture header pixels).Packed := hlen
  rw [decode, Traced.result_perform_bind hfile] at h
  rcases Traced.lift_bind_eq_error.mp h with h | ⟨_, -, h⟩
  · exact not_isBookkeeping_check h
  · exact not_isBookkeeping_still hpacked h

/-- No header stops this decoder: the pixels come with it. -/
theorem decode_not_gated (qoi : Crate) (bytes : Bytes) (opts : DecodeOptions) :
    ¬ Gated (decode qoi bytes opts) :=
  (Expands.bind (expands_perform rfl)).not_gated

end Qoi

namespace ImageRs

/-- The `image::ImageFormat`s in use. -/
inductive ImageFormat where
  | bmp | ico | tga | openExr | pnm | dds
  deriving DecidableEq, Repr

/-- `image::ImageError`, grouped as `map_err` groups it. -/
inductive ImageError where
  | ioError (message : String)
  | limits
  | other (display : String)

/-- The raw samples of `image::DynamicImage`; any other variant is converted by
`into_rgba8`. -/
inductive Buffer where
  | luma8 (raw : Bytes)
  | lumaA8 (raw : Bytes)
  | rgb8 (raw : Bytes)
  | rgba8 (raw : Bytes)
  | luma16 (raw : List UInt16)
  | lumaA16 (raw : List UInt16)
  | rgb16 (raw : List UInt16)
  | rgba16 (raw : List UInt16)
  | rgb32F (raw : List UInt32)
  | rgba32F (raw : List UInt32)
  | other (intoRgba8 : Bytes)

structure DynamicImage where
  width : UInt32
  height : UInt32
  buffer : Buffer

/-- An `image::ImageDecoder`: what it has read of the header, whether it takes the limits it
is given, and the pixels it decodes. -/
structure Decoder where
  dimensions : UInt32 × UInt32
  totalBytes : UInt64
  setLimits : Except ImageError Unit
  buffer : Except ImageError Buffer

/-- The decoder that `ImageReader` makes for an input, once it has read the header. -/
abbrev Crate := ImageFormat → Bytes → Except ImageError Decoder

/-- `max_alloc` of `image::Limits::default`. -/
def maxAlloc : UInt64 := 512 * 1024 * 1024

namespace Decoder

/-- The limits of the crate itself: `Limits::reserve` for the buffer, and then
`ImageDecoder::set_limits`. -/
def underLimits (decoder : Decoder) : Except ImageError Unit :=
  if maxAlloc < decoder.totalBytes then .error .limits else decoder.setLimits

/-- `DynamicImage::from_decoder`. -/
def dynamic (decoder : Decoder) : Except ImageError DynamicImage := do
  let buffer ← decoder.buffer
  return ⟨decoder.dimensions.1, decoder.dimensions.2, buffer⟩

end Decoder

def mapErr : ImageError → Error
  | .ioError e => .io e
  | .limits => .limitExceeded "image internal"
  | .other display => .malformed display

def intoNative (littleEndian : Bool) : Buffer → MemoryFormat × Bytes
  | .luma8 b => (.g8, b)
  | .lumaA8 b => (.g8a8, b)
  | .rgb8 b => (.r8g8b8, b)
  | .rgba8 b => (.r8g8b8a8, b)
  | .luma16 b => (.g16, u16ToNativeBytes littleEndian b)
  | .lumaA16 b => (.g16a16, u16ToNativeBytes littleEndian b)
  | .rgb16 b => (.r16g16b16, u16ToNativeBytes littleEndian b)
  | .rgba16 b => (.r16g16b16a16, u16ToNativeBytes littleEndian b)
  | .rgb32F b => (.r32g32b32Float, floatsToBytes littleEndian b)
  | .rgba32F b => (.r32g32b32a32Float, floatsToBytes littleEndian b)
  | .other rgba => (.r8g8b8a8, rgba)

def picture (littleEndian : Bool) (dynamic : DynamicImage) : Picture :=
  let native := intoNative littleEndian dynamic.buffer
  ⟨dynamic.width, dynamic.height, native.1, native.2⟩

def dynamicIntoImage (formatName : String) (littleEndian : Bool) (dynamic : DynamicImage)
    (opts : DecodeOptions) : Decode Image := do
  opts.limits.checkDimensions dynamic.width dynamic.height 1
  stillImage formatName (picture littleEndian dynamic)

/-- `image_rs::decode_with`. The first three calls are `image::load_from_memory_with_format`,
which decodes no pixel before its own limits are checked. -/
def decodeWith (formatName : String) (imageFormat : ImageFormat) (image : Crate)
    (littleEndian : Bool) (bytes : Bytes) (opts : DecodeOptions) : Decode Image := do
  let decoder ← Traced.perform .imageMakeDecoder ((image imageFormat bytes).mapError mapErr)
  Traced.perform .imageSetLimits (decoder.underLimits.mapError mapErr)
  let dynamic ← Traced.perform .imageFromDecoder (decoder.dynamic.mapError mapErr)
  dynamicIntoImage formatName littleEndian dynamic opts

/-- The one picture of the file. -/
def Decoder.delivery (decoder : Decoder) (littleEndian : Bool) : Option Delivery := do
  decoder.underLimits.toOption
  let dynamic ← decoder.dynamic.toOption
  return (picture littleEndian dynamic).delivery

theorem decodeWith_ok {formatName : String} {imageFormat : ImageFormat} {image : Crate}
    {littleEndian : Bool} {bytes : Bytes} {opts : DecodeOptions} {img : Image}
    (h : (decodeWith formatName imageFormat image littleEndian bytes opts).result = .ok img) :
    ∃ decoder, ∃ p : Picture, image imageFormat bytes = .ok decoder ∧
      decoder.delivery littleEndian = some p.delivery ∧
      opts.limits.Fits p.width p.height 1 ∧ img.Carries p.delivery := by
  obtain ⟨decoder, hdecoder, h⟩ := Traced.perform_bind_eq_ok.mp h
  obtain ⟨⟨⟩, hlimits, h⟩ := Traced.perform_bind_eq_ok.mp h
  obtain ⟨dynamic, hdynamic, h⟩ := Traced.perform_bind_eq_ok.mp h
  obtain ⟨_, hcheck, h⟩ := Traced.lift_bind_eq_ok.mp h
  rw [mapError_eq_ok] at hdecoder hlimits hdynamic
  refine ⟨decoder, picture littleEndian dynamic, hdecoder, ?_,
    Limits.checkDimensions_ok_iff.mp hcheck, (stillImage_ok h).1⟩
  simp [Decoder.delivery, hlimits, hdynamic, Except.toOption]

/-- The number of samples of a buffer, and how many make a pixel. -/
def Buffer.samples : Buffer → Nat × Nat
  | .luma8 b => (b.length, 1)
  | .lumaA8 b => (b.length, 2)
  | .rgb8 b => (b.length, 3)
  | .rgba8 b => (b.length, 4)
  | .luma16 b => (b.length, 1)
  | .lumaA16 b => (b.length, 2)
  | .rgb16 b => (b.length, 3)
  | .rgba16 b => (b.length, 4)
  | .rgb32F b => (b.length, 3)
  | .rgba32F b => (b.length, 4)
  | .other b => (b.length, 4)

/-- Within its limits the decoder gives one sample for each channel of each pixel. -/
def Decoder.Documented (decoder : Decoder) : Prop :=
  decoder.underLimits = .ok () ∧ ∃ dynamic, decoder.dynamic = .ok dynamic ∧
    dynamic.buffer.samples.1 =
      dynamic.width.toNat * dynamic.buffer.samples.2 * dynamic.height.toNat

/-- Each native format is as wide as the channels it is made of. -/
theorem picture_packed {littleEndian : Bool} {dynamic : DynamicImage}
    (h : dynamic.buffer.samples.1 =
      dynamic.width.toNat * dynamic.buffer.samples.2 * dynamic.height.toNat) :
    (picture littleEndian dynamic).Packed := by
  obtain ⟨width, height, buffer⟩ := dynamic
  cases buffer <;>
    simp only [Buffer.samples, Picture.Packed, Picture.rowBytes, picture, intoNative,
      length_u16ToNativeBytes, length_floatsToBytes, MemoryFormat.bytesPerPixel] at h ⊢ <;>
    rw [h] <;> ring

theorem decodeWith_bookkeeping {formatName : String} {imageFormat : ImageFormat} {image : Crate}
    {littleEndian : Bool} {bytes : Bytes} {opts : DecodeOptions} {decoder : Decoder} {e : Error}
    (hdecoder : image imageFormat bytes = .ok decoder) (hdoc : decoder.Documented)
    (h : (decodeWith formatName imageFormat image littleEndian bytes opts).result = .error e) :
    ¬ e.IsBookkeeping := by
  obtain ⟨hlimits, dynamic, hdynamic, hlen⟩ := hdoc
  rw [decodeWith, Traced.result_perform_bind hdecoder, Traced.result_perform_bind hlimits,
    Traced.result_perform_bind hdynamic] at h
  rcases Traced.lift_bind_eq_error.mp h with h | ⟨_, -, h⟩
  · exact not_isBookkeeping_check h
  · exact not_isBookkeeping_still (picture_packed hlen) h

/-- The crate refuses the header: its buffer is over the memory of the crate's own limits, or
its decoder does not take them. -/
def Decoder.OverLimits (decoder : Decoder) : Prop :=
  maxAlloc < decoder.totalBytes ∨ decoder.setLimits = .error .limits

theorem Decoder.underLimits_eq_limits {decoder : Decoder} :
    decoder.underLimits = .error .limits ↔ decoder.OverLimits := by
  rw [underLimits, OverLimits]
  split
  · exact iff_of_true rfl (.inl ‹_›)
  · simp [*]

/-- Only the crate's own limits stop this decoder in time: the check of ours comes after the
pixels. -/
theorem decodeWith_gated_iff {formatName : String} {imageFormat : ImageFormat} {image : Crate}
    {littleEndian : Bool} {bytes : Bytes} {opts : DecodeOptions} {decoder : Decoder}
    (hdecoder : image imageFormat bytes = .ok decoder) :
    Gated (decodeWith formatName imageFormat image littleEndian bytes opts) ↔
      decoder.OverLimits := by
  rw [decodeWith, gated_perform hdecoder rfl, ← Decoder.underLimits_eq_limits]
  cases hlimits : decoder.underLimits with
  | ok =>
    rw [gated_perform rfl rfl]
    exact iff_of_false (Expands.bind (expands_perform rfl)).not_gated (by simp)
  | error e =>
    rw [gated_perform_error rfl rfl]
    cases e <;> simp [mapErr]

end ImageRs

/-! ## The formats of the `image` crate -/

/-- `bmp::decode`. -/
def Bmp.decode := ImageRs.decodeWith "bmp" .bmp

/-- `ico::decode`. -/
def Ico.decode := ImageRs.decodeWith "ico" .ico

/-- `tga::decode`. -/
def Tga.decode := ImageRs.decodeWith "tga" .tga

/-- `exr::decode`. -/
def Exr.decode := ImageRs.decodeWith "exr" .openExr

/-- `pnm::decode`. -/
def Pnm.decode := ImageRs.decodeWith "pnm" .pnm

/-- `dds::decode`. -/
def Dds.decode := ImageRs.decodeWith "dds" .dds

end GlycinNg
