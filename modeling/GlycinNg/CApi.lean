import GlycinNg.Loader

/-! # The C ABI of the engine

The part of `c_api.rs` the shim calls: the format constants, the loader setters
and the image accessors. A handle is the value it points to; NULL is `none`. -/
namespace GlycinNg.CApi
open Rust

/-! ## Memory format constants -/

@[match_pattern] def formatUnknown : UInt32 := 0
@[match_pattern] def formatG8 : UInt32 := 1
@[match_pattern] def formatG8a8 : UInt32 := 2
@[match_pattern] def formatG8a8Pre : UInt32 := 3
@[match_pattern] def formatG16 : UInt32 := 4
@[match_pattern] def formatG16a16 : UInt32 := 5
@[match_pattern] def formatG16a16Pre : UInt32 := 6
@[match_pattern] def formatR8g8b8 : UInt32 := 10
@[match_pattern] def formatR8g8b8a8 : UInt32 := 11
@[match_pattern] def formatR8g8b8a8Pre : UInt32 := 12
@[match_pattern] def formatB8g8r8 : UInt32 := 13
@[match_pattern] def formatB8g8r8a8 : UInt32 := 14
@[match_pattern] def formatB8g8r8a8Pre : UInt32 := 15
@[match_pattern] def formatA8r8g8b8 : UInt32 := 16
@[match_pattern] def formatA8r8g8b8Pre : UInt32 := 17
@[match_pattern] def formatA8b8g8r8 : UInt32 := 18
@[match_pattern] def formatR16g16b16 : UInt32 := 20
@[match_pattern] def formatR16g16b16a16 : UInt32 := 21
@[match_pattern] def formatR16g16b16a16Pre : UInt32 := 22
@[match_pattern] def formatR16g16b16F : UInt32 := 23
@[match_pattern] def formatR16g16b16a16F : UInt32 := 24
@[match_pattern] def formatR32g32b32F : UInt32 := 25
@[match_pattern] def formatR32g32b32a32F : UInt32 := 26
@[match_pattern] def formatR32g32b32a32FPre : UInt32 := 27

def memoryFormatToCUint : MemoryFormat → UInt32
  | .g8 => formatG8
  | .g8a8 => formatG8a8
  | .g8a8Premultiplied => formatG8a8Pre
  | .g16 => formatG16
  | .g16a16 => formatG16a16
  | .g16a16Premultiplied => formatG16a16Pre
  | .r8g8b8 => formatR8g8b8
  | .r8g8b8a8 => formatR8g8b8a8
  | .r8g8b8a8Premultiplied => formatR8g8b8a8Pre
  | .b8g8r8 => formatB8g8r8
  | .b8g8r8a8 => formatB8g8r8a8
  | .b8g8r8a8Premultiplied => formatB8g8r8a8Pre
  | .a8r8g8b8 => formatA8r8g8b8
  | .a8r8g8b8Premultiplied => formatA8r8g8b8Pre
  | .a8b8g8r8 => formatA8b8g8r8
  | .r16g16b16 => formatR16g16b16
  | .r16g16b16a16 => formatR16g16b16a16
  | .r16g16b16a16Premultiplied => formatR16g16b16a16Pre
  | .r16g16b16Float => formatR16g16b16F
  | .r16g16b16a16Float => formatR16g16b16a16F
  | .r32g32b32Float => formatR32g32b32F
  | .r32g32b32a32Float => formatR32g32b32a32F
  | .r32g32b32a32FloatPremultiplied => formatR32g32b32a32FPre

/-! ## Loaders -/

/-- The text `thiserror` derives for an error. -/
def display : Error → String
  | .io e => "I/O error: " ++ e
  | .unsupportedFormat => "unsupported image format"
  | .sandboxUnavailable layer => "requested sandbox layer unavailable: " ++ layer
  | .limitExceeded which => "limit exceeded: " ++ which
  | .truncated what => "input truncated: " ++ what
  | .malformed message => "malformed input: " ++ message
  | .decoder format message => format ++ " decoder error: " ++ message
  | .encoder format message => format ++ " encoder error: " ++ message
  | .internal message => "internal error: " ++ message

/-- `CString::new`, with the text that stands for one that has a NUL inside. -/
def cstring (message : String) : String :=
  if message.toList.contains '\x00' then "error" else message

section
variable (loader : Loader)

def loaderNewBytes (bytes : Bytes) : Loader := Loader.newBytes bytes

def loaderApplyTransformations (apply : Bool) : Loader := loader.withApplyTransformations apply

def loaderRenderSizeHint (width height : UInt32) : Loader :=
  { loader with renderSizeHint := some (width, height) }

def loaderSetMaxWidth (maxWidth : UInt32) : Loader :=
  { loader with limits := { loader.limits with maxWidth := maxWidth } }

def loaderSetMaxHeight (maxHeight : UInt32) : Loader :=
  { loader with limits := { loader.limits with maxHeight := maxHeight } }

def loaderSetMaxPixels (maxPixels : UInt64) : Loader :=
  { loader with limits := { loader.limits with maxPixels := maxPixels } }

def loaderSetMaxFrames (maxFrames : UInt32) : Loader :=
  { loader with limits := { loader.limits with maxFrames := maxFrames } }

def loaderSetMaxAnimationSeconds (seconds : UInt64) : Loader :=
  { loader with
    limits := { loader.limits with maxAnimationDuration := Duration.fromSecs seconds } }

def loaderSetDecodeMemoryMib (mib : UInt64) : Loader :=
  { loader with limits := { loader.limits with decodeMemoryMib := mib } }

def loaderSetDecodeCpuSeconds (seconds : UInt64) : Loader :=
  { loader with limits := { loader.limits with decodeCpuSeconds := seconds } }

end

/-- `glycin_ng_loader_load`: an image, or the last-error message. A panic does
not unwind through `extern "C"`, it aborts the process. -/
def loaderLoad (host : Host) (loader : Loader) : Checked (Except String Image) := do
  match ← loader.load host with
  | .ok image => return .ok image
  | .error e => return .error (cstring (display e))

theorem loaderLoad_ok {host : Host} {loader : Loader} {image : Image} :
    loaderLoad host loader = .ok (.ok image) ↔ loader.load host = .ok (.ok image) := by
  rw [loaderLoad]
  cases hload : loader.load host with
  | error p => simp
  | ok answer => cases answer <;> simp [pure, Except.pure]

/-! ## Images -/

section
variable (image : Image)

def imageFrameCount : Nat := image.frames.length

def imageTexture (index : Nat) : Option Texture := image.frames[index]?.map Frame.texture

/-- `as_millis() as u64`, 0 without a delay. -/
def imageFrameDelayMs (index : Nat) : UInt64 :=
  match image.frames[index]?.bind Frame.delay with
  | some d => UInt64.ofNat d.asMillis
  | none => 0

def textureFormat (texture : Texture) : UInt32 := memoryFormatToCUint texture.format

/-- `format_name_cstr`: the names the table knows. -/
def imageFormatName : Option String :=
  if image.formatName ∈ ["png", "jpeg", "gif", "webp", "tiff", "bmp", "ico", "tga", "qoi", "exr",
    "pnm", "dds", "jxl", "svg"] then some image.formatName else none

end

end GlycinNg.CApi
