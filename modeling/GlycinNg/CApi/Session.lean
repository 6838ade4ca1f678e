import GlycinNg.CApi
import GlycinNg.Encoder
import GlycinNg.Rust.Utf8
import Mathlib.Logic.Function.Basic

/-! # Calls into the C ABI

The entry points of `c_api.rs` that create, configure and consume loaders and encoders,
as calls on the state of one thread: the live handles and the last-error slot. A handle
argument is NULL (`none`) or the number of a handle; a panic does not unwind through
`extern "C"`, it aborts the process and ends the run. -/
namespace GlycinNg.CApi
open Rust

/-! ## Known-format constants -/

@[match_pattern] def kfmtPng : UInt32 := 1
@[match_pattern] def kfmtJpeg : UInt32 := 2
@[match_pattern] def kfmtGif : UInt32 := 3
@[match_pattern] def kfmtWebP : UInt32 := 4
@[match_pattern] def kfmtTiff : UInt32 := 5
@[match_pattern] def kfmtBmp : UInt32 := 6
@[match_pattern] def kfmtIco : UInt32 := 7
@[match_pattern] def kfmtTga : UInt32 := 8
@[match_pattern] def kfmtQoi : UInt32 := 9
@[match_pattern] def kfmtExr : UInt32 := 10
@[match_pattern] def kfmtPnm : UInt32 := 11
@[match_pattern] def kfmtDds : UInt32 := 12
@[match_pattern] def kfmtJxl : UInt32 := 13
@[match_pattern] def kfmtSvg : UInt32 := 14

def cUintToFormat (value : UInt32) : Option KnownFormat :=
  match value with
  | kfmtPng => some .png
  | kfmtJpeg => some .jpeg
  | kfmtGif => some .gif
  | kfmtWebP => some .webP
  | kfmtTiff => some .tiff
  | kfmtBmp => some .bmp
  | kfmtIco => some .ico
  | kfmtTga => some .tga
  | kfmtQoi => some .qoi
  | kfmtExr => some .exr
  | kfmtPnm => some .pnm
  | kfmtDds => some .dds
  | kfmtJxl => some .jxl
  | kfmtSvg => some .svg
  | _ => none

def formatToCUint : KnownFormat → UInt32
  | .png => kfmtPng
  | .jpeg => kfmtJpeg
  | .gif => kfmtGif
  | .webP => kfmtWebP
  | .tiff => kfmtTiff
  | .bmp => kfmtBmp
  | .ico => kfmtIco
  | .tga => kfmtTga
  | .qoi => kfmtQoi
  | .exr => kfmtExr
  | .pnm => kfmtPnm
  | .dds => kfmtDds
  | .jxl => kfmtJxl
  | .svg => kfmtSvg

/-- The two tables of known formats are inverse to each other. -/
theorem cUintToFormat_formatToCUint (f : KnownFormat) :
    cUintToFormat (formatToCUint f) = some f := by
  cases f <;> rfl

/-- `glycin_ng_known_format_from_mime`; 0 for a media type that is not known. -/
def knownFormatFromMime (mime : Option Bytes) : UInt32 :=
  match mime.bind toStr with
  | none => 0
  | some s => ((KnownFormat.fromMimeType s).map formatToCUint).getD 0

/-- A constant that is not 0 stands for the format the media type names. -/
theorem knownFormatFromMime_ne_zero {mime : Option Bytes} (h : knownFormatFromMime mime ≠ 0) :
    ∃ text f, mime.bind toStr = some text ∧ KnownFormat.fromMimeType text = some f ∧
      knownFormatFromMime mime = formatToCUint f := by
  cases htext : mime.bind toStr with
  | none => exact absurd (by rw [knownFormatFromMime, htext]) h
  | some text =>
    cases hf : KnownFormat.fromMimeType text with
    | none => exact absurd (by rw [knownFormatFromMime, htext]; simp [hf]) h
    | some f => exact ⟨text, f, rfl, hf, by rw [knownFormatFromMime, htext]; simp [hf]⟩

def cUintToMemoryFormat (value : UInt32) : Option MemoryFormat :=
  match value with
  | formatG8 => some .g8
  | formatG8a8 => some .g8a8
  | formatG8a8Pre => some .g8a8Premultiplied
  | formatG16 => some .g16
  | formatG16a16 => some .g16a16
  | formatG16a16Pre => some .g16a16Premultiplied
  | formatR8g8b8 => some .r8g8b8
  | formatR8g8b8a8 => some .r8g8b8a8
  | formatR8g8b8a8Pre => some .r8g8b8a8Premultiplied
  | formatB8g8r8 => some .b8g8r8
  | formatB8g8r8a8 => some .b8g8r8a8
  | formatB8g8r8a8Pre => some .b8g8r8a8Premultiplied
  | formatA8r8g8b8 => some .a8r8g8b8
  | formatA8r8g8b8Pre => some .a8r8g8b8Premultiplied
  | formatA8b8g8r8 => some .a8b8g8r8
  | formatR16g16b16 => some .r16g16b16
  | formatR16g16b16a16 => some .r16g16b16a16
  | formatR16g16b16a16Pre => some .r16g16b16a16Premultiplied
  | formatR16g16b16F => some .r16g16b16Float
  | formatR16g16b16a16F => some .r16g16b16a16Float
  | formatR32g32b32F => some .r32g32b32Float
  | formatR32g32b32a32F => some .r32g32b32a32Float
  | formatR32g32b32a32FPre => some .r32g32b32a32FloatPremultiplied
  | _ => none

/-- The two tables of memory formats are inverse to each other. -/
theorem cUintToMemoryFormat_memoryFormatToCUint (f : MemoryFormat) :
    cUintToMemoryFormat (memoryFormatToCUint f) = some f := by
  cases f <;> rfl

/-! ## The state of a thread -/

/-- `GlycinNgLoader`. -/
structure LoaderHandle where
  inner : Option Loader

/-- `GlycinNgEncoder`. -/
structure EncoderHandle where
  inner : Encoder

/-- A handle argument; NULL is `none`. -/
abbrev Ptr := Option Nat

/-- The live handles, the next handle `Box::into_raw` gives out, and `LAST_ERROR`. -/
structure Session where
  loaders : Nat → Option LoaderHandle
  encoders : Nat → Option EncoderHandle
  next : Nat
  lastError : Option String

/-- A thread before its first call. -/
def Session.start : Session := ⟨fun _ => none, fun _ => none, 0, none⟩

/-- `data` and `len` of a call: NULL with a length, or the bytes that are there. -/
inductive Data where
  | null (len : UInt64)
  | bytes (bytes : Bytes)

/-- `data.is_null() && len != 0`. -/
def Data.missing : Data → Bool
  | .null len => len != 0
  | .bytes _ => false

/-- What is copied from `data`. -/
def Data.copied : Data → Bytes
  | .null _ => []
  | .bytes b => b

abbrev Abi (α : Type) := StateT Session Checked α

namespace Abi

def setError (message : String) : Abi Unit :=
  modify fun s => { s with lastError := some (cstring message) }

def clearError : Abi Unit := modify fun s => { s with lastError := none }

/-- `Box::into_raw(Box::new(..))`. -/
def boxLoader (inner : Loader) : Abi Ptr := do
  let s ← get
  set { s with
    loaders := Function.update s.loaders s.next (some ⟨some inner⟩)
    next := s.next + 1 }
  return some s.next

def boxEncoder (inner : Encoder) : Abi Ptr := do
  let s ← get
  set { s with
    encoders := Function.update s.encoders s.next (some ⟨inner⟩)
    next := s.next + 1 }
  return some s.next

/-- Drop the box of a handle. -/
def dropLoader (p : Nat) : Abi Unit :=
  modify fun s => { s with loaders := Function.update s.loaders p none }

def dropEncoder (p : Nat) : Abi Unit :=
  modify fun s => { s with encoders := Function.update s.encoders p none }

/-- `handle.inner.take()`. -/
def takeInner (p : Nat) : Abi (Option Loader) := do
  let s ← get
  set { s with loaders := Function.update s.loaders p ((s.loaders p).map fun _ => ⟨none⟩) }
  return (s.loaders p).bind LoaderHandle.inner

/-- `handle.inner = Some(..)`. -/
def putInner (p : Nat) (inner : Loader) : Abi Unit :=
  modify fun s => { s with loaders := Function.update s.loaders p (some ⟨some inner⟩) }

/-- Change the encoder behind a handle in place. -/
def modifyEncoder (p : Nat) (mutate : Encoder → Encoder) : Abi Unit :=
  modify fun s => { s with
    encoders := Function.update s.encoders p ((s.encoders p).map fun h => ⟨mutate h.inner⟩) }

/-! ## Errors -/

/-- `glycin_ng_last_error`. -/
def lastError : Abi (Option String) := return (← get).lastError

/-- `glycin_ng_clear_last_error`. -/
def clearLastError : Abi Unit := clearError

/-! ## Loaders -/

def loaderFree (loader : Ptr) : Abi Unit :=
  match loader with
  | none => return
  | some p => dropLoader p

def loaderNewPath (path : Option Bytes) : Abi Ptr := do
  clearError
  match path with
  | none => do
    setError "path is null"
    return none
  | some path => boxLoader (Loader.newPath (toStringLossy path))

def loaderNewBytes (data : Data) : Abi Ptr := do
  clearError
  if data.missing then do
    setError "data is null but len is non-zero"
    return none
  else boxLoader (CApi.loaderNewBytes data.copied)

/-- `modify_loader`. -/
def modifyLoader (loader : Ptr) (mutate : Loader → Loader) : Abi Int32 := do
  clearError
  match loader with
  | none => do
    setError "loader is null"
    return -1
  | some p =>
    match ← takeInner p with
    | none => do
      setError "loader has already been consumed"
      return -1
    | some inner => do
      putInner p (mutate inner)
      return 0

def loaderSandbox (loader : Ptr) (landlock seccomp rlimit strict : Int32) : Abi Int32 := do
  clearError
  match loader with
  | none => do
    setError "loader is null"
    return -1
  | some p =>
    match ← takeInner p with
    | none => do
      setError "loader has already been consumed"
      return -1
    | some inner => do
      let selector := ⟨landlock != 0, seccomp != 0, rlimit != 0, strict != 0⟩
      putInner p { inner with sandbox := selector }
      return 0

def loaderFormatHint (loader : Ptr) (format : UInt32) : Abi Int32 := do
  clearError
  match loader with
  | none => do
    setError "loader is null"
    return -1
  | some p =>
    match ← takeInner p with
    | none => do
      setError "loader has already been consumed"
      return -1
    | some inner =>
      match cUintToFormat format with
      | none => do
        putInner p inner
        setError "unknown format constant"
        return -1
      | some f => do
        putInner p (inner.withFormatHint f)
        return 0

section
variable (loader : Ptr)

def loaderApplyTransformations (apply : Int32) : Abi Int32 :=
  modifyLoader loader fun l => CApi.loaderApplyTransformations l (apply != 0)

def loaderRenderSizeHint (width height : UInt32) : Abi Int32 :=
  modifyLoader loader fun l => CApi.loaderRenderSizeHint l width height

def loaderSetMaxWidth (maxWidth : UInt32) : Abi Int32 :=
  modifyLoader loader fun l => CApi.loaderSetMaxWidth l maxWidth

def loaderSetMaxHeight (maxHeight : UInt32) : Abi Int32 :=
  modifyLoader loader fun l => CApi.loaderSetMaxHeight l maxHeight

def loaderSetMaxPixels (maxPixels : UInt64) : Abi Int32 :=
  modifyLoader loader fun l => CApi.loaderSetMaxPixels l maxPixels

def loaderSetMaxFrames (maxFrames : UInt32) : Abi Int32 :=
  modifyLoader loader fun l => CApi.loaderSetMaxFrames l maxFrames

def loaderSetMaxAnimationSeconds (seconds : UInt64) : Abi Int32 :=
  modifyLoader loader fun l => CApi.loaderSetMaxAnimationSeconds l seconds

def loaderSetDecodeMemoryMib (mib : UInt64) : Abi Int32 :=
  modifyLoader loader fun l => CApi.loaderSetDecodeMemoryMib l mib

def loaderSetDecodeCpuSeconds (seconds : UInt64) : Abi Int32 :=
  modifyLoader loader fun l => CApi.loaderSetDecodeCpuSeconds l seconds

end

/-- `glycin_ng_loader_load`; the host answers for the world during this load. -/
def loaderLoad (loader : Ptr) (host : Host) : Abi (Option Image) := do
  clearError
  match loader with
  | none => do
    setError "loader is null"
    return none
  | some p => do
    let inner ← takeInner p
    dropLoader p
    match inner with
    | none => do
      setError "loader has already been consumed"
      return none
    | some inner =>
      match ← (inner.load host : Checked (Except Error Image)) with
      | .ok image => return some image
      | .error e => do
        setError (display e)
        return none

/-! ## Encoders -/

def encoderNew (format : UInt32) : Abi Ptr := do
  clearError
  match cUintToFormat format with
  | none => do
    setError "unknown known-format constant"
    return none
  | some target =>
    match Encoder.new target with
    | .ok enc => boxEncoder enc
    | .error e => do
      setError (display e)
      return none

def encoderFree (encoder : Ptr) : Abi Unit :=
  match encoder with
  | none => return
  | some p => dropEncoder p

def encoderSetQuality (encoder : Ptr) (quality : UInt8) : Abi Unit :=
  match encoder with
  | none => return
  | some p => modifyEncoder p fun e => e.setQuality quality

def encoderSetCompression (encoder : Ptr) (compression : UInt8) : Abi Unit :=
  match encoder with
  | none => return
  | some p => modifyEncoder p fun e => e.setCompression compression

def encoderSetIccProfile (encoder : Ptr) (data : Data) : Abi Int32 := do
  clearError
  match encoder with
  | none => do
    setError "encoder is null"
    return -1
  | some p =>
    if data.missing then do
      setError "icc data is null but len is non-zero"
      return -1
    else do
      let icc := if data.copied = [] then none else some data.copied
      modifyEncoder p fun e => e.setIccProfile icc
      return 0

def encoderAddMetadata (encoder : Ptr) (key value : Option Bytes) : Abi Int32 := do
  clearError
  match encoder with
  | none => do
    setError "encoder is null"
    return -1
  | some p =>
    match key, value with
    | some key, some value =>
      match toStr key with
      | none => do
        setError "metadata key is not valid UTF-8"
        return -1
      | some k =>
        match toStr value with
        | none => do
          setError "metadata value is not valid UTF-8"
          return -1
        | some v => do
          modifyEncoder p fun e => e.addMetadata k v
          return 0
    | _, _ => do
      setError "key or value is null"
      return -1

def encoderAddFrame (encoder : Ptr) (width height stride format : UInt32) (data : Data) :
    Abi Int32 := do
  clearError
  match encoder with
  | none => do
    setError "encoder is null"
    return -1
  | some p =>
    match cUintToMemoryFormat format with
    | none => do
      setError "unknown memory-format constant"
      return -1
    | some mf =>
      if data.missing then do
        setError "data is null but data_len is non-zero"
        return -1
      else do
        modifyEncoder p fun e => e.addFrame ⟨width, height, stride, mf, data.copied⟩
        return 0

/-- `glycin_ng_encoder_encode`; the bytes are what the new handle holds. -/
def encoderEncode (encoder : Ptr) (codecs : ImageEncoders) : Abi (Option Bytes) := do
  clearError
  match encoder with
  | none => do
    setError "encoder is null"
    return none
  | some p =>
    match (← get).encoders p with
    | none => return none
    | some handle =>
      match ← (handle.inner.encode codecs : Checked (Except Error Bytes)) with
      | .ok bytes => return some bytes
      | .error e => do
        setError (display e)
        return none

end Abi

/-! ## Runs -/

/-- The calls, with their arguments and what the world answers during them. -/
inductive Call where
  | lastError
  | clearLastError
  | loaderFree (loader : Ptr)
  | loaderNewPath (path : Option Bytes)
  | loaderNewBytes (data : Data)
  | loaderSandbox (loader : Ptr) (landlock seccomp rlimit strict : Int32)
  | loaderFormatHint (loader : Ptr) (format : UInt32)
  | loaderApplyTransformations (loader : Ptr) (apply : Int32)
  | loaderRenderSizeHint (loader : Ptr) (width height : UInt32)
  | loaderSetMaxWidth (loader : Ptr) (maxWidth : UInt32)
  | loaderSetMaxHeight (loader : Ptr) (maxHeight : UInt32)
  | loaderSetMaxPixels (loader : Ptr) (maxPixels : UInt64)
  | loaderSetMaxFrames (loader : Ptr) (maxFrames : UInt32)
  | loaderSetMaxAnimationSeconds (loader : Ptr) (seconds : UInt64)
  | loaderSetDecodeMemoryMib (loader : Ptr) (mib : UInt64)
  | loaderSetDecodeCpuSeconds (loader : Ptr) (seconds : UInt64)
  | loaderLoad (loader : Ptr) (host : Host)
  | encoderNew (format : UInt32)
  | encoderFree (encoder : Ptr)
  | encoderSetQuality (encoder : Ptr) (quality : UInt8)
  | encoderSetCompression (encoder : Ptr) (compression : UInt8)
  | encoderSetIccProfile (encoder : Ptr) (data : Data)
  | encoderAddMetadata (encoder : Ptr) (key value : Option Bytes)
  | encoderAddFrame (encoder : Ptr) (width height stride format : UInt32) (data : Data)
  | encoderEncode (encoder : Ptr) (codecs : ImageEncoders)

/-- What a call returns. -/
inductive Answer where
  | none
  | message (message : Option String)
  | code (code : Int32)
  | handle (handle : Ptr)
  | image (image : Option Image)
  | encoded (bytes : Option Bytes)

/-- One call on the state of the thread. -/
def Call.exec : Call → Abi Answer
  | .lastError => return .message (← Abi.lastError)
  | .clearLastError => do
    Abi.clearLastError
    return .none
  | .loaderFree loader => do
    Abi.loaderFree loader
    return .none
  | .loaderNewPath path => return .handle (← Abi.loaderNewPath path)
  | .loaderNewBytes data => return .handle (← Abi.loaderNewBytes data)
  | .loaderSandbox loader landlock seccomp rlimit strict =>
    return .code (← Abi.loaderSandbox loader landlock seccomp rlimit strict)
  | .loaderFormatHint loader format => return .code (← Abi.loaderFormatHint loader format)
  | .loaderApplyTransformations loader apply =>
    return .code (← Abi.loaderApplyTransformations loader apply)
  | .loaderRenderSizeHint loader width height =>
    return .code (← Abi.loaderRenderSizeHint loader width height)
  | .loaderSetMaxWidth loader maxWidth => return .code (← Abi.loaderSetMaxWidth loader maxWidth)
  | .loaderSetMaxHeight loader maxHeight =>
    return .code (← Abi.loaderSetMaxHeight loader maxHeight)
  | .loaderSetMaxPixels loader maxPixels =>
    return .code (← Abi.loaderSetMaxPixels loader maxPixels)
  | .loaderSetMaxFrames loader maxFrames =>
    return .code (← Abi.loaderSetMaxFrames loader maxFrames)
  | .loaderSetMaxAnimationSeconds loader seconds =>
    return .code (← Abi.loaderSetMaxAnimationSeconds loader seconds)
  | .loaderSetDecodeMemoryMib loader mib =>
    return .code (← Abi.loaderSetDecodeMemoryMib loader mib)
  | .loaderSetDecodeCpuSeconds loader seconds =>
    return .code (← Abi.loaderSetDecodeCpuSeconds loader seconds)
  | .loaderLoad loader host => return .image (← Abi.loaderLoad loader host)
  | .encoderNew format => return .handle (← Abi.encoderNew format)
  | .encoderFree encoder => do
    Abi.encoderFree encoder
    return .none
  | .encoderSetQuality encoder quality => do
    Abi.encoderSetQuality encoder quality
    return .none
  | .encoderSetCompression encoder compression => do
    Abi.encoderSetCompression encoder compression
    return .none
  | .encoderSetIccProfile encoder data => return .code (← Abi.encoderSetIccProfile encoder data)
  | .encoderAddMetadata encoder key value =>
    return .code (← Abi.encoderAddMetadata encoder key value)
  | .encoderAddFrame encoder width height stride format data =>
    return .code (← Abi.encoderAddFrame encoder width height stride format data)
  | .encoderEncode encoder codecs => return .encoded (← Abi.encoderEncode encoder codecs)

end GlycinNg.CApi
