import GlycinNg.Shim.Convert

/-! # Handles of the shim

`types.rs` and the operations on loaders in `lib.rs`. A handle is the state
attached to its `GObject`; an operation takes the state before it and returns
the state after it. -/
namespace GlycinNg.Shim
open Rust CApi

/-- A `GError` in the loader domain. -/
structure GError where
  code : Int
  message : String
  deriving DecidableEq, Repr

/-- `set_error`. -/
def GError.new (code : Int) (message : String) : GError := ⟨code, cstring message⟩

/-- The caps a caller has set on a loader. -/
structure LoaderLimits where
  maxWidth : Option UInt32
  maxHeight : Option UInt32
  maxPixels : Option UInt64
  maxFrames : Option UInt32
  maxAnimationSeconds : Option UInt64
  decodeMemoryMib : Option UInt64
  decodeCpuSeconds : Option UInt64

namespace LoaderLimits

def default : LoaderLimits := ⟨none, none, none, none, none, none, none⟩

/-- Push what is set onto a loader of the engine. -/
def apply (l : LoaderLimits) (loader : Loader) : Loader :=
  let loader := l.maxWidth.elim loader (loaderSetMaxWidth loader)
  let loader := l.maxHeight.elim loader (loaderSetMaxHeight loader)
  let loader := l.maxPixels.elim loader (loaderSetMaxPixels loader)
  let loader := l.maxFrames.elim loader (loaderSetMaxFrames loader)
  let loader := l.maxAnimationSeconds.elim loader (loaderSetMaxAnimationSeconds loader)
  let loader := l.decodeMemoryMib.elim loader (loaderSetDecodeMemoryMib loader)
  l.decodeCpuSeconds.elim loader (loaderSetDecodeCpuSeconds loader)

end LoaderLimits

/-- What is kept of a decode to redo it at another size. -/
structure Rerender where
  sourceBytes : Bytes
  limits : LoaderLimits
  applyTransformations : Bool
  acceptedMemoryFormats : UInt32

/-- `types::ImageState`. -/
structure ImageState where
  inner : Image
  cursor : Nat
  frameCount : Nat
  rerender : Option Rerender

/-- `types::LoaderState`; the engine's loader is gone once it has been loaded. -/
structure LoaderState where
  inner : Option Loader
  applyTransformations : Bool
  acceptedMemoryFormats : UInt32
  limits : LoaderLimits
  sourceBytes : Option Bytes

/-- `types::FrameState`. -/
structure FrameState where
  frame : RawFrame
  cicp : Option Cicp
  deriving DecidableEq, Repr

/-- `types::FrameRequestState`. -/
structure FrameRequest where
  scale : Option (UInt32 × UInt32)
  loopAnimation : Bool

/-- `gly_frame_request_new`. -/
def FrameRequest.new : FrameRequest := ⟨none, true⟩

/-! ## Loading -/

namespace LoaderState

/-- `new_loader_from_bytes`. -/
def newFromBytes (bytes : Bytes) : LoaderState where
  inner := some (loaderNewBytes bytes)
  applyTransformations := true
  acceptedMemoryFormats := 0
  limits := .default
  sourceBytes := some bytes

/-- `gly_loader_set_apply_transformations`. -/
def setApplyTransformations (s : LoaderState) (apply : Bool) : LoaderState :=
  { s with applyTransformations := apply }

/-- `gly_loader_set_accepted_memory_formats`. -/
def setAcceptedMemoryFormats (s : LoaderState) (selection : UInt32) : LoaderState :=
  { s with acceptedMemoryFormats := selection }

end LoaderState

def isRescalableFormat (name : String) : Bool := name == "svg"

/-- The image state `gly_loader_load` attaches to a decoded image. -/
def ImageState.new (s : LoaderState) (image : Image) : ImageState where
  inner := image
  cursor := 0
  frameCount := imageFrameCount image
  rerender := s.sourceBytes.bind fun bytes =>
    if isRescalableFormat ((imageFormatName image).getD "") then
      some ⟨bytes, s.limits, s.applyTransformations, s.acceptedMemoryFormats⟩
    else none

/-- `gly_loader_load`. -/
def LoaderState.load (host : Host) (s : LoaderState) :
    Checked (LoaderState × Except GError ImageState) := do
  match s.inner with
  | none => return (s, .error (.new 0 "loader already consumed"))
  | some inner =>
    let loader := s.limits.apply (loaderApplyTransformations inner s.applyTransformations)
    match ← loaderLoad host loader with
    | .error message =>
      return ({ s with inner := none }, .error (.new 0 ("gly_loader_load: " ++ message)))
    | .ok image => return ({ s with inner := none }, .ok (.new s image))

/-- A loaded image is at its first frame, knows how many there are, and keeps
what it needs to be rendered again when it is an SVG. -/
theorem LoaderState.load_ok {host : Host} {s s' : LoaderState} {img : ImageState}
    (h : s.load host = .ok (s', .ok img)) : ∃ image, img = .new s image := by
  rw [LoaderState.load] at h
  cases hinner : s.inner with
  | none =>
    rw [hinner] at h
    cases h
  | some inner =>
    rw [hinner] at h
    obtain ⟨answer, -, h⟩ := bind_eq_ok.mp h
    cases answer with
    | error message => cases h
    | ok image =>
      cases h
      exact ⟨image, rfl⟩

/-! ## The cursor -/

namespace ImageState

/-- `ImageState::advance`: the index of the next frame, and the state after it. -/
def advance (img : ImageState) (loopAnimation : Bool) : Option Nat × ImageState :=
  if img.frameCount = 0 then (none, img)
  else if img.cursor ≥ img.frameCount then
    if loopAnimation then (some 0, { img with cursor := 1 }) else (none, img)
  else (some img.cursor, { img with cursor := img.cursor + 1 })

theorem advance_of_lt {img : ImageState} (h : img.cursor < img.frameCount) (loopAnimation : Bool) :
    img.advance loopAnimation = (some img.cursor, { img with cursor := img.cursor + 1 }) := by
  rw [advance, if_neg (by omega), if_neg (by omega)]

theorem advance_of_le {img : ImageState} (h : img.frameCount ≤ img.cursor) :
    img.advance false = (none, img) := by
  rw [advance]
  split
  · rfl
  · rfl

theorem advance_none {img img' : ImageState} {loopAnimation : Bool}
    (h : img.advance loopAnimation = (none, img')) : img' = img := by
  rw [advance] at h
  split_ifs at h <;> cases h <;> rfl

/-- The cursor is all that moves, and it stays within the frames. -/
theorem advance_some {img img' : ImageState} {loopAnimation : Bool} {idx : Nat}
    (h : img.advance loopAnimation = (some idx, img')) :
    idx < img.frameCount ∧ img' = { img with cursor := idx + 1 } := by
  rw [advance] at h
  split_ifs at h with hcount hcursor hloop
  · cases h
  · cases h
    exact ⟨Nat.pos_of_ne_zero hcount, rfl⟩
  · cases h
  · cases h
    exact ⟨Nat.not_le.mp hcursor, rfl⟩

end ImageState

end GlycinNg.Shim
