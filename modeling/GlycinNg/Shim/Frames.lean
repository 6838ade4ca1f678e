import GlycinNg.Shim.State

/-! # Frames of the shim

`gly_image_get_specific_frame` in `lib.rs`. A frame comes from the cached image
or, for an SVG asked for at another size, from a new decode. `engineFrame` is
the same call without the conversion at its end; `specificFrame_eq` says that
the shim converts what it returns, with the mask the image state has kept. -/
namespace GlycinNg.Shim
open Rust CApi

/-- The frame of the engine at an index, in the format of the engine. -/
def rawFrame (image : Image) (index : Nat) : Option RawFrame :=
  (imageTexture image index).map fun texture => {
    width := texture.width
    height := texture.height
    stride := texture.stride
    format := textureFormat texture
    data := texture.data
    delayMs := imageFrameDelayMs image index }

/-- A frame of the engine has passed the checks of its texture. -/
theorem rawFrame_valid {image : Image} {index : Nat} {raw : RawFrame}
    (h : rawFrame image index = some raw) : raw.Valid := by
  obtain ⟨t, -, rfl⟩ := Option.map_eq_some_iff.mp h
  have hbpp := bytesPerPixelNg_memoryFormatToCUint t.format
  refine ⟨?_, ?_, t.data_length⟩
  · rw [textureFormat, hbpp]
    exact Nat.ne_of_gt t.format.bytesPerPixel_pos
  · rw [textureFormat, hbpp]
    exact t.row_le

/-- Every frame of the engine can be asked for by its index. -/
theorem exists_rawFrame {image : Image} {f : Frame} (hf : f ∈ image.frames) :
    ∃ index raw, rawFrame image index = some raw ∧
      raw.format = memoryFormatToCUint f.texture.format ∧ raw.width = f.width ∧
      raw.height = f.height := by
  obtain ⟨index, hindex⟩ := List.getElem?_of_mem hf
  have htexture : imageTexture image index = some f.texture := by
    rw [imageTexture, hindex]
    rfl
  exact ⟨index, _, Option.map_eq_some_iff.mpr ⟨_, htexture, rfl⟩, rfl, rfl, rfl⟩

/-- `extract_frame`. -/
def extractFrame (image : Image) (index : Nat) (accepted : UInt32) :
    Checked (Option RawFrame) := do
  match rawFrame image index with
  | none => return none
  | some raw => return some (← maybeConvert raw accepted)

theorem extractFrame_some {image : Image} {index : Nat} {raw : RawFrame}
    (h : rawFrame image index = some raw) (accepted : UInt32) :
    extractFrame image index accepted = do return some (← maybeConvert raw accepted) := by
  simp only [extractFrame, h]

theorem extractFrame_none {image : Image} {index : Nat} (h : rawFrame image index = none)
    (accepted : UInt32) : extractFrame image index accepted = .ok none := by
  simp only [extractFrame, h]
  rfl

/-- The loader of a new decode at the given size. -/
def Rerender.loader (r : Rerender) (sw sh : UInt32) : Loader :=
  let loader := loaderNewBytes r.sourceBytes
  let loader := loaderApplyTransformations loader r.applyTransformations
  let loader := loaderRenderSizeHint loader sw sh
  r.limits.apply loader

namespace ImageState

/-- The mask the image state has kept; 0, which accepts everything, unless the
image can be rendered again. -/
def accepted (img : ImageState) : UInt32 := img.rerender.elim 0 (·.acceptedMemoryFormats)

/-- The size at which the image is to be rendered again, if it is. -/
def rerenderSize (img : ImageState) (request : Option FrameRequest) :
    Option (Rerender × UInt32 × UInt32) :=
  match img.rerender, request.bind FrameRequest.scale with
  | some rerender, some (sw, sh) =>
    if sw > 0 ∧ sh > 0 ∧ (sw ≠ img.inner.width ∨ sh ≠ img.inner.height) then
      some (rerender, sw, sh)
    else none
  | _, _ => none

/-- The image of the new decode; `none` where it fails. -/
def rerendered (host : Host) (img : ImageState) (request : Option FrameRequest) :
    Checked (Option Image) := do
  match img.rerenderSize request with
  | none => return none
  | some (rerender, sw, sh) =>
    match ← loaderLoad host (rerender.loader sw sh) with
    | .ok newImage => return some newImage
    | .error _ => return none

/-- The cached path of `gly_image_get_specific_frame`. -/
def cachedFrame (img : ImageState) (loopAnimation : Bool) :
    Checked (ImageState × Except GError FrameState) := do
  match img.advance loopAnimation with
  | (none, img) => return (img, .error (.new 2 "no more frames"))
  | (some idx, img') =>
    match ← extractFrame img.inner idx img.accepted with
    | none => return (img', .error (.new 0 "frame extraction failed"))
    | some raw => return (img', .ok ⟨raw, img.inner.cicp⟩)

/-- `gly_image_get_specific_frame`; a request of NULL is `none`. -/
def specificFrame (host : Host) (img : ImageState) (request : Option FrameRequest) :
    Checked (ImageState × Except GError FrameState) := do
  let loopAnimation := (request.map FrameRequest.loopAnimation).getD true
  match ← img.rerendered host request with
  | none => img.cachedFrame loopAnimation
  | some newImage =>
    match ← extractFrame newImage 0 img.accepted with
    | some raw => return (img, .ok ⟨raw, newImage.cicp⟩)
    | none => img.cachedFrame loopAnimation

/-- `gly_image_next_frame`. -/
def nextFrame (host : Host) (img : ImageState) :
    Checked (ImageState × Except GError FrameState) :=
  img.specificFrame host none

/-! ## The frame before conversion -/

/-- The cached path without the conversion. -/
def cachedRaw (img : ImageState) (loopAnimation : Bool) : ImageState × Except GError FrameState :=
  match img.advance loopAnimation with
  | (none, img) => (img, .error (.new 2 "no more frames"))
  | (some idx, img') =>
    match rawFrame img.inner idx with
    | none => (img', .error (.new 0 "frame extraction failed"))
    | some raw => (img', .ok ⟨raw, img.inner.cicp⟩)

/-- The cached path answers with a frame, finds no texture at the index, or has
no index left; only the cursor moves. -/
theorem cachedRaw_cases (img : ImageState) (loopAnimation : Bool) :
    (∃ idx raw, idx < img.frameCount ∧ rawFrame img.inner idx = some raw ∧
        img.cachedRaw loopAnimation =
          ({ img with cursor := idx + 1 }, .ok ⟨raw, img.inner.cicp⟩)) ∨
      (∃ idx, idx < img.frameCount ∧ rawFrame img.inner idx = none ∧
        img.cachedRaw loopAnimation =
          ({ img with cursor := idx + 1 }, .error (.new 0 "frame extraction failed"))) ∨
      img.cachedRaw loopAnimation = (img, .error (.new 2 "no more frames")) := by
  rw [cachedRaw]
  rcases hadvance : img.advance loopAnimation with ⟨next, img'⟩
  cases next with
  | none => exact .inr (.inr (by rw [advance_none hadvance]))
  | some idx =>
    obtain ⟨hidx, rfl⟩ := advance_some hadvance
    cases hraw : rawFrame img.inner idx with
    | none => exact .inr (.inl ⟨idx, hidx, hraw, by simp only [hraw]⟩)
    | some raw => exact .inl ⟨idx, raw, hidx, hraw, by simp only [hraw]⟩

/-- The frame at the cursor. -/
theorem cachedRaw_of_lt {img : ImageState} {raw : RawFrame} (h : img.cursor < img.frameCount)
    (hraw : rawFrame img.inner img.cursor = some raw) (loopAnimation : Bool) :
    img.cachedRaw loopAnimation =
      ({ img with cursor := img.cursor + 1 }, .ok ⟨raw, img.inner.cicp⟩) := by
  rw [cachedRaw, advance_of_lt h]
  simp only [hraw]

theorem cachedRaw_cursor_of_lt {img : ImageState} (h : img.cursor < img.frameCount)
    (loopAnimation : Bool) :
    (img.cachedRaw loopAnimation).1 = { img with cursor := img.cursor + 1 } := by
  rw [cachedRaw, advance_of_lt h]
  cases hraw : rawFrame img.inner img.cursor <;> simp only [hraw]

/-- The frame a call is about, in the format the engine decoded it to. -/
def engineFrame (host : Host) (img : ImageState) (request : Option FrameRequest) :
    Checked (ImageState × Except GError FrameState) := do
  let loopAnimation := (request.map FrameRequest.loopAnimation).getD true
  let rerendered ← img.rerendered host request
  match rerendered.bind fun newImage => (rawFrame newImage 0).map (⟨·, newImage.cicp⟩) with
  | none => return img.cachedRaw loopAnimation
  | some frame => return (img, .ok frame)

end ImageState

/-- The conversion of what a call returns. -/
def converted (mask : UInt32) (answer : Except GError FrameState) :
    Checked (Except GError FrameState) := do
  match answer with
  | .error e => return .error e
  | .ok f => return .ok ⟨← maybeConvert f.frame mask, f.cicp⟩

namespace ImageState
variable (host : Host) (img : ImageState)

theorem cachedFrame_eq (loopAnimation : Bool) :
    img.cachedFrame loopAnimation = do
      return ((img.cachedRaw loopAnimation).1,
        ← converted img.accepted (img.cachedRaw loopAnimation).2) := by
  rw [cachedFrame, cachedRaw]
  rcases img.advance loopAnimation with ⟨idx, img'⟩
  cases idx with
  | none => rfl
  | some idx =>
    cases hraw : rawFrame img.inner idx with
    | none => simp only [extractFrame_none hraw, hraw, converted, ok_bind, pure_bind]
    | some raw => simp only [extractFrame_some hraw, hraw, converted, bind_assoc, pure_bind]

/-- A call converts the frame it is about with the mask of the image state. -/
theorem specificFrame_eq (request : Option FrameRequest) :
    img.specificFrame host request = do
      let (img', answer) ← img.engineFrame host request
      return (img', ← converted img.accepted answer) := by
  rw [specificFrame, engineFrame]
  cases hre : img.rerendered host request with
  | error p => rfl
  | ok rerendered =>
    simp only [ok_bind, cachedFrame_eq]
    cases rerendered with
    | none => rfl
    | some newImage =>
      cases hraw : rawFrame newImage 0 with
      | none =>
        simp only [extractFrame_none hraw, Option.bind_some, hraw, Option.map_none, ok_bind,
          pure_bind]
      | some raw =>
        simp only [extractFrame_some hraw, Option.bind_some, hraw, Option.map_some, converted,
          bind_assoc, pure_bind]

end ImageState

/-! ## Sequences of calls -/

/-- One call: its request, and what the world answers should it decode again. -/
structure Call where
  host : Host
  request : Option FrameRequest

namespace ImageState

/-- What the shim answers to a sequence of calls on one image. -/
def frames (img : ImageState) (calls : List Call) :
    Checked (ImageState × List (Except GError FrameState)) :=
  replay (fun img c => img.specificFrame c.host c.request) img calls

/-- The frames the calls are about. -/
def engineFrames (img : ImageState) (calls : List Call) :
    Checked (ImageState × List (Except GError FrameState)) :=
  replay (fun img c => img.engineFrame c.host c.request) img calls

end ImageState

end GlycinNg.Shim
