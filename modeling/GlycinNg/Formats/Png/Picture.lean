import GlycinNg.Formats.Png

/-! # A PNG file of one picture

What the decoder makes of a file that the crate reads as one picture of 8-bit RGBA pixels:
the caps on its sides decide, and what is returned shows the pixels (`decode_still`). -/
namespace GlycinNg.Png
open Rust

/-- The crate reads one picture of RGBA pixels, without animation, EXIF or code points; a colour
profile and texts may be there. -/
structure Reader.Still (r : Reader) (width height : UInt32) (pixels : Bytes) : Prop where
  colorType : r.outputColorType = (.rgba, .eight)
  width_eq : r.width = width
  height_eq : r.height = height
  animationControl : r.animationControl = none
  exifMetadata : r.exifMetadata = none
  codePoints : r.codingIndependentCodePoints = none
  bufferSize : r.outputBufferSize 0 = some pixels.length
  nextFrame : r.nextFrame 0 = .ok (⟨width, height, pixels.length⟩, pixels)
  frameControl : r.frameControl 0 = none

/-- An image of one picture without a delay, and nothing in it that would turn or tag it. -/
structure ShowsOne (img : Image) (p : Picture) : Prop where
  width : img.width = p.width
  height : img.height = p.height
  formatName : img.formatName = "png"
  exif : img.exif = none
  cicp : img.cicp = none
  frames : ∃ t : Texture, t.Shows p ∧ img.frames = [⟨t, none⟩]

section
variable {r : Reader} {width height : UInt32} {pixels : Bytes}

theorem overlay_self (pixels : Bytes) :
    (overlay pixels (List.replicate pixels.length 0)).take pixels.length = pixels := by
  simp [overlay]

theorem Reader.Still.picture_eq (h : r.Still width height pixels) (littleEndian : Bool) :
    r.picture littleEndian .r8g8b8a8 pixels.length (⟨width, height, pixels.length⟩, pixels) =
      ⟨width, height, .r8g8b8a8, pixels⟩ := by
  simp only [Reader.picture, h.colorType, overlay_self]
  rfl

theorem Reader.Still.frameCount_eq (h : r.Still width height pixels) : r.frameCount = 1 := by
  rw [Reader.frameCount, h.animationControl]
  rfl

/-- The one turn of the frame loop. -/
theorem Reader.Still.decodeFrame_eq (h : r.Still width height pixels) (littleEndian : Bool)
    {t : Texture} (ht : packTexture "png" ⟨width, height, .r8g8b8a8, pixels⟩ = .ok t) :
    (decodeFrame littleEndian r .r8g8b8a8 [] 0).result = .ok [⟨t, none⟩] := by
  rw [decodeFrame, Traced.result_lift_bind (okOr_eq_ok.mpr h.bufferSize),
    Traced.result_perform_bind h.nextFrame, h.picture_eq, Traced.result_lift_bind ht,
    h.frameControl]
  rfl

theorem extractMetadata_showsOne {img : Image} {p : Picture} (h : ShowsOne img p)
    (hr : r.codingIndependentCodePoints = none) : ShowsOne (extractMetadata img r) p := by
  rw [extractMetadata, hr]
  exact ⟨h.width, h.height, h.formatName, h.exif, h.cicp, h.frames⟩

/-- Within the caps the file is decoded to its picture. -/
theorem decode_still {png : Crate} {bytes : Bytes} {opts : DecodeOptions} (littleEndian : Bool)
    (hr : png (memoryLimit opts) bytes = .ok r) (h : r.Still width height pixels)
    (hpacked : (Picture.mk width height .r8g8b8a8 pixels).Packed)
    (hrow : (Picture.mk width height .r8g8b8a8 pixels).rowBytes ≤ u32Max)
    (hfits : opts.limits.Fits width height 1) :
    ∃ img, (decode png littleEndian bytes opts).result = .ok img ∧
      ShowsOne img ⟨width, height, .r8g8b8a8, pixels⟩ := by
  obtain ⟨t, ht⟩ := exists_packTexture "png" hpacked hrow
  have hcheck : opts.limits.checkDimensions r.width r.height r.frameCount = .ok () := by
    rw [h.width_eq, h.height_eq, h.frameCount_eq]
    exact Limits.checkDimensions_ok_iff.mpr hfits
  have hformat : mapFormat .rgba .eight = some .r8g8b8a8 := rfl
  have hframes : ((List.range r.frameCount.toNat).foldlM (decodeFrame littleEndian r .r8g8b8a8)
      []).result = .ok [⟨t, none⟩] := by
    rw [h.frameCount_eq]
    show (decodeFrame littleEndian r .r8g8b8a8 [] 0 >>= fun s => pure s).result = _
    rw [Traced.bind_of_ok (h.decodeFrame_eq littleEndian ht)]
    rfl
  have hone : ∀ icc : Option Bytes, ShowsOne
      (icc.elim (Image.fromParts "png" r.width r.height [⟨t, none⟩])
        (Image.fromParts "png" r.width r.height [⟨t, none⟩]).setIccProfile)
      ⟨width, height, .r8g8b8a8, pixels⟩ := by
    intro icc
    cases icc <;> exact ⟨h.width_eq, h.height_eq, rfl, rfl, rfl, t, packTexture_ok ht, rfl⟩
  refine ⟨_, ?_, extractMetadata_showsOne (hone r.iccProfile) h.codePoints⟩
  rw [decode, Traced.result_perform_bind hr]
  simp only [h.colorType]
  rw [Traced.result_lift_bind hcheck, Traced.result_lift_bind (okOr_eq_ok.mpr hformat),
    Traced.bind_of_ok hframes, h.exifMetadata]
  rfl

/-- Over a cap, or where the crate runs out of memory, the answer names a limit. -/
theorem decode_still_refused {png : Crate} {bytes : Bytes} {opts : DecodeOptions}
    (littleEndian : Bool) (width height : UInt32) (pixels : Bytes)
    (hr : png (memoryLimit opts) bytes = .error .limitsExceeded ∨ ∃ r,
      png (memoryLimit opts) bytes = .ok r ∧ r.Still width height pixels ∧
        ¬ opts.limits.Fits width height 1) :
    ∃ which, (decode png littleEndian bytes opts).result = .error (.limitExceeded which) := by
  rcases hr with hr | ⟨r, hr, h, hfits⟩
  · refine ⟨"png internal", ?_⟩
    rw [decode, hr]
    rfl
  · rw [← h.width_eq, ← h.height_eq, ← h.frameCount_eq] at hfits
    obtain ⟨which, hwhich⟩ := Limits.checkDimensions_error hfits
    refine ⟨which, ?_⟩
    rw [decode, Traced.result_perform_bind hr, hwhich]
    rfl

end
end GlycinNg.Png
