import GlycinNg.Shim.Pixels

/-! # To RGBA and back

The sampler and the emitter against each other: a pixel of a format both know is read and
written back byte for byte (`transcode_self`), so a frame that goes through R8G8B8A8 comes
back as it was, less its padding (`convertLayout_roundtrip`). -/
namespace GlycinNg.Shim
open Rust CApi Raster

/-! ## One pixel -/

/-- The weights add up to 100, so grey keeps its value. -/
theorem luma_grey (g a : UInt8) : luma ⟨g, g, g, a⟩ = g := by
  have hsum : 30 * g.toNat + 59 * g.toNat + 11 * g.toNat = g.toNat * 100 := by omega
  rw [luma]
  dsimp only
  rw [hsum, Nat.mul_div_cancel _ (by decide), UInt8.ofNat_toNat]

theorem emitted_subset_eightBit {format : UInt32} (h : format ∈ emitted) : format ∈ eightBit := by
  have hall : emitted.all (fun f => decide (f ∈ eightBit)) = true := by decide
  simpa using List.all_eq_true.mp hall format h

/-- What is read of a pixel is written back as it was. -/
theorem transcode_self {format : UInt32} {p : Bytes} (hformat : format ∈ emitted)
    (hlen : p.length = bytesPerPixelNg format) : transcode format format p = p := by
  simp only [emitted, List.mem_cons, List.not_mem_nil, or_false] at hformat
  rcases hformat with rfl | rfl | rfl | rfl | rfl | rfl | rfl | rfl
  case inr.inr.inr.inr.inr.inr.inl =>
    obtain ⟨g, a, rfl⟩ := List.length_eq_two.mp hlen
    exact congrArg (fun y => [y, a]) (luma_grey g a)
  case inr.inr.inr.inr.inr.inr.inr =>
    obtain ⟨g, rfl⟩ := List.length_eq_one_iff.mp hlen
    exact congrArg (fun y => [y]) (luma_grey g 255)
  case inr.inr.inr.inr.inl | inr.inr.inr.inr.inr.inl =>
    obtain ⟨r, g, b, rfl⟩ := List.length_eq_three.mp hlen
    rfl
  all_goals
    obtain ⟨r, g, b, a, rfl⟩ := List.length_eq_four.mp hlen
    rfl

/-- R8G8B8A8 keeps every colour. -/
theorem rgba_emitPixel (px : Rgba) : rgba formatR8g8b8a8 (emitPixel formatR8g8b8a8 px) = px := rfl

/-- A pixel goes through R8G8B8A8 and back. -/
theorem transcode_transcode {format : UInt32} {p : Bytes} (hformat : format ∈ emitted)
    (hlen : p.length = bytesPerPixelNg format) :
    transcode formatR8g8b8a8 format (transcode format formatR8g8b8a8 p) = p :=
  calc transcode formatR8g8b8a8 format (transcode format formatR8g8b8a8 p)
      = transcode format format p := by
        simp only [transcode, rgba_emitPixel]
    _ = p := transcode_self hformat hlen

/-! ## Whole frames -/

namespace RawFrame

/-- The frame without its padding. -/
def repacked (f : RawFrame) : RawFrame where
  width := f.width
  height := f.height
  stride := UInt32.ofNat (f.width.toNat * bytesPerPixelNg f.format)
  format := f.format
  data := pack f.width.toNat f.height.toNat f.pixel
  delayMs := f.delayMs

/-- Its pixels are where a stride without padding puts them. -/
theorem pixel_repacked {f : RawFrame} (hcomplete : f.Complete)
    (hsmall : f.width.toNat * bytesPerPixelNg f.format < 2 ^ 32) {x y : Nat}
    (hx : x < f.width.toNat) (hy : y < f.height.toNat) : f.repacked.pixel x y = f.pixel x y := by
  have hstride : f.repacked.stride.toNat = f.width.toNat * bytesPerPixelNg f.format := by
    rw [repacked, UInt32.toNat_ofNat', Nat.mod_eq_of_lt hsmall]
  rw [pixel, hstride]
  apply pixel_pack ?_ hx hy
  intro x hx y hy
  exact hcomplete.length_pixel hx hy

/-- Converted and converted back. -/
theorem converted_converted {f : RawFrame} (hformat : f.format ∈ emitted)
    (hcomplete : f.Complete) (hwidth : f.width.toNat * 4 < 2 ^ 32) :
    (f.converted formatR8g8b8a8).converted f.format = f.repacked := by
  have hstride : (f.converted formatR8g8b8a8).stride.toNat = f.width.toNat * 4 :=
    converted_stride hwidth
  have hdata : ((f.converted formatR8g8b8a8).converted f.format).data = f.repacked.data :=
    calc ((f.converted formatR8g8b8a8).converted f.format).data
        = remap 4 (f.width.toNat * 4) f.width.toNat f.height.toNat
            (transcode formatR8g8b8a8 f.format)
            (remap (bytesPerPixelNg f.format) f.stride.toNat f.width.toNat f.height.toNat
              (transcode f.format formatR8g8b8a8) f.data) := by
          rw [← hstride]
          rfl
      _ = remap (bytesPerPixelNg f.format) f.stride.toNat f.width.toNat f.height.toNat
            (transcode formatR8g8b8a8 f.format ∘ transcode f.format formatR8g8b8a8) f.data := by
          apply remap_remap ?_ hcomplete.holds
          intro p _
          exact length_transcode (.inr rfl) f.format p
      _ = f.repacked.data := by
          apply pack_congr
          intro x hx y hy
          exact transcode_transcode hformat (hcomplete.length_pixel hx hy)
  show (⟨_, _, _, _, ((f.converted formatR8g8b8a8).converted f.format).data, _⟩ : RawFrame) = _
  rw [hdata]
  rfl

end RawFrame

/-- Through R8G8B8A8 and back a frame loses its padding and nothing else. -/
theorem convertLayout_roundtrip (f : RawFrame) (hformat : f.format ∈ emitted)
    (hcomplete : f.Complete) (hwidth : f.width.toNat * 4 ≤ 2 ^ 32 - 1) :
    ∃ rgba, convertLayout f formatR8g8b8a8 = .ok (some rgba) ∧
      convertLayout rgba f.format = .ok (some f.repacked) := by
  have hsmall : f.width.toNat * 4 < 2 ^ 32 := by omega
  have hread := emitted_subset_eightBit hformat
  have hbpp : bytesPerPixelNg f.format ≠ 0 := bytesPerPixelNg_ne_of_emitted hformat
  have hrgba : bytesPerPixelNg formatR8g8b8a8 ≠ 0 := by decide
  refine ⟨f.converted formatR8g8b8a8,
    convertLayout_eq_converted hcomplete (.inl hread) hbpp hrgba, ?_⟩
  have hback : (f.converted formatR8g8b8a8).Readable :=
    .inl (show formatR8g8b8a8 ∈ eightBit by decide)
  rw [← RawFrame.converted_converted hformat hcomplete hsmall]
  exact convertLayout_eq_converted (converted_complete hcomplete (.inr rfl) hsmall) hback hrgba hbpp

/-- Two grey pixels in rows of three bytes. -/
theorem convertLayout_roundtrip_grey :
    ∃ rgba, convertLayout ⟨1, 2, 3, formatG8, [7, 0, 0, 9], 40⟩ formatR8g8b8a8 =
        .ok (some rgba) ∧
      convertLayout rgba formatG8 = .ok (some ⟨1, 2, 1, formatG8, [7, 9], 40⟩) :=
  convertLayout_roundtrip ⟨1, 2, 3, formatG8, [7, 0, 0, 9], 40⟩ (by decide)
    ⟨by decide, holds_iff.mpr (.inr (by decide))⟩ (by decide)

end GlycinNg.Shim
