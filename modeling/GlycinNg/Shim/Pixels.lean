import GlycinNg.Raster.Strided
import GlycinNg.Shim.Convert

/-! # What a conversion does to the pixels

`convert_layout` as one pass over a strided raster: each pixel is read as RGBA and written
in the target format, and nothing else of the buffer is looked at. -/
namespace GlycinNg.Shim
open Rust CApi Raster

/-! ## One pixel -/

/-- The formats `emit_pixel` has a branch for. -/
def emitted : List UInt32 :=
  [formatR8g8b8a8, formatB8g8r8a8, formatA8r8g8b8, formatA8b8g8r8, formatR8g8b8, formatB8g8r8,
    formatG8a8, formatG8]

theorem bytesPerPixelNg_ne_of_eightBit {format : UInt32} (h : format ∈ eightBit) :
    bytesPerPixelNg format ≠ 0 := by
  have hall : eightBit.all (fun f => bytesPerPixelNg f != 0) = true := by decide
  simpa using List.all_eq_true.mp hall format h

theorem bytesPerPixelNg_ne_of_emitted {format : UInt32} (h : format ∈ emitted) :
    bytesPerPixelNg format ≠ 0 := by
  have hall : emitted.all (fun f => bytesPerPixelNg f != 0) = true := by decide
  simpa using List.all_eq_true.mp hall format h

/-- What is read of a pixel in a format of 8 bits. -/
def rgba (format : UInt32) (p : Bytes) : Rgba :=
  match sampleRgba8 format p with
  | .ok (some px) => px
  | _ => ⟨0, 0, 0, 0⟩

/-- A pixel in another format. -/
def transcode (format target : UInt32) (p : Bytes) : Bytes := emitPixel target (rgba format p)

theorem sampleRgba8_eq_rgba {format : UInt32} {p : Bytes} (hformat : format ∈ eightBit)
    (hlen : p.length = bytesPerPixelNg format) :
    sampleRgba8 format p = .ok (some (rgba format p)) := by
  obtain ⟨px, hpx, hsome⟩ := sampleRgba8_returns hlen
  obtain ⟨px, rfl⟩ := Option.isSome_iff_exists.mp (hsome.mpr hformat)
  rw [rgba, hpx]

/-- The branches write as many bytes as the format has; the last branch writes four. -/
theorem length_emitPixel {target : UInt32} (h : target ∈ emitted ∨ bytesPerPixelNg target = 4)
    (px : Rgba) : (emitPixel target px).length = bytesPerPixelNg target := by
  rcases h with h | h
  · simp only [emitted, List.mem_cons, List.not_mem_nil, or_false] at h
    rcases h with rfl | rfl | rfl | rfl | rfl | rfl | rfl | rfl <;> rfl
  · unfold emitPixel
    split
    case h_9 => exact h.symm
    all_goals rfl

/-! ## All pixels -/

namespace RawFrame

/-- The bytes of the pixel at `(x, y)`. -/
def pixel (f : RawFrame) (x y : Nat) : Bytes :=
  Raster.pixel (bytesPerPixelNg f.format) f.stride.toNat f.data x y

/-- The stride holds a row and the buffer all rows; the last one needs no padding. -/
structure Complete (f : RawFrame) : Prop where
  row_le : f.width.toNat * bytesPerPixelNg f.format ≤ f.stride.toNat
  holds : Holds (bytesPerPixelNg f.format) f.stride.toNat f.width.toNat f.height.toNat f.data

/-- The format can be read, or there is nothing to read. -/
def Readable (f : RawFrame) : Prop :=
  f.format ∈ eightBit ∨ f.width.toNat = 0 ∨ f.height.toNat = 0

/-- The frame with every pixel in the target format, and no padding. -/
def converted (f : RawFrame) (target : UInt32) : RawFrame where
  width := f.width
  height := f.height
  stride := UInt32.ofNat (f.width.toNat * bytesPerPixelNg target)
  format := target
  data := remap (bytesPerPixelNg f.format) f.stride.toNat f.width.toNat f.height.toNat
    (transcode f.format target) f.data
  delayMs := f.delayMs

theorem Complete.length_pixel {f : RawFrame} (h : f.Complete) {x y : Nat}
    (hx : x < f.width.toNat) (hy : y < f.height.toNat) :
    (f.pixel x y).length = bytesPerPixelNg f.format :=
  Raster.length_pixel h.holds hx hy

end RawFrame

/-- The pixels of a row from `x` on. -/
theorem convertRow_eq_flatMap (target : UInt32) {format : UInt32} {row : Bytes} {width n x : Nat}
    (hrow : row.length = width * bytesPerPixelNg format) (hx : x + n = width)
    (hread : format ∈ eightBit ∨ n = 0) :
    convertRow format target row n x = .ok (some ((List.range' x n).flatMap fun i =>
      transcode format target (cell (bytesPerPixelNg format) row i))) := by
  induction n generalizing x with
  | zero => rfl
  | succ n ih =>
    have hformat := hread.resolve_right (Nat.succ_ne_zero n)
    have hend : x * bytesPerPixelNg format + bytesPerPixelNg format ≤ row.length := by
      rw [hrow]
      exact cell_end_le (by omega)
    rw [convertRow, slice_window hend, ok_bind, ← cell,
      sampleRgba8_eq_rgba hformat (length_cell hend), ok_bind]
    dsimp only
    rw [ih (by omega) (.inl hformat), ok_bind]
    rfl

/-- The rows from `y` on. -/
theorem convertRows_eq_flatMap (target : UInt32) {src : RawFrame} (hcomplete : src.Complete)
    {n y : Nat} (hy : y + n ≤ src.height.toNat)
    (hread : src.format ∈ eightBit ∨ src.width.toNat = 0 ∨ n = 0) :
    convertRows src target n y = .ok (some ((List.range' y n).flatMap fun j =>
      (List.range src.width.toNat).flatMap fun i =>
        transcode src.format target (src.pixel i j))) := by
  induction n generalizing y with
  | zero => rfl
  | succ n ih =>
    have hread : src.format ∈ eightBit ∨ src.width.toNat = 0 := by
      rcases hread with h | h | h
      · exact .inl h
      · exact .inr h
      · cases h
    have hrow := hcomplete.row_le
    have hend := hcomplete.holds y (by omega)
    have hnext := src.nextRow_lt (y := y) (by omega)
    have hpixels : (List.range' 0 src.width.toNat).flatMap (fun i => transcode src.format target
        (cell (bytesPerPixelNg src.format) ((src.data.drop (y * src.stride.toNat)).take
          (src.width.toNat * bytesPerPixelNg src.format)) i)) =
        (List.range src.width.toNat).flatMap fun i =>
          transcode src.format target (src.pixel i y) := by
      rw [← List.range_eq_range']
      apply List.flatMap_congr
      intro i hi
      rw [cell_row (List.mem_range.mp hi)]
      rfl
    rw [convertRows, usizeMul_ok (by omega), ok_bind, usizeAdd_ok (by omega), ok_bind,
      getRange_window hend]
    dsimp only
    rw [convertRow_eq_flatMap target (length_window hend) (Nat.zero_add _) hread, ok_bind, hpixels]
    dsimp only
    rw [ih (by omega) (hread.imp id .inl), ok_bind]
    rfl

/-- A complete frame that can be read is converted. -/
theorem convertLayout_eq_converted {src : RawFrame} {target : UInt32}
    (hcomplete : src.Complete) (hread : src.Readable) (hsrc : bytesPerPixelNg src.format ≠ 0)
    (htarget : bytesPerPixelNg target ≠ 0) :
    convertLayout src target = .ok (some (src.converted target)) := by
  rw [convertLayout, if_neg (not_or.mpr ⟨hsrc, htarget⟩),
    if_neg (Nat.not_lt.mpr hcomplete.row_le),
    convertRows_eq_flatMap target hcomplete (Nat.le_of_eq (Nat.zero_add _)) hread, ok_bind,
    ← List.range_eq_range']
  rfl

/-! ## Converted frames -/

section
variable {f : RawFrame} {target : UInt32}

theorem length_transcode (htarget : target ∈ emitted ∨ bytesPerPixelNg target = 4)
    (format : UInt32) (p : Bytes) : (transcode format target p).length = bytesPerPixelNg target :=
  length_emitPixel htarget _

/-- The stride is exact where it fits 32 bits. -/
theorem converted_stride (hsmall : f.width.toNat * bytesPerPixelNg target < 2 ^ 32) :
    (f.converted target).stride.toNat = f.width.toNat * bytesPerPixelNg target := by
  rw [RawFrame.converted, UInt32.toNat_ofNat', Nat.mod_eq_of_lt hsmall]

theorem converted_data_length (hcomplete : f.Complete)
    (htarget : target ∈ emitted ∨ bytesPerPixelNg target = 4)
    (hsmall : f.width.toNat * bytesPerPixelNg target < 2 ^ 32) :
    (f.converted target).data.length =
      (f.converted target).stride.toNat * (f.converted target).height.toNat := by
  rw [converted_stride hsmall, Nat.mul_comm (f.width.toNat * bytesPerPixelNg target)]
  apply length_remap ?_ hcomplete.holds
  intro p _
  exact length_transcode htarget f.format p

theorem converted_complete (hcomplete : f.Complete)
    (htarget : target ∈ emitted ∨ bytesPerPixelNg target = 4)
    (hsmall : f.width.toNat * bytesPerPixelNg target < 2 ^ 32) :
    (f.converted target).Complete where
  row_le := Nat.le_of_eq (converted_stride hsmall).symm
  holds := by
    have hlen := converted_data_length hcomplete htarget hsmall
    rw [converted_stride hsmall] at hlen ⊢
    apply holds_packed
    rw [hlen, Nat.mul_comm]
    rfl

/-- Each pixel is the pixel that was there, in the target format. -/
theorem pixel_converted (hcomplete : f.Complete)
    (htarget : target ∈ emitted ∨ bytesPerPixelNg target = 4)
    (hsmall : f.width.toNat * bytesPerPixelNg target < 2 ^ 32) {x y : Nat}
    (hx : x < f.width.toNat) (hy : y < f.height.toNat) :
    (f.converted target).pixel x y = transcode f.format target (f.pixel x y) := by
  rw [RawFrame.pixel, converted_stride hsmall]
  apply pixel_remap ?_ hcomplete.holds hx hy
  intro p _
  exact length_transcode htarget f.format p

/-- Frames of one size and format with the same pixels are converted alike, whatever
their strides and padding. -/
theorem converted_congr {g : RawFrame} (hwidth : f.width = g.width) (hheight : f.height = g.height)
    (hformat : f.format = g.format) (hdelay : f.delayMs = g.delayMs)
    (hpixels : ∀ x < f.width.toNat, ∀ y < f.height.toNat, f.pixel x y = g.pixel x y) :
    f.converted target = g.converted target := by
  have hdata : (f.converted target).data = (g.converted target).data := by
    simp only [RawFrame.converted, ← hwidth, ← hheight, ← hformat]
    apply remap_congr
    intro x hx y hy
    have hpixel := hpixels x hx y hy
    rw [RawFrame.pixel, RawFrame.pixel, ← hformat] at hpixel
    rw [hpixel]
  simp only [RawFrame.converted, RawFrame.mk.injEq] at hdata ⊢
  rw [hwidth]
  exact ⟨rfl, hheight, rfl, trivial, hwidth ▸ hdata, hdelay⟩

end

end GlycinNg.Shim
