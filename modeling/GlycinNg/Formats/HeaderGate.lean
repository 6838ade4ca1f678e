import GlycinNg.Formats

/-! # The header gate

`Limits` promises an inspection of the header before the decode. A decoder keeps
the promise when a header over a limit makes it return `LimitExceeded` with
nothing but header reads in its log. `header_gate_iff` says which do: some by their own
check, and those over the `image` crate only where that crate's own limits refuse. -/
namespace GlycinNg
open Rust

/-- The dimensions a header announces, and the number of frames where it says. -/
structure Header where
  width : UInt32
  height : UInt32
  frames : Nat

/-- The four caps on a header, computed without bound. -/
def Header.Within (header : Header) (l : Limits) : Prop :=
  header.width ≤ l.maxWidth ∧ header.height ≤ l.maxHeight ∧
    header.frames ≤ l.maxFrames.toNat ∧
    header.width.toNat * header.height.toNat * header.frames ≤ l.maxPixels.toNat

theorem Header.within_iff {l : Limits} {width height frames : UInt32} :
    Header.Within ⟨width, height, frames.toNat⟩ l ↔ l.Fits width height frames := by
  rw [Header.Within, Limits.Fits, UInt32.le_iff_toNat_le (b := l.maxFrames)]

def Jxl.JxlImage.header (jxl : Jxl.JxlImage) : Header :=
  ⟨jxl.width, jxl.height, max jxl.numLoadedKeyframes.toNat 1⟩

def ImageRs.Decoder.header (decoder : ImageRs.Decoder) : Header :=
  ⟨decoder.dimensions.1, decoder.dimensions.2, 1⟩

namespace Codecs
variable (c : Codecs) (format : KnownFormat) (bytes : Bytes) (opts : DecodeOptions)

/-- The header of an input, where it can be read. A GIF does not announce how
many frames follow; an SVG has the size it is about to be rendered at. -/
def header : Option Header :=
  match format with
  | .png => (c.png (memoryLimit opts) bytes).toOption.map fun r =>
      ⟨r.width, r.height, r.frameCount.toNat⟩
  | .jpeg => (c.jpeg bytes).info.map fun info =>
      ⟨info.width.toUInt32, info.height.toUInt32, 1⟩
  | .gif => (c.gif (max (memoryLimit opts) 1) bytes).toOption.map fun decoder =>
      ⟨decoder.width.toUInt32, decoder.height.toUInt32, 1⟩
  | .webP => (c.webP bytes).toOption.map fun decoder =>
      ⟨decoder.width, decoder.height, decoder.frameCount.toNat⟩
  | .tiff => (c.tiff bytes).toOption.bind fun decoder =>
      decoder.dimensions.toOption.map fun size => ⟨size.1, size.2, 1⟩
  | .qoi => (c.qoi bytes).header.toOption.map fun header => ⟨header.width, header.height, 1⟩
  | .jxl => (c.jxl bytes).toOption.map (·.header)
  | .svg => (c.svg.tree bytes).toOption.map fun tree =>
      ⟨(tree.size opts).1, (tree.size opts).2, 1⟩
  | .bmp => (c.imageRs .bmp bytes).toOption.map (·.header)
  | .ico => (c.imageRs .ico bytes).toOption.map (·.header)
  | .tga => (c.imageRs .tga bytes).toOption.map (·.header)
  | .exr => (c.imageRs .openExr bytes).toOption.map (·.header)
  | .pnm => (c.imageRs .pnm bytes).toOption.map (·.header)
  | .dds => (c.imageRs .dds bytes).toOption.map (·.header)

/-- Where a header over a limit is caught in time: the format reads its header
apart, and for JPEG XL the number of keyframes modulo `2^32` is over a limit
too, or the size of the buffer overflows in an accepted pixel format. The formats
of the `image` crate have only the limits of that crate. -/
def HeaderFirst : Prop :=
  match format with
  | .png | .webP | .tiff | .svg => True
  | .jxl => ∀ jxl, c.jxl bytes = .ok jxl →
      ¬ opts.limits.Fits jxl.width jxl.height jxl.numKeyframes ∨
        (∃ pixelFormat, Jxl.mapFormat jxl.pixelFormat = .ok pixelFormat) ∧
          usizeValues ≤ jxl.pixelCount * 4
  | .bmp => ∀ decoder, c.imageRs .bmp bytes = .ok decoder → decoder.OverLimits
  | .ico => ∀ decoder, c.imageRs .ico bytes = .ok decoder → decoder.OverLimits
  | .tga => ∀ decoder, c.imageRs .tga bytes = .ok decoder → decoder.OverLimits
  | .exr => ∀ decoder, c.imageRs .openExr bytes = .ok decoder → decoder.OverLimits
  | .pnm => ∀ decoder, c.imageRs .pnm bytes = .ok decoder → decoder.OverLimits
  | .dds => ∀ decoder, c.imageRs .dds bytes = .ok decoder → decoder.OverLimits
  | .jpeg | .gif | .qoi => False

end Codecs

/-- For a header over a limit, the decoder returns `LimitExceeded` before it
expands any pixel exactly where `HeaderFirst` holds. -/
theorem header_gate_iff (c : Codecs) (format : KnownFormat) (bytes : Bytes)
    (opts : DecodeOptions) (header : Header) (hheader : c.header format bytes opts = some header)
    (hover : ¬ header.Within opts.limits) :
    Gated (dispatch c format bytes opts) ↔ c.HeaderFirst format bytes opts := by
  cases format with
  | png =>
    obtain ⟨r, hr, rfl⟩ := Option.map_eq_some_iff.mp hheader
    rw [Header.within_iff] at hover
    exact iff_of_true (Png.decode_gated (toOption_eq_some.mp hr) hover) trivial
  | webP =>
    obtain ⟨decoder, hdecoder, rfl⟩ := Option.map_eq_some_iff.mp hheader
    rw [Header.within_iff] at hover
    exact iff_of_true (WebP.decode_gated (toOption_eq_some.mp hdecoder) hover) trivial
  | tiff =>
    obtain ⟨decoder, hdecoder, h⟩ := Option.bind_eq_some_iff.mp hheader
    obtain ⟨size, hsize, rfl⟩ := Option.map_eq_some_iff.mp h
    have hover : ¬ opts.limits.Fits size.1 size.2 1 := by
      intro hfits
      exact hover (Header.within_iff.mpr hfits)
    exact iff_of_true
      (Tiff.decode_gated (toOption_eq_some.mp hdecoder) (toOption_eq_some.mp hsize) hover) trivial
  | svg =>
    obtain ⟨tree, htree, rfl⟩ := Option.map_eq_some_iff.mp hheader
    have hover : ¬ opts.limits.Fits (tree.size opts).1 (tree.size opts).2 1 := by
      intro hfits
      exact hover (Header.within_iff.mpr hfits)
    exact iff_of_true (Svg.decode_gated (toOption_eq_some.mp htree) hover) trivial
  | jxl =>
    obtain ⟨jxl, hjxl, -⟩ := Option.map_eq_some_iff.mp hheader
    rw [toOption_eq_some] at hjxl
    rw [dispatch, Jxl.decode_gated_iff hjxl]
    simp only [Codecs.HeaderFirst, hjxl, Except.ok.injEq, forall_eq']
  | gif =>
    obtain ⟨decoder, hdecoder, -⟩ := Option.map_eq_some_iff.mp hheader
    exact iff_of_false (Gif.decode_not_gated (toOption_eq_some.mp hdecoder)) id
  | jpeg => exact iff_of_false (Jpeg.decode_not_gated _ _ _ _) id
  | qoi => exact iff_of_false (Qoi.decode_not_gated _ _ _) id
  | bmp | ico | tga | exr | pnm | dds =>
    obtain ⟨decoder, hdecoder, -⟩ := Option.map_eq_some_iff.mp hheader
    rw [toOption_eq_some] at hdecoder
    simp only [Codecs.HeaderFirst, hdecoder, Except.ok.injEq, forall_eq']
    exact ImageRs.decodeWith_gated_iff hdecoder

/-- A QOI file of one RGB pixel. -/
def qoiPixel : Codecs :=
  { Codecs.failing with qoi := fun _ => ⟨.ok ⟨1, 1, .rgb⟩, .ok [0, 0, 0]⟩ }

/-- Limits that allow no pixel at all. -/
def noPixels : DecodeOptions :=
  { DecodeOptions.default with limits := { Limits.default with maxPixels := 0 } }

/-- The header of a BMP file of 20000 by 20000 pixels, three bytes each. -/
def largeBmp : Codecs :=
  { Codecs.failing with
    imageRs := fun _ _ => .ok ⟨(20000, 20000), 1200000000, .ok (), .error (.other "")⟩ }

/-- The one is refused too late, the other by the `image` crate before any pixel. -/
theorem header_gate_iff_qoiPixel :
    ¬ Gated (dispatch qoiPixel .qoi [] noPixels) ∧ Gated (dispatch largeBmp .bmp [] .default) := by
  have hover : ¬ Header.Within ⟨1, 1, 1⟩ noPixels.limits := fun h => absurd h.2.2.2 (by decide)
  have hlarge : ¬ Header.Within ⟨20000, 20000, 1⟩ DecodeOptions.default.limits :=
    fun h => absurd h.2.2.2 (by decide)
  refine ⟨mt (header_gate_iff qoiPixel .qoi [] noPixels _ rfl hover).mp id, ?_⟩
  refine (header_gate_iff largeBmp .bmp [] .default _ rfl hlarge).mpr fun decoder hdecoder => ?_
  obtain rfl := Except.ok.inj hdecoder
  exact .inl (by decide)

/-- The file is refused, but only after its pixels were decoded. -/
theorem qoiPixel_decoded_before_check :
    qoiPixel.header .qoi [] noPixels = some ⟨1, 1, 1⟩ ∧
      ¬ Header.Within ⟨1, 1, 1⟩ noPixels.limits ∧
      (dispatch qoiPixel .qoi [] noPixels).result = .error (.limitExceeded "max_pixels") ∧
      (dispatch qoiPixel .qoi [] noPixels).ops = [.qoiDecodeToVec] ∧
      ¬ Gated (dispatch qoiPixel .qoi [] noPixels) :=
  ⟨rfl, fun h => absurd h.2.2.2 (by decide), rfl, rfl, Qoi.decode_not_gated _ _ _⟩

end GlycinNg
