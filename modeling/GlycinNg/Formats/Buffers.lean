import GlycinNg.Formats

/-! # Buffers of the documented size

A decoder picks a memory format, a stride and a buffer by itself and hands them
to `Texture::from_parts`. With a codec that delivers the number of samples its
documentation gives, the three agree in every decoder but one:
`bookkeeping_error_iff`. -/
namespace GlycinNg
open Rust

namespace Codecs
variable (c : Codecs) (format : KnownFormat) (bytes : Bytes) (opts : DecodeOptions)

/-- The codec of the format succeeds on this input, in a pixel format that is
accepted and with the documented number of samples. -/
def Documented : Prop :=
  match format with
  | .png => ∃ r pixelFormat, c.png (memoryLimit opts) bytes = .ok r ∧
      Png.mapFormat r.outputColorType.1 r.outputColorType.2 = some pixelFormat ∧
      r.Documented pixelFormat
  | .jpeg => (c.jpeg bytes).Documented
  | .gif => ∃ decoder, c.gif (max (memoryLimit opts) 1) bytes = .ok decoder ∧ decoder.Documented
  | .webP => ∃ decoder, c.webP bytes = .ok decoder ∧ decoder.Documented
  | .tiff => ∃ decoder, c.tiff bytes = .ok decoder ∧ decoder.Documented c.littleEndian
  | .qoi => (c.qoi bytes).Documented
  | .jxl => ∃ jxl, c.jxl bytes = .ok jxl ∧ jxl.Documented
  | .svg => c.svg.Documented bytes opts
  | .bmp => ∃ decoder, c.imageRs .bmp bytes = .ok decoder ∧ decoder.Documented
  | .ico => ∃ decoder, c.imageRs .ico bytes = .ok decoder ∧ decoder.Documented
  | .tga => ∃ decoder, c.imageRs .tga bytes = .ok decoder ∧ decoder.Documented
  | .exr => ∃ decoder, c.imageRs .openExr bytes = .ok decoder ∧ decoder.Documented
  | .pnm => ∃ decoder, c.imageRs .pnm bytes = .ok decoder ∧ decoder.Documented
  | .dds => ∃ decoder, c.imageRs .dds bytes = .ok decoder ∧ decoder.Documented

/-- The input is a JPEG XL file of RGB pixels that is within the limits. -/
def JxlMismatch : Prop :=
  format = .jxl ∧ ∃ jxl, c.jxl bytes = .ok jxl ∧ jxl.Mismatch opts.limits

end Codecs

/-- Outside JPEG XL no decoder fails in its own bookkeeping. -/
theorem dispatch_bookkeeping {c : Codecs} {format : KnownFormat} {bytes : Bytes}
    {opts : DecodeOptions} {e : Error} (hjxl : format ≠ .jxl)
    (hdoc : c.Documented format bytes opts)
    (h : (dispatch c format bytes opts).result = .error e) : ¬ e.IsBookkeeping := by
  cases format with
  | png =>
    obtain ⟨r, pixelFormat, hr, hformat, hdoc⟩ := hdoc
    exact Png.decode_bookkeeping hr hformat hdoc h
  | jpeg => exact Jpeg.decode_bookkeeping hdoc h
  | gif =>
    obtain ⟨decoder, hdecoder, hdoc⟩ := hdoc
    exact Gif.decode_bookkeeping hdecoder hdoc h
  | webP =>
    obtain ⟨decoder, hdecoder, hdoc⟩ := hdoc
    exact WebP.decode_bookkeeping hdecoder hdoc h
  | tiff =>
    obtain ⟨decoder, hdecoder, hdoc⟩ := hdoc
    exact Tiff.decode_bookkeeping hdecoder hdoc h
  | qoi => exact Qoi.decode_bookkeeping hdoc h
  | jxl => exact absurd rfl hjxl
  | svg => exact Svg.decode_bookkeeping hdoc h
  | bmp | ico | tga | exr | pnm | dds =>
    obtain ⟨decoder, hdecoder, hdoc⟩ := hdoc
    exact ImageRs.decodeWith_bookkeeping hdecoder hdoc h

/-- With a codec that keeps to its documentation, a decode ends in a refused
texture exactly for the RGB pixels of JPEG XL. -/
theorem bookkeeping_error_iff (c : Codecs) (format : KnownFormat) (bytes : Bytes)
    (opts : DecodeOptions) (hdoc : c.Documented format bytes opts) :
    (∀ e, (dispatch c format bytes opts).result = .error e → ¬ e.IsBookkeeping) ↔
      ¬ c.JxlMismatch format bytes opts := by
  by_cases hformat : format = .jxl
  · subst hformat
    obtain ⟨jxl, hjxl, hdoc⟩ := hdoc
    have hiff : (∃ e, (dispatch c .jxl bytes opts).result = .error e ∧ e.IsBookkeeping) ↔
        jxl.Mismatch opts.limits := Jxl.decode_bookkeeping_iff hjxl hdoc
    have hmismatch : c.JxlMismatch .jxl bytes opts ↔ jxl.Mismatch opts.limits := by
      simp [Codecs.JxlMismatch, hjxl]
    rw [hmismatch, ← hiff]
    simp only [not_exists, not_and]
  · apply iff_of_true
    · intro e h
      exact dispatch_bookkeeping hformat hdoc h
    · intro ⟨hjxl, _⟩
      exact hformat hjxl

/-- A JPEG XL file of one pixel in the given format. -/
def jxlPixel (pixelFormat : Jxl.PixelFormat) (samples : List UInt32) : Codecs :=
  { Codecs.failing with
    jxl := fun _ => .ok {
      width := 1
      height := 1
      numLoadedKeyframes := 1
      pixelFormat := pixelFormat
      renderFrame := fun _ => .ok samples
      frameDuration := fun _ => none
      animation := none
      originalIcc := none } }

/-- Three samples for the pixel are what the crate documents for RGB. -/
theorem jxlPixel_documented : (jxlPixel .rgb [0, 0, 0]).Documented .jxl [] DecodeOptions.default :=
  ⟨_, rfl, ⟨⟨_, rfl⟩, fun _ _ => ⟨_, rfl, rfl⟩⟩⟩

theorem bookkeeping_error_iff_jxlPixel :
    (jxlPixel .rgb [0, 0, 0]).Documented .jxl [] DecodeOptions.default ∧
      ((∀ e, (dispatch (jxlPixel .rgb [0, 0, 0]) .jxl [] DecodeOptions.default).result =
          .error e → ¬ e.IsBookkeeping) ↔
        ¬ (jxlPixel .rgb [0, 0, 0]).JxlMismatch .jxl [] DecodeOptions.default) :=
  ⟨jxlPixel_documented, bookkeeping_error_iff _ _ _ _ jxlPixel_documented⟩

/-- The smallest RGB file is refused, well within the limits. -/
theorem jxlPixel_refused :
    (jxlPixel .rgb [0, 0, 0]).Documented .jxl [] DecodeOptions.default ∧
      Limits.default.Fits 1 1 1 ∧
      (dispatch (jxlPixel .rgb [0, 0, 0]) .jxl [] DecodeOptions.default).result =
        .error (.decoder "jxl" "texture construction failed") :=
  ⟨jxlPixel_documented, by decide, rfl⟩

end GlycinNg
