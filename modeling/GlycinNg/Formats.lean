import GlycinNg.Formats.Gif
import GlycinNg.Formats.Jxl
import GlycinNg.Formats.Png
import GlycinNg.Formats.Still
import GlycinNg.Formats.Svg
import GlycinNg.Formats.WebP
import GlycinNg.Sniff

/-! # Dispatch

`formats/mod.rs` with its default features. `Codecs` gathers the crates behind
the decoders. `dispatch_ok` says that a decode returns exactly what the codec
of its format delivers, and `Accepted` what the decoder has checked by then. -/
namespace GlycinNg
open Rust

/-- The codec crates, and the byte order of the target. -/
structure Codecs where
  littleEndian : Bool
  png : Png.Crate
  jpeg : Jpeg.Crate
  gif : Gif.Crate
  webP : WebP.Crate
  tiff : Tiff.Crate
  imageRs : ImageRs.Crate
  qoi : Qoi.Crate
  jxl : Jxl.Crate
  svg : Svg.Crate

/-- Crates that refuse every input. -/
def Codecs.failing : Codecs where
  littleEndian := true
  png := fun _ _ => .error .limitsExceeded
  jpeg := fun _ => ⟨.error (.format ""), none, none, none⟩
  gif := fun _ _ => .error (.format "")
  webP := fun _ => .error .memoryLimitExceeded
  tiff := fun _ => .error .limitsExceeded
  imageRs := fun _ _ => .error .limits
  qoi := fun _ => ⟨.error (.other ""), .error (.other "")⟩
  jxl := fun _ => .error ""
  svg := ⟨⟨fun _ => [], fun _ => none, fun _ => none⟩, fun _ => .error ""⟩

/-- `formats::dispatch`. -/
def dispatch (c : Codecs) (format : KnownFormat) (bytes : Bytes) (opts : DecodeOptions) :
    Decode Image :=
  match format with
  | .png => Png.decode c.png c.littleEndian bytes opts
  | .jpeg => Jpeg.decode c.jpeg c.littleEndian bytes opts
  | .gif => Gif.decode c.gif bytes opts
  | .webP => WebP.decode c.webP bytes opts
  | .tiff => Tiff.decode c.tiff c.littleEndian bytes opts
  | .bmp => Bmp.decode c.imageRs c.littleEndian bytes opts
  | .ico => Ico.decode c.imageRs c.littleEndian bytes opts
  | .tga => Tga.decode c.imageRs c.littleEndian bytes opts
  | .qoi => Qoi.decode c.qoi bytes opts
  | .exr => Exr.decode c.imageRs c.littleEndian bytes opts
  | .pnm => Pnm.decode c.imageRs c.littleEndian bytes opts
  | .dds => Dds.decode c.imageRs c.littleEndian bytes opts
  | .jxl => Jxl.decode c.jxl c.littleEndian bytes opts
  | .svg => Svg.decode c.svg bytes opts

namespace Codecs
variable (c : Codecs) (format : KnownFormat) (bytes : Bytes) (opts : DecodeOptions)

/-- What the codec of a format delivers on one input; `none` where it fails. -/
def delivery : Option Delivery :=
  match format with
  | .png => (c.png (memoryLimit opts) bytes).toOption.bind (·.delivery c.littleEndian)
  | .jpeg => (c.jpeg bytes).delivery c.littleEndian
  | .gif => (c.gif (max (memoryLimit opts) 1) bytes).toOption.bind (·.delivery)
  | .webP => (c.webP bytes).toOption.bind (·.delivery)
  | .tiff => (c.tiff bytes).toOption.bind (·.delivery c.littleEndian)
  | .qoi => (c.qoi bytes).delivery
  | .jxl => (c.jxl bytes).toOption.bind (·.delivery c.littleEndian)
  | .svg => (c.svg.tree bytes).toOption.bind (·.delivery opts)
  | .bmp => (c.imageRs .bmp bytes).toOption.bind (·.delivery c.littleEndian)
  | .ico => (c.imageRs .ico bytes).toOption.bind (·.delivery c.littleEndian)
  | .tga => (c.imageRs .tga bytes).toOption.bind (·.delivery c.littleEndian)
  | .exr => (c.imageRs .openExr bytes).toOption.bind (·.delivery c.littleEndian)
  | .pnm => (c.imageRs .pnm bytes).toOption.bind (·.delivery c.littleEndian)
  | .dds => (c.imageRs .dds bytes).toOption.bind (·.delivery c.littleEndian)

end Codecs

/-- What a decoder has checked of the delivery it returns. -/
inductive Accepted (l : Limits) : KnownFormat → Delivery → Image → Prop where
  /-- One picture, its size checked. -/
  | still {format : KnownFormat} {img : Image} {p : Picture} (hgif : format ≠ .gif)
      (hjxl : format ≠ .jxl) (hfits : l.Fits p.width p.height 1) :
      Accepted l format p.delivery img
  /-- Frames inside a canvas whose size was checked together with their number. -/
  | png {img : Image} {d : Delivery} {n : UInt32} (hfits : l.Fits d.width d.height n)
      (hlen : d.shots.length = n.toNat) : Accepted l .png d img
  /-- Frames of the size of the canvas, and a running total of their delays. -/
  | canvas {format : KnownFormat} {img : Image} {d : Delivery} {n : UInt32} {total : Duration}
      (hformat : format = .webP ∨ format = .jxl) (hfits : l.Fits d.width d.height n)
      (hlen : d.shots.length = n.toNat)
      (hsize : ∀ s ∈ d.shots, s.picture.width = d.width ∧ s.picture.height = d.height)
      (htimed : Timed l.maxAnimationDuration img.frames total) : Accepted l format d img
  /-- Running totals only. -/
  | gif {img : Image} {d : Delivery} {total : Duration} (hne : d.shots ≠ [])
      (hpixels : d.pixels ≤ l.maxPixels.toNat) (hlen : d.shots.length ≤ l.maxFrames.toNat)
      (htimed : Timed l.maxAnimationDuration img.frames total) : Accepted l .gif d img

/-- A decode that returns has returned the delivery of its codec, unchanged and
after the checks of its decoder. -/
theorem dispatch_ok {c : Codecs} {format : KnownFormat} {bytes : Bytes} {opts : DecodeOptions}
    {img : Image} (h : (dispatch c format bytes opts).result = .ok img) :
    ∃ d, c.delivery format bytes opts = some d ∧ img.Carries d ∧
      Accepted opts.limits format d img := by
  cases format with
  | png =>
    obtain ⟨r, d, hr, hfits, hd, hcarries, -⟩ := Png.decode_ok h
    obtain ⟨hw, hh, hlen⟩ := Png.delivery_eq hd
    exact ⟨d, by simp [Codecs.delivery, hr, hd, Except.toOption], hcarries,
      .png (hw ▸ hh ▸ hfits) hlen⟩
  | jpeg =>
    obtain ⟨p, hp, hfits, hcarries, -⟩ := Jpeg.decode_ok h
    exact ⟨_, hp, hcarries, .still (by decide) (by decide) hfits⟩
  | gif =>
    obtain ⟨decoder, d, hdecoder, hd, hcarries, hne, hpixels, hlen, total, htimed⟩ :=
      Gif.decode_ok h
    exact ⟨d, by simp [Codecs.delivery, hdecoder, hd, Except.toOption], hcarries,
      .gif hne hpixels hlen htimed⟩
  | webP =>
    obtain ⟨decoder, d, hdecoder, hfits, hd, hcarries, -, total, htimed⟩ := WebP.decode_ok h
    obtain ⟨hw, hh, hlen, hsize⟩ := WebP.delivery_eq hd
    exact ⟨d, by simp [Codecs.delivery, hdecoder, hd, Except.toOption], hcarries,
      .canvas (.inl rfl) (hw ▸ hh ▸ hfits) hlen (hw ▸ hh ▸ hsize) htimed⟩
  | tiff =>
    obtain ⟨decoder, p, hdecoder, hp, hfits, hcarries⟩ := Tiff.decode_ok h
    exact ⟨_, by simp [Codecs.delivery, hdecoder, hp, Except.toOption], hcarries,
      .still (by decide) (by decide) hfits⟩
  | qoi =>
    obtain ⟨p, hp, hfits, hcarries⟩ := Qoi.decode_ok h
    exact ⟨_, hp, hcarries, .still (by decide) (by decide) hfits⟩
  | jxl =>
    obtain ⟨jxl, d, hjxl, hfits, hd, hcarries, total, htimed⟩ := Jxl.decode_ok h
    obtain ⟨hw, hh, hlen, hsize⟩ := Jxl.delivery_eq hd
    exact ⟨d, by simp [Codecs.delivery, hjxl, hd, Except.toOption], hcarries,
      .canvas (.inr rfl) (hw ▸ hh ▸ hfits) hlen (hw ▸ hh ▸ hsize) htimed⟩
  | svg =>
    obtain ⟨tree, p, htree, hp, hfits, hcarries⟩ := Svg.decode_ok h
    exact ⟨_, by simp [Codecs.delivery, htree, hp, Except.toOption], hcarries,
      .still (by decide) (by decide) hfits⟩
  | bmp | ico | tga | exr | pnm | dds =>
    obtain ⟨decoder, p, hdecoder, hp, hfits, hcarries⟩ := ImageRs.decodeWith_ok h
    exact ⟨_, by simp [Codecs.delivery, hdecoder, hp, Except.toOption], hcarries,
      .still (by decide) (by decide) hfits⟩

end GlycinNg
