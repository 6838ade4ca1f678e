import GlycinNg.Encoder
import GlycinNg.Loader

/-! # The format an image names

Every decoder writes its own name on the image it returns, and only PNG and WebP images
carry anything besides pixels and a colour profile. So the name on a loaded image tells
which format the loader had chosen (`Loader.load_named`). -/
namespace GlycinNg
open Rust

/-- An image of a decoder that reads pixels and a colour profile only. -/
structure Image.Plain (name : String) (img : Image) : Prop where
  formatName : img.formatName = name
  exif : img.exif = none
  metadataKeyValue : img.metadataKeyValue = none
  cicp : img.cicp = none

theorem Image.plain_fromParts (name : String) (width height : UInt32) (frames : List Frame) :
    (Image.fromParts name width height frames).Plain name := ⟨rfl, rfl, rfl, rfl⟩

theorem Image.Plain.withIccProfile {name : String} {img : Image} (h : img.Plain name)
    (icc : Option Bytes) : (icc.elim img img.setIccProfile).Plain name := by
  cases icc with
  | none => exact h
  | some profile => exact ⟨h.formatName, h.exif, h.metadataKeyValue, h.cicp⟩

/-- Every image the computation can return is as in `P`. -/
def Returns (P : Image → Prop) (x : Decode Image) : Prop := ∀ img, x.result = .ok img → P img

namespace Returns
variable {α : Type} {P : Image → Prop}

theorem pure {img : Image} (h : P img) : Returns P (Pure.pure img : Decode Image) := by
  intro img' himg
  cases himg
  exact h

/-- Whatever has been done before, the last step returns. -/
theorem bind {x : Decode α} {f : α → Decode Image} (h : ∀ a, Returns P (f a)) :
    Returns P (x >>= f) := by
  intro img himg
  obtain ⟨a, -, hf⟩ := Traced.bind_eq_ok.mp himg
  exact h a img hf

theorem still (name : String) (p : Picture) :
    Returns (Image.Plain name) (liftM (stillImage name p) : Decode Image) := by
  intro img himg
  obtain ⟨t, -, h⟩ := Rust.bind_eq_ok.mp himg
  cases h
  exact Image.plain_fromParts ..

end Returns

/-! ## Each decoder -/

section
variable {littleEndian : Bool} {bytes : Bytes} {opts : DecodeOptions}

theorem Png.decode_named (png : Png.Crate) :
    Returns (·.formatName = "png") (Png.decode png littleEndian bytes opts) := by
  refine .bind fun r => .bind fun _ => .bind fun format => .bind fun frames => .pure ?_
  rw [Png.extractMetadata]
  cases r.codingIndependentCodePoints <;> cases r.exifMetadata <;> cases r.iccProfile <;> rfl

theorem WebP.decode_named (webp : WebP.Crate) :
    Returns (·.formatName = "webp") (WebP.decode webp bytes opts) := by
  refine .bind fun _ => .bind fun _ => .bind fun icc => .bind fun exif => .bind fun _ =>
    .bind fun _ => .pure ?_
  cases icc <;> cases exif <;> rfl

theorem Jpeg.decode_plain (jpeg : Jpeg.Crate) :
    Returns (Image.Plain "jpeg") (Jpeg.decode jpeg littleEndian bytes opts) := by
  refine .bind fun _ => .bind fun _ => .bind fun _ => .bind fun _ => ?_
  intro img himg
  obtain ⟨image, himage, h⟩ := Traced.bind_eq_ok.mp himg
  cases h
  exact (Returns.still _ _ image himage).withIccProfile _

theorem Gif.decode_plain (gif : Gif.Crate) :
    Returns (Image.Plain "gif") (Gif.decode gif bytes opts) :=
  .bind fun _ => .bind fun _ => .bind fun _ => .bind fun _ => .pure (Image.plain_fromParts ..)

theorem Tiff.decode_plain (tiff : Tiff.Crate) :
    Returns (Image.Plain "tiff") (Tiff.decode tiff littleEndian bytes opts) :=
  .bind fun _ => .bind fun _ => .bind fun _ => .bind fun _ => .bind fun _ => .bind fun _ =>
    .bind fun _ => .still _ _

theorem Qoi.decode_plain (qoi : Qoi.Crate) :
    Returns (Image.Plain "qoi") (Qoi.decode qoi bytes opts) :=
  .bind fun _ => .bind fun _ => .still _ _

theorem Jxl.decode_plain (jxl : Jxl.Crate) :
    Returns (Image.Plain "jxl") (Jxl.decode jxl littleEndian bytes opts) :=
  .bind fun _ => .bind fun _ => .bind fun _ => .bind fun _ => .bind fun _ =>
    .pure ((Image.plain_fromParts ..).withIccProfile _)

theorem Svg.decode_plain (svg : Svg.Crate) :
    Returns (Image.Plain "svg") (Svg.decode svg bytes opts) :=
  .bind fun _ => .bind fun _ => .bind fun _ => .bind fun _ => .bind fun _ => .bind fun _ =>
    .pure (Image.plain_fromParts ..)

theorem ImageRs.decodeWith_plain (name : String) (imageFormat : ImageRs.ImageFormat)
    (image : ImageRs.Crate) :
    Returns (Image.Plain name)
      (ImageRs.decodeWith name imageFormat image littleEndian bytes opts) :=
  .bind fun _ => .bind fun _ => .bind fun _ => .bind fun _ => .still _ _

/-- A decoder names its format. -/
theorem dispatch_named (c : Codecs) (format : KnownFormat) :
    Returns (·.formatName = format.name) (dispatch c format bytes opts) := by
  intro img h
  cases format with
  | png => exact Png.decode_named c.png img h
  | webP => exact WebP.decode_named c.webP img h
  | jpeg => exact (Jpeg.decode_plain c.jpeg img h).formatName
  | gif => exact (Gif.decode_plain c.gif img h).formatName
  | tiff => exact (Tiff.decode_plain c.tiff img h).formatName
  | qoi => exact (Qoi.decode_plain c.qoi img h).formatName
  | jxl => exact (Jxl.decode_plain c.jxl img h).formatName
  | svg => exact (Svg.decode_plain c.svg img h).formatName
  | bmp | ico | tga | exr | pnm | dds =>
    exact (ImageRs.decodeWith_plain _ _ c.imageRs img h).formatName

/-- Only two containers bring metadata to the image. -/
theorem dispatch_plain (c : Codecs) {format : KnownFormat} (hpng : format ≠ .png)
    (hwebp : format ≠ .webP) :
    Returns (Image.Plain format.name) (dispatch c format bytes opts) := by
  intro img h
  cases format with
  | png => exact absurd rfl hpng
  | webP => exact absurd rfl hwebp
  | jpeg => exact Jpeg.decode_plain c.jpeg img h
  | gif => exact Gif.decode_plain c.gif img h
  | tiff => exact Tiff.decode_plain c.tiff img h
  | qoi => exact Qoi.decode_plain c.qoi img h
  | jxl => exact Jxl.decode_plain c.jxl img h
  | svg => exact Svg.decode_plain c.svg img h
  | bmp | ico | tga | exr | pnm | dds => exact ImageRs.decodeWith_plain _ _ c.imageRs img h

end

/-! ## The loader -/

theorem KnownFormat.name_injective {f g : KnownFormat} (h : f.name = g.name) : f = g := by
  cases f <;> cases g <;> first | rfl | exact absurd h (by decide)

namespace Loader
variable {host : Host} {loader : Loader}

/-- A loaded image names the format that was chosen for its bytes. -/
theorem load_named {img : Image} (h : loader.load host = .ok (.ok img)) :
    ∃ bytes format, loader.source.readAll host = .ok bytes ∧
      loader.chooseFormat bytes = some format ∧ img.formatName = format.name := by
  obtain ⟨base, posture, oriented, hdecoded, horiented, rfl⟩ := load_ok h
  obtain ⟨bytes, format, hread, hformat, hdispatch⟩ := decoded_ok hdecoded
  refine ⟨bytes, format, hread, hformat, ?_⟩
  have hsame := Metadata.applyOrientationIfPresent_metadata horiented
  show oriented.formatName = _
  rw [hsame.formatName]
  exact dispatch_named host.codecs format base hdispatch

end Loader

end GlycinNg
