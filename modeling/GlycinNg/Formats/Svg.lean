import GlycinNg.Formats.Codec
import GlycinNg.Formats.Svg.Xinclude

/-! # SVG

`formats/svg.rs` over `resvg` and `usvg`. The size is the caller's hint where
there is one, else the intrinsic size of the tree, and at least one pixel. -/
namespace GlycinNg.Svg
open Rust

/-- A pixel after `demultiply`. -/
structure Pixel where
  red : UInt8
  green : UInt8
  blue : UInt8
  alpha : UInt8

/-- `usvg::Tree`. The intrinsic size is the one after rounding up and the cast;
`pixmap` is `Pixmap::new` with the pixels that `resvg::render` leaves in it. -/
structure Tree where
  intrinsicWidth : UInt32
  intrinsicHeight : UInt32
  pixmap : UInt32 → UInt32 → Option (List Pixel)

/-- The crates behind the decoder; the error of `Tree::from_data` is displayed. -/
structure Crate where
  xml : Xinclude.Xml
  treeFromData : Bytes → Except String Tree

def Crate.tree (svg : Crate) (bytes : Bytes) : Except String Tree :=
  svg.treeFromData ((Xinclude.expand svg.xml bytes).getD bytes)

/-- The size that is rendered. -/
def Tree.size (tree : Tree) (opts : DecodeOptions) : UInt32 × UInt32 :=
  let size := opts.renderSizeHint.getD (tree.intrinsicWidth, tree.intrinsicHeight)
  (max size.1 1, max size.2 1)

def picture (size : UInt32 × UInt32) (pixels : List Pixel) : Picture where
  width := size.1
  height := size.2
  format := .r8g8b8a8
  data := pixels.flatMap fun px => [px.red, px.green, px.blue, px.alpha]

def allocError (size : UInt32 × UInt32) : Error :=
  .decoder "svg"
    ("failed to allocate " ++ toString size.1 ++ "x" ++ toString size.2 ++ " pixmap")

/-- `svg::decode`. -/
def decode (svg : Crate) (bytes : Bytes) (opts : DecodeOptions) : Decode Image := do
  let tree ← Traced.perform .svgTreeFromData ((svg.tree bytes).mapError Error.malformed)
  let size := tree.size opts
  opts.limits.checkDimensions size.1 size.2 1
  let pixmap ← okOr (tree.pixmap size.1 size.2) (allocError size)
  Traced.perform .svgRender (.ok ())
  let p := picture size pixmap
  let stride ← rgbaStride p.width
  let texture ← textureOrError "svg" p.width p.height stride p.format p.data
  return Image.fromParts "svg" p.width p.height [⟨texture, none⟩]

/-- The one picture that is rendered. -/
def Tree.delivery (tree : Tree) (opts : DecodeOptions) : Option Delivery :=
  (tree.pixmap (tree.size opts).1 (tree.size opts).2).map fun pixmap =>
    (picture (tree.size opts) pixmap).delivery

theorem decode_ok {svg : Crate} {bytes : Bytes} {opts : DecodeOptions} {img : Image}
    (h : (decode svg bytes opts).result = .ok img) :
    ∃ tree, ∃ p : Picture, svg.tree bytes = .ok tree ∧ tree.delivery opts = some p.delivery ∧
      opts.limits.Fits p.width p.height 1 ∧ img.Carries p.delivery := by
  obtain ⟨tree, htree, h⟩ := Traced.perform_bind_eq_ok.mp h
  obtain ⟨_, hcheck, h⟩ := Traced.lift_bind_eq_ok.mp h
  obtain ⟨pixmap, hpixmap, h⟩ := Traced.lift_bind_eq_ok.mp h
  obtain ⟨_, -, h⟩ := Traced.perform_bind_eq_ok.mp h
  obtain ⟨stride, hstride, h⟩ := Traced.lift_bind_eq_ok.mp h
  obtain ⟨t, ht, h⟩ := Traced.lift_bind_eq_ok.mp h
  rw [mapError_eq_ok] at htree
  rw [okOr_eq_ok] at hpixmap
  rw [rgbaStride_eq] at hstride
  cases h
  refine ⟨tree, picture (tree.size opts) pixmap, htree, ?_,
    Limits.checkDimensions_ok_iff.mp hcheck,
    fromParts_carries (textureOrError_ok (rowStride_ok hstride) ht)⟩
  rw [Tree.delivery, hpixmap]
  rfl

/-- The tree parses, and a pixmap of the size can be allocated and holds it. -/
def Crate.Documented (svg : Crate) (bytes : Bytes) (opts : DecodeOptions) : Prop :=
  ∃ tree pixmap, svg.tree bytes = .ok tree ∧
    tree.pixmap (tree.size opts).1 (tree.size opts).2 = some pixmap ∧
    pixmap.length = (tree.size opts).1.toNat * (tree.size opts).2.toNat

theorem decode_bookkeeping {svg : Crate} {bytes : Bytes} {opts : DecodeOptions} {e : Error}
    (hdoc : svg.Documented bytes opts) (h : (decode svg bytes opts).result = .error e) :
    ¬ e.IsBookkeeping := by
  obtain ⟨tree, pixmap, htree, hpixmap, hlen⟩ := hdoc
  have hpacked : (picture (tree.size opts) pixmap).Packed := by
    have hdata : (picture (tree.size opts) pixmap).data.length = pixmap.length * 4 := by
      simp [picture, List.length_flatMap]
    rw [Picture.Packed, hdata, hlen, Nat.mul_right_comm]
    rfl
  rw [decode, Traced.result_perform_bind htree] at h
  rcases Traced.lift_bind_eq_error.mp h with h | ⟨_, -, h⟩
  · exact not_isBookkeeping_check h
  rw [Traced.result_lift_bind (okOr_eq_ok.mpr hpixmap)] at h
  rcases Traced.perform_bind_eq_error.mp h with h | ⟨_, -, h⟩
  · cases h
  rcases Traced.lift_bind_eq_error.mp h with h | ⟨stride, hstride, h⟩
  · rw [rgbaStride_eq] at h
    exact not_isBookkeeping_stride h
  rw [rgbaStride_eq] at hstride
  rcases Traced.lift_bind_eq_error.mp h with h | ⟨_, -, h⟩
  · exact not_isBookkeeping_texture hpacked (rowStride_ok hstride) h
  · cases h

/-- A size over a limit ends the decode before anything is rendered. -/
theorem decode_gated {svg : Crate} {bytes : Bytes} {opts : DecodeOptions} {tree : Tree}
    (htree : svg.tree bytes = .ok tree)
    (h : ¬ opts.limits.Fits (tree.size opts).1 (tree.size opts).2 1) :
    Gated (decode svg bytes opts) :=
  (gated_perform htree rfl).mpr (gated_check h)

end GlycinNg.Svg
