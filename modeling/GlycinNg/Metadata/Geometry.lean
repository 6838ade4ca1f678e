import GlycinNg.Metadata.Transform

/-! # The geometry of a transformed texture

`transform_geometry` reads the transform pixel by pixel: which bytes stand at each
output position, that the copy loop writes every position once and uses every
source pixel once, and that the padding of the source rows plays no part. -/
namespace GlycinNg
open Rust Raster Transform

namespace Texture

/-- `t'` is a tightly packed picture in which each position shows the pixel that
`o` assigns to it. -/
structure TurnedBy (o : Orientation) (t t' : Texture) : Prop where
  size : (t'.width, t'.height) =
    if o.swapsAxes then (t.height, t.width) else (t.width, t.height)
  stride : t'.stride.toNat = t'.width.toNat * t.format.bytesPerPixel
  format : t'.format = t.format
  pixels : ∀ x y, x < t'.width.toNat → y < t'.height.toNat →
    t'.pixel x y = t.pixel (sourceCoord o x y t.width.toNat t.height.toNat).1
      (sourceCoord o x y t.width.toNat t.height.toNat).2

/-- The same picture, whatever stands in the padding of the rows. -/
structure SamePixels (t u : Texture) : Prop where
  width : u.width = t.width
  height : u.height = t.height
  format : u.format = t.format
  pixels : ∀ x y, x < t.width.toNat → y < t.height.toNat → u.pixel x y = t.pixel x y

end Texture

namespace Transform
variable {t u : Texture} {o : Orientation}

/-- The two nested loops of `transform_texture`. -/
def copyLoop (t : Texture) (o : Orientation) (outStride : Nat) (dst : Bytes) : Checked Bytes :=
  (List.range t.height.toNat).foldlM (fun dst sy =>
    (List.range t.width.toNat).foldlM (fun dst sx => copyPixel t o outStride dst sy sx) dst) dst

example (t : Texture) (o : Orientation) :
    transformTexture t o = (do
      let outStride ← usizeMul (outWidth t o) t.format.bytesPerPixel
      let dst ← copyLoop t o outStride
        (List.replicate (← usizeMul outStride (outHeight t o)) 0)
      expect (Texture.fromParts (UInt32.ofNat (outWidth t o)) (UInt32.ofNat (outHeight t o))
        (UInt32.ofNat outStride) t.format dst)
        "byte-aligned transform always produces a valid texture") := rfl

/-- The bytes of one position of the transformed picture. -/
theorem cell_orientedData {x y : Nat} (hx : x < outWidth t o) (hy : y < outHeight t o) :
    cell t.format.bytesPerPixel (t.orientedData o) (y * outWidth t o + x) =
      t.pixel (sourceCoord o x y t.width.toNat t.height.toNat).1
        (sourceCoord o x y t.width.toNat t.height.toNat).2 := by
  have hzero : (List.replicate (outHeight t o * outWidth t o * t.format.bytesPerPixel)
      (0 : UInt8)).length = outHeight t o * outWidth t o * t.format.bytesPerPixel :=
    List.length_replicate
  rw [← scatter_writes hzero]
  exact cell_scatter_of_mem fits_writes hzero nodup_writes (mem_writes hx hy)

/-- Each position of the output is written once. -/
theorem count_writes {x y : Nat} (hx : x < outWidth t o) (hy : y < outHeight t o) :
    ((writes t o).map Prod.fst).count (y * outWidth t o + x) = 1 :=
  List.count_eq_one_of_mem nodup_writes (List.mem_map_of_mem (mem_writes hx hy))

/-- Each pixel of the source is shown at one position. -/
theorem existsUnique_target {x y : Nat} (hx : x < t.width.toNat) (hy : y < t.height.toNat) :
    ∃! p : Nat × Nat, p.1 < outWidth t o ∧ p.2 < outHeight t o ∧
      sourceCoord o p.1 p.2 t.width.toNat t.height.toNat = (x, y) := by
  obtain ⟨hx', hy'⟩ := target_lt t o hx hy
  refine ⟨target o x y t.width.toNat t.height.toNat, ⟨hx', hy', sourceCoord_target t o hx hy⟩, ?_⟩
  rintro ⟨x', y'⟩ ⟨hx', hy', hsource⟩
  have htarget := target_sourceCoord t o hx' hy'
  dsimp only at htarget hsource
  rw [hsource] at htarget
  exact htarget.symm

/-- The picture that is made depends on the pixels only. -/
theorem orientedData_congr (h : t.SamePixels u) : u.orientedData o = t.orientedData o := by
  have hw : outWidth u o = outWidth t o := by simp only [outWidth, h.width, h.height]
  have hh : outHeight u o = outHeight t o := by simp only [outHeight, h.width, h.height]
  unfold Texture.orientedData
  rw [hw, hh]
  apply List.flatMap_congr
  intro p hp
  obtain ⟨hx, hy⟩ := mem_coords.mp hp
  obtain ⟨hsx, hsy⟩ := sourceCoord_lt t o hx hy
  dsimp only
  rw [h.width, h.height]
  exact h.pixels _ _ hsx hsy

theorem transformTexture_congr (h : t.SamePixels u) :
    transformTexture u o = transformTexture t o := by
  have hw : outWidth u o = outWidth t o := by simp only [outWidth, h.width, h.height]
  have hh : outHeight u o = outHeight t o := by simp only [outHeight, h.width, h.height]
  rw [transformTexture_eq, transformTexture_eq, orientedData_congr h, h.format, hw, hh]

end Transform

/-- A texture as the geometry orients it shows the right pixel at each position. -/
theorem Texture.Oriented.turnedBy {o : Orientation} {t t' : Texture} (h : t.Oriented o t') :
    t.TurnedBy o t' where
  size := by
    have hw := h.width
    have hh := h.height
    unfold outWidth at hw
    unfold outHeight at hh
    cases hswap : o.swapsAxes <;>
      simp only [hswap, if_true, if_false, Bool.false_eq_true] at hw hh ⊢
    all_goals exact Prod.ext (UInt32.toNat_inj.mp hw) (UInt32.toNat_inj.mp hh)
  stride := by rw [h.stride, h.width]
  format := h.format
  pixels := by
    intro x y hx hy
    rw [h.width] at hx
    rw [h.height] at hy
    rw [← cell_orientedData hx hy, cell, Texture.pixel, h.stride, h.format, h.data, Nat.add_mul,
      Nat.mul_assoc]

/-- A texture whose columns are short enough to become rows is transformed
exactly as EXIF defines the orientation: sizes, stride and bytes of each pixel;
each position is written once, each source pixel used once, and only the pixels
matter. (That its rows are short enough is part of `Texture`: `row_le`.) -/
theorem transform_geometry (t : Texture) (o : Orientation)
    (hcolumn : t.height.toNat * t.format.bytesPerPixel ≤ u32Max) :
    ∃ t', transformTexture t o = .ok t' ∧ t.TurnedBy o t' ∧
      (∀ dst : Bytes,
        dst.length = t'.height.toNat * t'.width.toNat * t.format.bytesPerPixel →
          copyLoop t o t'.stride.toNat dst =
            .ok (scatter t.format.bytesPerPixel dst (writes t o))) ∧
      (∀ x y, x < t'.width.toNat → y < t'.height.toNat →
        ((writes t o).map Prod.fst).count (y * t'.width.toNat + x) = 1) ∧
      (∀ x y, x < t.width.toNat → y < t.height.toNat →
        ∃! p : Nat × Nat, p.1 < t'.width.toNat ∧ p.2 < t'.height.toNat ∧
          sourceCoord o p.1 p.2 t.width.toNat t.height.toNat = (x, y)) ∧
      ∀ u : Texture, t.SamePixels u → transformTexture u o = .ok t' := by
  have hfits : t.RowFits o := by
    rw [Texture.rowFits_iff]
    intro _
    exact hcolumn
  obtain ⟨t', ht', horiented⟩ := transformTexture_ok hfits
  refine ⟨t', ht', horiented.turnedBy, ?_, ?_, ?_, ?_⟩
  · intro dst hdst
    rw [horiented.width, horiented.height] at hdst
    rw [horiented.stride]
    exact loop_ok hdst
  · intro x y hx hy
    rw [horiented.width] at hx ⊢
    rw [horiented.height] at hy
    exact count_writes hx hy
  · intro x y hx hy
    rw [horiented.width, horiented.height]
    exact existsUnique_target hx hy
  · intro u hu
    rw [transformTexture_congr hu, ht']

/-- Two by three pixels of two bytes, each row followed by a byte of padding. -/
def paddedPair : Texture where
  width := 2
  height := 3
  stride := 5
  format := .g16
  data := [1, 2, 3, 4, 99, 5, 6, 7, 8, 99, 9, 10, 11, 12, 99]
  data_length := rfl
  row_le := by decide

theorem transform_geometry_paddedPair :
    paddedPair.height.toNat * paddedPair.format.bytesPerPixel ≤ u32Max ∧
    ∃ t', transformTexture paddedPair .transverse = .ok t' ∧
      paddedPair.TurnedBy .transverse t' ∧
      t'.data = [11, 12, 7, 8, 3, 4, 9, 10, 5, 6, 1, 2] := by
  have hcolumn : paddedPair.height.toNat * paddedPair.format.bytesPerPixel ≤ u32Max := by decide
  obtain ⟨t', ht', hturned, -⟩ := transform_geometry paddedPair .transverse hcolumn
  refine ⟨hcolumn, t', ht', hturned, ?_⟩
  have hdata : (transformTexture paddedPair .transverse).map (·.data) =
      .ok [11, 12, 7, 8, 3, 4, 9, 10, 5, 6, 1, 2] := by decide +kernel
  rw [ht'] at hdata
  exact Except.ok.inj hdata

end GlycinNg
