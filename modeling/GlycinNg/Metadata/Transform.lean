import GlycinNg.Image
import GlycinNg.Raster.Cells

/-! # Pixel-level orientation transforms

`metadata/transform.rs`. `sourceCoord` states the EXIF geometry independently of
the code: which source pixel is shown at an output position. The nested copy
loop is shown to stay in bounds and to leave exactly that picture
(`transformTexture_ok`); the final `from_parts` refuses it in one case, an output
row whose byte length does not fit `u32` (`transformTexture_panics`). -/
namespace GlycinNg
open Rust Raster

namespace Transform

/-- `n - 1 - i` on `usize`. -/
def fromEnd (n i : Nat) : Checked Nat := do usizeSub (← usizeSub n 1) i

/-- `transform::mapped_coord`: where the pixel at `(x, y)` goes. -/
def mappedCoord (o : Orientation) (x y w h : Nat) : Checked (Nat × Nat) :=
  match o with
  | .normal => return (x, y)
  | .flipHorizontal => return (← fromEnd w x, y)
  | .rotate180 => return (← fromEnd w x, ← fromEnd h y)
  | .flipVertical => return (x, ← fromEnd h y)
  | .transpose => return (y, x)
  | .rotate90 => return (← fromEnd h y, x)
  | .transverse => return (← fromEnd h y, ← fromEnd w x)
  | .rotate270 => return (y, ← fromEnd w x)

/-- The body of the copy loop. -/
def copyPixel (t : Texture) (o : Orientation) (outStride : Nat) (dst : Bytes) (sy sx : Nat) :
    Checked Bytes := do
  let bpp := t.format.bytesPerPixel
  let (dx, dy) ← mappedCoord o sx sy t.width.toNat t.height.toNat
  let srcOff ← usizeAdd (← usizeMul sy t.stride.toNat) (← usizeMul sx bpp)
  let dstOff ← usizeAdd (← usizeMul dy outStride) (← usizeMul dx bpp)
  let pixel ← slice t.data srcOff (← usizeAdd srcOff bpp)
  copyFromSlice dst dstOff (← usizeAdd dstOff bpp) pixel

/-- The width of the transformed picture. -/
def outWidth (t : Texture) (o : Orientation) : Nat :=
  if o.swapsAxes then t.height.toNat else t.width.toNat

/-- The height of the transformed picture. -/
def outHeight (t : Texture) (o : Orientation) : Nat :=
  if o.swapsAxes then t.width.toNat else t.height.toNat

/-- `transform::transform_texture`. -/
def transformTexture (t : Texture) (o : Orientation) : Checked Texture := do
  let outStride ← usizeMul (outWidth t o) t.format.bytesPerPixel
  let dst := List.replicate (← usizeMul outStride (outHeight t o)) 0
  let dst ← (List.range t.height.toNat).foldlM (fun dst sy =>
    (List.range t.width.toNat).foldlM (fun dst sx => copyPixel t o outStride dst sy sx) dst) dst
  expect (Texture.fromParts (UInt32.ofNat (outWidth t o)) (UInt32.ofNat (outHeight t o))
    (UInt32.ofNat outStride) t.format dst)
    "byte-aligned transform always produces a valid texture"

/-- `transform::bake_into_frames`. -/
def bakeIntoFrames (img : Image) (o : Orientation) : Checked Image :=
  if o = .normal then return img
  else do
    let frames ← img.frames.mapM fun f => do return ⟨← transformTexture f.texture o, f.delay⟩
    let newW := if o.swapsAxes then img.height else img.width
    let newH := if o.swapsAxes then img.width else img.height
    return img.replaceFrames frames newW newH

/-! ## The geometry -/

/-- EXIF geometry: the source position shown at `(x, y)` of the output, for a
`w` by `h` source. -/
def sourceCoord (o : Orientation) (x y w h : Nat) : Nat × Nat :=
  match o with
  | .normal => (x, y)
  | .flipHorizontal => (w - 1 - x, y)
  | .rotate180 => (w - 1 - x, h - 1 - y)
  | .flipVertical => (x, h - 1 - y)
  | .transpose => (y, x)
  | .rotate90 => (y, h - 1 - x)
  | .transverse => (w - 1 - y, h - 1 - x)
  | .rotate270 => (w - 1 - y, x)

/-- Where `mapped_coord` sends a position inside the picture. -/
def target (o : Orientation) (x y w h : Nat) : Nat × Nat :=
  match o with
  | .normal => (x, y)
  | .flipHorizontal => (w - 1 - x, y)
  | .rotate180 => (w - 1 - x, h - 1 - y)
  | .flipVertical => (x, h - 1 - y)
  | .transpose => (y, x)
  | .rotate90 => (h - 1 - y, x)
  | .transverse => (h - 1 - y, w - 1 - x)
  | .rotate270 => (y, w - 1 - x)

theorem fromEnd_ok {n i : Nat} (h : i < n) : fromEnd n i = .ok (n - 1 - i) := by
  rw [fromEnd, usizeSub_ok (by omega), ok_bind, usizeSub_ok (by omega)]

/-- No subtraction of `mapped_coord` goes below zero inside the picture. -/
theorem mappedCoord_ok (o : Orientation) {x y w h : Nat} (hx : x < w) (hy : y < h) :
    mappedCoord o x y w h = .ok (target o x y w h) := by
  cases o <;> simp only [mappedCoord, target, fromEnd_ok hx, fromEnd_ok hy, ok_bind] <;> rfl

section
variable (t : Texture) (o : Orientation)

theorem target_lt {x y : Nat} (hx : x < t.width.toNat) (hy : y < t.height.toNat) :
    (target o x y t.width.toNat t.height.toNat).1 < outWidth t o ∧
      (target o x y t.width.toNat t.height.toNat).2 < outHeight t o := by
  cases o <;> simp only [target, outWidth, outHeight, Orientation.swapsAxes, Bool.false_eq_true,
    if_true, if_false] <;> omega

theorem sourceCoord_lt {x y : Nat} (hx : x < outWidth t o) (hy : y < outHeight t o) :
    (sourceCoord o x y t.width.toNat t.height.toNat).1 < t.width.toNat ∧
      (sourceCoord o x y t.width.toNat t.height.toNat).2 < t.height.toNat := by
  cases o <;> simp only [sourceCoord, outWidth, outHeight, Orientation.swapsAxes,
    Bool.false_eq_true, if_true, if_false] at hx hy ⊢ <;> omega

/-- Each source position goes where the geometry shows it. -/
theorem sourceCoord_target {x y : Nat} (hx : x < t.width.toNat) (hy : y < t.height.toNat) :
    let p := target o x y t.width.toNat t.height.toNat
    sourceCoord o p.1 p.2 t.width.toNat t.height.toNat = (x, y) := by
  cases o <;> dsimp only [target, sourceCoord] <;> rw [Prod.mk.injEq] <;> omega

/-- Each output position is reached from the source position it shows. -/
theorem target_sourceCoord {x y : Nat} (hx : x < outWidth t o) (hy : y < outHeight t o) :
    let p := sourceCoord o x y t.width.toNat t.height.toNat
    target o p.1 p.2 t.width.toNat t.height.toNat = (x, y) := by
  cases o <;> simp only [outWidth, outHeight, Orientation.swapsAxes, Bool.false_eq_true, if_true,
    if_false] at hx hy <;> dsimp only [target, sourceCoord] <;> rw [Prod.mk.injEq] <;> omega

end

end Transform

namespace Texture

/-- The bytes of the pixel at `(x, y)`. -/
def pixel (t : Texture) (x y : Nat) : Bytes :=
  (t.data.drop (y * t.stride.toNat + x * t.format.bytesPerPixel)).take t.format.bytesPerPixel

/-- The tightly packed pixels of the picture that `o` makes of `t`. -/
def orientedData (t : Texture) (o : Orientation) : Bytes :=
  (coords (Transform.outWidth t o) (Transform.outHeight t o)).flatMap fun p =>
    let q := Transform.sourceCoord o p.1 p.2 t.width.toNat t.height.toNat
    t.pixel q.1 q.2

/-- `t'` is the picture `o` makes of `t`, tightly packed. -/
structure Oriented (o : Orientation) (t t' : Texture) : Prop where
  width : t'.width.toNat = Transform.outWidth t o
  height : t'.height.toNat = Transform.outHeight t o
  stride : t'.stride.toNat = Transform.outWidth t o * t.format.bytesPerPixel
  format : t'.format = t.format
  data : t'.data = t.orientedData o

/-- The rows of the transformed picture have a byte length that fits `u32`. -/
def RowFits (t : Texture) (o : Orientation) : Prop :=
  Transform.outWidth t o * t.format.bytesPerPixel ≤ u32Max

instance (t : Texture) (o : Orientation) : Decidable (t.RowFits o) :=
  inferInstanceAs (Decidable (_ ≤ _))

/-- Only an orientation that swaps axes can produce a row that does not fit. -/
theorem rowFits_iff (t : Texture) (o : Orientation) :
    t.RowFits o ↔ (o.swapsAxes = true → t.height.toNat * t.format.bytesPerPixel ≤ u32Max) := by
  have hrow := t.row_le
  have hstride := t.stride.toNat_lt
  cases h : o.swapsAxes <;> simp only [RowFits, Transform.outWidth, h, Bool.false_eq_true,
    if_false, if_true, false_implies, iff_true, true_implies, u32Max]
  omega

/-- A pixel inside the picture ends inside the buffer. -/
theorem pixel_end_le (t : Texture) {x y : Nat} (hx : x < t.width.toNat) (hy : y < t.height.toNat) :
    y * t.stride.toNat + x * t.format.bytesPerPixel + t.format.bytesPerPixel ≤ t.data.length := by
  have hcol := cell_end_le (b := t.format.bytesPerPixel) hx
  have hrow := cell_end_le (b := t.stride.toNat) hy
  have hfit := t.row_le
  rw [t.data_length, Nat.mul_comm t.stride.toNat]
  omega

theorem length_pixel (t : Texture) {x y : Nat} (hx : x < t.width.toNat) (hy : y < t.height.toNat) :
    (t.pixel x y).length = t.format.bytesPerPixel := by
  rw [pixel]
  exact length_window (t.pixel_end_le hx hy)

theorem data_length_lt (t : Texture) : t.data.length < usizeValues := by
  rw [t.data_length]
  exact Limits.mul_u32_lt t.stride t.height

/-- The transformed picture needs no more bytes than the source holds. -/
theorem packed_le (t : Texture) (o : Orientation) :
    Transform.outHeight t o * Transform.outWidth t o * t.format.bytesPerPixel ≤ t.data.length := by
  have harea : Transform.outHeight t o * Transform.outWidth t o =
      t.height.toNat * t.width.toNat := by
    cases h : o.swapsAxes <;> simp only [Transform.outHeight, Transform.outWidth, h,
      Bool.false_eq_true, if_false, if_true, Nat.mul_comm]
  rw [harea, Nat.mul_assoc, t.data_length, Nat.mul_comm t.stride.toNat]
  exact Nat.mul_le_mul_left _ t.row_le

end Texture

/-! ## The copy loop -/

namespace Transform
variable {t : Texture} {o : Orientation}

/-- The output cell that receives the source pixel at `(x, y)`. -/
def targetCell (t : Texture) (o : Orientation) (x y : Nat) : Nat :=
  (target o x y t.width.toNat t.height.toNat).2 * outWidth t o +
    (target o x y t.width.toNat t.height.toNat).1

theorem targetCell_lt {x y : Nat} (hx : x < t.width.toNat) (hy : y < t.height.toNat) :
    targetCell t o x y < outHeight t o * outWidth t o := by
  obtain ⟨hdx, hdy⟩ := target_lt t o hx hy
  exact index_lt hdx hdy

/-- One turn of the loop is in bounds and writes one cell. -/
theorem copyPixel_ok {dst : Bytes} {x y : Nat} (hx : x < t.width.toNat) (hy : y < t.height.toNat)
    (hdst : dst.length = outHeight t o * outWidth t o * t.format.bytesPerPixel) :
    copyPixel t o (outWidth t o * t.format.bytesPerPixel) dst y x =
      .ok (blit dst (targetCell t o x y * t.format.bytesPerPixel) (t.pixel x y)) := by
  have hsrc := t.pixel_end_le hx hy
  have hlt := t.data_length_lt
  have hpacked := t.packed_le o
  have hcell := cell_end_le (b := t.format.bytesPerPixel) (targetCell_lt (o := o) hx hy)
  have hpixel := t.length_pixel hx hy
  have hoff : targetCell t o x y * t.format.bytesPerPixel =
      (target o x y t.width.toNat t.height.toNat).2 *
          (outWidth t o * t.format.bytesPerPixel) +
        (target o x y t.width.toNat t.height.toNat).1 * t.format.bytesPerPixel := by
    rw [targetCell, Nat.add_mul, Nat.mul_assoc]
  rw [hoff] at hcell ⊢
  dsimp only [copyPixel]
  rw [mappedCoord_ok o hx hy, ok_bind, usizeMul_ok (by omega), ok_bind,
    usizeMul_ok (by omega), ok_bind, usizeAdd_ok (by omega), ok_bind,
    usizeMul_ok (by omega), ok_bind, usizeMul_ok (by omega), ok_bind,
    usizeAdd_ok (by omega), ok_bind, usizeAdd_ok (by omega), ok_bind,
    slice_window hsrc, ok_bind, usizeAdd_ok (by omega), ok_bind]
  rw [copyFromSlice_ok (by omega) (by omega) (by
    rw [length_window hsrc]
    omega)]
  rw [blit, hpixel, Texture.pixel]

/-- The writes of the whole loop, in the order they are made. -/
def writes (t : Texture) (o : Orientation) : List (Nat × Bytes) :=
  (coords t.width.toNat t.height.toNat).map fun p => (targetCell t o p.1 p.2, t.pixel p.1 p.2)

theorem fits_writes :
    Raster.Fits (outHeight t o * outWidth t o) t.format.bytesPerPixel (writes t o) := by
  intro w hw
  obtain ⟨⟨x, y⟩, hp, rfl⟩ := List.mem_map.mp hw
  obtain ⟨hx, hy⟩ := mem_coords.mp hp
  exact ⟨targetCell_lt hx hy, t.length_pixel hx hy⟩

/-- No output cell is written twice. -/
theorem nodup_writes : ((writes t o).map Prod.fst).Nodup := by
  rw [writes, List.map_map]
  refine List.Nodup.map_on ?_ (nodup_coords _ _)
  rintro ⟨x, y⟩ hp ⟨x', y'⟩ hp' h
  obtain ⟨hx, hy⟩ := mem_coords.mp hp
  obtain ⟨hx', hy'⟩ := mem_coords.mp hp'
  obtain ⟨h₁, h₂⟩ := index_inj (target_lt t o hx hy).1 (target_lt t o hx' hy').1 h
  have e := sourceCoord_target t o hx hy
  have e' := sourceCoord_target t o hx' hy'
  dsimp only at e e'
  rw [h₁, h₂, e'] at e
  exact e.symm

/-- Every output cell is written, with the pixel the geometry shows there. -/
theorem mem_writes {x y : Nat} (hx : x < outWidth t o) (hy : y < outHeight t o) :
    (y * outWidth t o + x,
      t.pixel (sourceCoord o x y t.width.toNat t.height.toNat).1
        (sourceCoord o x y t.width.toNat t.height.toNat).2) ∈ writes t o := by
  obtain ⟨hx', hy'⟩ := sourceCoord_lt t o hx hy
  refine List.mem_map.mpr ⟨_, mem_coords.mpr ⟨hx', hy'⟩, ?_⟩
  have e := target_sourceCoord t o hx hy
  dsimp only at e
  rw [Prod.mk.injEq, targetCell, e]
  exact ⟨rfl, rfl⟩

/-- The two nested loops return, and leave the cells of `writes`. -/
theorem loop_ok {dst : Bytes}
    (hdst : dst.length = outHeight t o * outWidth t o * t.format.bytesPerPixel) :
    (List.range t.height.toNat).foldlM (fun dst sy =>
      (List.range t.width.toNat).foldlM
        (fun dst sx => copyPixel t o (outWidth t o * t.format.bytesPerPixel) dst sy sx) dst) dst =
      .ok (scatter t.format.bytesPerPixel dst (writes t o)) := by
  let bpp := t.format.bytesPerPixel
  let Inv : Bytes → Prop := fun dst => dst.length = outHeight t o * outWidth t o * bpp
  let put : Bytes → Nat → Nat → Bytes := fun dst x y =>
    blit dst (targetCell t o x y * bpp) (t.pixel x y)
  have step : ∀ y ∈ List.range t.height.toNat, ∀ dst, Inv dst → ∀ x ∈ List.range t.width.toNat,
      copyPixel t o (outWidth t o * bpp) dst y x = .ok (put dst x y) ∧ Inv (put dst x y) := by
    intro y hy dst hdst x hx
    rw [List.mem_range] at hx hy
    refine ⟨copyPixel_ok hx hy hdst, ?_⟩
    have hcell := cell_end_le (b := bpp) (targetCell_lt (o := o) hx hy)
    have hpixel := t.length_pixel hx hy
    exact (length_blit (by omega)).trans hdst
  let putRow : Bytes → Nat → Bytes := fun dst y =>
    (List.range t.width.toNat).foldl (fun dst x => put dst x y) dst
  have row : ∀ dst, Inv dst → ∀ y ∈ List.range t.height.toNat,
      (List.range t.width.toNat).foldlM (fun dst x => copyPixel t o (outWidth t o * bpp) dst y x)
        dst = .ok (putRow dst y) ∧ Inv (putRow dst y) := by
    intro dst hdst y hy
    exact foldlM_ok (step y hy) hdst
  rw [(foldlM_ok row hdst).1, foldl_coords put, scatter, writes, List.foldl_map]

/-- The cells of `writes`, read row by row, are the oriented picture. -/
theorem scatter_writes {dst : Bytes}
    (hdst : dst.length = outHeight t o * outWidth t o * t.format.bytesPerPixel) :
    scatter t.format.bytesPerPixel dst (writes t o) = t.orientedData o := by
  let shown : Nat → Bytes := fun i =>
    let q := sourceCoord o (i % outWidth t o) (i / outWidth t o) t.width.toNat t.height.toNat
    t.pixel q.1 q.2
  have at_index : ∀ {x y}, x < outWidth t o →
      shown (y * outWidth t o + x) =
        t.pixel (sourceCoord o x y t.width.toNat t.height.toNat).1
          (sourceCoord o x y t.width.toNat t.height.toNat).2 := by
    intro x y hx
    have hmod : (y * outWidth t o + x) % outWidth t o = x := by
      rw [Nat.add_comm, Nat.add_mul_mod_self_right, Nat.mod_eq_of_lt hx]
    have hdiv : (y * outWidth t o + x) / outWidth t o = y := by
      rw [Nat.add_comm, Nat.add_mul_div_right _ _ (by omega), Nat.div_eq_of_lt hx, Nat.zero_add]
    simp only [shown, hmod, hdiv]
  have covered : ∀ i < outHeight t o * outWidth t o, (i, shown i) ∈ writes t o := by
    intro i hi
    have hw : 0 < outWidth t o := Nat.pos_of_mul_pos_left (Nat.zero_lt_of_lt hi)
    have hx := Nat.mod_lt i hw
    have hy : i / outWidth t o < outHeight t o := Nat.div_lt_of_lt_mul (by rwa [Nat.mul_comm])
    have hi : i / outWidth t o * outWidth t o + i % outWidth t o = i := Nat.div_add_mod' _ _
    have h := mem_writes hx hy
    rwa [hi] at h
  rw [scatter_eq fits_writes hdst nodup_writes covered, ← flatMap_coords, Texture.orientedData]
  apply List.flatMap_congr
  intro p hp
  exact at_index (mem_coords.mp hp).1

end Transform

/-! ## Results -/

open Transform

/-- The transform of a texture up to its final `from_parts`. -/
theorem transformTexture_eq (t : Texture) (o : Orientation) :
    transformTexture t o =
      expect (Texture.fromParts (UInt32.ofNat (outWidth t o)) (UInt32.ofNat (outHeight t o))
        (UInt32.ofNat (outWidth t o * t.format.bytesPerPixel)) t.format (t.orientedData o))
        "byte-aligned transform always produces a valid texture" := by
  have hlt := t.data_length_lt
  have hpacked := t.packed_le o
  have hbpp := t.format.bytesPerPixel_le
  have hwidth : outWidth t o < 2 ^ 32 := by
    have hw := t.width.toNat_lt
    have hh := t.height.toNat_lt
    rw [outWidth]
    split <;> assumption
  have hrow : outWidth t o * t.format.bytesPerPixel ≤ 2 ^ 32 * 16 :=
    Nat.mul_le_mul hwidth.le hbpp
  have hsize : outWidth t o * t.format.bytesPerPixel * outHeight t o =
      outHeight t o * outWidth t o * t.format.bytesPerPixel := by
    rw [Nat.mul_comm, Nat.mul_assoc]
  have hzero : (List.replicate (outWidth t o * t.format.bytesPerPixel * outHeight t o)
      (0 : UInt8)).length = outHeight t o * outWidth t o * t.format.bytesPerPixel := by
    rw [List.length_replicate, hsize]
  rw [transformTexture, usizeMul_ok (by rw [usizeValues]; omega), ok_bind,
    usizeMul_ok (by omega), ok_bind]
  dsimp only
  rw [loop_ok hzero, ok_bind, scatter_writes hzero]

theorem length_orientedData (t : Texture) (o : Orientation) :
    (t.orientedData o).length = outHeight t o * outWidth t o * t.format.bytesPerPixel := by
  have hzero : (List.replicate (outHeight t o * outWidth t o * t.format.bytesPerPixel)
      (0 : UInt8)).length = outHeight t o * outWidth t o * t.format.bytesPerPixel :=
    List.length_replicate
  rw [← scatter_writes hzero]
  exact length_scatter fits_writes hzero

theorem toNat_ofNat_outWidth (t : Texture) (o : Orientation) :
    (UInt32.ofNat (outWidth t o)).toNat = outWidth t o := by
  rw [outWidth]
  split <;> exact UInt32.toNat_ofNat_of_lt' (UInt32.toNat_lt _)

theorem toNat_ofNat_outHeight (t : Texture) (o : Orientation) :
    (UInt32.ofNat (outHeight t o)).toNat = outHeight t o := by
  rw [outHeight]
  split <;> exact UInt32.toNat_ofNat_of_lt' (UInt32.toNat_lt _)

/-- A picture whose rows fit is transformed as the geometry says. -/
theorem transformTexture_ok {t : Texture} {o : Orientation} (h : t.RowFits o) :
    ∃ t', transformTexture t o = .ok t' ∧ t.Oriented o t' := by
  have hstride : (UInt32.ofNat (outWidth t o * t.format.bytesPerPixel)).toNat =
      outWidth t o * t.format.bytesPerPixel :=
    UInt32.toNat_ofNat_of_lt' (Nat.lt_of_le_of_lt h (by decide))
  have hvalid : (t.orientedData o).length =
        (UInt32.ofNat (outWidth t o * t.format.bytesPerPixel)).toNat *
          (UInt32.ofNat (outHeight t o)).toNat ∧
      (UInt32.ofNat (outWidth t o)).toNat * t.format.bytesPerPixel ≤
        (UInt32.ofNat (outWidth t o * t.format.bytesPerPixel)).toNat := by
    rw [hstride, toNat_ofNat_outWidth, toNat_ofNat_outHeight, length_orientedData,
      Nat.mul_comm _ (outHeight t o), Nat.mul_assoc]
    exact ⟨rfl, Nat.le_refl _⟩
  obtain ⟨t', ht'⟩ := Texture.fromParts_isSome.mpr hvalid
  refine ⟨t', by rw [transformTexture_eq, expect_ok ht'], ?_⟩
  obtain ⟨hw, hh, hs, hf, hd⟩ := Texture.fromParts_eq_some.mp ht'
  exact {
    width := by rw [hw, toNat_ofNat_outWidth]
    height := by rw [hh, toNat_ofNat_outHeight]
    stride := by rw [hs, hstride]
    format := hf
    data := hd }

/-- A row too long for `u32` loses its high bits in the cast of the stride, and
`from_parts` refuses it. -/
theorem transformTexture_panics {t : Texture} {o : Orientation} (h : ¬ t.RowFits o) :
    transformTexture t o =
      .error (.expectNone "byte-aligned transform always produces a valid texture") := by
  have hnone : Texture.fromParts (UInt32.ofNat (outWidth t o)) (UInt32.ofNat (outHeight t o))
      (UInt32.ofNat (outWidth t o * t.format.bytesPerPixel)) t.format (t.orientedData o) =
        none := by
    rw [Texture.fromParts_eq_none, toNat_ofNat_outWidth]
    rintro ⟨-, hrow⟩
    have hlt := UInt32.toNat_lt (UInt32.ofNat (outWidth t o * t.format.bytesPerPixel))
    rw [Texture.RowFits, u32Max] at h
    omega
  rw [transformTexture_eq, hnone]
  rfl

end GlycinNg
