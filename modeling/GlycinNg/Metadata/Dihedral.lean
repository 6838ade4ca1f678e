import GlycinNg.Metadata.Geometry
import Mathlib.GroupTheory.SpecificGroups.Dihedral

/-! # Orientations as symmetries of the square

The eight EXIF orientations are the symmetries of a square: quarter turns, after a
horizontal flip or not. The product `a * b` is "`a`, then `b`", and transforming a
texture twice is transforming it once by the product (`transform_dihedral`),
whatever its size, stride and format. -/
namespace GlycinNg
open Rust Raster Transform

namespace Orientation

/-- An orientation as a symmetry: `r k` is `k` quarter turns clockwise, `sr k` a
horizontal flip followed by `k` quarter turns. -/
def symmetry : Orientation → DihedralGroup 4
  | normal => .r 0
  | rotate90 => .r 1
  | rotate180 => .r 2
  | rotate270 => .r 3
  | flipHorizontal => .sr 0
  | transverse => .sr 1
  | flipVertical => .sr 2
  | transpose => .sr 3

/-- The rotation by `k` quarter turns. -/
def rotation (k : Fin 4) : Orientation :=
  match k with
  | 0 => normal
  | 1 => rotate90
  | 2 => rotate180
  | 3 => rotate270

/-- The horizontal flip followed by `k` quarter turns. -/
def reflection (k : Fin 4) : Orientation :=
  match k with
  | 0 => flipHorizontal
  | 1 => transverse
  | 2 => flipVertical
  | 3 => transpose

/-- The orientation that performs a symmetry. -/
def ofSymmetry : DihedralGroup 4 → Orientation
  | .r k => rotation k
  | .sr k => reflection k

theorem ofSymmetry_symmetry (o : Orientation) : ofSymmetry o.symmetry = o := by
  cases o <;> rfl

theorem symmetry_ofSymmetry (g : DihedralGroup 4) : (ofSymmetry g).symmetry = g := by
  rcases g with k | k <;> revert k <;> decide

/-- Orientations and symmetries of the square correspond. -/
def symmetries : Orientation ≃ DihedralGroup 4 where
  toFun := symmetry
  invFun := ofSymmetry
  left_inv := ofSymmetry_symmetry
  right_inv := symmetry_ofSymmetry

/-- The composition table of the orientations. -/
instance instGroup : Group Orientation := symmetries.group

/-- Composing orientations is composing symmetries. -/
def symmetriesMul : Orientation ≃* DihedralGroup 4 := symmetries.mulEquiv

theorem one_eq : (1 : Orientation) = normal := rfl

theorem inv_rotate90 : rotate90⁻¹ = rotate270 := rfl

theorem inv_rotate270 : rotate270⁻¹ = rotate90 := rfl

/-- Apart from the two quarter turns every orientation undoes itself. -/
theorem inv_eq_self {o : Orientation} (h₉₀ : o ≠ rotate90) (h₂₇₀ : o ≠ rotate270) : o⁻¹ = o := by
  cases o with
  | rotate90 => exact absurd rfl h₉₀
  | rotate270 => exact absurd rfl h₂₇₀
  | _ => rfl

/-- Two swaps of the axes cancel. -/
theorem swapsAxes_mul (a b : Orientation) :
    (a * b).swapsAxes = (a.swapsAxes ^^ b.swapsAxes) := by
  cases a <;> cases b <;> rfl

end Orientation

namespace Transform

section
variable (t : Texture) (a b : Orientation)

/-- The size of the picture after two transforms. -/
theorem outWidth_mul :
    outWidth t (a * b) = if b.swapsAxes then outHeight t a else outWidth t a := by
  unfold outWidth outHeight
  rw [Orientation.swapsAxes_mul]
  cases a.swapsAxes <;> cases b.swapsAxes <;> rfl

theorem outHeight_mul :
    outHeight t (a * b) = if b.swapsAxes then outWidth t a else outHeight t a := by
  unfold outWidth outHeight
  rw [Orientation.swapsAxes_mul]
  cases a.swapsAxes <;> cases b.swapsAxes <;> rfl

/-- Looking a position up in the second transform and then in the first one is
looking it up in the product. -/
theorem sourceCoord_mul {x y : Nat} (hx : x < outWidth t (a * b)) (hy : y < outHeight t (a * b)) :
    let p := sourceCoord b x y (outWidth t a) (outHeight t a)
    sourceCoord a p.1 p.2 t.width.toNat t.height.toNat =
      sourceCoord (a * b) x y t.width.toNat t.height.toNat := by
  rw [outWidth_mul] at hx
  rw [outHeight_mul] at hy
  cases a <;> cases b
  all_goals
    simp only [outWidth, outHeight, Orientation.swapsAxes, Bool.false_eq_true, if_true,
      if_false] at hx hy ⊢
    conv_rhs => whnf
    apply Prod.ext <;> dsimp only [sourceCoord] <;> omega

end

variable {t t₁ : Texture} {a : Orientation}

/-- A second transform sees the size the first one left. -/
theorem outWidth_of_oriented (h : t.Oriented a t₁) (b : Orientation) :
    outWidth t₁ b = outWidth t (a * b) := by
  rw [outWidth_mul, outWidth, h.width, h.height]

theorem outHeight_of_oriented (h : t.Oriented a t₁) (b : Orientation) :
    outHeight t₁ b = outHeight t (a * b) := by
  rw [outHeight_mul, outHeight, h.width, h.height]

/-- The picture a second transform makes of the first one's. -/
theorem orientedData_mul (h : t.Oriented a t₁) (b : Orientation) :
    t₁.orientedData b = t.orientedData (a * b) := by
  unfold Texture.orientedData
  rw [outWidth_of_oriented h, outHeight_of_oriented h]
  apply List.flatMap_congr
  intro p hp
  obtain ⟨hx, hy⟩ := mem_coords.mp hp
  have hmul := sourceCoord_mul t a b hx hy
  rw [← outWidth_of_oriented h] at hx
  rw [← outHeight_of_oriented h] at hy
  obtain ⟨hx₁, hy₁⟩ := sourceCoord_lt t₁ b hx hy
  have hpixel := h.turnedBy.pixels _ _ hx₁ hy₁
  dsimp only at hmul ⊢
  rw [hpixel, h.width, h.height, hmul]

/-- Transforming twice is transforming by the product, panics included. -/
theorem transformTexture_mul (h : t.Oriented a t₁) (b : Orientation) :
    transformTexture t₁ b = transformTexture t (a * b) := by
  rw [transformTexture_eq, transformTexture_eq, outWidth_of_oriented h, outHeight_of_oriented h,
    orientedData_mul h, h.format]

end Transform

/-- `t'` shows the picture of `t` without padding between the rows. -/
structure Texture.PackedCopy (t t' : Texture) : Prop where
  width : t'.width = t.width
  height : t'.height = t.height
  format : t'.format = t.format
  stride : t'.stride.toNat = t.width.toNat * t.format.bytesPerPixel
  pixels : ∀ x y, x < t.width.toNat → y < t.height.toNat → t'.pixel x y = t.pixel x y

theorem Texture.TurnedBy.packedCopy {t t' : Texture} (h : t.TurnedBy .normal t') :
    t.PackedCopy t' := by
  obtain ⟨hw, hh⟩ := Prod.mk.inj h.size
  refine ⟨hw, hh, h.format, ?_, ?_⟩
  · rw [h.stride, hw]
  · intro x y hx hy
    rw [← hw] at hx
    rw [← hh] at hy
    exact h.pixels x y hx hy

/-- The orientations form the dihedral group of order eight under a composition
with `normal` as identity, `rotate90` and `rotate270` inverse to each other and
every other one inverse to itself, and this group acts on the textures whose rows
are short enough in both directions. -/
theorem transform_dihedral :
    Nonempty (Orientation ≃* DihedralGroup 4) ∧ Fintype.card (DihedralGroup 4) = 8 ∧
    (1 : Orientation) = .normal ∧
    Orientation.rotate90⁻¹ = .rotate270 ∧ Orientation.rotate270⁻¹ = .rotate90 ∧
    (∀ o : Orientation, o ≠ .rotate90 → o ≠ .rotate270 → o⁻¹ = o) ∧
    ∀ t : Texture, t.width.toNat * t.format.bytesPerPixel ≤ u32Max →
      t.height.toNat * t.format.bytesPerPixel ≤ u32Max →
      (∀ a b : Orientation, ∃ t₁ t₂, transformTexture t a = .ok t₁ ∧
        transformTexture t₁ b = .ok t₂ ∧ transformTexture t (a * b) = .ok t₂) ∧
      ∀ a : Orientation, ∃ t₁ t₂, transformTexture t a = .ok t₁ ∧
        transformTexture t₁ a⁻¹ = .ok t₂ ∧ t.PackedCopy t₂ := by
  refine ⟨⟨Orientation.symmetriesMul⟩, DihedralGroup.card, Orientation.one_eq,
    Orientation.inv_rotate90, Orientation.inv_rotate270, fun _ => Orientation.inv_eq_self, ?_⟩
  intro t _ hcolumn
  have hfits : ∀ o, t.RowFits o := by
    intro o
    rw [Texture.rowFits_iff]
    intro _
    exact hcolumn
  have twice : ∀ a b : Orientation, ∃ t₁ t₂, transformTexture t a = .ok t₁ ∧
      transformTexture t₁ b = .ok t₂ ∧ transformTexture t (a * b) = .ok t₂ ∧
        t.TurnedBy (a * b) t₂ := by
    intro a b
    obtain ⟨t₁, ht₁, horiented⟩ := transformTexture_ok (hfits a)
    obtain ⟨t₂, ht₂, horiented₂⟩ := transformTexture_ok (hfits (a * b))
    exact ⟨t₁, t₂, ht₁, (transformTexture_mul horiented b).trans ht₂, ht₂, horiented₂.turnedBy⟩
  constructor
  · intro a b
    obtain ⟨t₁, t₂, ht₁, ht₂, hmul, -⟩ := twice a b
    exact ⟨t₁, t₂, ht₁, ht₂, hmul⟩
  · intro a
    obtain ⟨t₁, t₂, ht₁, ht₂, -, hturned⟩ := twice a a⁻¹
    rw [mul_inv_cancel] at hturned
    exact ⟨t₁, t₂, ht₁, ht₂, hturned.packedCopy⟩

theorem transform_dihedral_paddedPair :
    ∃ t₁ t₂, transformTexture paddedPair .rotate90 = .ok t₁ ∧
      transformTexture t₁ .rotate270 = .ok t₂ ∧ paddedPair.PackedCopy t₂ := by
  obtain ⟨-, -, -, -, -, -, acts⟩ := transform_dihedral
  exact (acts paddedPair (by decide) (by decide)).2 .rotate90

end GlycinNg
