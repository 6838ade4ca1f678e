import GlycinNg.Formats.Caps
import GlycinNg.Loader.Orientation

/-! # Caps after the orientation stage

The decoders compare the stored sizes with `Limits`; the orientation stage runs
later, on the caller's thread, and compares nothing. `limits_after_load_iff` says
when an image that was within its caps still is once it has been turned. -/
namespace GlycinNg
open Rust

/-- The sides of the image and of its frames, and their pixels, within the caps. -/
structure Image.WithinSizes (img : Image) (l : Limits) : Prop where
  width : img.width ≤ l.maxWidth
  height : img.height ≤ l.maxHeight
  frameSizes : ∀ f ∈ img.frames, f.width ≤ l.maxWidth ∧ f.height ≤ l.maxHeight
  pixels : (img.frames.map fun f => f.width.toNat * f.height.toNat).sum ≤ l.maxPixels.toNat

/-- Of the spatial caps only the one on the number of frames is missing. -/
theorem withinCaps_iff_withinSizes {img : Image} {l : Limits} :
    img.WithinCaps l ↔ img.WithinSizes l ∧ img.frames.length ≤ l.maxFrames.toNat := by
  constructor
  · intro h
    exact ⟨⟨h.width, h.height, h.frameSizes, h.pixels⟩, h.frames⟩
  · intro ⟨h, hframes⟩
    exact ⟨h.width, h.height, h.frameSizes, hframes, h.pixels⟩

/-- The caps do not look at the orientation field. -/
@[simp] theorem Image.withinSizes_setOrientation {img : Image} {o : Orientation} {l : Limits} :
    (img.setOrientation o).WithinSizes l ↔ img.WithinSizes l := by
  constructor
  · intro ⟨hwidth, hheight, hsizes, hpixels⟩
    exact ⟨hwidth, hheight, hsizes, hpixels⟩
  · intro ⟨hwidth, hheight, hsizes, hpixels⟩
    exact ⟨hwidth, hheight, hsizes, hpixels⟩

@[simp] theorem Image.withinSizes_setSandboxPosture {img : Image} {posture : SandboxPosture}
    {l : Limits} : (img.setSandboxPosture posture).WithinSizes l ↔ img.WithinSizes l := by
  constructor
  · intro ⟨hwidth, hheight, hsizes, hpixels⟩
    exact ⟨hwidth, hheight, hsizes, hpixels⟩
  · intro ⟨hwidth, hheight, hsizes, hpixels⟩
    exact ⟨hwidth, hheight, hsizes, hpixels⟩

/-- The sides are also within the caps when width and height change places. -/
structure Image.FitsTurned (img : Image) (l : Limits) : Prop where
  width : img.height ≤ l.maxWidth
  height : img.width ≤ l.maxHeight
  frameSizes : ∀ f ∈ img.frames, f.height ≤ l.maxWidth ∧ f.width ≤ l.maxHeight

namespace Metadata

/-- The size of a frame after `o`. -/
def frameBakedSize (o : Orientation) (f : Frame) : UInt32 × UInt32 :=
  if o.swapsAxes then (f.height, f.width) else (f.width, f.height)

theorem Baked.size_eq {o : Orientation} {f f' : Frame} (h : Baked o f f') :
    (f'.width, f'.height) = frameBakedSize o f := by
  have hw : f'.width.toNat = Transform.outWidth f.texture o := h.texture.width
  have hh : f'.height.toNat = Transform.outHeight f.texture o := h.texture.height
  unfold frameBakedSize
  unfold Transform.outWidth at hw
  unfold Transform.outHeight at hh
  cases hswap : o.swapsAxes <;> simp only [hswap, if_true, if_false, Bool.false_eq_true] at hw hh ⊢
  all_goals
    rw [Prod.mk.injEq, ← UInt32.toNat_inj, ← UInt32.toNat_inj]
    exact ⟨hw, hh⟩

/-- The sizes of baked frames, in order. -/
theorem sizes_baked {o : Orientation} {frames frames' : List Frame}
    (h : List.Forall₂ (Baked o) frames frames') :
    frames'.map (fun f => (f.width, f.height)) = frames.map (frameBakedSize o) := by
  induction h with
  | nil => rfl
  | cons hb _ ih => rw [List.map_cons, List.map_cons, ih, hb.size_eq]

/-- An orientation keeps the number of pixels of every frame. -/
theorem pixels_baked {o : Orientation} {frames frames' : List Frame}
    (h : List.Forall₂ (Baked o) frames frames') :
    frames'.map (fun f => f.width.toNat * f.height.toNat) =
      frames.map (fun f => f.width.toNat * f.height.toNat) := by
  have hsizes := congrArg (List.map fun p => p.1.toNat * p.2.toNat) (sizes_baked h)
  simp only [List.map_map, Function.comp_def] at hsizes
  rw [hsizes]
  apply List.map_congr_left
  intro f _
  unfold frameBakedSize
  split
  · exact Nat.mul_comm _ _
  · rfl

/-- A condition on the sizes of the baked frames, read off the frames before. -/
theorem forall_baked_iff {o : Orientation} {frames frames' : List Frame}
    (h : List.Forall₂ (Baked o) frames frames') {P : UInt32 × UInt32 → Prop} :
    (∀ f' ∈ frames', P (f'.width, f'.height)) ↔ ∀ f ∈ frames, P (frameBakedSize o f) := by
  rw [← List.forall_mem_map (f := fun f : Frame => (f.width, f.height)), sizes_baked h,
    List.forall_mem_map]

/-- Turning a picture that is within the caps keeps it there when no axes are
swapped, and otherwise exactly when the swapped sides are. -/
theorem withinSizes_bake_iff {img : Image} {o : Orientation} {frames : List Frame} {l : Limits}
    (hbaked : List.Forall₂ (Baked o) img.frames frames) (hin : img.WithinSizes l) :
    (img.replaceFrames frames (bakedSize img o).1 (bakedSize img o).2).WithinSizes l ↔
      (o.swapsAxes = true → img.FitsTurned l) := by
  have hsizes := forall_baked_iff hbaked (P := fun p => p.1 ≤ l.maxWidth ∧ p.2 ≤ l.maxHeight)
  have hpixels := pixels_baked hbaked
  have hsum := hin.pixels
  rw [← hpixels] at hsum
  cases hswap : o.swapsAxes with
  | false =>
    simp only [frameBakedSize, bakedSize, hswap, Bool.false_eq_true, if_false] at hsizes ⊢
    apply iff_of_true
    · exact ⟨hin.width, hin.height, hsizes.mpr hin.frameSizes, hsum⟩
    · intro hfalse
      cases hfalse
  | true =>
    simp only [frameBakedSize, bakedSize, hswap, if_true] at hsizes ⊢
    constructor
    · intro h _
      exact ⟨h.width, h.height, hsizes.mp h.frameSizes⟩
    · intro h
      have hturned := h trivial
      exact ⟨hturned.width, hturned.height, hsizes.mpr hturned.frameSizes, hsum⟩

/-- What the stage does to an image that is within its caps. -/
theorem withinSizes_oriented_iff {img img' : Image} {apply : Bool} {l : Limits}
    (h : applyOrientationIfPresent img apply = .ok img') (hin : img.WithinSizes l) :
    img'.WithinSizes l ↔
      (apply = true → (exifOrientation img).swapsAxes = true → img.FitsTurned l) := by
  by_cases ho : exifOrientation img = .normal
  · rw [apply_normal ho, Except.ok.injEq] at h
    subst h
    refine iff_of_true hin ?_
    intro _ hswap
    rw [ho] at hswap
    cases hswap
  cases apply with
  | false =>
    rw [report_orientation ho, Except.ok.injEq] at h
    subst h
    apply iff_of_true
    · rw [Image.withinSizes_setOrientation]
      exact hin
    · intro happly
      cases happly
  | true =>
    by_cases hfit : ∀ f ∈ img.frames, f.texture.RowFits (exifOrientation img)
    · obtain ⟨frames, hbaked, -, hrun⟩ := bake_orientation ho hfit
      rw [hrun, Except.ok.injEq] at h
      subst h
      rw [Image.withinSizes_setOrientation, withinSizes_bake_iff hbaked hin]
      simp only [true_implies]
    · rw [bake_panics ho (by simpa using hfit)] at h
      cases h

end Metadata

/-! ## Loads -/

/-- A load whose decode was within the caps returns an image within the caps
unless it bakes an orientation that swaps the axes and the swapped sides are not. -/
theorem limits_after_load_iff (loader : Loader) (host : Host) (base img : Image)
    (posture : SandboxPosture) (hdecoded : loader.decoded host = .ok (base, posture))
    (hin : base.WithinSizes loader.limits) (h : loader.load host = .ok (.ok img)) :
    img.WithinSizes loader.limits ↔
      (loader.applyTransformations = true →
        (Metadata.exifOrientation base).swapsAxes = true → base.FitsTurned loader.limits) := by
  obtain ⟨base', posture', oriented, hdecoded', horiented, rfl⟩ := Loader.load_ok h
  rw [hdecoded, Except.ok.injEq, Prod.mk.injEq] at hdecoded'
  obtain ⟨rfl, rfl⟩ := hdecoded'
  rw [Image.withinSizes_setSandboxPosture, Metadata.withinSizes_oriented_iff horiented hin]

/-- A cap of 2 on the width and of 1 on the height. -/
def lowLimits : Limits := { Limits.default with maxWidth := 2, maxHeight := 1 }

def lowLoader : Loader := { turnedLoader .png with limits := lowLimits }

/-- The two grey pixels side by side are within the caps. -/
theorem lowLoader_decoded :
    ∃ base posture, lowLoader.decoded (.plain turnedPair) = .ok (base, posture) ∧
      base.WithinSizes lowLimits := by
  refine ⟨_, _, rfl, ?_⟩
  exact ⟨by decide, by decide, List.forall_mem_singleton.mpr (by decide), by decide⟩

theorem limits_after_load_iff_turnedPair :
    ∃ base img posture, lowLoader.decoded (.plain turnedPair) = .ok (base, posture) ∧
      lowLoader.load (.plain turnedPair) = .ok (.ok img) ∧
      (img.WithinSizes lowLimits ↔
        (lowLoader.applyTransformations = true →
          (Metadata.exifOrientation base).swapsAxes = true → base.FitsTurned lowLimits)) := by
  obtain ⟨base, posture, hdecoded, hin⟩ := lowLoader_decoded
  refine ⟨base, _, posture, hdecoded, rfl, ?_⟩
  exact limits_after_load_iff lowLoader (.plain turnedPair) base _ posture hdecoded hin rfl

/-- Turned, they are one above the other, and the image is two pixels high. -/
theorem turnedPair_over_max_height :
    (∃ base posture, lowLoader.decoded (.plain turnedPair) = .ok (base, posture) ∧
      base.WithinSizes lowLimits) ∧
    ∃ img, lowLoader.load (.plain turnedPair) = .ok (.ok img) ∧ img.height = 2 ∧
      ¬ img.WithinSizes lowLimits := by
  refine ⟨lowLoader_decoded, _, rfl, rfl, ?_⟩
  intro h
  exact absurd h.height (by decide)

end GlycinNg
