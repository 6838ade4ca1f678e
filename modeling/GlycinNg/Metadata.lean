import GlycinNg.Metadata.Exif
import GlycinNg.Metadata.Transform

/-! # The orientation stage of a load

`metadata/mod.rs`. The stage runs on the caller's thread on untrusted bytes and
sizes. `exifOrientation` is what the blob asks for; each of the two modes is
described by one lemma, and the main results compare the modes
(`orientation_modes_agree`) and say exactly when the stage returns
(`applyOrientation_returns_iff`). -/
namespace GlycinNg
open Rust Transform

namespace Metadata

/-- `metadata::apply_orientation_if_present`. -/
def applyOrientationIfPresent (img : Image) (apply : Bool) : Checked Image :=
  match img.exif with
  | none => return img
  | some blob => do
    match ← Exif.parseOrientation blob with
    | none => return img
    | some raw =>
      let orientation := Orientation.fromExif raw
      if orientation = .normal then return img
      else if !apply then return img.setOrientation orientation
      else return (← bakeIntoFrames img orientation).setOrientation .normal

/-- The orientation the EXIF blob of an image asks for. -/
def exifOrientation (img : Image) : Orientation :=
  match img.exif with
  | none => .normal
  | some blob =>
    match Exif.parseOrientation blob with
    | .ok (some raw) => .fromExif raw
    | _ => .normal

/-- `f'` shows `f` as `o` orients it, for the same time. -/
structure Baked (o : Orientation) (f f' : Frame) : Prop where
  texture : f.texture.Oriented o f'.texture
  delay : f'.delay = f.delay

/-- Everything `apply_orientation_if_present` has no business touching. -/
structure SameMetadata (img img' : Image) : Prop where
  formatName : img'.formatName = img.formatName
  iccProfile : img'.iccProfile = img.iccProfile
  exif : img'.exif = img.exif
  metadataKeyValue : img'.metadataKeyValue = img.metadataKeyValue
  cicp : img'.cicp = img.cicp

theorem SameMetadata.refl (img : Image) : SameMetadata img img := ⟨rfl, rfl, rfl, rfl, rfl⟩

/-! ## One frame list -/

/-- The picture size after `o`. -/
def bakedSize (img : Image) (o : Orientation) : UInt32 × UInt32 :=
  if o.swapsAxes then (img.height, img.width) else (img.width, img.height)

/-- The frames of a picture whose rows all fit are transformed one by one. -/
theorem bakeIntoFrames_ok {img : Image} {o : Orientation} (ho : o ≠ .normal)
    (hfit : ∀ f ∈ img.frames, f.texture.RowFits o) :
    ∃ frames, List.Forall₂ (Baked o) img.frames frames ∧
      bakeIntoFrames img o =
        .ok (img.replaceFrames frames (bakedSize img o).1 (bakedSize img o).2) := by
  have hframe : ∀ f ∈ img.frames,
      ∃ f', (do return ⟨← transformTexture f.texture o, f.delay⟩) = Except.ok f' ∧
        Baked o f f' := by
    intro f hf
    obtain ⟨t', ht', hor⟩ := transformTexture_ok (hfit f hf)
    exact ⟨⟨t', f.delay⟩, by rw [ht']; rfl, hor, rfl⟩
  obtain ⟨frames, hrun, hbaked⟩ := exists_mapM_ok hframe
  refine ⟨frames, hbaked, ?_⟩
  rw [bakeIntoFrames, if_neg ho, hrun, ok_bind, bakedSize]
  cases o.swapsAxes <;> rfl

/-- One frame whose rows do not fit is enough for the panic. -/
theorem bakeIntoFrames_panics {img : Image} {o : Orientation} (ho : o ≠ .normal)
    (hfit : ∃ f ∈ img.frames, ¬ f.texture.RowFits o) :
    bakeIntoFrames img o =
      .error (.expectNone "byte-aligned transform always produces a valid texture") := by
  obtain ⟨f, hf, hrow⟩ := hfit
  have hmap : (img.frames.mapM fun f => do
        return (⟨← transformTexture f.texture o, f.delay⟩ : Frame)) =
      .error (.expectNone "byte-aligned transform always produces a valid texture") := by
    refine mapM_error ⟨f, hf, by rw [transformTexture_panics hrow]; rfl⟩ ?_
    intro f' _ e he
    by_cases h : f'.texture.RowFits o
    · obtain ⟨t', ht', -⟩ := transformTexture_ok h
      rw [ht'] at he
      cases he
    · rw [transformTexture_panics h] at he
      cases he
      rfl
  rw [bakeIntoFrames, if_neg ho, hmap, error_bind]

/-- Baking neither reads nor writes the orientation field. -/
theorem bakeIntoFrames_setOrientation (img : Image) (o o' : Orientation) :
    bakeIntoFrames (img.setOrientation o') o =
      (do return (← bakeIntoFrames img o).setOrientation o') := by
  unfold bakeIntoFrames
  split
  · rfl
  · rw [show (img.setOrientation o').frames = img.frames from rfl]
    cases img.frames.mapM fun f => do
      return (⟨← transformTexture f.texture o, f.delay⟩ : Frame) <;> rfl

/-! ## The two modes -/

/-- The parser never panics, so the stage is a function of the orientation the
blob asks for. -/
theorem applyOrientationIfPresent_eq (img : Image) (apply : Bool) :
    applyOrientationIfPresent img apply =
      if exifOrientation img = .normal then .ok img
      else if apply then do
        return (← bakeIntoFrames img (exifOrientation img)).setOrientation .normal
      else .ok (img.setOrientation (exifOrientation img)) := by
  cases hexif : img.exif with
  | none =>
    have ho : exifOrientation img = .normal := by simp only [exifOrientation, hexif]
    rw [if_pos ho]
    simp only [applyOrientationIfPresent, hexif]
    rfl
  | some blob =>
    obtain ⟨tag, htag⟩ := Exif.parseOrientation_ok blob
    cases tag with
    | none =>
      have ho : exifOrientation img = .normal := by simp only [exifOrientation, hexif, htag]
      rw [if_pos ho]
      simp only [applyOrientationIfPresent, hexif, htag, ok_bind]
      rfl
    | some raw =>
      have ho : exifOrientation img = .fromExif raw := by simp only [exifOrientation, hexif, htag]
      simp only [applyOrientationIfPresent, hexif, htag, ok_bind, ho]
      cases apply <;> rfl

theorem apply_normal {img : Image} (h : exifOrientation img = .normal) (apply : Bool) :
    applyOrientationIfPresent img apply = .ok img := by
  rw [applyOrientationIfPresent_eq, if_pos h]

/-- Reporting mode: only the orientation field changes. -/
theorem report_orientation {img : Image} (h : exifOrientation img ≠ .normal) :
    applyOrientationIfPresent img false = .ok (img.setOrientation (exifOrientation img)) := by
  rw [applyOrientationIfPresent_eq, if_neg h]
  rfl

/-- Baking mode, when all rows fit. -/
theorem bake_orientation {img : Image} (h : exifOrientation img ≠ .normal)
    (hfit : ∀ f ∈ img.frames, f.texture.RowFits (exifOrientation img)) :
    ∃ frames, List.Forall₂ (Baked (exifOrientation img)) img.frames frames ∧
      bakeIntoFrames img (exifOrientation img) =
        .ok (img.replaceFrames frames (bakedSize img (exifOrientation img)).1
          (bakedSize img (exifOrientation img)).2) ∧
      applyOrientationIfPresent img true =
        .ok ((img.replaceFrames frames (bakedSize img (exifOrientation img)).1
          (bakedSize img (exifOrientation img)).2).setOrientation .normal) := by
  obtain ⟨frames, hbaked, hrun⟩ := bakeIntoFrames_ok h hfit
  refine ⟨frames, hbaked, hrun, ?_⟩
  rw [applyOrientationIfPresent_eq, if_neg h, if_pos rfl, hrun]
  rfl

/-- Baking mode, when a row does not fit. -/
theorem bake_panics {img : Image} (h : exifOrientation img ≠ .normal)
    (hfit : ∃ f ∈ img.frames, ¬ f.texture.RowFits (exifOrientation img)) :
    applyOrientationIfPresent img true =
      .error (.expectNone "byte-aligned transform always produces a valid texture") := by
  rw [applyOrientationIfPresent_eq, if_neg h, if_pos rfl, bakeIntoFrames_panics h hfit]
  rfl

/-- The stage leaves every other field of the image alone. -/
theorem applyOrientationIfPresent_metadata {img img' : Image} {apply : Bool}
    (h : applyOrientationIfPresent img apply = .ok img') : SameMetadata img img' := by
  by_cases ho : exifOrientation img = .normal
  · rw [apply_normal ho, Except.ok.injEq] at h
    rw [← h]
    exact .refl img
  · cases apply with
    | false =>
      rw [report_orientation ho, Except.ok.injEq] at h
      rw [← h]
      exact ⟨rfl, rfl, rfl, rfl, rfl⟩
    | true =>
      by_cases hfit : ∀ f ∈ img.frames, f.texture.RowFits (exifOrientation img)
      · obtain ⟨frames, -, -, hrun⟩ := bake_orientation ho hfit
        rw [hrun, Except.ok.injEq] at h
        rw [← h]
        exact ⟨rfl, rfl, rfl, rfl, rfl⟩
      · rw [bake_panics ho (by simpa using hfit)] at h
        cases h

/-! ## Main results -/

/-- A picture with rows of at most `u32::MAX` bytes in both directions comes out
of both modes, and baking the reported orientation gives what the other mode
gives. -/
theorem orientation_modes_agree (img : Image) (hnormal : img.orientation = .normal)
    (hrow : ∀ f ∈ img.frames,
      f.height.toNat * f.texture.format.bytesPerPixel ≤ u32Max ∧
        f.width.toNat * f.texture.format.bytesPerPixel ≤ u32Max) :
    ∃ reported baked applied,
      applyOrientationIfPresent img false = .ok reported ∧
      bakeIntoFrames reported reported.orientation = .ok baked ∧
      applyOrientationIfPresent img true = .ok applied ∧
      baked.width = applied.width ∧ baked.height = applied.height ∧
      baked.frames = applied.frames ∧
      SameMetadata img reported ∧ SameMetadata img baked ∧ SameMetadata img applied ∧
      applied.orientation = .normal ∧
      reported.frames = img.frames ∧ reported.width = img.width ∧
      reported.height = img.height := by
  by_cases ho : exifOrientation img = .normal
  · have hbake : bakeIntoFrames img img.orientation = .ok img := by
      rw [hnormal, bakeIntoFrames, if_pos rfl]
      rfl
    exact ⟨img, img, img, apply_normal ho false, hbake, apply_normal ho true, rfl, rfl, rfl,
      .refl img, .refl img, .refl img, hnormal, rfl, rfl, rfl⟩
  · have hfit : ∀ f ∈ img.frames, f.texture.RowFits (exifOrientation img) := by
      intro f hf
      rw [Texture.rowFits_iff]
      intro _
      exact (hrow f hf).1
    obtain ⟨frames, -, hbake, happly⟩ := bake_orientation ho hfit
    have hbaked := bakeIntoFrames_setOrientation img (exifOrientation img) (exifOrientation img)
    rw [hbake] at hbaked
    have hreport := report_orientation ho
    refine ⟨_, _, _, hreport, hbaked, happly, rfl, rfl, rfl, ?_, ?_, ?_, rfl, rfl, rfl, rfl⟩
    · exact applyOrientationIfPresent_metadata hreport
    · exact ⟨rfl, rfl, rfl, rfl, rfl⟩
    · exact applyOrientationIfPresent_metadata happly

/-- A big-endian directory whose only entry is an orientation tag with value 6. -/
def rotate90Blob : Bytes :=
  [0x4d, 0x4d, 0x00, 0x2a, 0x00, 0x00, 0x00, 0x08, 0x00, 0x01, 0x01, 0x12, 0x00, 0x03,
    0x00, 0x00, 0x00, 0x01, 0x00, 0x06, 0x00, 0x00, 0x00, 0x00, 0x00, 0x00]

theorem orientation_modes_agree_two_by_one :
    let frame : Frame := ⟨⟨2, 1, 2, .g8, [10, 20], rfl, by decide⟩, none⟩
    let img := (Image.fromParts "png" 2 1 [frame]).setExif rotate90Blob
    ∃ reported baked applied,
      applyOrientationIfPresent img false = .ok reported ∧
      bakeIntoFrames reported reported.orientation = .ok baked ∧
      applyOrientationIfPresent img true = .ok applied ∧
      baked.width = applied.width ∧ baked.height = applied.height ∧
      baked.frames = applied.frames ∧
      SameMetadata img reported ∧ SameMetadata img baked ∧ SameMetadata img applied ∧
      applied.orientation = .normal ∧
      reported.frames = img.frames ∧ reported.width = img.width ∧
      reported.height = img.height :=
  orientation_modes_agree _ rfl (by decide)

/-- The stage returns unless it has to bake an orientation that swaps axes into
a frame whose columns are longer, in bytes, than `u32::MAX`. -/
theorem applyOrientation_returns_iff (img : Image) (apply : Bool) :
    (∃ img', applyOrientationIfPresent img apply = .ok img') ↔
      (apply = true → (exifOrientation img).swapsAxes = true →
        ∀ f ∈ img.frames, f.height.toNat * f.texture.format.bytesPerPixel ≤ u32Max) := by
  by_cases ho : exifOrientation img = .normal
  · constructor
    · intro _ _ hswap
      rw [ho] at hswap
      cases hswap
    · intro _
      exact ⟨img, apply_normal ho apply⟩
  · cases apply with
    | false =>
      constructor
      · intro _ happly
        cases happly
      · intro _
        exact ⟨_, report_orientation ho⟩
    | true =>
      constructor
      · intro ⟨img', h⟩ _ hswap f hf
        by_cases hrow : f.texture.RowFits (exifOrientation img)
        · exact (Texture.rowFits_iff _ _).mp hrow hswap
        · rw [bake_panics ho ⟨f, hf, hrow⟩] at h
          cases h
      · intro h
        have hfit : ∀ f ∈ img.frames, f.texture.RowFits (exifOrientation img) := by
          intro f hf
          rw [Texture.rowFits_iff]
          intro hswap
          exact h rfl hswap f hf
        obtain ⟨frames, -, -, hrun⟩ := bake_orientation ho hfit
        exact ⟨_, hrun⟩

/-- A texture of width 0 may be 2³⁰ pixels high; turned by 90 degrees its rows of
4-byte pixels are 2³² bytes long, and the cast of the stride leaves 0. -/
theorem applyOrientation_panics_on_long_column :
    let frame : Frame := ⟨⟨0, 1073741824, 0, .r8g8b8a8, [], rfl, by decide⟩, none⟩
    let img := (Image.fromParts "png" 0 1073741824 [frame]).setExif rotate90Blob
    applyOrientationIfPresent img true =
      .error (.expectNone "byte-aligned transform always produces a valid texture") :=
  bake_panics (by decide) ⟨_, List.mem_singleton.mpr rfl, by decide⟩

end Metadata

end GlycinNg
