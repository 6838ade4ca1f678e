import GlycinNg.Loader

/-! # EXIF orientation end to end

`metadata/exif.rs` names three containers of an EXIF blob: PNG, JPEG and WebP.
The orientation a blob asks for reaches the caller when the decoder carries the
blob onto the image, the parser finds the tag and the stage after the worker
acts on it. `exif_honoured_iff` says for which loads all of this happens. -/
namespace GlycinNg
open Rust

/-- The EXIF blob the codec of one of the three containers hands out. -/
def Codecs.exposedExif (c : Codecs) (format : KnownFormat) (bytes : Bytes)
    (opts : DecodeOptions) : Option Bytes :=
  match format with
  | .png => (c.png (memoryLimit opts) bytes).toOption.bind (·.exifMetadata)
  | .jpeg => (c.jpeg bytes).exifData
  | .webP => (c.webP bytes).toOption.bind fun decoder => decoder.exifMetadata.toOption.join
  | _ => none

/-- PNG and WebP images carry the blob; JPEG images carry none. -/
theorem dispatch_exif {c : Codecs} {format : KnownFormat} {bytes : Bytes} {opts : DecodeOptions}
    {img : Image} (hformat : format = .png ∨ format = .webP ∨ format = .jpeg)
    (h : (dispatch c format bytes opts).result = .ok img) :
    img.exif = if format = .jpeg then none else c.exposedExif format bytes opts := by
  rcases hformat with rfl | rfl | rfl
  · obtain ⟨r, d, hr, -, -, -, hexif⟩ := Png.decode_ok h
    simp [Codecs.exposedExif, hr, hexif, Except.toOption]
  · obtain ⟨decoder, d, hdecoder, -, -, -, hexif, -⟩ := WebP.decode_ok h
    simp [Codecs.exposedExif, hdecoder, hexif, Except.toOption]
  · obtain ⟨p, -, -, -, hexif⟩ := Jpeg.decode_ok h
    exact hexif

theorem exifOrientation_encode {img : Image} {b : Exif.Blob} {o : Orientation}
    (hexif : img.exif = some b.encode) (ho : b.orientation = some o.exifValue) :
    Metadata.exifOrientation img = o := by
  simp only [Metadata.exifOrientation, hexif, Exif.parseOrientation_encode, ho,
    Orientation.fromExif_exifValue]

theorem exifOrientation_none {img : Image} (hexif : img.exif = none) :
    Metadata.exifOrientation img = .normal := by
  simp only [Metadata.exifOrientation, hexif]

namespace Loader
variable (loader : Loader) (host : Host) (o : Orientation) (d : Delivery)

/-- With transformations on, the load returns the codec's pictures as `o`
orients them, and nothing is left to orient. -/
def Bakes : Prop :=
  ∃ img, (loader.withApplyTransformations true).load host = .ok (.ok img) ∧
    img.orientation = .normal ∧
    List.Forall₂ (fun s f => ∃ f₀ : Frame, f₀.Carries s ∧ Metadata.Baked o f₀ f)
      d.shots img.frames

/-- With transformations off, it returns the codec's pictures and reports `o`. -/
def Reports : Prop :=
  ∃ img, (loader.withApplyTransformations false).load host = .ok (.ok img) ∧
    img.orientation = o ∧ List.Forall₂ (fun s f => Frame.Carries f s) d.shots img.frames

end Loader

/-- The byte length of a column of pixels. -/
def Picture.columnBytes (p : Picture) : Nat := p.height.toNat * p.format.bytesPerPixel

/-- Whether the rows of a turned image fit is decided by the columns of the delivery. -/
theorem rowFits_of_carries {img : Image} {d : Delivery} (h : img.Carries d) (o : Orientation) :
    (∀ f ∈ img.frames, f.texture.RowFits o) ↔
      (o.swapsAxes = true → ∀ s ∈ d.shots, s.picture.columnBytes ≤ u32Max) := by
  have hcolumns : img.frames.map (fun f => f.height.toNat * f.texture.format.bytesPerPixel) =
      d.shots.map (fun s => s.picture.columnBytes) :=
    h.map_eq fun hc => by rw [hc.height_eq, hc.texture.format, Picture.columnBytes]
  have hforall : (∀ f ∈ img.frames, f.height.toNat * f.texture.format.bytesPerPixel ≤ u32Max) ↔
      ∀ s ∈ d.shots, s.picture.columnBytes ≤ u32Max := by
    rw [← List.forall_mem_map (P := (· ≤ u32Max)) (f := fun s : Shot => s.picture.columnBytes),
      ← hcolumns, List.forall_mem_map]
  rw [← hforall]
  simp only [Texture.rowFits_iff]
  constructor
  · intro hfits hswap f hf
    exact hfits f hf hswap
  · intro hfits f hf hswap
    exact hfits hswap f hf

/-- Frames that carry the shots, each baked by `o`. -/
theorem carries_baked {o : Orientation} {shots : List Shot} {frames frames' : List Frame}
    (hcarries : List.Forall₂ (fun s f => Frame.Carries f s) shots frames)
    (hbaked : List.Forall₂ (Metadata.Baked o) frames frames') :
    List.Forall₂ (fun s f => ∃ f₀ : Frame, f₀.Carries s ∧ Metadata.Baked o f₀ f) shots
      frames' := by
  induction hcarries generalizing frames' with
  | nil =>
    cases hbaked
    exact .nil
  | cons hc _ ih =>
    cases hbaked with
    | cons hb hrest => exact .cons ⟨_, hc, hb⟩ (ih hrest)

namespace Loader
variable {loader : Loader} {host : Host} {base : Image} {posture : SandboxPosture}
  {o : Orientation} {d : Delivery}

/-- Reporting mode on an image that asks for `o`. -/
theorem reports_of_orientation (h : loader.decoded host = .ok (base, posture))
    (hcarries : base.Carries d) (ho : Metadata.exifOrientation base = o) (hne : o ≠ .normal) :
    loader.Reports host o d := by
  subst ho
  have hdecoded := (loader.decoded_withApplyTransformations false).trans h
  refine ⟨(base.setOrientation _).setSandboxPosture posture, ?_, rfl, hcarries.frames⟩
  rw [load_of_decoded hdecoded, withApplyTransformations, Metadata.report_orientation hne, ok_bind]
  rfl

/-- Baking mode succeeds on such an image when all turned rows fit. -/
theorem bakes_iff_of_orientation (h : loader.decoded host = .ok (base, posture))
    (hcarries : base.Carries d) (ho : Metadata.exifOrientation base = o) (hne : o ≠ .normal) :
    loader.Bakes host o d ↔
      (o.swapsAxes = true → ∀ s ∈ d.shots, s.picture.columnBytes ≤ u32Max) := by
  subst ho
  have hdecoded := (loader.decoded_withApplyTransformations true).trans h
  rw [← rowFits_of_carries hcarries]
  constructor
  · intro ⟨img, hload, _⟩
    by_contra hfit
    rw [load_of_decoded hdecoded, withApplyTransformations,
      Metadata.bake_panics hne (by simpa using hfit)] at hload
    cases hload
  · intro hfit
    obtain ⟨frames, hbaked, -, hrun⟩ := Metadata.bake_orientation hne hfit
    let baked := base.replaceFrames frames
      (Metadata.bakedSize base (Metadata.exifOrientation base)).1
      (Metadata.bakedSize base (Metadata.exifOrientation base)).2
    refine ⟨(baked.setOrientation .normal).setSandboxPosture posture, ?_, rfl,
      carries_baked hcarries.frames hbaked⟩
    rw [load_of_decoded hdecoded, withApplyTransformations, hrun, ok_bind]
    rfl

/-- The stage leaves an image alone that asks for nothing. -/
theorem load_of_normal (h : loader.decoded host = .ok (base, posture))
    (hnormal : Metadata.exifOrientation base = .normal) (apply : Bool) :
    (loader.withApplyTransformations apply).load host =
      .ok (.ok (base.setSandboxPosture posture)) := by
  have hdecoded := (loader.decoded_withApplyTransformations apply).trans h
  rw [load_of_decoded hdecoded, Metadata.apply_normal hnormal, ok_bind]
  rfl

/-- What the worker answers is the delivery of the codec, and carries the blob of
a PNG or WebP. -/
theorem decoded_carries {format : KnownFormat} {bytes : Bytes}
    (hread : loader.source.readAll host = .ok bytes)
    (hchosen : loader.chooseFormat bytes = some format)
    (hformat : format = .png ∨ format = .webP ∨ format = .jpeg)
    (hd : host.codecs.delivery format bytes loader.options = some d)
    (h : loader.decoded host = .ok (base, posture)) :
    base.Carries d ∧ base.exif = if format = .jpeg then none
      else host.codecs.exposedExif format bytes loader.options := by
  obtain ⟨bytes', format', hread', hchosen', hdispatch⟩ := decoded_ok h
  rw [hread, Except.ok.injEq] at hread'
  subst hread'
  rw [hchosen, Option.some.injEq] at hchosen'
  subst hchosen'
  obtain ⟨d', hd', hcarries, -⟩ := dispatch_ok hdispatch
  rw [hd, Option.some.injEq] at hd'
  subst hd'
  exact ⟨hcarries, dispatch_exif hformat hdispatch⟩

/-- A JPEG comes out of both modes alike, upright and as the codec delivers it. -/
theorem load_jpeg {bytes : Bytes} (hread : loader.source.readAll host = .ok bytes)
    (hchosen : loader.chooseFormat bytes = some .jpeg)
    (hd : host.codecs.delivery .jpeg bytes loader.options = some d)
    (h : loader.decoded host = .ok (base, posture)) (apply : Bool) :
    ∃ img, (loader.withApplyTransformations apply).load host = .ok (.ok img) ∧
      img.orientation = .normal ∧
      List.Forall₂ (fun s f => Frame.Carries f s) d.shots img.frames := by
  obtain ⟨hcarries, hexif⟩ := decoded_carries hread hchosen (.inr (.inr rfl)) hd h
  exact ⟨_, load_of_normal h (exifOrientation_none hexif) apply, hcarries.orientation,
    hcarries.frames⟩

end Loader

/-- When the codec exposes a blob with orientation `o`, both modes honour it
unless the container is JPEG, whose decoder drops the blob, or `o` swaps axes
and some column is longer than `u32::MAX` bytes. -/
theorem exif_honoured_iff (loader : Loader) (host : Host) (format : KnownFormat) (bytes : Bytes)
    (b : Exif.Blob) (o : Orientation) (d : Delivery) (answer : Image × SandboxPosture)
    (hformat : format = .png ∨ format = .webP ∨ format = .jpeg)
    (hread : loader.source.readAll host = .ok bytes)
    (hchosen : loader.chooseFormat bytes = some format)
    (hexif : host.codecs.exposedExif format bytes loader.options = some b.encode)
    (ho : b.orientation = some o.exifValue) (hne : o ≠ .normal)
    (hdecoded : loader.decoded host = .ok answer)
    (hd : host.codecs.delivery format bytes loader.options = some d) :
    loader.Bakes host o d ∧ loader.Reports host o d ↔
      format ≠ .jpeg ∧
        (o.swapsAxes = true → ∀ s ∈ d.shots, s.picture.columnBytes ≤ u32Max) := by
  obtain ⟨base, posture⟩ := answer
  by_cases hjpeg : format = .jpeg
  · subst hjpeg
    obtain ⟨img, hload, hnormal, -⟩ := Loader.load_jpeg hread hchosen hd hdecoded false
    apply iff_of_false
    · intro ⟨_, img', hload', horientation, _⟩
      rw [hload] at hload'
      cases hload'
      exact hne (horientation.symm.trans hnormal)
    · intro ⟨hnot, _⟩
      exact hnot rfl
  · obtain ⟨hcarries, hbase⟩ := Loader.decoded_carries hread hchosen hformat hd hdecoded
    rw [if_neg hjpeg, hexif] at hbase
    have horientation := exifOrientation_encode hbase ho
    rw [Loader.bakes_iff_of_orientation hdecoded hcarries horientation hne]
    constructor
    · intro ⟨hcolumns, _⟩
      exact ⟨hjpeg, hcolumns⟩
    · intro ⟨_, hcolumns⟩
      exact ⟨hcolumns, Loader.reports_of_orientation hdecoded hcarries horientation hne⟩

/-- A blob whose one entry asks for a rotation by 90 degrees. -/
def rotate90 : Exif.Blob where
  prefixed := true
  bigEndian := true
  filler := []
  entries := [⟨Exif.orientationTag, 3, 1, 0, 6, 0, 0⟩]
  trailing := []
  offset_lt := by decide
  entries_lt := by decide

/-- A file of two grey pixels with that blob, as PNG and as JPEG. -/
def turnedPair : Codecs :=
  { Codecs.failing with
    png := fun _ _ => .ok {
      outputColorType := (.grayscale, .eight)
      width := 2
      height := 1
      animationControl := none
      iccProfile := none
      exifMetadata := some rotate90.encode
      outputBufferSize := fun _ => some 2
      nextFrame := fun _ => .ok (⟨2, 1, 2⟩, [10, 20])
      frameControl := fun _ => none
      uncompressedLatin1Text := []
      compressedLatin1Text := []
      utf8Text := []
      codingIndependentCodePoints := none }
    jpeg := fun _ => ⟨.ok [10, 20], some ⟨2, 1, .l8⟩, none, some rotate90.encode⟩ }

/-- A load of that file. -/
def turnedLoader (format : KnownFormat) : Loader := (Loader.newBytes []).withFormatHint format

/-- The two pixels as a delivery. -/
def turnedDelivery : Delivery := Picture.delivery ⟨2, 1, .g8, [10, 20]⟩

theorem exif_honoured_iff_turnedPair :
    (turnedLoader .png).Bakes (.plain turnedPair) .rotate90 turnedDelivery ∧
        (turnedLoader .png).Reports (.plain turnedPair) .rotate90 turnedDelivery ↔
      KnownFormat.png ≠ .jpeg ∧ (Orientation.rotate90.swapsAxes = true →
        ∀ s ∈ turnedDelivery.shots, s.picture.columnBytes ≤ u32Max) :=
  exif_honoured_iff (turnedLoader .png) (.plain turnedPair) .png [] rotate90 .rotate90
    turnedDelivery _ (.inl rfl) rfl rfl rfl rfl (by decide) rfl rfl

/-- The JPEG is decoded, but in neither mode is its orientation honoured. -/
theorem turnedPair_jpeg_ignored :
    turnedPair.exposedExif .jpeg [] (turnedLoader .jpeg).options = some rotate90.encode ∧
      rotate90.orientation = some Orientation.rotate90.exifValue ∧
      turnedPair.delivery .jpeg [] (turnedLoader .jpeg).options = some turnedDelivery ∧
      (∃ answer, (turnedLoader .jpeg).decoded (.plain turnedPair) = .ok answer) ∧
      ¬ (turnedLoader .jpeg).Bakes (.plain turnedPair) .rotate90 turnedDelivery ∧
      ¬ (turnedLoader .jpeg).Reports (.plain turnedPair) .rotate90 turnedDelivery := by
  have hload := @Loader.load_jpeg (turnedLoader .jpeg) (.plain turnedPair) _ _ turnedDelivery []
    rfl rfl rfl rfl
  refine ⟨rfl, rfl, rfl, ⟨_, rfl⟩, ?_, ?_⟩
  · obtain ⟨img, htrue, -, hcarries⟩ := hload true
    rintro ⟨img', htrue', -, hframes⟩
    rw [htrue] at htrue'
    cases htrue'
    -- the frame is 2 by 1, and 1 by 2 is what the rotation makes of it
    generalize img.frames = frames at hcarries hframes
    cases hcarries with
    | cons hc _ =>
      cases hframes with
      | cons hb _ =>
        obtain ⟨f₀, hc₀, hbaked⟩ := hb
        have hwidth := hbaked.texture.width
        rw [Transform.outWidth, if_pos (by rfl), hc₀.texture.height, hc.texture.width] at hwidth
        exact absurd hwidth (by decide)
  · obtain ⟨img, hfalse, hnormal, -⟩ := hload false
    rintro ⟨img', hfalse', horientation, -⟩
    rw [hfalse] at hfalse'
    cases hfalse'
    rw [hnormal] at horientation
    cases horientation

end GlycinNg
