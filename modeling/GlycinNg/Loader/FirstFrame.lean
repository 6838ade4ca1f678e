import GlycinNg.Loader

/-! # The size of an image and of its first frame

`Image::width` and `Image::height` are documented as those of the first frame,
but are stored apart from it: each decoder sets them from the canvas its codec
reports, and an orientation that swaps axes swaps them once more.
`first_frame_size_iff` says when the two sizes agree after a load. -/
namespace GlycinNg
open Rust

/-- There is a first frame, and the image has its size. -/
def Image.SizedByFirstFrame (img : Image) : Prop :=
  ∃ f, img.firstFrame = some f ∧ img.width = f.width ∧ img.height = f.height

/-- There is a first shot, and it fills the canvas. -/
def Delivery.FirstFills (d : Delivery) : Prop :=
  ∃ s, d.shots.head? = some s ∧ s.picture.width = d.width ∧ s.picture.height = d.height

theorem Image.Carries.sizedByFirstFrame_iff {img : Image} {d : Delivery} (h : img.Carries d) :
    img.SizedByFirstFrame ↔ d.FirstFills := by
  have hsizes : img.frames.map (fun f => (f.width, f.height)) =
      d.shots.map (fun s => (s.picture.width, s.picture.height)) :=
    h.map_eq fun hc => by rw [hc.width_eq, hc.height_eq]
  have hhead := congrArg List.head? hsizes
  rw [List.head?_map, List.head?_map] at hhead
  rw [Image.SizedByFirstFrame, Delivery.FirstFills, Image.firstFrame, h.width, h.height]
  cases hf : img.frames.head? with
  | none =>
    rw [hf, Option.map_none, eq_comm, Option.map_eq_none_iff] at hhead
    simp [hhead]
  | some f =>
    rw [hf, Option.map_some, eq_comm, Option.map_eq_some_iff] at hhead
    obtain ⟨s, hs, hsize⟩ := hhead
    obtain ⟨hw, hh⟩ := Prod.mk.inj hsize
    simp [hs, hw, hh, eq_comm]

/-! ## Decoders -/

theorem max_one_pos (n : UInt32) : 0 < (max n 1).toNat := by
  rw [show max n 1 = if n ≤ 1 then 1 else n from rfl]
  split
  · decide
  · rename_i h
    exact Nat.zero_lt_of_lt (UInt32.lt_iff_toNat_lt.mp (UInt32.not_le.mp h))

theorem Png.frameCount_pos (r : Png.Reader) : 0 < r.frameCount.toNat := by
  rw [Png.Reader.frameCount]
  cases r.animationControl with
  | none => decide
  | some n => exact max_one_pos n

theorem WebP.frameCount_pos (decoder : WebP.Decoder) : 0 < decoder.frameCount.toNat := by
  rw [WebP.Decoder.frameCount]
  split
  · exact max_one_pos _
  · decide

/-- When the first picture fills the canvas: GIF and APNG frames have sizes of
their own, and the keyframe count of JPEG XL may be a multiple of `2^32`. -/
def Codecs.FirstShotFills (c : Codecs) (format : KnownFormat) (bytes : Bytes)
    (opts : DecodeOptions) : Prop :=
  match format with
  | .png | .gif => ∀ d, c.delivery format bytes opts = some d → ∀ s ∈ d.shots.head?,
      s.picture.width = d.width ∧ s.picture.height = d.height
  | .jxl => ∀ jxl, c.jxl bytes = .ok jxl → jxl.numKeyframes ≠ 0
  | _ => True

/-- A first shot that is there fills the canvas when every first shot does. -/
theorem Delivery.firstFills_iff {d : Delivery} (h : 0 < d.shots.length) :
    d.FirstFills ↔
      ∀ s ∈ d.shots.head?, s.picture.width = d.width ∧ s.picture.height = d.height := by
  have hs := List.head?_eq_some_head (List.length_pos_iff.mp h)
  simp [Delivery.FirstFills, hs]

theorem Delivery.firstFills_of_size {d : Delivery} (h : 0 < d.shots.length)
    (hsize : ∀ s ∈ d.shots, s.picture.width = d.width ∧ s.picture.height = d.height) :
    d.FirstFills := by
  rw [firstFills_iff h]
  intro s hs
  exact hsize s (List.mem_of_mem_head? hs)

/-- What a decode returns has the size of its first frame where `FirstShotFills` says. -/
theorem dispatch_sized_iff {c : Codecs} {format : KnownFormat} {bytes : Bytes}
    {opts : DecodeOptions} {img : Image} (h : (dispatch c format bytes opts).result = .ok img) :
    img.SizedByFirstFrame ↔ c.FirstShotFills format bytes opts := by
  obtain ⟨d, hd, hcarries, haccepted⟩ := dispatch_ok h
  rw [hcarries.sizedByFirstFrame_iff]
  cases format with
  | png =>
    obtain ⟨r, -, hr⟩ := Option.bind_eq_some_iff.mp hd
    have hlen : 0 < d.shots.length := by
      rw [(Png.delivery_eq hr).2.2]
      exact Png.frameCount_pos r
    simp only [Codecs.FirstShotFills, hd, Option.some.injEq, forall_eq']
    exact Delivery.firstFills_iff hlen
  | gif =>
    cases haccepted with
    | still hgif => exact absurd rfl hgif
    | canvas hformat => rcases hformat with h | h <;> cases h
    | gif hne =>
      simp only [Codecs.FirstShotFills, hd, Option.some.injEq, forall_eq']
      exact Delivery.firstFills_iff (List.length_pos_iff.mpr hne)
  | jxl =>
    obtain ⟨jxl, hjxl, hdelivery⟩ := Option.bind_eq_some_iff.mp hd
    obtain ⟨hw, hh, hlen, hsize⟩ := Jxl.delivery_eq hdelivery
    have hjxl : c.jxl bytes = .ok jxl := by
      cases hc : c.jxl bytes <;> rw [hc] at hjxl <;> cases hjxl
      rfl
    simp only [Codecs.FirstShotFills, hjxl, Except.ok.injEq, forall_eq']
    constructor
    · intro ⟨s, hs, _⟩ hzero
      rw [hzero] at hlen
      rw [List.length_eq_zero_iff.mp hlen] at hs
      cases hs
    · intro hne
      apply Delivery.firstFills_of_size
      · rw [hlen]
        apply Nat.pos_of_ne_zero
        intro hzero
        exact hne (UInt32.toNat_inj.mp hzero)
      · intro s hs
        rw [hw, hh]
        exact hsize s hs
  | webP =>
    obtain ⟨decoder, -, hdelivery⟩ := Option.bind_eq_some_iff.mp hd
    obtain ⟨hw, hh, hlen, hsize⟩ := WebP.delivery_eq hdelivery
    apply iff_of_true ?_ trivial
    apply Delivery.firstFills_of_size
    · rw [hlen]
      exact WebP.frameCount_pos decoder
    · intro s hs
      rw [hw, hh]
      exact hsize s hs
  | jpeg | tiff | bmp | ico | tga | qoi | exr | pnm | dds | svg =>
    cases haccepted with
    | still => exact iff_of_true ⟨_, rfl, rfl, rfl⟩ trivial
    | canvas hformat => rcases hformat with h | h <;> cases h

/-! ## The orientation stage -/

/-- A baked frame is as wide as the baked image exactly when the frame was. -/
theorem baked_size_iff {img : Image} {o : Orientation} {f f' : Frame} (h : Metadata.Baked o f f') :
    (Metadata.bakedSize img o).1 = f'.width ∧ (Metadata.bakedSize img o).2 = f'.height ↔
      img.width = f.width ∧ img.height = f.height := by
  have hw : f'.width.toNat = Transform.outWidth f.texture o := h.texture.width
  have hh : f'.height.toNat = Transform.outHeight f.texture o := h.texture.height
  rw [← UInt32.toNat_inj, ← UInt32.toNat_inj, hw, hh, ← UInt32.toNat_inj, ← UInt32.toNat_inj,
    Metadata.bakedSize, Transform.outWidth, Transform.outHeight]
  cases o.swapsAxes
  · exact Iff.rfl
  · exact and_comm

/-- The stage moves the two sizes together, in both modes. -/
theorem Metadata.sizedByFirstFrame_iff {img img' : Image} {apply : Bool}
    (h : applyOrientationIfPresent img apply = .ok img') :
    img'.SizedByFirstFrame ↔ img.SizedByFirstFrame := by
  by_cases ho : exifOrientation img = .normal
  · rw [apply_normal ho, Except.ok.injEq] at h
    rw [h]
  cases apply with
  | false =>
    rw [report_orientation ho, Except.ok.injEq] at h
    rw [← h]
    exact Iff.rfl
  | true =>
    by_cases hfit : ∀ f ∈ img.frames, f.texture.RowFits (exifOrientation img)
    · obtain ⟨frames, hbaked, -, hrun⟩ := bake_orientation ho hfit
      rw [hrun, Except.ok.injEq] at h
      subst h
      simp only [Image.SizedByFirstFrame, Image.firstFrame, Image.replaceFrames,
        Image.setOrientation]
      generalize img.frames = before at hbaked ⊢
      cases hbaked with
      | nil => simp
      | cons hb _ => simpa using baked_size_iff hb
    · rw [bake_panics ho (by simpa using hfit)] at h
      cases h

/-! ## Loads -/

/-- A loaded image has a first frame and its size, in either orientation mode,
exactly where the first picture of the codec fills the canvas. -/
theorem first_frame_size_iff (loader : Loader) (host : Host) (format : KnownFormat)
    (bytes : Bytes) (img : Image) (hread : loader.source.readAll host = .ok bytes)
    (hchosen : loader.chooseFormat bytes = some format)
    (h : loader.load host = .ok (.ok img)) :
    img.SizedByFirstFrame ↔ host.codecs.FirstShotFills format bytes loader.options := by
  obtain ⟨base, posture, oriented, hdecoded, horiented, rfl⟩ := Loader.load_ok h
  obtain ⟨bytes', format', hread', hchosen', hdispatch⟩ := Loader.decoded_ok hdecoded
  rw [hread, Except.ok.injEq] at hread'
  subst hread'
  rw [hchosen, Option.some.injEq] at hchosen'
  subst hchosen'
  rw [← dispatch_sized_iff hdispatch, ← Metadata.sizedByFirstFrame_iff horiented]
  exact Iff.rfl

/-- A GIF file with a screen of 2 by 2 pixels and one frame of a single pixel. -/
def smallFrameGif : Codecs :=
  { Codecs.failing with gif := fun _ _ => .ok ⟨2, 2, [.ok ⟨1, 1, 0, [0, 0, 0, 255]⟩]⟩ }

def smallFrameLoader : Loader := (Loader.newBytes []).withFormatHint .gif

theorem first_frame_size_iff_smallFrameGif :
    ∃ img, smallFrameLoader.load (.plain smallFrameGif) = .ok (.ok img) ∧
      (img.SizedByFirstFrame ↔
        smallFrameGif.FirstShotFills .gif [] smallFrameLoader.options) :=
  ⟨_, rfl, first_frame_size_iff smallFrameLoader (.plain smallFrameGif) .gif [] _ rfl rfl rfl⟩

/-- It is loaded as 2 by 2 although its first frame is 1 by 1. -/
theorem smallFrameGif_wider_than_first_frame :
    ∃ img, smallFrameLoader.load (.plain smallFrameGif) = .ok (.ok img) ∧
      img.width = 2 ∧ img.frames.map Frame.width = [1] ∧ ¬ img.SizedByFirstFrame := by
  refine ⟨_, rfl, rfl, rfl, ?_⟩
  rintro ⟨f, hf, hwidth, -⟩
  cases hf
  exact absurd hwidth (by decide)

end GlycinNg
