import GlycinNg.Formats.Png

/-! # Animated PNG files

The frame loop calls `next_frame` once for each frame that `acTL` announces. The
crate hands out one image more than that when the `IDAT` image is not part of the
animation. `decode_animation_iff` says that the frames of an animation come out
exactly when there is no such image; `decode_images` says what comes out in any
case. -/
namespace GlycinNg.Png
open Rust

/-- One image of a file as the crate hands it out: what `next_frame` reports, what
it writes, and the `output_buffer_size()` before the call. -/
structure Still where
  info : OutputInfo
  written : Bytes
  size : Nat

/-- The images of an APNG file. The `IDAT` image is the first of `frames` when an
`fcTL` chunk precedes it and `defaultImage` otherwise; the other `frames` are the
`fdAT` images, each with the `fcTL` before it. -/
structure Apng where
  defaultImage : Option Still
  frames : List (FrameControl × Still)

/-- What `next_frame` yields, in order. -/
def Apng.images (a : Apng) : List (Option FrameControl × Still) :=
  a.defaultImage.toList.map (fun s => (none, s)) ++ a.frames.map fun f => (some f.1, f.2)

/-- The reader plays a valid APNG file: `acTL` announces its frames, at least one,
and the calls of `next_frame` yield its images. -/
structure Reader.Plays (r : Reader) (a : Apng) : Prop where
  numFrames : r.animationControl.map UInt32.toNat = some a.frames.length
  frames_pos : 0 < a.frames.length
  images : ∀ k < a.images.length, ∃ image, a.images[k]? = some image ∧
    r.outputBufferSize k = some image.2.size ∧
    r.nextFrame k = .ok (image.2.info, image.2.written) ∧ r.frameControl k = image.1

/-- The buffer of the image has the documented length and its rows fit a stride. -/
structure Still.Fits (s : Still) (format : MemoryFormat) : Prop where
  size_le : s.info.bufferSize ≤ s.size
  packed : s.info.bufferSize = s.info.width.toNat * format.bytesPerPixel * s.info.height.toNat
  stride : s.info.width.toNat * format.bytesPerPixel ≤ u32Max

/-- The picture of one image and the delay of its `fcTL` chunk. -/
def Reader.shown (r : Reader) (littleEndian : Bool) (format : MemoryFormat)
    (image : Option FrameControl × Still) : Shot :=
  ⟨r.picture littleEndian format image.2.size (image.2.info, image.2.written),
    image.1.map FrameControl.delay⟩

/-- The animation: every frame, in order, with its own delay. -/
def Reader.animation (r : Reader) (littleEndian : Bool) (format : MemoryFormat) (a : Apng) :
    List Shot :=
  a.frames.map fun f => r.shown littleEndian format (some f.1, f.2)

namespace Reader.Plays
variable {r : Reader} {a : Apng}

/-- The loop runs once for each announced frame. -/
theorem frameCount_eq (h : r.Plays a) : r.frameCount.toNat = a.frames.length := by
  obtain ⟨n, hn, hlen⟩ := Option.map_eq_some_iff.mp h.numFrames
  have hpos := h.frames_pos
  have hmax : (max n 1).toNat = max n.toNat 1 := UInt32.toNat_max n 1
  rw [Reader.frameCount, hn, Option.elim_some, hmax]
  omega

theorem length_images (h : r.Plays a) : r.frameCount.toNat ≤ a.images.length := by
  rw [h.frameCount_eq]
  simp [Apng.images]

/-- The shots pulled by the first `n` calls are those of the first `n` images. -/
theorem mapM_shot (h : r.Plays a) (littleEndian : Bool) (format : MemoryFormat) {n : Nat}
    (hn : n ≤ a.images.length) :
    (List.range n).mapM (r.shot littleEndian format) =
      some ((a.images.take n).map (r.shown littleEndian format)) := by
  rw [mapM_eq_some, List.forall₂_iff_get]
  refine ⟨by simp [Nat.min_eq_left hn], ?_⟩
  intro k hk hk'
  have hk : k < n := by simpa using hk
  obtain ⟨image, himage, hsize, hframe, hcontrol⟩ := h.images k (Nat.lt_of_lt_of_le hk hn)
  obtain ⟨_, himage⟩ := List.getElem?_eq_some_iff.mp himage
  simp [Reader.shot, Reader.shown, hsize, hframe, hcontrol, himage, Except.toOption]

/-- A decode that returns, returns the images of as many calls as `acTL`
announces frames. -/
theorem decode_images {png : Crate} {littleEndian : Bool} {bytes : Bytes} {opts : DecodeOptions}
    {format : MemoryFormat} {img : Image} (h : r.Plays a)
    (hr : png (memoryLimit opts) bytes = .ok r)
    (hformat : mapFormat r.outputColorType.1 r.outputColorType.2 = some format)
    (hdecode : (decode png littleEndian bytes opts).result = .ok img) :
    img.Carries ⟨r.width, r.height,
      (a.images.take a.frames.length).map (r.shown littleEndian format)⟩ := by
  obtain ⟨r', d, hr', -, hd, hcarries, -⟩ := decode_ok hdecode
  cases hr.symm.trans hr'
  have hshots := h.mapM_shot littleEndian format h.length_images
  rw [h.frameCount_eq] at hshots
  have hdelivery : r.delivery littleEndian = some ⟨r.width, r.height,
      (a.images.take a.frames.length).map (r.shown littleEndian format)⟩ := by
    simp [Reader.delivery, hformat, h.frameCount_eq, hshots]
  cases hdelivery.symm.trans hd
  exact hcarries

/-- A turn of the loop on an image that fits returns. -/
theorem decodeFrame_returns {littleEndian : Bool} {format : MemoryFormat}
    {image : Option FrameControl × Still} {k : Nat} (h : r.Plays a) (hk : a.images[k]? = some image)
    (hfits : image.2.Fits format) (frames : List Frame) :
    ∃ frames', (decodeFrame littleEndian r format frames k).result = .ok frames' := by
  obtain ⟨hlt, -⟩ := List.getElem?_eq_some_iff.mp hk
  obtain ⟨image', hk', hsize, hframe, -⟩ := h.images k hlt
  cases hk.symm.trans hk'
  have hpacked : (r.picture littleEndian format image.2.size
      (image.2.info, image.2.written)).Packed := picture_packed hfits.size_le hfits.packed
  obtain ⟨t, ht⟩ := exists_packTexture "png" hpacked hfits.stride
  rw [decodeFrame, Traced.result_lift_bind (okOr_eq_ok.mpr hsize),
    Traced.result_perform_bind hframe, Traced.result_lift_bind ht]
  exact ⟨_, rfl⟩

/-- With images that fit, every call the loop makes returns. -/
theorem decode_returns {png : Crate} {littleEndian : Bool} {bytes : Bytes} {opts : DecodeOptions}
    {format : MemoryFormat} (h : r.Plays a) (hr : png (memoryLimit opts) bytes = .ok r)
    (hlimits : opts.limits.Fits r.width r.height r.frameCount)
    (hformat : mapFormat r.outputColorType.1 r.outputColorType.2 = some format)
    (hfits : ∀ image ∈ a.images.take a.frames.length, image.2.Fits format) :
    ∃ img, (decode png littleEndian bytes opts).result = .ok img := by
  have hloop : ∃ frames, ((List.range r.frameCount.toNat).foldlM
      (decodeFrame littleEndian r format) []).result = .ok frames := by
    refine Traced.exists_foldlM_ok (fun _ _ => True) ?_ trivial
    intro pre k post frames hrange _
    have hk : k < a.frames.length := by
      rw [← h.frameCount_eq, ← List.mem_range, hrange]
      simp
    have hlt : k < a.images.length := Nat.lt_of_lt_of_le (h.frameCount_eq ▸ hk) h.length_images
    have hmem : a.images[k] ∈ a.images.take a.frames.length :=
      List.mem_take_iff_getElem.mpr ⟨k, by omega, rfl⟩
    obtain ⟨frames', hstep⟩ :=
      h.decodeFrame_returns (List.getElem?_eq_getElem hlt) (hfits _ hmem) frames
    exact ⟨frames', hstep, trivial⟩
  obtain ⟨frames, hframes⟩ := hloop
  rw [decode, Traced.result_perform_bind hr,
    Traced.result_lift_bind (Limits.checkDimensions_ok_iff.mpr hlimits)]
  dsimp only
  rw [Traced.result_lift_bind (okOr_eq_ok.mpr hformat)]
  exact ⟨_, Traced.bind_eq_ok.mpr ⟨frames, hframes, rfl⟩⟩

end Reader.Plays

/-- Without a default image the first calls yield the animation. -/
theorem images_of_no_default {a : Apng} (h : a.defaultImage = none) :
    a.images.take a.frames.length = a.frames.map fun f => (some f.1, f.2) := by
  simp [Apng.images, h]

/-- A default image comes first, and has no delay. -/
theorem images_of_default {a : Apng} {s : Still} (h : a.defaultImage = some s)
    (hpos : 0 < a.frames.length) : ∃ rest, a.images.take a.frames.length = (none, s) :: rest := by
  obtain ⟨n, hn⟩ := Nat.exists_eq_succ_of_ne_zero (Nat.ne_of_gt hpos)
  simp [Apng.images, h, hn]

/-- Which APNG files are decoded to their animation: within the limits, exactly
those whose `IDAT` image is a part of it. With a default image the loop returns
that image in place of the last frame. -/
theorem decode_animation_iff {png : Crate} {littleEndian : Bool} {bytes : Bytes}
    {opts : DecodeOptions} {r : Reader} {a : Apng} {format : MemoryFormat}
    (hr : png (memoryLimit opts) bytes = .ok r) (hplays : r.Plays a)
    (hlimits : opts.limits.Fits r.width r.height r.frameCount)
    (hformat : mapFormat r.outputColorType.1 r.outputColorType.2 = some format)
    (hfits : ∀ f ∈ a.frames, f.2.Fits format) :
    (∃ img, (decode png littleEndian bytes opts).result = .ok img ∧
        List.Forall₂ (fun s f => Frame.Carries f s) (r.animation littleEndian format a)
          img.frames) ↔
      a.defaultImage = none := by
  constructor
  · intro ⟨img, hdecode, hanimation⟩
    have himages := (hplays.decode_images hr hformat hdecode).frames
    cases hdefault : a.defaultImage with
    | none => rfl
    | some s =>
      obtain ⟨rest, hrest⟩ := images_of_default hdefault hplays.frames_pos
      obtain ⟨f, frames, hframes⟩ := List.exists_cons_of_length_pos hplays.frames_pos
      simp only [hrest, List.map_cons] at himages
      obtain ⟨_, _, hfirst, -, hcons⟩ := List.forall₂_cons_left_iff.mp himages
      rw [Reader.animation, hframes, List.map_cons, hcons, List.forall₂_cons] at hanimation
      have hdelay := hfirst.delay.symm.trans hanimation.1.delay
      cases hdelay
  · intro hdefault
    have himages := images_of_no_default hdefault
    have hall : ∀ image ∈ a.images.take a.frames.length, image.2.Fits format := by
      rw [himages, List.forall_mem_map]
      exact hfits
    have hreturns : ∃ img, (decode png littleEndian bytes opts).result = .ok img :=
      hplays.decode_returns hr hlimits hformat hall
    obtain ⟨img, hdecode⟩ := hreturns
    refine ⟨img, hdecode, ?_⟩
    have hframes := (hplays.decode_images hr hformat hdecode).frames
    rw [himages, List.map_map] at hframes
    exact hframes

/-- A reader of one grey pixel that plays `a`. -/
def greyReader (a : Apng) : Reader where
  outputColorType := (.grayscale, .eight)
  width := 1
  height := 1
  animationControl := some (UInt32.ofNat a.frames.length)
  iccProfile := none
  exifMetadata := none
  outputBufferSize k := a.images[k]?.map fun image => image.2.size
  nextFrame k := match a.images[k]? with
    | some image => .ok (image.2.info, image.2.written)
    | none => .error (.parameter "End of image has been reached")
  frameControl k := a.images[k]?.bind fun image => image.1
  uncompressedLatin1Text := []
  compressedLatin1Text := []
  utf8Text := []
  codingIndependentCodePoints := none

theorem greyReader_plays {a : Apng} (hpos : 0 < a.frames.length)
    (hlen : a.frames.length < 2 ^ 32) : (greyReader a).Plays a where
  numFrames := by
    rw [greyReader, Option.map_some, UInt32.toNat_ofNat_of_lt' hlen]
  frames_pos := hpos
  images := by
    intro k hk
    refine ⟨a.images[k], List.getElem?_eq_getElem hk, ?_, ?_, ?_⟩ <;>
      simp [greyReader, List.getElem?_eq_getElem hk]

/-- One grey pixel. -/
def greyStill (value : UInt8) : Still := ⟨⟨1, 1, 1⟩, [value], 1⟩

theorem greyStill_fits (value : UInt8) : (greyStill value).Fits .g8 :=
  ⟨Nat.le_refl _, rfl, by simp [greyStill, MemoryFormat.bytesPerPixel, u32Max]⟩

/-- Two pixels, each shown for a tenth of a second, with no image besides. -/
def blinkingApng : Apng := ⟨none, [(⟨1, 10⟩, greyStill 10), (⟨1, 10⟩, greyStill 20)]⟩

/-- The same animation in a file that shows a pixel of its own to viewers of
still images. -/
def coveredApng : Apng := { blinkingApng with defaultImage := some (greyStill 30) }

theorem decode_animation_iff_blinkingApng :
    (∃ img, (decode (fun _ _ => .ok (greyReader blinkingApng)) true []
        DecodeOptions.default).result = .ok img ∧
      List.Forall₂ (fun s f => Frame.Carries f s)
        ((greyReader blinkingApng).animation true .g8 blinkingApng) img.frames) ↔
    blinkingApng.defaultImage = none :=
  decode_animation_iff rfl (greyReader_plays (by decide) (by decide))
    (Limits.checkDimensions_ok_iff.mp rfl) rfl (by simp [blinkingApng, greyStill_fits])

/-- The covered file is valid and within the limits, and comes out as its cover and
the first of its frames. -/
theorem coveredApng_loses_frame :
    (greyReader coveredApng).Plays coveredApng ∧
    DecodeOptions.default.limits.Fits 1 1 (greyReader coveredApng).frameCount ∧
    (∀ f ∈ coveredApng.frames, f.2.Fits .g8) ∧
    (decode (fun _ _ => .ok (greyReader coveredApng)) true []
        DecodeOptions.default).result.toOption.map (fun img =>
      img.frames.map fun f => (f.texture.data, f.delay)) =
        some [([30], none), ([10], some (FrameControl.delay ⟨1, 10⟩))] ∧
    ¬ ∃ img, (decode (fun _ _ => .ok (greyReader coveredApng)) true []
        DecodeOptions.default).result = .ok img ∧
      List.Forall₂ (fun s f => Frame.Carries f s)
        ((greyReader coveredApng).animation true .g8 coveredApng) img.frames := by
  refine ⟨greyReader_plays (by decide) (by decide), Limits.checkDimensions_ok_iff.mp rfl,
    by simp [coveredApng, blinkingApng, greyStill_fits], rfl, ?_⟩
  intro ⟨img, hdecode, hanimation⟩
  cases hdecode
  cases (List.forall₂_cons.mp hanimation).1.delay

end GlycinNg.Png
