import GlycinNg.Formats.Gif

/-! # Which GIF files are decoded

A file within the limits is refused for one reason only: the pixels of a frame
are counted in `u16`, so a frame of 2¹⁶ pixels or more overflows the count.
`decode_within_limits_iff` says that nothing else stops the loop and that what it
returns are the frames of the file. -/
namespace GlycinNg.Gif
open Rust

namespace GifFrame

/-- The exact number of pixels. -/
def area (f : GifFrame) : Nat := f.width.toNat * f.height.toNat

/-- What the frame shows, and for how long. -/
def shot (f : GifFrame) : Shot := ⟨f.picture, some f.delayTime⟩

end GifFrame

/-- The exact time of a list of frames, in nanoseconds. -/
def nanosOf (frames : List GifFrame) : Nat := (frames.map fun f => f.delayTime.nanos).sum

/-- The exact number of pixels of a list of frames of a file. -/
def areaOf (frames : List GifFrame) : Nat := (frames.map GifFrame.area).sum

/-- The frames of a file, each with its full buffer, are within the limits. -/
structure WithinLimits (l : Limits) (frames : List GifFrame) : Prop where
  buffers : ∀ f ∈ frames, f.buffer.length = 4 * f.width.toNat * f.height.toNat
  sides : ∀ f ∈ frames, f.width.toUInt32 ≤ l.maxWidth ∧ f.height.toUInt32 ≤ l.maxHeight
  pixels : areaOf frames ≤ l.maxPixels.toNat
  count : frames.length ≤ l.maxFrames.toNat
  time : nanosOf frames ≤ l.maxAnimationDuration.nanos

theorem mapM_shot (frames : List GifFrame) :
    (frames.map Except.ok).mapM shot = some (frames.map GifFrame.shot) := by
  induction frames with
  | nil => rfl
  | cons f frames ih => simp [ih, shot, Except.toOption, GifFrame.shot]

/-- The frames collected from a prefix of the file are those of the prefix. -/
theorem carries_of_pulled {pulled : List GifFrame} {frames : List Frame}
    (h : Pulled shot (pulled.map .ok) frames) :
    List.Forall₂ (fun s f => Frame.Carries f s) (pulled.map GifFrame.shot) frames := by
  obtain ⟨shots, hshots, hcarries⟩ := h
  rw [mapM_shot, Option.some.injEq] at hshots
  rwa [hshots]

/-- The accumulators hold the exact totals of the prefix. -/
theorem Progress.Inv.totals {limits : Limits} {pulled : List GifFrame} {s : Progress}
    (h : s.Inv limits (pulled.map .ok)) :
    s.frames.length = pulled.length ∧ s.totalPixels.toNat = areaOf pulled ∧
      s.totalAnimation.nanos = min maxNanos (nanosOf pulled) := by
  have hcarries := carries_of_pulled h.pulled
  have himg : (Image.fromParts "gif" 0 0 s.frames).Carries ⟨0, 0, pulled.map GifFrame.shot⟩ :=
    ⟨rfl, rfl, rfl, hcarries⟩
  have hlen : s.frames.length = (pulled.map GifFrame.shot).length := himg.length_eq
  have hpixels : pixelsOf s.frames =
      Delivery.pixels ⟨0, 0, pulled.map GifFrame.shot⟩ := himg.pixels_eq
  have hdelays : s.frames.map Frame.delay =
      Delivery.delays ⟨0, 0, pulled.map GifFrame.shot⟩ := himg.delays_eq
  refine ⟨by simpa using hlen, ?_, ?_⟩
  · rw [h.pixels, hpixels, Delivery.pixels, areaOf, List.map_map]
    rfl
  · rw [h.timed.nanos, hdelays]
    simp [Delivery.delays, Delivery.totalNanos, nanosOf, Function.comp_def, GifFrame.shot]

/-- A full buffer makes a texture: the sides are too short for anything to overflow. -/
theorem exists_texture {f : GifFrame}
    (hbuffer : f.buffer.length = 4 * f.width.toNat * f.height.toNat) :
    ∃ stride t, rgbaStride f.picture.width = .ok stride ∧
      textureOrError "gif" f.picture.width f.picture.height stride f.picture.format
        f.picture.data = .ok t := by
  have hw := f.width.toNat_lt
  have hstride : rowStride .r8g8b8a8 f.picture.width =
      .ok (UInt32.ofNat (f.width.toNat * 4)) := by
    rw [rowStride_eq]
    apply if_pos
    simp only [GifFrame.picture, UInt16.toNat_toUInt32, MemoryFormat.bytesPerPixel, u32Max]
    omega
  have hpacked : f.picture.Packed := by
    simp only [Picture.Packed, Picture.rowBytes, GifFrame.picture, UInt16.toNat_toUInt32,
      MemoryFormat.bytesPerPixel, hbuffer, Nat.mul_comm 4]
  have hlen : (UInt32.ofNat (f.width.toNat * 4)).toNat = f.picture.rowBytes := rowStride_ok hstride
  obtain ⟨t, ht⟩ := (textureOrError_packed hlen).mpr hpacked
  exact ⟨_, t, rgbaStride_eq.trans hstride, ht⟩

/-- One turn of the loop on a frame that still fits: only the `u16` product can
stop it. -/
theorem decodeFrame_accepts {limits : Limits} {pulled : List GifFrame} {f : GifFrame}
    {s : Progress} (hinv : s.Inv limits (pulled.map .ok))
    (hbuffer : f.buffer.length = 4 * f.width.toNat * f.height.toNat)
    (hpixels : areaOf pulled + f.area ≤ limits.maxPixels.toNat)
    (hcount : pulled.length < limits.maxFrames.toNat)
    (htime : nanosOf pulled + f.delayTime.nanos ≤ limits.maxAnimationDuration.nanos)
    (harea : f.area < 2 ^ 16) : ∃ s', (decodeFrame limits s (.ok f)).result = .ok s' := by
  obtain ⟨hlen, htotal, hnanos⟩ := hinv.totals
  have hpixelsMax := limits.maxPixels.toNat_lt
  have hframesMax := limits.maxFrames.toNat_lt
  have hcap := limits.maxAnimationDuration.le_max
  have hproduct : u16CheckedMul f.width f.height = some (f.width * f.height) := if_pos harea
  have hpixelsOf : (f.width * f.height).toUInt64.toNat = f.area := by
    rw [UInt16.toNat_toUInt64]
    exact u16CheckedMul_eq_some.mp hproduct
  have hsum : u64CheckedAdd s.totalPixels (f.width * f.height).toUInt64 =
      some (s.totalPixels + (f.width * f.height).toUInt64) := by
    apply if_pos
    rw [htotal, hpixelsOf]
    omega
  have hsumOf := u64CheckedAdd_eq_some.mp hsum
  obtain ⟨stride, t, hstride, ht⟩ := exists_texture hbuffer
  have hpixelsLe : ¬ s.totalPixels + (f.width * f.height).toUInt64 > limits.maxPixels := by
    rw [gt_iff_lt, UInt64.lt_iff_toNat_lt, hsumOf, htotal, hpixelsOf]
    omega
  have hframesLt : ¬ UInt32.ofNat s.frames.length ≥ limits.maxFrames := by
    rw [ge_iff_le, UInt32.le_iff_toNat_le, hlen, UInt32.toNat_ofNat_of_lt' (by
      rw [UInt32.size]
      omega)]
    omega
  have htimeLe : ¬ s.totalAnimation.saturatingAdd f.delayTime > limits.maxAnimationDuration := by
    show ¬ _ < min maxNanos (s.totalAnimation.nanos + f.delayTime.nanos)
    rw [hnanos]
    omega
  have hframe : (Except.ok f : Except DecodingError GifFrame) = .ok f := rfl
  rw [decodeFrame, Traced.result_perform_bind hframe,
    Traced.result_lift_bind (okOr_eq_ok.mpr hproduct),
    Traced.result_lift_bind (okOr_eq_ok.mpr hsum),
    Traced.result_lift_bind (failIf_ok hpixelsLe),
    Traced.result_lift_bind (failIf_ok hframesLt)]
  dsimp only
  rw [Traced.result_lift_bind hstride, Traced.result_lift_bind ht,
    Traced.result_lift_bind (failIf_ok htimeLe)]
  exact ⟨_, rfl⟩

/-- A turn that returns counted the pixels of its frame in `u16`. -/
theorem area_lt_of_decodeFrame {limits : Limits} {s s' : Progress} {f : GifFrame}
    (h : (decodeFrame limits s (.ok f)).result = .ok s') : f.area < 2 ^ 16 := by
  obtain ⟨frame, hframe, h⟩ := Traced.perform_bind_eq_ok.mp h
  obtain ⟨pixels, hpixels, -⟩ := Traced.lift_bind_eq_ok.mp h
  cases hframe
  rw [okOr_eq_ok, u16CheckedMul_eq_some] at hpixels
  rw [GifFrame.area, ← hpixels]
  exact pixels.toNat_lt

/-- The prefix before a frame, and the frame, are within what the whole file takes. -/
theorem WithinLimits.split {l : Limits} {pulled rest : List GifFrame} {f : GifFrame}
    (h : WithinLimits l (pulled ++ f :: rest)) :
    areaOf pulled + f.area ≤ l.maxPixels.toNat ∧ pulled.length < l.maxFrames.toNat ∧
      nanosOf pulled + f.delayTime.nanos ≤ l.maxAnimationDuration.nanos := by
  have hpixels := h.pixels
  have hcount := h.count
  have htime := h.time
  simp only [areaOf, nanosOf, List.map_append, List.map_cons, List.sum_append, List.sum_cons,
    List.length_append, List.length_cons] at hpixels hcount htime ⊢
  omega

/-- The loop returns on a file within the limits whose frames are small. -/
theorem frames_accepts {limits : Limits} {frames : List GifFrame} (h : WithinLimits limits frames)
    (harea : ∀ f ∈ frames, f.area < 2 ^ 16) :
    ∃ s, ((frames.map .ok).foldlM (decodeFrame limits) ⟨[], 0, Duration.zero⟩).result = .ok s := by
  apply Traced.exists_foldlM_ok (fun pulled s => Progress.Inv limits pulled s) ?_
    (Progress.Inv.start limits)
  intro pre next post s hl hinv
  obtain ⟨pulled, tail, rfl, rfl, htail⟩ := List.map_eq_append_iff.mp hl
  obtain ⟨f, rest, rfl, rfl, -⟩ := List.map_eq_cons_iff.mp htail
  have hf : f ∈ pulled ++ f :: rest := by simp
  obtain ⟨hpixels, hcount, htime⟩ := h.split
  obtain ⟨s', hs'⟩ :=
    decodeFrame_accepts hinv (h.buffers f hf) hpixels hcount htime (harea f hf)
  exact ⟨s', hs', hinv.step hs'⟩

/-- A run of the loop that returns counted every frame in `u16`. -/
theorem area_lt_of_frames {limits : Limits} {frames : List GifFrame} {s : Progress}
    (h : ((frames.map .ok).foldlM (decodeFrame limits) ⟨[], 0, Duration.zero⟩).result = .ok s) :
    ∀ f ∈ frames, f.area < 2 ^ 16 := by
  have hall : ∀ next ∈ (frames.map .ok : List (Except DecodingError GifFrame)),
      ∀ f, next = .ok f → f.area < 2 ^ 16 := by
    apply Traced.foldlM_inv (fun pulled _ => ∀ next ∈ pulled, ∀ f, next = .ok f → f.area < 2 ^ 16)
      ?_ ?_ h
    · intro pre next post s s' _ hpre hstep next' hnext'
      rcases List.mem_append.mp hnext' with hmem | hmem
      · exact hpre next' hmem
      · rw [List.mem_singleton] at hmem
        subst hmem
        rintro f rfl
        exact area_lt_of_decodeFrame hstep
    · intro next hnext
      cases hnext
  intro f hf
  exact hall (.ok f) (List.mem_map_of_mem hf) f rfl

/-- A file of frames within the limits is decoded, to exactly these frames, unless
one of them has 2¹⁶ pixels or more. -/
theorem decode_within_limits_iff (gif : Crate) (bytes : Bytes) (opts : DecodeOptions)
    (decoder : Decoder) (frames : List GifFrame)
    (hdecoder : gif (max (memoryLimit opts) 1) bytes = .ok decoder)
    (hframes : decoder.frames = frames.map .ok) (hne : frames ≠ [])
    (hlimits : WithinLimits opts.limits frames) :
    (∃ img, (decode gif bytes opts).result = .ok img ∧
        img.Carries ⟨decoder.width.toUInt32, decoder.height.toUInt32,
          frames.map GifFrame.shot⟩) ↔
      ∀ f ∈ frames, f.area < 2 ^ 16 := by
  have hloop : (decode gif bytes opts).result =
      ((frames.map .ok).foldlM (decodeFrame opts.limits) ⟨[], 0, Duration.zero⟩ >>= fun s => do
        Traced.perform .gifReadNextFrame (.ok ())
        failIf (s.frames.isEmpty) (.malformed "gif contained no frames")
        return Image.fromParts "gif" decoder.width.toUInt32 decoder.height.toUInt32
          s.frames : Decode Image).result := by
    unfold decode
    dsimp only
    rw [Traced.result_perform_bind hdecoder, hframes]
  constructor
  · intro ⟨img, himg, _⟩
    rw [hloop] at himg
    obtain ⟨s, hs, -⟩ := Traced.bind_eq_ok.mp himg
    exact area_lt_of_frames hs
  · intro harea
    obtain ⟨s, hs⟩ := frames_accepts hlimits harea
    have hcarries := carries_of_pulled (frames_ok hs).pulled
    have hsome : ¬ s.frames.isEmpty = true := by
      rw [List.isEmpty_iff_length_eq_zero, (frames_ok hs).totals.1, List.length_eq_zero_iff]
      exact hne
    refine ⟨Image.fromParts "gif" decoder.width.toUInt32 decoder.height.toUInt32 s.frames, ?_,
      ⟨rfl, rfl, rfl, hcarries⟩⟩
    rw [hloop]
    refine Traced.bind_eq_ok.mpr ⟨s, hs, Traced.perform_bind_eq_ok.mpr ⟨(), rfl, ?_⟩⟩
    exact Traced.lift_bind_eq_ok.mpr ⟨(), failIf_ok hsome, rfl⟩

/-- A frame of 256 by 256 pixels. -/
def squareFrame : GifFrame := ⟨256, 256, 0, List.replicate 262144 0⟩

/-- A file of that one frame. -/
def squareGif : Crate := fun _ _ => .ok ⟨256, 256, [.ok squareFrame]⟩

theorem squareFrame_withinLimits : WithinLimits Limits.default [squareFrame] where
  buffers := List.forall_mem_singleton.mpr List.length_replicate
  sides := List.forall_mem_singleton.mpr (by decide)
  pixels := by decide
  count := by decide
  time := by decide

theorem decode_within_limits_iff_squareGif :
    (∃ img, (decode squareGif [] DecodeOptions.default).result = .ok img ∧
        img.Carries ⟨256, 256, [squareFrame.shot]⟩) ↔
      ∀ f ∈ [squareFrame], f.area < 2 ^ 16 :=
  decode_within_limits_iff squareGif [] DecodeOptions.default ⟨256, 256, [.ok squareFrame]⟩
    [squareFrame] rfl rfl (List.cons_ne_nil _ _) squareFrame_withinLimits

/-- It is within the default limits, and refused. -/
theorem squareGif_refused :
    WithinLimits Limits.default [squareFrame] ∧
      (decode squareGif [] DecodeOptions.default).result = .error (.limitExceeded "frame size") ∧
      ¬ ∃ img, (decode squareGif [] DecodeOptions.default).result = .ok img := by
  have hresult : (decode squareGif [] DecodeOptions.default).result =
      .error (.limitExceeded "frame size") := rfl
  refine ⟨squareFrame_withinLimits, hresult, ?_⟩
  rintro ⟨img, h⟩
  rw [hresult] at h
  cases h

end GlycinNg.Gif
