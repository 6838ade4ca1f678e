import GlycinNg.Formats.Codec

/-! # WebP

`formats/webp.rs` over the `image-webp` crate. All frames of an animation are
delivered on the whole canvas. -/
namespace GlycinNg.WebP
open Rust

/-- `image_webp::DecodingError`. -/
inductive DecodingError where
  | ioError (message : String)
  | memoryLimitExceeded
  | other (display : String)

/-- `image_webp::WebPDecoder`. Answers about frames are indexed by the number of
frames read before; a read reports what it writes to the front of the buffer. -/
structure Decoder where
  width : UInt32
  height : UInt32
  hasAlpha : Bool
  isAnimated : Bool
  numFrames : UInt32
  iccProfile : Except DecodingError (Option Bytes)
  exifMetadata : Except DecodingError (Option Bytes)
  outputBufferSize : Nat → Option Nat
  /-- The delay in milliseconds, and the pixels. -/
  readFrame : Nat → Except DecodingError (UInt32 × Bytes)
  readImage : Except DecodingError Bytes

/-- `image_webp::WebPDecoder::new`. -/
abbrev Crate := Bytes → Except DecodingError Decoder

def mapErr : DecodingError → Error
  | .ioError e => .io e
  | .memoryLimitExceeded => .limitExceeded "webp memory limit"
  | .other display => .malformed display

namespace Decoder

def format (decoder : Decoder) : MemoryFormat :=
  if decoder.hasAlpha then .r8g8b8a8 else .r8g8b8

def frameCount (decoder : Decoder) : UInt32 :=
  if decoder.isAnimated then max decoder.numFrames 1 else 1

/-- A buffer of `size` bytes after one read. -/
def picture (decoder : Decoder) (size : Nat) (written : Bytes) : Picture where
  width := decoder.width
  height := decoder.height
  format := decoder.format
  data := overlay written (List.replicate size 0)

end Decoder

def frameDelay (delayMs : UInt32) : Duration := Duration.fromMillis delayMs.toUInt64

/-- The body of the frame loop. -/
def decodeFrame (limits : Limits) (decoder : Decoder) (stride : UInt32) (s : Animation) (k : Nat) :
    Decode Animation := do
  let bufSize ← okOr (decoder.outputBufferSize k) (.decoder "webp" "no buffer size")
  let (delayMs, written) ←
    Traced.perform .webpReadFrame ((decoder.readFrame k).mapError mapErr)
  let totalAnimation := s.totalAnimation.saturatingAdd (frameDelay delayMs)
  failIf (totalAnimation > limits.maxAnimationDuration)
    (.limitExceeded "max_animation_duration")
  let p := decoder.picture bufSize written
  let texture ← textureOrError "webp" p.width p.height stride p.format p.data
  return ⟨s.frames ++ [⟨texture, some (frameDelay delayMs)⟩], totalAnimation⟩

/-- The branch of a file without animation. -/
def decodeStill (decoder : Decoder) (stride : UInt32) : Decode (List Frame) := do
  let bufSize ← okOr (decoder.outputBufferSize 0) (.decoder "webp" "no buffer size")
  let written ← Traced.perform .webpReadImage (decoder.readImage.mapError mapErr)
  let p := decoder.picture bufSize written
  let texture ← textureOrError "webp" p.width p.height stride p.format p.data
  return [⟨texture, none⟩]

def decodeFrames (limits : Limits) (decoder : Decoder) (stride : UInt32) : Decode (List Frame) :=
  if decoder.isAnimated then do
    let s ← (List.range decoder.frameCount.toNat).foldlM (decodeFrame limits decoder stride)
      Animation.start
    return s.frames
  else decodeStill decoder stride

/-- `webp::decode`. -/
def decode (webp : Crate) (bytes : Bytes) (opts : DecodeOptions) : Decode Image := do
  let decoder ← Traced.perform .webpNew ((webp bytes).mapError mapErr)
  opts.limits.checkDimensions decoder.width decoder.height decoder.frameCount
  let icc ← Traced.perform .webpIccProfile (decoder.iccProfile.mapError mapErr)
  let exif ← Traced.perform .webpExifMetadata (decoder.exifMetadata.mapError mapErr)
  let stride ← rowStride decoder.format decoder.width
  let frames ← decodeFrames opts.limits decoder stride
  let image := Image.fromParts "webp" decoder.width decoder.height frames
  let image := icc.elim image image.setIccProfile
  return exif.elim image image.setExif

/-! ## What is decoded -/

namespace Decoder

/-- The `k`-th frame of an animation. -/
def shot (decoder : Decoder) (k : Nat) : Option Shot := do
  let bufSize ← decoder.outputBufferSize k
  let frame ← (decoder.readFrame k).toOption
  return ⟨decoder.picture bufSize frame.2, some (frameDelay frame.1)⟩

/-- The picture of a file without animation. -/
def stillShot (decoder : Decoder) : Option Shot := do
  let bufSize ← decoder.outputBufferSize 0
  let written ← decoder.readImage.toOption
  return ⟨decoder.picture bufSize written, none⟩

def shots (decoder : Decoder) : Option (List Shot) :=
  if decoder.isAnimated then (List.range decoder.frameCount.toNat).mapM decoder.shot
  else decoder.stillShot.map fun s => [s]

def delivery (decoder : Decoder) : Option Delivery :=
  decoder.shots.map fun shots => ⟨decoder.width, decoder.height, shots⟩

end Decoder

theorem decodeFrame_ok {limits : Limits} {decoder : Decoder} {stride : UInt32}
    {pulled : List Nat} {s s' : Animation} {k : Nat}
    (hs : stride.toNat = decoder.width.toNat * decoder.format.bytesPerPixel)
    (hinv : s.Inv decoder.shot limits.maxAnimationDuration pulled)
    (h : (decodeFrame limits decoder stride s k).result = .ok s') :
    s'.Inv decoder.shot limits.maxAnimationDuration (pulled ++ [k]) := by
  obtain ⟨size, hsize, h⟩ := Traced.lift_bind_eq_ok.mp h
  obtain ⟨⟨delayMs, written⟩, hread, h⟩ := Traced.perform_bind_eq_ok.mp h
  obtain ⟨_, hcap, h⟩ := Traced.lift_bind_eq_ok.mp h
  obtain ⟨t, ht, h⟩ := Traced.lift_bind_eq_ok.mp h
  rw [failIf_eq_ok] at hcap
  cases h
  have hshot : decoder.shot k =
      some ⟨decoder.picture size written, some (frameDelay delayMs)⟩ := by
    simp [Decoder.shot, okOr_eq_ok.mp hsize, mapError_eq_ok.mp hread, Except.toOption]
  exact ⟨hinv.pulled.snoc hshot ⟨textureOrError_ok hs ht, rfl⟩, hinv.timed.snoc hcap⟩

theorem decodeStill_ok {decoder : Decoder} {stride : UInt32} {frames : List Frame}
    (hs : stride.toNat = decoder.width.toNat * decoder.format.bytesPerPixel)
    (h : (decodeStill decoder stride).result = .ok frames) :
    ∃ s t, decoder.stillShot = some s ∧ Frame.Carries ⟨t, none⟩ s ∧ frames = [⟨t, none⟩] := by
  obtain ⟨size, hsize, h⟩ := Traced.lift_bind_eq_ok.mp h
  obtain ⟨written, hread, h⟩ := Traced.perform_bind_eq_ok.mp h
  obtain ⟨t, ht, h⟩ := Traced.lift_bind_eq_ok.mp h
  cases h
  have hshot : decoder.stillShot = some ⟨decoder.picture size written, none⟩ := by
    simp [Decoder.stillShot, okOr_eq_ok.mp hsize, mapError_eq_ok.mp hread, Except.toOption]
  exact ⟨_, t, hshot, ⟨textureOrError_ok hs ht, rfl⟩, rfl⟩

/-- Both branches return the frames of the delivery, within the duration cap. -/
theorem decodeFrames_ok {limits : Limits} {decoder : Decoder} {stride : UInt32}
    {frames : List Frame}
    (hs : stride.toNat = decoder.width.toNat * decoder.format.bytesPerPixel)
    (h : (decodeFrames limits decoder stride).result = .ok frames) :
    (∃ shots, decoder.delivery = some ⟨decoder.width, decoder.height, shots⟩ ∧
      List.Forall₂ (fun s f => Frame.Carries f s) shots frames) ∧
    ∃ total, Timed limits.maxAnimationDuration frames total := by
  rw [decodeFrames] at h
  by_cases hanim : decoder.isAnimated = true
  · rw [if_pos hanim] at h
    obtain ⟨s, hloop, h⟩ := Traced.bind_eq_ok.mp h
    cases h
    have hinv : s.Inv decoder.shot limits.maxAnimationDuration
        (List.range decoder.frameCount.toNat) := by
      apply Traced.foldlM_inv
        (fun pulled s => s.Inv decoder.shot limits.maxAnimationDuration pulled) ?_
        (Animation.Inv.start _ _) hloop
      intro pulled k rest s s' _ hinv hstep
      exact decodeFrame_ok hs hinv hstep
    obtain ⟨shots, hshots, hcarries⟩ := hinv.pulled
    have hd : decoder.delivery = some ⟨decoder.width, decoder.height, shots⟩ := by
      simp [Decoder.delivery, Decoder.shots, hanim, hshots]
    exact ⟨⟨shots, hd, hcarries⟩, _, hinv.timed⟩
  · rw [if_neg hanim] at h
    obtain ⟨s, t, hshot, hcarries, rfl⟩ := decodeStill_ok hs h
    have hd : decoder.delivery = some ⟨decoder.width, decoder.height, [s]⟩ := by
      simp [Decoder.delivery, Decoder.shots, hanim, hshot]
    exact ⟨⟨[s], hd, .cons hcarries .nil⟩, _, Timed.nil.snoc_none⟩

/-- A decode that returns has accepted the header, carries the delivery and kept
the duration cap. -/
theorem decode_ok {webp : Crate} {bytes : Bytes} {opts : DecodeOptions} {img : Image}
    (h : (decode webp bytes opts).result = .ok img) :
    ∃ decoder d, webp bytes = .ok decoder ∧
      opts.limits.Fits decoder.width decoder.height decoder.frameCount ∧
      decoder.delivery = some d ∧ img.Carries d ∧ decoder.exifMetadata = .ok img.exif ∧
      ∃ total, Timed opts.limits.maxAnimationDuration img.frames total := by
  obtain ⟨decoder, hdecoder, h⟩ := Traced.perform_bind_eq_ok.mp h
  obtain ⟨_, hcheck, h⟩ := Traced.lift_bind_eq_ok.mp h
  obtain ⟨icc, -, h⟩ := Traced.perform_bind_eq_ok.mp h
  obtain ⟨exif, hexif, h⟩ := Traced.perform_bind_eq_ok.mp h
  obtain ⟨stride, hstride, h⟩ := Traced.lift_bind_eq_ok.mp h
  obtain ⟨frames, hframes, h⟩ := Traced.bind_eq_ok.mp h
  obtain ⟨⟨shots, hd, hcarries⟩, htimed⟩ := decodeFrames_ok (rowStride_ok hstride) hframes
  rw [mapError_eq_ok] at hdecoder hexif
  refine ⟨decoder, _, hdecoder, Limits.checkDimensions_ok_iff.mp hcheck, hd, ?_⟩
  cases h
  cases icc <;> cases exif <;> exact ⟨⟨rfl, rfl, rfl, hcarries⟩, hexif, htimed⟩

theorem shot_size {decoder : Decoder} {k : Nat} {s : Shot} (h : decoder.shot k = some s) :
    s.picture.width = decoder.width ∧ s.picture.height = decoder.height := by
  simp only [Decoder.shot, bind, Option.bind_eq_some_iff] at h
  obtain ⟨_, -, _, -, h⟩ := h
  cases h
  exact ⟨rfl, rfl⟩

theorem stillShot_size {decoder : Decoder} {s : Shot} (h : decoder.stillShot = some s) :
    s.picture.width = decoder.width ∧ s.picture.height = decoder.height := by
  simp only [Decoder.stillShot, bind, Option.bind_eq_some_iff] at h
  obtain ⟨_, -, _, -, h⟩ := h
  cases h
  exact ⟨rfl, rfl⟩

/-- One shot for each announced frame, each of the size of the canvas. -/
theorem delivery_eq {decoder : Decoder} {d : Delivery} (h : decoder.delivery = some d) :
    d.width = decoder.width ∧ d.height = decoder.height ∧
      d.shots.length = decoder.frameCount.toNat ∧
      ∀ s ∈ d.shots, s.picture.width = decoder.width ∧ s.picture.height = decoder.height := by
  obtain ⟨shots, hshots, rfl⟩ := Option.map_eq_some_iff.mp h
  rw [Decoder.shots] at hshots
  refine ⟨rfl, rfl, ?_⟩
  by_cases hanim : decoder.isAnimated = true
  · rw [if_pos hanim] at hshots
    refine ⟨by simpa using (mapM_eq_some.mp hshots).length_eq.symm, ?_⟩
    refine forall_mem_of_mapM hshots ?_
    intro k s hs
    exact shot_size hs
  · rw [if_neg hanim, Option.map_eq_some_iff] at hshots
    obtain ⟨s, hs, rfl⟩ := hshots
    refine ⟨by simp [Decoder.frameCount, hanim], ?_⟩
    rw [List.forall_mem_singleton]
    exact stillShot_size hs

/-! ## Bookkeeping -/

/-- Every read succeeds, into a buffer of one sample for each channel of each pixel. -/
structure Decoder.Documented (decoder : Decoder) : Prop where
  metadata : (∃ icc, decoder.iccProfile = .ok icc) ∧ ∃ exif, decoder.exifMetadata = .ok exif
  bufferSize : ∀ k < decoder.frameCount.toNat, decoder.outputBufferSize k =
    some (decoder.width.toNat * decoder.format.bytesPerPixel * decoder.height.toNat)
  readFrame : decoder.isAnimated = true →
    ∀ k < decoder.frameCount.toNat, ∃ r, decoder.readFrame k = .ok r
  readImage : decoder.isAnimated = false → ∃ written, decoder.readImage = .ok written

theorem picture_packed {decoder : Decoder} {written : Bytes} :
    (decoder.picture (decoder.width.toNat * decoder.format.bytesPerPixel * decoder.height.toNat)
      written).Packed := by
  simp [Picture.Packed, Picture.rowBytes, Decoder.picture]

theorem decodeFrame_bookkeeping {limits : Limits} {decoder : Decoder} {stride : UInt32}
    {s : Animation} {k : Nat} {e : Error}
    (hs : stride.toNat = decoder.width.toNat * decoder.format.bytesPerPixel)
    (hdoc : decoder.Documented) (hanim : decoder.isAnimated = true)
    (hk : k < decoder.frameCount.toNat)
    (h : (decodeFrame limits decoder stride s k).result = .error e) : ¬ e.IsBookkeeping := by
  obtain ⟨⟨delayMs, written⟩, hread⟩ := hdoc.readFrame hanim k hk
  rw [decodeFrame, Traced.result_lift_bind (okOr_eq_ok.mpr (hdoc.bufferSize k hk)),
    Traced.result_perform_bind hread] at h
  rcases Traced.lift_bind_eq_error.mp h with h | ⟨_, -, h⟩
  · exact not_isBookkeeping_failIf h
  rcases Traced.lift_bind_eq_error.mp h with h | ⟨_, -, h⟩
  · exact not_isBookkeeping_texture picture_packed hs h
  · cases h

theorem decodeStill_bookkeeping {decoder : Decoder} {stride : UInt32} {e : Error}
    (hs : stride.toNat = decoder.width.toNat * decoder.format.bytesPerPixel)
    (hdoc : decoder.Documented) (hanim : decoder.isAnimated = false)
    (h : (decodeStill decoder stride).result = .error e) : ¬ e.IsBookkeeping := by
  obtain ⟨written, hread⟩ := hdoc.readImage hanim
  have hcount : 0 < decoder.frameCount.toNat := by simp [Decoder.frameCount, hanim]
  rw [decodeStill, Traced.result_lift_bind (okOr_eq_ok.mpr (hdoc.bufferSize 0 hcount)),
    Traced.result_perform_bind hread] at h
  rcases Traced.lift_bind_eq_error.mp h with h | ⟨_, -, h⟩
  · exact not_isBookkeeping_texture picture_packed hs h
  · cases h

theorem decode_bookkeeping {webp : Crate} {bytes : Bytes} {opts : DecodeOptions}
    {decoder : Decoder} {e : Error} (hdecoder : webp bytes = .ok decoder)
    (hdoc : decoder.Documented) (h : (decode webp bytes opts).result = .error e) :
    ¬ e.IsBookkeeping := by
  obtain ⟨⟨icc, hicc⟩, exif, hexif⟩ := hdoc.metadata
  rw [decode, Traced.result_perform_bind hdecoder] at h
  rcases Traced.lift_bind_eq_error.mp h with h | ⟨_, -, h⟩
  · exact not_isBookkeeping_check h
  rw [Traced.result_perform_bind hicc, Traced.result_perform_bind hexif] at h
  rcases Traced.lift_bind_eq_error.mp h with h | ⟨stride, hstride, h⟩
  · exact not_isBookkeeping_stride h
  rcases Traced.bind_eq_error.mp h with h | ⟨_, -, h⟩
  · rw [decodeFrames] at h
    by_cases hanim : decoder.isAnimated = true
    · rw [if_pos hanim] at h
      rcases Traced.bind_eq_error.mp h with h | ⟨_, -, h⟩
      · obtain ⟨k, hk, s, h⟩ := Traced.exists_of_foldlM_error h
        exact decodeFrame_bookkeeping (rowStride_ok hstride) hdoc hanim (List.mem_range.mp hk) h
      · cases h
    · rw [if_neg hanim] at h
      exact decodeStill_bookkeeping (rowStride_ok hstride) hdoc (by simpa using hanim) h
  · cases h

/-! ## Gating -/

/-- A header over a limit ends the decode before any frame is read. -/
theorem decode_gated {webp : Crate} {bytes : Bytes} {opts : DecodeOptions} {decoder : Decoder}
    (hdecoder : webp bytes = .ok decoder)
    (h : ¬ opts.limits.Fits decoder.width decoder.height decoder.frameCount) :
    Gated (decode webp bytes opts) :=
  (gated_perform hdecoder rfl).mpr (gated_check h)

end GlycinNg.WebP
