import GlycinNg.Formats.Codec

/-! # GIF

`formats/gif.rs` over the `gif` crate. The loop asks for frames until there are
no more, so the caps on pixels, frames and duration are kept by hand, frame by
frame. -/
namespace GlycinNg.Gif
open Rust

/-- `gif::DecodingError`. -/
inductive DecodingError where
  | io (message : String)
  | format (display : String)
  | other (display : String)

/-- `gif::Frame`: the delay counts centiseconds, the buffer holds RGBA pixels. -/
structure GifFrame where
  width : UInt16
  height : UInt16
  delay : UInt16
  buffer : Bytes

/-- `gif::Decoder` after `read_info`: the logical screen, and what successive
calls of `read_next_frame` answer before the `None` that ends the file. -/
structure Decoder where
  width : UInt16
  height : UInt16
  frames : List (Except DecodingError GifFrame)

/-- `gif::DecodeOptions::read_info` under a memory limit. -/
abbrev Crate := (memBytes : UInt64) → Bytes → Except DecodingError Decoder

def mapErr : DecodingError → Error
  | .io e => .io e
  | .format display => .malformed display
  | .other display => .decoder "gif" display

def GifFrame.delayTime (f : GifFrame) : Duration := Duration.fromMillis (f.delay.toUInt64 * 10)

def GifFrame.picture (f : GifFrame) : Picture where
  width := f.width.toUInt32
  height := f.height.toUInt32
  format := .r8g8b8a8
  data := f.buffer

/-- The three accumulators of the loop. -/
structure Progress where
  frames : List Frame
  totalPixels : UInt64
  totalAnimation : Duration

/-- The body of the frame loop, from the answer of `read_next_frame` on. -/
def decodeFrame (limits : Limits) (s : Progress) (next : Except DecodingError GifFrame) :
    Decode Progress := do
  let frame ← Traced.perform .gifReadNextFrame (next.mapError mapErr)
  -- the product of the two sides is taken in `u16`, before it is widened
  let pixels ← okOr (u16CheckedMul frame.width frame.height) (.limitExceeded "frame size")
  let totalPixels ←
    okOr (u64CheckedAdd s.totalPixels pixels.toUInt64) (.limitExceeded "max_pixels")
  failIf (totalPixels > limits.maxPixels) (.limitExceeded "max_pixels")
  failIf (UInt32.ofNat s.frames.length ≥ limits.maxFrames) (.limitExceeded "max_frames")
  let p := frame.picture
  let stride ← rgbaStride p.width
  let texture ← textureOrError "gif" p.width p.height stride p.format p.data
  let totalAnimation := s.totalAnimation.saturatingAdd frame.delayTime
  failIf (totalAnimation > limits.maxAnimationDuration)
    (.limitExceeded "max_animation_duration")
  return ⟨s.frames ++ [⟨texture, some frame.delayTime⟩], totalPixels, totalAnimation⟩

/-- `gif::decode`. -/
def decode (gif : Crate) (bytes : Bytes) (opts : DecodeOptions) : Decode Image := do
  let memBytes := max (memoryLimit opts) 1
  let decoder ← Traced.perform .gifReadInfo ((gif memBytes bytes).mapError mapErr)
  let s ← decoder.frames.foldlM (decodeFrame opts.limits) ⟨[], 0, Duration.zero⟩
  Traced.perform .gifReadNextFrame (.ok ())
  failIf (s.frames.isEmpty) (.malformed "gif contained no frames")
  return Image.fromParts "gif" decoder.width.toUInt32 decoder.height.toUInt32 s.frames

/-! ## What is decoded -/

def shot (next : Except DecodingError GifFrame) : Option Shot :=
  next.toOption.map fun f => ⟨f.picture, some f.delayTime⟩

/-- The logical screen and the frames, each of its own size. -/
def Decoder.delivery (decoder : Decoder) : Option Delivery := do
  let shots ← decoder.frames.mapM shot
  return ⟨decoder.width.toUInt32, decoder.height.toUInt32, shots⟩

/-- The exact number of pixels of a list of frames. -/
def pixelsOf (frames : List Frame) : Nat :=
  (frames.map fun f => f.width.toNat * f.height.toNat).sum

/-- The loop invariant: the accumulators are the exact totals of the frames
pulled so far, and within the caps. -/
structure Progress.Inv (limits : Limits) (pulled : List (Except DecodingError GifFrame))
    (s : Progress) : Prop where
  pulled : Pulled shot pulled s.frames
  pixels : s.totalPixels.toNat = pixelsOf s.frames
  pixels_le : s.totalPixels ≤ limits.maxPixels
  frames_le : s.frames.length ≤ limits.maxFrames.toNat
  timed : Timed limits.maxAnimationDuration s.frames s.totalAnimation

theorem Progress.Inv.start (limits : Limits) : Inv limits [] ⟨[], 0, Duration.zero⟩ where
  pulled := Pulled.nil
  pixels := rfl
  pixels_le := UInt64.le_iff_toNat_le.mpr (Nat.zero_le _)
  frames_le := Nat.zero_le _
  timed := Timed.nil

theorem Progress.Inv.step {limits : Limits} {pulled : List (Except DecodingError GifFrame)}
    {s s' : Progress} {next : Except DecodingError GifFrame} (hinv : Inv limits pulled s)
    (h : (decodeFrame limits s next).result = .ok s') : Inv limits (pulled ++ [next]) s' := by
  obtain ⟨frame, hframe, h⟩ := Traced.perform_bind_eq_ok.mp h
  obtain ⟨pixels, hpixels, h⟩ := Traced.lift_bind_eq_ok.mp h
  obtain ⟨total, htotal, h⟩ := Traced.lift_bind_eq_ok.mp h
  rw [mapError_eq_ok] at hframe
  rw [okOr_eq_ok, u16CheckedMul_eq_some] at hpixels
  rw [okOr_eq_ok, u64CheckedAdd_eq_some, UInt16.toNat_toUInt64] at htotal
  obtain ⟨_, hmax, h⟩ := Traced.lift_bind_eq_ok.mp h
  obtain ⟨_, hcount, h⟩ := Traced.lift_bind_eq_ok.mp h
  obtain ⟨stride, hstride, h⟩ := Traced.lift_bind_eq_ok.mp h
  obtain ⟨t, ht, h⟩ := Traced.lift_bind_eq_ok.mp h
  obtain ⟨_, hcap, h⟩ := Traced.lift_bind_eq_ok.mp h
  rw [failIf_eq_ok] at hmax hcount hcap
  cases h
  rw [rgbaStride_eq] at hstride
  have hshows : t.Shows frame.picture := textureOrError_ok (rowStride_ok hstride) ht
  have hshot : shot next = some ⟨frame.picture, some frame.delayTime⟩ := by
    rw [shot, hframe]
    rfl
  have hsize : t.width.toNat * t.height.toNat = pixels.toNat := by
    rw [hshows.width, hshows.height, hpixels]
    simp [GifFrame.picture]
  -- below the cap, the count of frames fits the `u32` it is cast to
  have hlen : s.frames.length < limits.maxFrames.toNat := by
    have hmaxFrames := limits.maxFrames.toNat_lt
    have hle := hinv.frames_le
    have hlt := UInt32.lt_iff_toNat_lt.mp (UInt32.not_le.mp hcount)
    rwa [UInt32.toNat_ofNat_of_lt' (by rw [UInt32.size]; omega)] at hlt
  exact {
    pulled := hinv.pulled.snoc hshot ⟨hshows, rfl⟩
    pixels := by
      rw [htotal, hinv.pixels, pixelsOf, pixelsOf, List.map_append, List.sum_append]
      simp [Frame.width, Frame.height, hsize]
    pixels_le := UInt64.not_lt.mp hmax
    frames_le := by
      rw [List.length_append]
      exact hlen
    timed := hinv.timed.snoc hcap }

/-- The invariant holds at the end of every run of the loop. -/
theorem frames_ok {limits : Limits} {next : List (Except DecodingError GifFrame)} {s : Progress}
    (h : (next.foldlM (decodeFrame limits) ⟨[], 0, Duration.zero⟩).result = .ok s) :
    s.Inv limits next := by
  apply Traced.foldlM_inv (fun pulled s => s.Inv limits pulled) ?_ (Progress.Inv.start limits) h
  intro pulled frame rest s s' _ hinv hstep
  exact hinv.step hstep

/-- A decode that returns carries the delivery, which respects the caps on
pixels, frames and duration. -/
theorem decode_ok {gif : Crate} {bytes : Bytes} {opts : DecodeOptions} {img : Image}
    (h : (decode gif bytes opts).result = .ok img) :
    ∃ decoder d, gif (max (memoryLimit opts) 1) bytes = .ok decoder ∧
      decoder.delivery = some d ∧ img.Carries d ∧ d.shots ≠ [] ∧
      d.pixels ≤ opts.limits.maxPixels.toNat ∧ d.shots.length ≤ opts.limits.maxFrames.toNat ∧
      ∃ total, Timed opts.limits.maxAnimationDuration img.frames total := by
  obtain ⟨decoder, hdecoder, h⟩ := Traced.perform_bind_eq_ok.mp h
  obtain ⟨s, hs, h⟩ := Traced.bind_eq_ok.mp h
  obtain ⟨_, -, h⟩ := Traced.perform_bind_eq_ok.mp h
  have hinv := frames_ok hs
  obtain ⟨_, hne, h⟩ := Traced.lift_bind_eq_ok.mp h
  rw [failIf_eq_ok] at hne
  cases h
  obtain ⟨shots, hshots, hcarries⟩ := hinv.pulled
  have hd : decoder.delivery =
      some ⟨decoder.width.toUInt32, decoder.height.toUInt32, shots⟩ := by
    simp [Decoder.delivery, hshots]
  have himg : (Image.fromParts "gif" decoder.width.toUInt32 decoder.height.toUInt32
      s.frames).Carries ⟨decoder.width.toUInt32, decoder.height.toUInt32, shots⟩ :=
    ⟨rfl, rfl, rfl, hcarries⟩
  refine ⟨decoder, _, mapError_eq_ok.mp hdecoder, hd, himg, ?_, ?_, ?_, _, hinv.timed⟩
  · intro hempty
    subst hempty
    exact hne (List.isEmpty_iff_length_eq_zero.mpr hcarries.length_eq.symm)
  · have hle := UInt64.le_iff_toNat_le.mp hinv.pixels_le
    rw [hinv.pixels] at hle
    rw [← himg.pixels_eq]
    exact hle
  · rw [← himg.length_eq]
    exact hinv.frames_le

/-! ## Bookkeeping -/

/-- Every frame is delivered, with four samples for each of its pixels. -/
def Decoder.Documented (decoder : Decoder) : Prop :=
  ∀ next ∈ decoder.frames, ∃ frame, next = .ok frame ∧
    frame.buffer.length = frame.width.toNat * 4 * frame.height.toNat

theorem decodeFrame_bookkeeping {limits : Limits} {s : Progress}
    {next : Except DecodingError GifFrame} {e : Error}
    (hdoc : ∃ frame, next = .ok frame ∧
      frame.buffer.length = frame.width.toNat * 4 * frame.height.toNat)
    (h : (decodeFrame limits s next).result = .error e) : ¬ e.IsBookkeeping := by
  obtain ⟨frame, hframe, hlen⟩ := hdoc
  have hpacked : frame.picture.Packed := by
    simpa [Picture.Packed, Picture.rowBytes, GifFrame.picture, MemoryFormat.bytesPerPixel]
      using hlen
  rw [decodeFrame, Traced.result_perform_bind hframe] at h
  rcases Traced.lift_bind_eq_error.mp h with h | ⟨_, -, h⟩
  · exact not_isBookkeeping_okOr h
  rcases Traced.lift_bind_eq_error.mp h with h | ⟨_, -, h⟩
  · exact not_isBookkeeping_okOr h
  rcases Traced.lift_bind_eq_error.mp h with h | ⟨_, -, h⟩
  · exact not_isBookkeeping_failIf h
  rcases Traced.lift_bind_eq_error.mp h with h | ⟨_, -, h⟩
  · exact not_isBookkeeping_failIf h
  rcases Traced.lift_bind_eq_error.mp h with h | ⟨stride, hstride, h⟩
  · rw [rgbaStride_eq] at h
    exact not_isBookkeeping_stride h
  rw [rgbaStride_eq] at hstride
  rcases Traced.lift_bind_eq_error.mp h with h | ⟨t, -, h⟩
  · exact not_isBookkeeping_texture hpacked (rowStride_ok hstride) h
  rcases Traced.lift_bind_eq_error.mp h with h | ⟨_, -, h⟩
  · exact not_isBookkeeping_failIf h
  · cases h

theorem decode_bookkeeping {gif : Crate} {bytes : Bytes} {opts : DecodeOptions}
    {decoder : Decoder} {e : Error} (hdecoder : gif (max (memoryLimit opts) 1) bytes = .ok decoder)
    (hdoc : decoder.Documented) (h : (decode gif bytes opts).result = .error e) :
    ¬ e.IsBookkeeping := by
  dsimp only [decode] at h
  rw [Traced.result_perform_bind hdecoder] at h
  rcases Traced.bind_eq_error.mp h with h | ⟨_, -, h⟩
  · obtain ⟨next, hnext, s, h⟩ := Traced.exists_of_foldlM_error h
    exact decodeFrame_bookkeeping (hdoc next hnext) h
  rcases Traced.perform_bind_eq_error.mp h with h | ⟨_, -, h⟩
  · cases h
  rcases Traced.lift_bind_eq_error.mp h with h | ⟨_, -, h⟩
  · rw [failIf_error h]
    intro ⟨name, h⟩
    cases h
  · cases h

/-! ## Gating -/

/-- No header stops this decoder: the first frame is read before any check. -/
theorem decode_not_gated {gif : Crate} {bytes : Bytes} {opts : DecodeOptions}
    {decoder : Decoder} (hdecoder : gif (max (memoryLimit opts) 1) bytes = .ok decoder) :
    ¬ Gated (decode gif bytes opts) := by
  rw [decode, gated_perform hdecoder rfl]
  apply Expands.not_gated
  cases decoder.frames with
  | nil =>
    rw [List.foldlM_nil, Traced.pure_bind]
    exact Expands.bind (expands_perform rfl)
  | cons next rest =>
    rw [List.foldlM_cons]
    exact Expands.bind (Expands.bind (Expands.bind (expands_perform rfl)))

end GlycinNg.Gif
