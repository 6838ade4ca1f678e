import GlycinNg.Formats.Codec

/-! # PNG and APNG

`formats/png.rs` over the `png` crate. A `Reader` is what the crate answers once
the header is read; its answers about frames are indexed by the number of
`next_frame` calls made before. -/
namespace GlycinNg.Png
open Rust

inductive ColorType where
  | grayscale | rgb | indexed | grayscaleAlpha | rgba
  deriving DecidableEq, Repr

inductive BitDepth where
  | one | two | four | eight | sixteen
  deriving DecidableEq, Repr

def ColorType.debug : ColorType → String
  | .grayscale => "Grayscale"
  | .rgb => "Rgb"
  | .indexed => "Indexed"
  | .grayscaleAlpha => "GrayscaleAlpha"
  | .rgba => "Rgba"

def BitDepth.debug : BitDepth → String
  | .one => "One"
  | .two => "Two"
  | .four => "Four"
  | .eight => "Eight"
  | .sixteen => "Sixteen"

/-- `png::DecodingError`, with its `Display` text where the decoder uses it. -/
inductive DecodingError where
  | ioError (message : String)
  | format (display : String)
  | parameter (display : String)
  | limitsExceeded

/-- What one `next_frame` call reports; `bufferSize` is its `buffer_size()`. -/
structure OutputInfo where
  width : UInt32
  height : UInt32
  bufferSize : Nat

/-- The delay of an `fcTL` chunk, in `delayNum / delayDen` seconds. -/
structure FrameControl where
  delayNum : UInt16
  delayDen : UInt16

structure CodingIndependentCodePoints where
  colorPrimaries : UInt8
  transferFunction : UInt8
  matrixCoefficients : UInt8
  isVideoFullRangeImage : Bool

/-- `png::Reader` with the parts of `png::Info` the decoder reads. -/
structure Reader where
  outputColorType : ColorType × BitDepth
  width : UInt32
  height : UInt32
  /-- `num_frames` of the `acTL` chunk. -/
  animationControl : Option UInt32
  iccProfile : Option Bytes
  exifMetadata : Option Bytes
  outputBufferSize : Nat → Option Nat
  /-- The frame's info and the bytes written to the front of the buffer. -/
  nextFrame : Nat → Except DecodingError (OutputInfo × Bytes)
  frameControl : Nat → Option FrameControl
  uncompressedLatin1Text : List (String × String)
  /-- Keyword and `get_text()`, `none` where the text cannot be decoded. -/
  compressedLatin1Text : List (String × Option String)
  utf8Text : List (String × Option String)
  codingIndependentCodePoints : Option CodingIndependentCodePoints

/-- `png::Decoder::new_with_limits` followed by `read_info`. -/
abbrev Crate := (maxBytes : UInt64) → Bytes → Except DecodingError Reader

def mapFormat (color : ColorType) (depth : BitDepth) : Option MemoryFormat :=
  match color, depth with
  | .grayscale, .eight => some .g8
  | .grayscale, .sixteen => some .g16
  | .grayscaleAlpha, .eight => some .g8a8
  | .grayscaleAlpha, .sixteen => some .g16a16
  | .rgb, .eight => some .r8g8b8
  | .rgb, .sixteen => some .r16g16b16
  | .rgba, .eight => some .r8g8b8a8
  | .rgba, .sixteen => some .r16g16b16a16
  | _, _ => none

def mapErr : DecodingError → Error
  | .ioError e => .io e
  | .limitsExceeded => .limitExceeded "png internal"
  | .format display => .malformed display
  | .parameter display => .malformed display

/-- The delay of one frame; a denominator of 0 stands for 100. -/
def FrameControl.delay (fc : FrameControl) : Duration :=
  let den := fc.delayDen.toUInt64
  let num := fc.delayNum.toUInt64
  let denom := if den = 0 then 100 else den
  Duration.fromMicros (u64SaturatingMul num 1000000 / denom)

/-- The number of `next_frame` calls the decoder makes. -/
def Reader.frameCount (r : Reader) : UInt32 := r.animationControl.elim 1 fun n => max n 1

/-- The picture in the buffer after one `next_frame` call. -/
def Reader.picture (r : Reader) (littleEndian : Bool) (format : MemoryFormat) (bufferSize : Nat)
    (frame : OutputInfo × Bytes) : Picture :=
  let buf := (overlay frame.2 (List.replicate bufferSize 0)).take frame.1.bufferSize
  { width := frame.1.width
    height := frame.1.height
    format := format
    data := if r.outputColorType.2 = .sixteen then beToNativeU16 littleEndian buf else buf }

/-- The body of the frame loop. -/
def decodeFrame (littleEndian : Bool) (r : Reader) (format : MemoryFormat) (frames : List Frame)
    (k : Nat) : Decode (List Frame) := do
  let bufferSize ←
    okOr (r.outputBufferSize k) (.decoder "png" "decoder reported no buffer size")
  let frame ← Traced.perform .pngNextFrame ((r.nextFrame k).mapError mapErr)
  let texture ← packTexture "png" (r.picture littleEndian format bufferSize frame)
  return frames ++ [⟨texture, (r.frameControl k).map FrameControl.delay⟩]

/-- Later chunks replace earlier ones with the same keyword. -/
def textMap (r : Reader) : TextMap :=
  let insertDecoded (map : TextMap) (chunk : String × Option String) : TextMap :=
    match chunk.2 with
    | some text => map.insert chunk.1 text
    | none => map
  let map := r.uncompressedLatin1Text.foldl (fun map chunk => map.insert chunk.1 chunk.2) ∅
  let map := r.compressedLatin1Text.foldl insertDecoded map
  r.utf8Text.foldl insertDecoded map

def extractMetadata (image : Image) (r : Reader) : Image :=
  let image := image.setMetadataKeyValue (textMap r)
  match r.codingIndependentCodePoints with
  | some cicp =>
    image.setCicp ⟨cicp.colorPrimaries, cicp.transferFunction, cicp.matrixCoefficients,
      cicp.isVideoFullRangeImage.toUInt8⟩
  | none => image

/-- `png::decode`. -/
def decode (png : Crate) (littleEndian : Bool) (bytes : Bytes) (opts : DecodeOptions) :
    Decode Image := do
  let r ← Traced.perform .pngReadInfo ((png (memoryLimit opts) bytes).mapError mapErr)
  let (outColor, outDepth) := r.outputColorType
  opts.limits.checkDimensions r.width r.height r.frameCount
  let format ← okOr (mapFormat outColor outDepth)
    (.decoder "png" ("unsupported color/depth: " ++ outColor.debug ++ "/" ++ outDepth.debug))
  let frames ←
    (List.range r.frameCount.toNat).foldlM (decodeFrame littleEndian r format) []
  let image := Image.fromParts "png" r.width r.height frames
  let image := r.iccProfile.elim image image.setIccProfile
  let image := r.exifMetadata.elim image image.setExif
  return extractMetadata image r

/-! ## What is decoded -/

/-- The `k`-th picture the crate delivers, with its delay. -/
def Reader.shot (r : Reader) (littleEndian : Bool) (format : MemoryFormat) (k : Nat) :
    Option Shot := do
  let bufferSize ← r.outputBufferSize k
  let frame ← (r.nextFrame k).toOption
  return ⟨r.picture littleEndian format bufferSize frame,
    (r.frameControl k).map FrameControl.delay⟩

/-- The canvas and the pictures `next_frame` yields for it. -/
def Reader.delivery (r : Reader) (littleEndian : Bool) : Option Delivery := do
  let format ← mapFormat r.outputColorType.1 r.outputColorType.2
  let shots ← (List.range r.frameCount.toNat).mapM (r.shot littleEndian format)
  return ⟨r.width, r.height, shots⟩

theorem decodeFrame_ok {littleEndian : Bool} {r : Reader} {format : MemoryFormat}
    {frames frames' : List Frame} {k : Nat}
    (h : (decodeFrame littleEndian r format frames k).result = .ok frames') :
    ∃ s f, r.shot littleEndian format k = some s ∧ f.Carries s ∧ frames' = frames ++ [f] := by
  obtain ⟨size, hsize, h⟩ := Traced.lift_bind_eq_ok.mp h
  obtain ⟨frame, hframe, h⟩ := Traced.perform_bind_eq_ok.mp h
  obtain ⟨t, ht, h⟩ := Traced.lift_bind_eq_ok.mp h
  cases h
  have hs : r.shot littleEndian format k = some ⟨r.picture littleEndian format size frame,
      (r.frameControl k).map FrameControl.delay⟩ := by
    simp [Reader.shot, okOr_eq_ok.mp hsize, mapError_eq_ok.mp hframe, Except.toOption]
  exact ⟨_, _, hs, ⟨packTexture_ok ht, rfl⟩, rfl⟩

/-- The whole loop pulls the shots of the delivery, one per turn. -/
theorem frames_ok {littleEndian : Bool} {r : Reader} {format : MemoryFormat} {l : List Nat}
    {frames : List Frame}
    (h : (l.foldlM (decodeFrame littleEndian r format) []).result = .ok frames) :
    Pulled (r.shot littleEndian format) l frames := by
  apply Traced.foldlM_inv (Pulled (r.shot littleEndian format)) ?_ Pulled.nil h
  intro pre k post frames frames' _ hpulled hstep
  obtain ⟨s, f, hs, hf, rfl⟩ := decodeFrame_ok hstep
  exact hpulled.snoc hs hf

@[simp] theorem extractMetadata_exif (image : Image) (r : Reader) :
    (extractMetadata image r).exif = image.exif := by
  unfold extractMetadata
  cases r.codingIndependentCodePoints <;> rfl

theorem extractMetadata_carries {image : Image} {d : Delivery} (h : image.Carries d) (r : Reader) :
    (extractMetadata image r).Carries d := by
  unfold extractMetadata
  cases r.codingIndependentCodePoints <;> exact ⟨h.width, h.height, h.orientation, h.frames⟩

/-- A decode that returns has accepted the header, and returns the delivery. -/
theorem decode_ok {png : Crate} {littleEndian : Bool} {bytes : Bytes} {opts : DecodeOptions}
    {img : Image} (h : (decode png littleEndian bytes opts).result = .ok img) :
    ∃ r d, png (memoryLimit opts) bytes = .ok r ∧
      opts.limits.Fits r.width r.height r.frameCount ∧
      r.delivery littleEndian = some d ∧ img.Carries d ∧ img.exif = r.exifMetadata := by
  obtain ⟨r, hr, h⟩ := Traced.perform_bind_eq_ok.mp h
  obtain ⟨_, hcheck, h⟩ := Traced.lift_bind_eq_ok.mp h
  obtain ⟨format, hformat, h⟩ := Traced.lift_bind_eq_ok.mp h
  obtain ⟨frames, hframes, h⟩ := Traced.bind_eq_ok.mp h
  cases h
  obtain ⟨shots, hshots, hcarries⟩ := frames_ok hframes
  have hd : r.delivery littleEndian = some ⟨r.width, r.height, shots⟩ := by
    simp [Reader.delivery, okOr_eq_ok.mp hformat, hshots]
  refine ⟨r, _, mapError_eq_ok.mp hr, Limits.checkDimensions_ok_iff.mp hcheck, hd, ?_, ?_⟩
  · apply extractMetadata_carries
    cases r.iccProfile <;> cases r.exifMetadata <;> exact ⟨rfl, rfl, rfl, hcarries⟩
  · rw [extractMetadata_exif]
    cases r.iccProfile <;> cases r.exifMetadata <;> rfl

/-- A delivery has one shot for each announced frame, on the header's canvas. -/
theorem delivery_eq {littleEndian : Bool} {r : Reader} {d : Delivery}
    (h : r.delivery littleEndian = some d) :
    d.width = r.width ∧ d.height = r.height ∧ d.shots.length = r.frameCount.toNat := by
  simp only [Reader.delivery, bind, Option.bind_eq_some_iff] at h
  obtain ⟨format, -, shots, hshots, h⟩ := h
  cases h
  exact ⟨rfl, rfl, by simpa using (mapM_eq_some.mp hshots).length_eq.symm⟩

/-! ## Bookkeeping -/

/-- The crate delivers every frame, with the number of samples its
documentation gives: `width * height * channels` of the reported depth. -/
def Reader.Documented (r : Reader) (format : MemoryFormat) : Prop :=
  ∀ k < r.frameCount.toNat, ∃ size frame,
    r.outputBufferSize k = some size ∧ r.nextFrame k = .ok frame ∧
      frame.1.bufferSize ≤ size ∧
      frame.1.bufferSize = frame.1.width.toNat * format.bytesPerPixel * frame.1.height.toNat

theorem picture_packed {r : Reader} {littleEndian : Bool} {format : MemoryFormat} {size : Nat}
    {frame : OutputInfo × Bytes} (hle : frame.1.bufferSize ≤ size)
    (hsize : frame.1.bufferSize =
      frame.1.width.toNat * format.bytesPerPixel * frame.1.height.toNat) :
    (r.picture littleEndian format size frame).Packed := by
  have hlen : ((overlay frame.2 (List.replicate size 0)).take frame.1.bufferSize).length =
      frame.1.bufferSize := by
    rw [List.length_take, length_overlay, List.length_replicate]
    omega
  dsimp only [Picture.Packed, Picture.rowBytes, Reader.picture]
  split
  · rw [length_beToNativeU16, hlen, hsize]
  · rw [hlen, hsize]

theorem decodeFrame_bookkeeping {littleEndian : Bool} {r : Reader} {format : MemoryFormat}
    {frames : List Frame} {k : Nat} {e : Error} (hdoc : r.Documented format)
    (hk : k < r.frameCount.toNat)
    (h : (decodeFrame littleEndian r format frames k).result = .error e) : ¬ e.IsBookkeeping := by
  obtain ⟨size, frame, hsize, hframe, hle, hdata⟩ := hdoc k hk
  rw [decodeFrame, Traced.result_lift_bind (okOr_eq_ok.mpr hsize),
    Traced.result_perform_bind hframe] at h
  rcases Traced.lift_bind_eq_error.mp h with h | ⟨t, -, h⟩
  · exact not_isBookkeeping_pack (picture_packed hle hdata) h
  · cases h

theorem decode_bookkeeping {png : Crate} {littleEndian : Bool} {bytes : Bytes}
    {opts : DecodeOptions} {r : Reader} {format : MemoryFormat} {e : Error}
    (hr : png (memoryLimit opts) bytes = .ok r)
    (hformat : mapFormat r.outputColorType.1 r.outputColorType.2 = some format)
    (hdoc : r.Documented format)
    (h : (decode png littleEndian bytes opts).result = .error e) : ¬ e.IsBookkeeping := by
  rw [decode, Traced.result_perform_bind hr] at h
  rcases Traced.lift_bind_eq_error.mp h with h | ⟨_, -, h⟩
  · exact not_isBookkeeping_check h
  dsimp only at h
  rw [Traced.result_lift_bind (okOr_eq_ok.mpr hformat)] at h
  rcases Traced.bind_eq_error.mp h with h | ⟨_, -, h⟩
  · obtain ⟨k, hk, frames, h⟩ := Traced.exists_of_foldlM_error h
    exact decodeFrame_bookkeeping hdoc (List.mem_range.mp hk) h
  · cases h

/-! ## Gating -/

/-- A header over a limit ends the decode before any frame is read. -/
theorem decode_gated {png : Crate} {littleEndian : Bool} {bytes : Bytes} {opts : DecodeOptions}
    {r : Reader} (hr : png (memoryLimit opts) bytes = .ok r)
    (h : ¬ opts.limits.Fits r.width r.height r.frameCount) :
    Gated (decode png littleEndian bytes opts) :=
  (gated_perform hr rfl).mpr (gated_check h)

end GlycinNg.Png
