import GlycinNg.Formats.Png.Picture
import GlycinNg.Loader.Orientation
import GlycinNg.Shim.Client
import GlycinNg.Shim.Saving

/-! # From a picture to a file and back

What the shim has saved as PNG it can load: the loader finds the format by the signature of
the file, and the one frame of the image holds the pixels that were saved, unless a cap is in
the way. Saved once more, under the same colour profile, the frame makes the same file
(`saved_picture_loads`). -/
namespace GlycinNg.Shim
open Rust CApi Creator

/-- The signature of PNG files. -/
def pngSignature : Bytes := [0x89, 0x50, 0x4e, 0x47, 0x0d, 0x0a, 0x1a, 0x0a]

/-- What the `image` crate writes as PNG the `png` crate reads back, unless the memory it is
allowed is too little. -/
structure Lossless (codecs : ImageEncoders) (png : Png.Crate) : Prop where
  signed : ∀ {icc : Option Bytes} {pixels : Bytes} {width height : UInt32} {file : Bytes},
    codecs.png icc pixels width height = .ok file → pngSignature <+: file
  read : ∀ {icc : Option Bytes} {pixels : Bytes} {width height : UInt32} {file : Bytes},
    codecs.png icc pixels width height = .ok file → ∀ maxBytes,
      png maxBytes file = .error .limitsExceeded ∨
      ∃ r, png maxBytes file = .ok r ∧ r.Still width height pixels

/-- A host that can start a worker, on which no codec panics. -/
structure Working (host : Host) : Prop where
  spawns : host.kernel.spawnError = none
  quiet : host.workerPanic = none

section
variable {host : Host} {bytes : Bytes}

/-- On such a host the engine answers with what the decoder of the detected format returns. -/
theorem Working.decoded_eq (h : Working host) {format : KnownFormat}
    (hformat : Sniff.detect bytes = some format) (apply : Bool)
    (size : Option (UInt32 × UInt32)) :
    (engineLoader bytes apply size).decoded host =
      ((dispatch host.codecs format bytes (engineLoader bytes apply size).options).result.map
        fun img => (img, Sandbox.applyLayers host.kernel .default .default)) := by
  have hchosen : (engineLoader bytes apply size).chooseFormat bytes = some format := by
    rw [Loader.chooseFormat]
    show ((none : Option KnownFormat).or (Sniff.detect bytes)).or _ = _
    rw [hformat]
    rfl
  rw [Loader.decoded, h.quiet]
  show ((okOr ((engineLoader bytes apply size).chooseFormat bytes) .unsupportedFormat) >>= _) = _
  rw [hchosen, okOr, ok_bind, Sandbox.runInWorker, h.spawns]
  cases (dispatch host.codecs format bytes (engineLoader bytes apply size).options).result <;> rfl

/-- An image of one picture is handed out as it was decoded. -/
theorem Working.load_of_showsOne (h : Working host) {format : KnownFormat} {p : Picture}
    (hformat : Sniff.detect bytes = some format) {apply : Bool}
    {size : Option (UInt32 × UInt32)} {base : Image}
    (hbase : (dispatch host.codecs format bytes (engineLoader bytes apply size).options).result =
      .ok base) (hone : Png.ShowsOne base p) :
    ∃ image, (engineLoader bytes apply size).load host = .ok (.ok image) ∧
      Png.ShowsOne image p := by
  have hdecoded := h.decoded_eq hformat apply size
  rw [hbase] at hdecoded
  have hnormal := Metadata.apply_normal (exifOrientation_none hone.exif)
    (engineLoader bytes apply size).applyTransformations
  refine ⟨base.setSandboxPosture (Sandbox.applyLayers host.kernel .default .default), ?_,
    hone.width, hone.height, hone.formatName, hone.exif, hone.cicp, hone.frames⟩
  rw [Loader.load_of_decoded hdecoded, hnormal]
  rfl

end

/-! ## Loading what was saved -/

/-- The frame that shows RGBA pixels. -/
def savedFrame (width height : UInt32) (pixels : Bytes) : FrameState :=
  ⟨⟨width, height, width * 4, formatR8g8b8a8, pixels, 0⟩, none⟩

/-- The image hands out one frame, this one, first. -/
structure HandsOut (img : ImageState) (f : FrameState) : Prop where
  frameCount : img.frameCount = 1
  first : ∀ host request,
    img.specificFrame host request = .ok ({ img with cursor := 1 }, .ok f)

theorem handsOut_of_showsOne {s : LoaderState} {image : Image} {width height : UInt32}
    {pixels : Bytes} (h : Png.ShowsOne image ⟨width, height, .r8g8b8a8, pixels⟩)
    (hrow : width.toNat * 4 < 2 ^ 32) :
    HandsOut (.new s image) (savedFrame width height pixels) := by
  obtain ⟨t, ht, hframes⟩ := h.frames
  have hstride : t.stride = width * 4 := by
    rw [← UInt32.toNat_inj, ht.stride, UInt32.toNat_mul]
    exact (Nat.mod_eq_of_lt hrow).symm
  have hcount : (ImageState.new s image).frameCount = 1 := by
    rw [ImageState.new, imageFrameCount, hframes]
    rfl
  have hraw : rawFrame image 0 = some (savedFrame width height pixels).frame := by
    rw [rawFrame, imageTexture, imageFrameDelayMs, hframes]
    simp [savedFrame, textureFormat, ht.width, ht.height, ht.format, ht.data, hstride,
      memoryFormatToCUint]
  have hraster : (ImageState.new s image).rerender = none := by
    have hname : ¬ (ImageState.new s image).rerender.isSome = true := by
      rw [ImageState.rerender_isSome_iff, h.formatName]
      simp
    simpa using hname
  refine ⟨hcount, fun host request => ?_⟩
  have hleft : (ImageState.new s image).cursor < (ImageState.new s image).frameCount := by
    rw [hcount]
    exact Nat.zero_lt_one
  rw [ImageState.specificFrame_of_raster hraster, ImageState.cachedRaw_of_lt hleft hraw]
  show Except.ok (_, Except.ok (FrameState.mk _ image.cicp)) = _
  rw [h.cicp]
  rfl

/-- A limit of the engine, as the shim reports it. -/
def LimitError (e : GError) : Prop :=
  ∃ which, e = .new 0 ("gly_loader_load: " ++ cstring (display (.limitExceeded which)))

/-- What the shim makes of the engine's answer. -/
def LoaderState.answered (s : LoaderState) : Except Error Image → Except GError ImageState
  | .ok image => .ok (.new s image)
  | .error e => .error (.new 0 ("gly_loader_load: " ++ cstring (display e)))

theorem load_answered {world : Host → Prop} {host : Host} {s : LoaderState} {file : Bytes}
    (hs : Loading world file s) (hinner : s.inner.isSome = true) {answer : Except Error Image}
    (hanswer : (engineLoader file s.applyTransformations none).load host = .ok answer) :
    s.load host = .ok ({ s with inner := none }, s.answered answer) := by
  obtain ⟨inner, hinner⟩ := Option.isSome_iff_exists.mp hinner
  rw [LoaderState.load, hinner]
  dsimp only
  rw [hs.engineLoader_eq hinner, loaderLoad, hanswer]
  cases answer <;> rfl

/-- Over a cap of the engine or of the codec. -/
theorem load_refused {world : Host → Prop} {host : Host} {s : LoaderState} {file : Bytes}
    (hs : Loading world file s) (hinner : s.inner.isSome = true) (hworking : Working host)
    {format : KnownFormat} (hformat : Sniff.detect file = some format) {which : String}
    (hwhich : (dispatch host.codecs format file
      (engineLoader file s.applyTransformations none).options).result =
        .error (.limitExceeded which)) :
    ∃ e, s.load host = .ok ({ s with inner := none }, .error e) ∧ LimitError e := by
  have hdecoded := hworking.decoded_eq hformat s.applyTransformations none
  rw [hwhich] at hdecoded
  have hload : (engineLoader file s.applyTransformations none).load host =
      .ok (.error (.limitExceeded which)) := by
    rw [Loader.load, hdecoded]
    rfl
  exact ⟨_, load_answered hs hinner hload, which, rfl⟩

/-- A load of the saved file answers with the picture, or with a limit that was exceeded. -/
theorem load_saved {codecs : ImageEncoders} {world : Host → Prop} {icc : Option Bytes}
    {width height : UInt32} {pixels file : Bytes}
    (hfile : codecs.png icc pixels width height = .ok file)
    (hlen : pixels.length = 4 * (width.toNat * height.toNat)) {host : Host}
    (hworking : Working host) (hlossless : Lossless codecs host.codecs.png) {s : LoaderState}
    (hs : Loading world file s) (hinner : s.inner.isSome = true) :
    ∃ answer, s.load host = .ok ({ s with inner := none }, answer) ∧
      ((∃ e, answer = .error e ∧ LimitError e) ∨
        Limits.default.Fits width height 1 ∧
          ∃ img, answer = .ok img ∧ HandsOut img (savedFrame width height pixels)) := by
  have hformat : Sniff.detect file = some .png := by
    rw [Sniff.detect]
    exact if_pos (Sniff.startsWith_iff.mpr (hlossless.signed hfile))
  rcases hlossless.read hfile (memoryLimit (engineLoader file s.applyTransformations none).options)
    with hr | ⟨r, hr, hstill⟩
  · obtain ⟨which, hwhich⟩ := Png.decode_still_refused host.codecs.littleEndian width height
      pixels (.inl hr)
    obtain ⟨e, hload, he⟩ := load_refused hs hinner hworking hformat hwhich
    exact ⟨_, hload, .inl ⟨e, rfl, he⟩⟩
  · by_cases hfits : Limits.default.Fits width height 1
    · have hwidth : width.toNat ≤ 32768 := UInt32.le_iff_toNat_le.mp hfits.1
      have hpacked : (Picture.mk width height .r8g8b8a8 pixels).Packed := by
        rw [Picture.Packed, Picture.rowBytes, hlen]
        show _ = width.toNat * 4 * height.toNat
        ring
      have hrow : (Picture.mk width height .r8g8b8a8 pixels).rowBytes ≤ u32Max := by
        show width.toNat * 4 ≤ 2 ^ 32 - 1
        omega
      obtain ⟨base, hbase, hone⟩ := Png.decode_still host.codecs.littleEndian hr hstill hpacked
        hrow hfits
      obtain ⟨image, hload, hone⟩ := hworking.load_of_showsOne hformat hbase hone
      exact ⟨_, load_answered hs hinner hload, .inr ⟨hfits, _, rfl,
        handsOut_of_showsOne hone (by omega)⟩⟩
    · obtain ⟨which, hwhich⟩ := Png.decode_still_refused host.codecs.littleEndian width height
        pixels (.inr ⟨r, hr, hstill, hfits⟩)
      obtain ⟨e, hload, he⟩ := load_refused hs hinner hworking hformat hwhich
      exact ⟨_, hload, .inl ⟨e, rfl, he⟩⟩

/-! ## Saving what was loaded -/

/-- What a client that was handed a frame passes on to a creator. -/
def FrameState.frameData (f : FrameState) : FrameData where
  width := f.frame.width
  height := f.frame.height
  stride := f.frame.stride
  memoryFormat := Int32.ofNat (ngToGly f.frame.format)
  data := f.frame.data

theorem rgbaBytes_rgba {p : Bytes} (h : p.length = 4) : Encoder.rgbaBytes .r8g8b8a8 p = p := by
  obtain ⟨r, g, b, a, rfl⟩ := List.length_eq_four.mp h
  rfl

/-- The frame of RGBA pixels is given to the codec as it is. -/
theorem drawn_saved {width height stride : UInt32} {pixels : Bytes}
    (hlen : pixels.length = 4 * (width.toNat * height.toNat))
    (hstride : stride.toNat = width.toNat * 4) :
    drawn ⟨width, height, stride, .r8g8b8a8, pixels⟩ stride.toNat
      (Encoder.rgbaBytes .r8g8b8a8) = pixels := by
  have hlen : pixels.length = height.toNat * (width.toNat * 4) := hlen.trans (by ring)
  rw [drawn, hstride]
  refine (Raster.eq_pack hlen fun x hx y hy => ?_).symm
  exact (rgbaBytes_rgba (Raster.length_pixel (Raster.holds_packed hlen) hx hy)).symm

/-- The stride of a loaded frame is kept. -/
theorem actualStride_packed (width : UInt32) :
    actualStride width (width * 4) formatR8g8b8a8 = width * 4 := by
  rw [actualStride]
  split <;> rfl

/-- A saved picture, saved once more from the frame it is loaded as. -/
theorem saves_again {codecs : ImageEncoders} {width height : UInt32} {pixels file : Bytes}
    (hlen : pixels.length = 4 * (width.toNat * height.toNat)) (hne : pixels ≠ [])
    (hsmall : width.toNat * 4 * height.toNat ≤ 2 ^ 30) (s : Session) {mime : Bytes}
    (hmime : (toStr mime).bind KnownFormat.fromMimeType = some .png) (before after : List Tuning)
    (hfile : codecs.png (profile (before ++ after)) pixels width height = .ok file) :
    Saves codecs s mime before (savedFrame width height pixels).frameData after file := by
  obtain ⟨text, htext, htarget⟩ := Option.bind_eq_some_iff.mp hmime
  have hpos : 0 < height.toNat := by
    refine Nat.pos_of_ne_zero fun hzero => hne (List.length_eq_zero_iff.mp ?_)
    rw [hlen, hzero, Nat.mul_zero, Nat.mul_zero]
  have hrow : width.toNat * 4 ≤ 2 ^ 30 := (Nat.le_mul_of_pos_right _ hpos).trans hsmall
  have hstride : (width * 4).toNat = width.toNat * 4 := by
    rw [UInt32.toNat_mul]
    exact Nat.mod_eq_of_lt (Nat.lt_of_le_of_lt hrow (by decide))
  refine saves_iff_called.mpr ⟨text, .png, ⟨width, height, width * 4, .r8g8b8a8, pixels⟩, htext,
    htarget, FrameData.queued_eq_some.mpr ⟨hne, formatR8g8b8a8, .r8g8b8a8, rfl, rfl, ?_⟩,
    ⟨hstride.ge, hsmall, .inr ?_⟩, ?_⟩
  · show _ = EncodeFrame.mk width height (actualStride width (width * 4) formatR8g8b8a8) _ pixels
    rw [actualStride_packed]
  · show (height.toNat - 1) * (width * 4).toNat + width.toNat * 4 ≤ pixels.length
    have hrows : (height.toNat - 1) * (width.toNat * 4) + width.toNat * 4 =
        4 * (width.toNat * height.toNat) := by
      rw [← Nat.succ_mul, Nat.succ_eq_add_one, Nat.sub_add_cancel hpos]
      ring
    rw [hstride, hlen, hrows]
  · rw [drawn_saved hlen hstride, codecOf, hfile]

/-- What a creator has saved as PNG comes back. The file holds, pixel by pixel, the samples of
the frame that was added; every loader made from it, whatever has been set on it, answers with
an image whose first and only frame is this picture, or with a limit that was exceeded; and that
frame, saved under the same colour profile, makes the same file again. -/
theorem saved_picture_loads {codecs : ImageEncoders} {s : Session} {mime : Bytes}
    {before after : List Tuning} {f : FrameData} {file : Bytes}
    (hmime : (toStr mime).bind KnownFormat.fromMimeType = some .png)
    (hsaved : Saves codecs s mime before f after file) {world : Host → Prop}
    (hworld : ∀ host, world host → Working host ∧ Lossless codecs host.codecs.png) :
    ∃ ng mf pixels, glyToNg f.memoryFormat = some ng ∧ cUintToMemoryFormat ng = some mf ∧
      pixels.length = 4 * (f.width.toNat * f.height.toNat) ∧
      (∀ x < f.width.toNat, ∀ y < f.height.toNat, ∃ r g b a,
        Encoder.sampleRgba8 mf ((f.data.drop (y * exactStride f.width f.stride ng +
          x * mf.bytesPerPixel)).take mf.bytesPerPixel) = .ok (some (r, g, b, a)) ∧
        (pixels.drop (4 * (y * f.width.toNat + x))).take 4 = [r, g, b, a]) ∧
      (∀ t host, Loading world file t → t.inner.isSome = true → world host →
        ∃ answer, t.load host = .ok ({ t with inner := none }, answer) ∧
          ((∃ e, answer = .error e ∧ LimitError e) ∨
            Limits.default.Fits f.width f.height 1 ∧
              ∃ img, answer = .ok img ∧ HandsOut img (savedFrame f.width f.height pixels))) ∧
      ∀ s' mime' before' after', (toStr mime').bind KnownFormat.fromMimeType = some .png →
        profile (before' ++ after') = profile (before ++ after) → pixels ≠ [] →
        Saves codecs s' mime' before' (savedFrame f.width f.height pixels).frameData after'
          file := by
  obtain ⟨text, target, frame, htext, htarget, hqueued, haccepts, hfile⟩ :=
    saves_iff_called.mp hsaved
  obtain ⟨-, ng, mf, hng, hmf, rfl⟩ := FrameData.queued_eq_some.mp hqueued
  rw [htext, Option.bind_some, htarget, Option.some.injEq] at hmime
  subst hmime
  obtain ⟨hformat, hbpp⟩ := sampled_of_glyToNg hng hmf
  have hfits : f.Fits ng mf := (FrameData.fits_iff hbpp).mpr haccepts
  have hpictured := (hfits.pictured_iff hformat).mpr ⟨rfl, rfl⟩
  have hfile := Option.some.inj hfile
  refine ⟨ng, mf, _, hng, hmf, hpictured.length_rgba, ?_, ?_, ?_⟩
  · intro x hx y hy
    obtain ⟨r, g, b, a, hread, hbytes, -⟩ := hpictured.pixels x hx y hy
    exact ⟨r, g, b, a, hread, hbytes⟩
  · intro t host ht hinner hhost
    obtain ⟨hworking, hlossless⟩ := hworld host hhost
    exact load_saved hfile hpictured.length_rgba hworking hlossless ht hinner
  · intro s' mime' before' after' hmime' hprofile hne
    rw [← hprofile] at hfile
    exact saves_again hpictured.length_rgba hne hfits.output_le s' hmime' before' after' hfile

/-- A PNG file of one pixel. -/
def pixelPng : Bytes :=
  [0x89, 0x50, 0x4e, 0x47, 0x0d, 0x0a, 0x1a, 0x0a, 0x00, 0x00, 0x00, 0x0d, 0x49, 0x48, 0x44, 0x52,
    0x00, 0x00, 0x00, 0x01, 0x00, 0x00, 0x00, 0x01, 0x08, 0x06, 0x00, 0x00, 0x00, 0x1f, 0x15, 0xc4,
    0x89, 0x00, 0x00, 0x00, 0x0d, 0x49, 0x44, 0x41, 0x54, 0x78, 0x9c, 0x63, 0x60, 0x64, 0x62, 0xfe,
    0x0f, 0x00, 0x01, 0x14, 0x01, 0x06, 0xd6, 0xb9, 0xa6, 0x45, 0x00, 0x00, 0x00, 0x00, 0x49, 0x45,
    0x4e, 0x44, 0xae, 0x42, 0x60, 0x82]

/-- Encoders that write this file, and refuse every other picture. -/
def pixelEncoders : ImageEncoders :=
  { Creators.refusing with
    png := fun icc pixels width height =>
      if icc = none ∧ pixels = [1, 2, 3, 255] ∧ width = 1 ∧ height = 1 then .ok pixelPng
      else .error "" }

/-- What the crate reads of it. -/
def pixelReader : Png.Reader where
  outputColorType := (.rgba, .eight)
  width := 1
  height := 1
  animationControl := none
  iccProfile := none
  exifMetadata := none
  outputBufferSize := fun _ => some 4
  nextFrame := fun _ => .ok (⟨1, 1, 4⟩, [1, 2, 3, 255])
  frameControl := fun _ => none
  uncompressedLatin1Text := []
  compressedLatin1Text := []
  utf8Text := []
  codingIndependentCodePoints := none

/-- Codecs that read this file, and nothing else. -/
def pixelCodecs : Codecs :=
  { Codecs.failing with
    png := fun _ bytes => if bytes = pixelPng then .ok pixelReader else .error (.format "") }

theorem lossless_pixel : Lossless pixelEncoders pixelCodecs.png := by
  have hfile : ∀ {icc pixels width height file},
      pixelEncoders.png icc pixels width height = .ok file →
        pixels = [1, 2, 3, 255] ∧ width = 1 ∧ height = 1 ∧ file = pixelPng := by
    intro icc pixels width height file h
    simp only [pixelEncoders] at h
    split at h
    · rename_i hpicture
      exact ⟨hpicture.2.1, hpicture.2.2.1, hpicture.2.2.2, (Except.ok.inj h).symm⟩
    · cases h
  constructor
  · intro icc pixels width height file h
    obtain ⟨-, -, -, rfl⟩ := hfile h
    exact ⟨pixelPng.drop 8, rfl⟩
  · intro icc pixels width height file h maxBytes
    obtain ⟨rfl, rfl, rfl, rfl⟩ := hfile h
    have hread : pixelCodecs.png maxBytes pixelPng = .ok pixelReader := by
      simp only [pixelCodecs, if_true]
    exact .inr ⟨pixelReader, hread, rfl, rfl, rfl, rfl, rfl, rfl, rfl, rfl, rfl⟩

theorem saved_picture_loads_pixel :
    Saves pixelEncoders .start (ascii "image/png") [] ⟨1, 1, 0, 7, [1, 2, 3]⟩ [.quality 90]
      pixelPng ∧
    (∃ answer, (LoaderState.newFromBytes pixelPng).load (.plain pixelCodecs) =
        .ok ({ LoaderState.newFromBytes pixelPng with inner := none }, answer) ∧
      ((∃ e, answer = .error e ∧ LimitError e) ∨ Limits.default.Fits 1 1 1 ∧
        ∃ img, answer = .ok img ∧ HandsOut img (savedFrame 1 1 [1, 2, 3, 255]))) ∧
    Saves pixelEncoders .start (ascii "image/png") []
      (savedFrame 1 1 [1, 2, 3, 255]).frameData [] pixelPng := by
  have htext : toStr (ascii "image/png") = some "image/png" := by decide +kernel
  have hmime : (toStr (ascii "image/png")).bind KnownFormat.fromMimeType = some .png := by
    rw [htext]
    decide +kernel
  have hsaved : Saves pixelEncoders .start (ascii "image/png") [] ⟨1, 1, 0, 7, [1, 2, 3]⟩
      [.quality 90] pixelPng :=
    saves_iff_called.mpr ⟨"image/png", .png, ⟨1, 1, 3, .r8g8b8, [1, 2, 3]⟩, htext,
      by decide +kernel, rfl, ⟨by decide, by decide, .inr (by decide)⟩, by decide +kernel⟩
  have hworld : ∀ host, host = Host.plain pixelCodecs →
      Working host ∧ Lossless pixelEncoders host.codecs.png := by
    rintro _ rfl
    exact ⟨⟨rfl, rfl⟩, lossless_pixel⟩
  obtain ⟨ng, mf, pixels, hng, hmf, hlen, hpixels, hloads, hagain⟩ :=
    saved_picture_loads hmime hsaved hworld
  cases hng
  cases hmf
  obtain ⟨r, g, b, a, hread, hbytes⟩ := hpixels 0 (by decide) 0 (by decide)
  cases hread
  obtain rfl : pixels = [1, 2, 3, 255] :=
    (List.take_of_length_le (Nat.le_of_eq hlen)).symm.trans hbytes
  exact ⟨hsaved, hloads _ _ .new rfl rfl, hagain .start _ [] [] hmime rfl (by decide)⟩

end GlycinNg.Shim
