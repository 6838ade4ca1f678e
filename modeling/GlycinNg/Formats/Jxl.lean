import GlycinNg.Formats.Codec

/-! # JPEG XL

`formats/jxl.rs` over the `jxl-oxide` crate. Samples are `f32` bit patterns. The
decoder allocates four samples for each pixel whatever the pixel format is,
which `decode_bookkeeping_iff` turns into the exact condition under which its
own texture is refused. -/
namespace GlycinNg.Jxl
open Rust

inductive PixelFormat where
  | gray | graya | rgb | rgba
  | other (debug : String)
  deriving DecidableEq, Repr

/-- `jxl_oxide::JxlImage`, whose errors are only ever displayed. -/
structure JxlImage where
  width : UInt32
  height : UInt32
  numLoadedKeyframes : UInt64
  pixelFormat : PixelFormat
  /-- The samples a frame's stream writes to the front of the buffer. -/
  renderFrame : Nat → Except String (List UInt32)
  /-- `duration` of the header of a frame. -/
  frameDuration : Nat → Option UInt32
  /-- `tps_numerator` and `tps_denominator`. -/
  animation : Option (UInt32 × UInt32)
  originalIcc : Option Bytes

/-- `JxlImage::builder().read`. -/
abbrev Crate := Bytes → Except String JxlImage

def jxlError (display : String) : Error := .decoder "jxl" display

def mapFormat : PixelFormat → Except Error MemoryFormat
  | .gray => .ok .r32g32b32a32Float
  | .graya => .ok .r32g32b32a32Float
  | .rgb => .ok .r32g32b32Float
  | .rgba => .ok .r32g32b32a32Float
  | .other debug => .error (.decoder "jxl" ("unsupported pixel format: " ++ debug))

namespace JxlImage

/-- The number of frames, cast to `u32`. -/
def numKeyframes (jxl : JxlImage) : UInt32 := (max jxl.numLoadedKeyframes 1).toUInt32

def pixelCount (jxl : JxlImage) : Nat := jxl.width.toNat * jxl.height.toNat

/-- The length of the buffer, in samples. -/
def totalFloats (jxl : JxlImage) : Except Error Nat := do
  let pixelCount ←
    okOr (u64CheckedMul jxl.width.toUInt64 jxl.height.toUInt64) (.limitExceeded "max_pixels")
  okOr (checkedMul pixelCount.toNat 4) (.limitExceeded "buffer size")

def tps (jxl : JxlImage) : UInt64 × UInt64 :=
  match jxl.animation with
  | some (num, denom) => ((max num 1).toUInt64, (max denom 1).toUInt64)
  | none => (1, 1)

/-- The time a frame of an animation is shown. -/
def tickDelay (jxl : JxlImage) (idx : Nat) : Duration :=
  let durationTicks := ((jxl.frameDuration idx).map UInt32.toUInt64).getD 0
  Duration.fromMicros
    (u64SaturatingMul (u64SaturatingMul durationTicks 1000000) jxl.tps.2 / max jxl.tps.1 1)

/-- The picture made of what a stream wrote. -/
def picture (jxl : JxlImage) (littleEndian : Bool) (format : MemoryFormat) (totalFloats : Nat)
    (samples : List UInt32) : Picture where
  width := jxl.width
  height := jxl.height
  format := format
  data := floatsToBytes littleEndian (overlay samples (List.replicate totalFloats 0))

end JxlImage

/-- The body of the frame loop. -/
def decodeFrame (limits : Limits) (littleEndian : Bool) (jxl : JxlImage) (format : MemoryFormat)
    (totalFloats : Nat) (s : Animation) (idx : Nat) : Decode Animation := do
  let samples ← Traced.perform .jxlRenderFrame ((jxl.renderFrame idx).mapError jxlError)
  let texture ← packTexture "jxl" (jxl.picture littleEndian format totalFloats samples)
  if jxl.numKeyframes > 1 then do
    let totalAnimation := s.totalAnimation.saturatingAdd (jxl.tickDelay idx)
    failIf (totalAnimation > limits.maxAnimationDuration)
      (.limitExceeded "max_animation_duration")
    return ⟨s.frames ++ [⟨texture, some (jxl.tickDelay idx)⟩], totalAnimation⟩
  else return ⟨s.frames ++ [⟨texture, none⟩], s.totalAnimation⟩

/-- `jxl::decode`. -/
def decode (crate : Crate) (littleEndian : Bool) (bytes : Bytes) (opts : DecodeOptions) :
    Decode Image := do
  let jxl ← Traced.perform .jxlRead ((crate bytes).mapError jxlError)
  opts.limits.checkDimensions jxl.width jxl.height jxl.numKeyframes
  let format ← mapFormat jxl.pixelFormat
  let totalFloats ← jxl.totalFloats
  let s ← (List.range jxl.numKeyframes.toNat).foldlM
    (decodeFrame opts.limits littleEndian jxl format totalFloats) Animation.start
  let image := Image.fromParts "jxl" jxl.width jxl.height s.frames
  return jxl.originalIcc.elim image image.setIccProfile

/-! ## What is decoded -/

namespace JxlImage

def frameDelay (jxl : JxlImage) (idx : Nat) : Option Duration :=
  if jxl.numKeyframes > 1 then some (jxl.tickDelay idx) else none

def shot (jxl : JxlImage) (littleEndian : Bool) (format : MemoryFormat) (idx : Nat) :
    Option Shot :=
  (jxl.renderFrame idx).toOption.map fun samples =>
    ⟨jxl.picture littleEndian format (jxl.pixelCount * 4) samples, jxl.frameDelay idx⟩

def delivery (jxl : JxlImage) (littleEndian : Bool) : Option Delivery := do
  let format ← (mapFormat jxl.pixelFormat).toOption
  let shots ← (List.range jxl.numKeyframes.toNat).mapM (jxl.shot littleEndian format)
  return ⟨jxl.width, jxl.height, shots⟩

end JxlImage

/-- Two `u32` sides never overflow the pixel count; four times the count may. -/
theorem totalFloats_eq (jxl : JxlImage) :
    jxl.totalFloats = if jxl.pixelCount * 4 < usizeValues then .ok (jxl.pixelCount * 4)
      else .error (.limitExceeded "buffer size") := by
  have hlt := Limits.mul_u32_lt jxl.width jxl.height
  have hmul : u64CheckedMul jxl.width.toUInt64 jxl.height.toUInt64 =
      some (jxl.width.toUInt64 * jxl.height.toUInt64) := if_pos (by simpa using hlt)
  have hcount : (jxl.width.toUInt64 * jxl.height.toUInt64).toNat = jxl.pixelCount := by
    rw [UInt64.toNat_mul]
    exact Nat.mod_eq_of_lt hlt
  rw [JxlImage.totalFloats, hmul, okOr, ok_bind, hcount, checkedMul]
  split <;> rfl

theorem totalFloats_ok {jxl : JxlImage} {n : Nat} :
    jxl.totalFloats = .ok n ↔ jxl.pixelCount * 4 < usizeValues ∧ jxl.pixelCount * 4 = n := by
  rw [totalFloats_eq]
  split <;> simp [*]

theorem decodeFrame_ok {limits : Limits} {littleEndian : Bool} {jxl : JxlImage}
    {format : MemoryFormat} {pulled : List Nat} {s s' : Animation} {idx : Nat}
    (hinv : s.Inv (jxl.shot littleEndian format) limits.maxAnimationDuration pulled)
    (h : (decodeFrame limits littleEndian jxl format (jxl.pixelCount * 4) s idx).result = .ok s') :
    s'.Inv (jxl.shot littleEndian format) limits.maxAnimationDuration (pulled ++ [idx]) := by
  obtain ⟨samples, hsamples, h⟩ := Traced.perform_bind_eq_ok.mp h
  obtain ⟨t, ht, h⟩ := Traced.lift_bind_eq_ok.mp h
  rw [mapError_eq_ok] at hsamples
  have hshot : jxl.shot littleEndian format idx =
      some ⟨jxl.picture littleEndian format (jxl.pixelCount * 4) samples, jxl.frameDelay idx⟩ := by
    rw [JxlImage.shot, hsamples]
    rfl
  by_cases hcount : jxl.numKeyframes > 1
  · rw [if_pos hcount] at h
    obtain ⟨_, hcap, h⟩ := Traced.lift_bind_eq_ok.mp h
    rw [failIf_eq_ok] at hcap
    cases h
    rw [JxlImage.frameDelay, if_pos hcount] at hshot
    exact ⟨hinv.pulled.snoc hshot ⟨packTexture_ok ht, rfl⟩, hinv.timed.snoc hcap⟩
  · rw [if_neg hcount] at h
    cases h
    rw [JxlImage.frameDelay, if_neg hcount] at hshot
    exact ⟨hinv.pulled.snoc hshot ⟨packTexture_ok ht, rfl⟩, hinv.timed.snoc_none⟩

/-- A decode that returns has accepted the header, carries the delivery and kept
the duration cap. -/
theorem decode_ok {crate : Crate} {littleEndian : Bool} {bytes : Bytes} {opts : DecodeOptions}
    {img : Image} (h : (decode crate littleEndian bytes opts).result = .ok img) :
    ∃ jxl d, crate bytes = .ok jxl ∧
      opts.limits.Fits jxl.width jxl.height jxl.numKeyframes ∧
      jxl.delivery littleEndian = some d ∧ img.Carries d ∧
      ∃ total, Timed opts.limits.maxAnimationDuration img.frames total := by
  obtain ⟨jxl, hjxl, h⟩ := Traced.perform_bind_eq_ok.mp h
  obtain ⟨_, hcheck, h⟩ := Traced.lift_bind_eq_ok.mp h
  obtain ⟨format, hformat, h⟩ := Traced.lift_bind_eq_ok.mp h
  obtain ⟨floats, hfloats, h⟩ := Traced.lift_bind_eq_ok.mp h
  obtain ⟨-, rfl⟩ := totalFloats_ok.mp hfloats
  obtain ⟨s, hloop, h⟩ := Traced.bind_eq_ok.mp h
  rw [mapError_eq_ok] at hjxl
  have hinv : s.Inv (jxl.shot littleEndian format) opts.limits.maxAnimationDuration
      (List.range jxl.numKeyframes.toNat) := by
    apply Traced.foldlM_inv (fun pulled s =>
      s.Inv (jxl.shot littleEndian format) opts.limits.maxAnimationDuration pulled) ?_
      (Animation.Inv.start _ _) hloop
    intro pulled idx rest s s' _ hinv hstep
    exact decodeFrame_ok hinv hstep
  obtain ⟨shots, hshots, hcarries⟩ := hinv.pulled
  have hd : jxl.delivery littleEndian = some ⟨jxl.width, jxl.height, shots⟩ := by
    simp [JxlImage.delivery, hformat, hshots, Except.toOption]
  refine ⟨jxl, _, hjxl, Limits.checkDimensions_ok_iff.mp hcheck, hd, ?_⟩
  cases h
  cases jxl.originalIcc <;> exact ⟨⟨rfl, rfl, rfl, hcarries⟩, _, hinv.timed⟩

/-- One shot for each loaded keyframe, each of the size of the image. -/
theorem delivery_eq {littleEndian : Bool} {jxl : JxlImage} {d : Delivery}
    (h : jxl.delivery littleEndian = some d) :
    d.width = jxl.width ∧ d.height = jxl.height ∧ d.shots.length = jxl.numKeyframes.toNat ∧
      ∀ s ∈ d.shots, s.picture.width = jxl.width ∧ s.picture.height = jxl.height := by
  simp only [JxlImage.delivery, bind, Option.bind_eq_some_iff] at h
  obtain ⟨format, -, shots, hshots, h⟩ := h
  cases h
  refine ⟨rfl, rfl, by simpa using (mapM_eq_some.mp hshots).length_eq.symm, ?_⟩
  refine forall_mem_of_mapM hshots ?_
  intro idx s hs
  obtain ⟨samples, -, rfl⟩ := Option.map_eq_some_iff.mp hs
  exact ⟨rfl, rfl⟩

/-! ## Bookkeeping -/

def PixelFormat.channels : PixelFormat → Nat
  | .gray => 1
  | .graya => 2
  | .rgb => 3
  | .rgba => 4
  | .other _ => 0

/-- The pixel format is accepted, and every frame is rendered with one sample for
each channel of each pixel. -/
structure JxlImage.Documented (jxl : JxlImage) : Prop where
  accepted : ∃ format, mapFormat jxl.pixelFormat = .ok format
  renderFrame : ∀ idx < jxl.numKeyframes.toNat, ∃ samples, jxl.renderFrame idx = .ok samples ∧
    samples.length = jxl.pixelCount * jxl.pixelFormat.channels

/-- A frame gets as far as `from_parts` with a buffer of four samples for each
pixel and a format of three. -/
structure JxlImage.Mismatch (jxl : JxlImage) (limits : Limits) : Prop where
  rgb : jxl.pixelFormat = .rgb
  nonempty : 0 < jxl.pixelCount
  frames : 0 < jxl.numKeyframes.toNat
  fits : limits.Fits jxl.width jxl.height jxl.numKeyframes
  row : jxl.width.toNat * 12 ≤ u32Max
  alloc : jxl.pixelCount * 4 < usizeValues

/-- The buffer suits the formats of four samples only. -/
theorem picture_packed_iff {jxl : JxlImage} {littleEndian : Bool} {format : MemoryFormat}
    {samples : List UInt32} :
    (jxl.picture littleEndian format (jxl.pixelCount * 4) samples).Packed ↔
      jxl.pixelCount * 16 = jxl.pixelCount * format.bytesPerPixel := by
  simp only [Picture.Packed, Picture.rowBytes, JxlImage.picture, length_floatsToBytes,
    length_overlay, List.length_replicate]
  rw [JxlImage.pixelCount, Nat.mul_right_comm jxl.width.toNat format.bytesPerPixel,
    Nat.mul_assoc _ 4]

theorem decodeFrame_bookkeeping {limits : Limits} {littleEndian : Bool} {jxl : JxlImage}
    {format : MemoryFormat} {s : Animation} {idx : Nat} {samples : List UInt32} {e : Error}
    (hsamples : jxl.renderFrame idx = .ok samples) (hbook : e.IsBookkeeping)
    (h : (decodeFrame limits littleEndian jxl format (jxl.pixelCount * 4) s idx).result =
      .error e) :
    ¬ (jxl.picture littleEndian format (jxl.pixelCount * 4) samples).Packed ∧
      jxl.width.toNat * format.bytesPerPixel ≤ u32Max := by
  rw [decodeFrame, Traced.result_perform_bind hsamples] at h
  rcases Traced.lift_bind_eq_error.mp h with h | ⟨_, -, h⟩
  · refine ⟨?_, rowBytes_le_of_isBookkeeping h hbook⟩
    intro hpacked
    exact not_isBookkeeping_pack hpacked h hbook
  · split at h
    · rcases Traced.lift_bind_eq_error.mp h with h | ⟨_, -, h⟩
      · exact absurd hbook (not_isBookkeeping_failIf h)
      · cases h
    · cases h

/-- The pixel formats whose buffer does not suit their texture. -/
theorem mapFormat_mismatch {pixelFormat : PixelFormat} {format : MemoryFormat} {n : Nat}
    (h : mapFormat pixelFormat = .ok format) :
    n * 16 ≠ n * format.bytesPerPixel ↔ pixelFormat = .rgb ∧ 0 < n := by
  cases pixelFormat with
  | rgb =>
    cases h
    show n * 16 ≠ n * 12 ↔ _
    constructor
    · intro hne
      exact ⟨rfl, by omega⟩
    · intro ⟨_, hpos⟩
      omega
  | gray | graya | rgba =>
    cases h
    apply iff_of_false
    · intro hne
      exact hne rfl
    · intro ⟨hrgb, _⟩
      cases hrgb
  | other => cases h

/-- The first frame of a mismatch already ends the decode. -/
theorem decode_mismatch {crate : Crate} {littleEndian : Bool} {bytes : Bytes}
    {opts : DecodeOptions} {jxl : JxlImage} (hjxl : crate bytes = .ok jxl)
    (hdoc : jxl.Documented) (h : jxl.Mismatch opts.limits) :
    (decode crate littleEndian bytes opts).result =
      .error (.decoder "jxl" "texture construction failed") := by
  obtain ⟨samples, hsamples, -⟩ := hdoc.renderFrame 0 h.frames
  obtain ⟨n, hn⟩ := Nat.exists_eq_add_of_lt h.frames
  have hpack : packTexture "jxl"
      (jxl.picture littleEndian .r32g32b32Float (jxl.pixelCount * 4) samples) =
        .error (.decoder "jxl" "texture construction failed") := by
    refine packTexture_refused h.row ?_
    rw [picture_packed_iff]
    exact (mapFormat_mismatch (h.rgb ▸ rfl)).mpr ⟨h.rgb, h.nonempty⟩
  have hframe : (decodeFrame opts.limits littleEndian jxl .r32g32b32Float (jxl.pixelCount * 4)
      Animation.start 0).result = .error (.decoder "jxl" "texture construction failed") := by
    rw [decodeFrame, Traced.result_perform_bind hsamples]
    exact Traced.lift_bind_eq_error.mpr (.inl hpack)
  have hrange : List.range jxl.numKeyframes.toNat = 0 :: (List.range n).map Nat.succ := by
    rw [hn, Nat.zero_add, List.range_succ_eq_map]
  have hformat : mapFormat jxl.pixelFormat = .ok .r32g32b32Float := by
    rw [h.rgb]
    rfl
  rw [decode, Traced.result_perform_bind hjxl,
    Traced.result_lift_bind (Limits.checkDimensions_ok_iff.mpr h.fits),
    Traced.result_lift_bind hformat,
    Traced.result_lift_bind (totalFloats_ok.mpr ⟨h.alloc, rfl⟩), hrange, List.foldlM_cons]
  apply Traced.bind_eq_error.mpr
  left
  exact Traced.bind_eq_error.mpr (.inl hframe)

/-- A documented codec sees the bookkeeping error exactly on a mismatch. -/
theorem decode_bookkeeping_iff {crate : Crate} {littleEndian : Bool} {bytes : Bytes}
    {opts : DecodeOptions} {jxl : JxlImage} (hjxl : crate bytes = .ok jxl)
    (hdoc : jxl.Documented) :
    (∃ e, (decode crate littleEndian bytes opts).result = .error e ∧ e.IsBookkeeping) ↔
      jxl.Mismatch opts.limits := by
  constructor
  · intro ⟨e, h, hbook⟩
    obtain ⟨format, hformat⟩ := hdoc.accepted
    rw [decode, Traced.result_perform_bind hjxl] at h
    rcases Traced.lift_bind_eq_error.mp h with h | ⟨_, hcheck, h⟩
    · exact absurd hbook (not_isBookkeeping_check h)
    rw [Traced.result_lift_bind hformat] at h
    rcases Traced.lift_bind_eq_error.mp h with h | ⟨floats, hfloats, h⟩
    · rw [totalFloats_eq] at h
      split at h <;> cases h
      exact absurd hbook (not_isBookkeeping_limitExceeded _)
    obtain ⟨halloc, rfl⟩ := totalFloats_ok.mp hfloats
    rcases Traced.bind_eq_error.mp h with h | ⟨_, -, h⟩
    · obtain ⟨idx, hidx, s, h⟩ := Traced.exists_of_foldlM_error h
      rw [List.mem_range] at hidx
      obtain ⟨samples, hsamples, -⟩ := hdoc.renderFrame idx hidx
      obtain ⟨hpacked, hrow⟩ := decodeFrame_bookkeeping hsamples hbook h
      rw [picture_packed_iff] at hpacked
      obtain ⟨hrgb, hcount⟩ := (mapFormat_mismatch hformat).mp hpacked
      rw [hrgb] at hformat
      cases hformat
      exact ⟨hrgb, hcount, Nat.zero_lt_of_lt hidx, Limits.checkDimensions_ok_iff.mp hcheck, hrow,
        halloc⟩
    · cases h
  · intro hmismatch
    exact ⟨_, decode_mismatch hjxl hdoc hmismatch, "jxl", rfl⟩

/-! ## Gating -/

/-- Only the truncated frame count is checked, and the size of the buffer. -/
theorem decode_gated_iff {crate : Crate} {littleEndian : Bool} {bytes : Bytes}
    {opts : DecodeOptions} {jxl : JxlImage} (hjxl : crate bytes = .ok jxl) :
    Gated (decode crate littleEndian bytes opts) ↔
      (¬ opts.limits.Fits jxl.width jxl.height jxl.numKeyframes ∨
        (∃ format, mapFormat jxl.pixelFormat = .ok format) ∧
          usizeValues ≤ jxl.pixelCount * 4) := by
  rw [decode, gated_perform hjxl rfl]
  by_cases hfits : opts.limits.Fits jxl.width jxl.height jxl.numKeyframes
  · rw [gated_lift (Limits.checkDimensions_ok_iff.mpr hfits)]
    simp only [hfits, not_true_eq_false, false_or]
    cases hformat : mapFormat jxl.pixelFormat with
    | error e =>
      rw [gated_lift_error rfl]
      cases hpf : jxl.pixelFormat <;> rw [hpf] at hformat <;> cases hformat
      simp
    | ok format =>
      rw [gated_lift rfl]
      by_cases halloc : jxl.pixelCount * 4 < usizeValues
      · rw [gated_lift (totalFloats_ok.mpr ⟨halloc, rfl⟩)]
        apply iff_of_false ?_ (not_and.mpr fun _ => Nat.not_le.mpr halloc)
        cases hcount : jxl.numKeyframes.toNat with
        | zero =>
          -- without frames the decode returns an empty image
          intro ⟨⟨which, h⟩, _⟩
          cases h
        | succ n =>
          rw [List.range_succ_eq_map, List.foldlM_cons]
          exact (Expands.bind (Expands.bind (Expands.bind (expands_perform rfl)))).not_gated
      · rw [gated_lift_error (by rw [totalFloats_eq, if_neg halloc])]
        simp [Nat.not_lt.mp halloc]
  · exact iff_of_true (gated_check hfits) (.inl hfits)

end GlycinNg.Jxl
