import GlycinNg.CApi.Contract
import GlycinNg.Encoder.Rgba
import GlycinNg.Shim.State

/-! # Creators of the shim

The encode path of `lib.rs`: thin calls into the encoder of the engine. A frame without a
stride gets `width * bpp` in 32 bits. Where that wraps, what is left is shorter than a row,
and `to_rgba8` refuses the frame; so whatever reaches the codec was read with the exact
stride (`implicit_stride_exact`). -/
namespace GlycinNg.Shim
open Rust CApi

/-- `memformat::gly_to_ng`. -/
def glyToNg (value : Int32) : Option UInt32 :=
  match value with
  | 0 => some formatB8g8r8a8Pre
  | 1 => some formatA8r8g8b8Pre
  | 2 => some formatR8g8b8a8Pre
  | 3 => some formatB8g8r8a8
  | 4 => some formatA8r8g8b8
  | 5 => some formatR8g8b8a8
  | 6 => some formatA8b8g8r8
  | 7 => some formatR8g8b8
  | 8 => some formatB8g8r8
  | _ => none

/-- Every constant it gives is a format of the encoder, and one it can sample. -/
theorem format_of_glyToNg {value : Int32} {ng : UInt32} (h : glyToNg value = some ng) :
    ∃ mf ∈ Encoder.eightBit, cUintToMemoryFormat ng = some mf ∧
      bytesPerPixelNg ng = mf.bytesPerPixel := by
  unfold glyToNg at h
  split at h <;> cases h
  all_goals exact ⟨_, by decide, rfl, rfl⟩

/-- `types::CreatorState`; NULL once the encoder is gone. -/
structure CreatorState where
  encoder : Ptr
  deriving DecidableEq

/-- A creator argument; NULL, or an object that is no creator, is `none`. -/
abbrev CreatorPtr := Option CreatorState

namespace Creator

/-- `ngapi::last_error_message`; the slot holds text already. -/
def lastErrorMessage : Abi String := return (← Abi.lastError).getD "glycin-ng reported failure"

/-- `set_error_from_ng`. -/
def errorFromNg (origin : String) : Abi GError :=
  return .new 0 (origin ++ ": " ++ (← lastErrorMessage))

/-- `with_encoder`. -/
def withEncoder {α : Type} (creator : CreatorPtr) (fname : String) (f : Ptr → Abi α) :
    Abi (Except GError α) :=
  match creator with
  | none => return .error (.new 0 (fname ++ ": invalid creator"))
  | some state =>
    if state.encoder.isNone then
      return .error (.new 0 (fname ++ ": encoder already consumed"))
    else return .ok (← f state.encoder)

/-- `gly_creator_new`. -/
def new (mimeType : Option Bytes) : Abi (Except GError CreatorPtr) :=
  match mimeType with
  | none => return .error (.new 0 "gly_creator_new: mime_type is NULL")
  | some mime => do
    let kfmt := knownFormatFromMime mimeType
    if kfmt = 0 then
      return .error (.new 0
        ("gly_creator_new: unsupported MIME type \"" ++ toStringLossy mime ++ "\""))
    else
      let encoder ← Abi.encoderNew kfmt
      if encoder.isNone then return .error (← errorFromNg "gly_creator_new")
      else return .ok (some ⟨encoder⟩)

/-- `if stride > 0 { stride } else { width * bpp }`, wrapping as in a release build. -/
def actualStride (width stride ngFormat : UInt32) : UInt32 :=
  let bpp := UInt32.ofNat (bytesPerPixelNg ngFormat)
  if stride > 0 then stride else width * bpp

/-- `gly_creator_add_frame_with_stride`; the creator itself is the handle of the frame. -/
def addFrameWithStride (creator : CreatorPtr) (width height stride : UInt32)
    (memoryFormat : Int32) (textureBytes : Option Bytes) : Abi (Except GError CreatorPtr) :=
  match textureBytes with
  | none => return .error (.new 0 "gly_creator_add_frame: texture_bytes is NULL")
  | some data =>
    if data = [] then return .error (.new 0 "gly_creator_add_frame: empty texture data")
    else
      match glyToNg memoryFormat with
      | none => return .error (.new 0 "gly_creator_add_frame: unsupported memory format")
      | some ngFormat => do
        let rc ← withEncoder creator "gly_creator_add_frame" fun enc =>
          Abi.encoderAddFrame enc width height (actualStride width stride ngFormat) ngFormat
            (.bytes data)
        match rc with
        | .error e => return .error e
        | .ok rc =>
          if rc != 0 then return .error (← errorFromNg "gly_creator_add_frame")
          else return .ok creator

/-- `gly_creator_add_frame`. -/
def addFrame (creator : CreatorPtr) (width height : UInt32) (memoryFormat : Int32)
    (textureBytes : Option Bytes) : Abi (Except GError CreatorPtr) :=
  addFrameWithStride creator width height 0 memoryFormat textureBytes

/-- `gly_creator_set_encoding_quality`. -/
def setEncodingQuality (creator : CreatorPtr) (quality : UInt8) : Abi Bool :=
  return (← withEncoder creator "gly_creator_set_encoding_quality" fun enc =>
    Abi.encoderSetQuality enc quality).isOk

/-- `gly_creator_set_encoding_compression`. -/
def setEncodingCompression (creator : CreatorPtr) (compression : UInt8) : Abi Bool :=
  return (← withEncoder creator "gly_creator_set_encoding_compression" fun enc =>
    Abi.encoderSetCompression enc compression).isOk

/-- `gly_creator_add_metadata_key_value`. -/
def addMetadataKeyValue (creator : CreatorPtr) (key value : Option Bytes) : Abi Bool :=
  if key.isNone || value.isNone then return false
  else do
    let rc ← withEncoder creator "gly_creator_add_metadata_key_value" fun enc =>
      Abi.encoderAddMetadata enc key value
    return rc.toOption == some 0

/-- `gly_new_frame_set_color_icc_profile`; an empty profile counts as none. -/
def setColorIccProfile (newFrame : CreatorPtr) (iccProfile : Option Bytes) : Abi Bool := do
  let data : Data := if iccProfile.getD [] = [] then .null 0 else .bytes (iccProfile.getD [])
  let rc ← withEncoder newFrame "gly_new_frame_set_color_icc_profile" fun enc =>
    Abi.encoderSetIccProfile enc data
  return rc.toOption == some 0

/-- `gly_creator_create`; the bytes are what the new object holds. -/
def create (creator : CreatorPtr) (codecs : ImageEncoders) : Abi (Except GError Bytes) := do
  let encoded ← withEncoder creator "gly_creator_create" fun enc => Abi.encoderEncode enc codecs
  match encoded with
  | .error e => return .error e
  | .ok none => return .error (← errorFromNg "gly_creator_create")
  | .ok (some bytes) => return .ok bytes

/-! ## Settings -/

/-- What a caller can set on a creator besides its frames. -/
inductive Tuning where
  | quality (quality : UInt8)
  | compression (compression : UInt8)
  | metadata (key value : Option Bytes)
  | iccProfile (iccProfile : Option Bytes)

def Tuning.exec (creator : CreatorPtr) : Tuning → Abi Bool
  | .quality q => setEncodingQuality creator q
  | .compression c => setEncodingCompression creator c
  | .metadata key value => addMetadataKeyValue creator key value
  | .iccProfile icc => setColorIccProfile creator icc

/-- Several settings, one after the other. -/
def tune (creator : CreatorPtr) : List Tuning → Abi Unit
  | [] => return
  | t :: ts => do
    let _ ← t.exec creator
    tune creator ts

/-- The creator's encoder and the frames queued on it. -/
def Queued (s : Session) (creator : CreatorPtr) (frames : List EncodeFrame) : Prop :=
  ∃ p e, creator = some ⟨some p⟩ ∧ s.encoders p = some ⟨e⟩ ∧ e.frames = frames

section
variable {s s' : Session} {creator : CreatorPtr} {frames : List EncodeFrame}

/-- A change of the encoder, seen from its creator. -/
theorem queued_modify {p : Nat} {e : Encoder} (he : s.encoders p = some ⟨e⟩)
    (mutate : Encoder → Encoder) (error : Option String) :
    Queued { s with
      lastError := error
      encoders := Function.update s.encoders p ((s.encoders p).map fun h => ⟨mutate h.inner⟩) }
      (some ⟨some p⟩) (mutate e).frames := by
  refine ⟨p, mutate e, rfl, ?_, rfl⟩
  show Function.update s.encoders p _ p = _
  rw [Function.update_self, he]
  rfl

/-- An outcome that can only change something else. -/
theorem Queued.of_outcome {encoder : Ptr} {allowed : (Encoder → Encoder) → Prop} {rc : Int32}
    (h : Queued s (some ⟨encoder⟩) frames) (hrun : Abi.Outcome s encoder allowed rc s')
    (hkeeps : ∀ mutate, allowed mutate → ∀ e, (mutate e).frames = e.frames) :
    Queued s' (some ⟨encoder⟩) frames := by
  obtain ⟨p, e, hp, he, rfl⟩ := h
  cases hp
  cases hrun with
  | refused m => exact ⟨p, e, rfl, he, rfl⟩
  | changed mutate hp hmutate =>
    cases hp
    rw [← hkeeps mutate hmutate e]
    exact queued_modify he mutate none

/-- With a live creator the call on its encoder is all there is. -/
theorem withEncoder_eq_ok {α : Type} {p : Nat} {fname : String} {f : Ptr → Abi α}
    {answer : Except GError α}
    (h : (withEncoder (some ⟨some p⟩) fname f).run s = .ok (answer, s')) :
    ∃ r, (f (some p)).run s = .ok (r, s') ∧ answer = .ok r := by
  obtain ⟨⟨r, s₁⟩, hf, h⟩ := bind_eq_ok.mp h
  cases h
  exact ⟨r, hf, rfl⟩

/-- No setting touches the queue. -/
theorem Queued.exec (h : Queued s creator frames) {t : Tuning} {done : Bool}
    (hrun : (t.exec creator).run s = .ok (done, s')) : Queued s' creator frames := by
  obtain ⟨p, e, rfl, he, rfl⟩ := h
  have hqueued : Queued s (some ⟨some p⟩) e.frames := ⟨p, e, rfl, he, rfl⟩
  cases t with
  | quality q =>
    cases hrun
    exact queued_modify he (·.setQuality q) s.lastError
  | compression c =>
    cases hrun
    exact queued_modify he (·.setCompression c) s.lastError
  | metadata key value =>
    rw [Tuning.exec, addMetadataKeyValue] at hrun
    split at hrun
    · cases hrun
      exact hqueued
    · obtain ⟨⟨answer, s₁⟩, hwith, hrun⟩ := bind_eq_ok.mp hrun
      cases hrun
      obtain ⟨rc, hrc, -⟩ := withEncoder_eq_ok hwith
      apply hqueued.of_outcome (Abi.encoderAddMetadata_outcome hrc)
      rintro mutate ⟨k, v, rfl⟩ e
      rfl
  | iccProfile icc =>
    obtain ⟨⟨answer, s₁⟩, hwith, hrun⟩ := bind_eq_ok.mp hrun
    cases hrun
    obtain ⟨rc, hrc, -⟩ := withEncoder_eq_ok hwith
    apply hqueued.of_outcome (Abi.encoderSetIccProfile_outcome hrc)
    rintro mutate ⟨profile, rfl⟩ e
    rfl

theorem Queued.tune {tunings : List Tuning} (h : Queued s creator frames)
    (hrun : (tune creator tunings).run s = .ok ((), s')) : Queued s' creator frames := by
  induction tunings generalizing s with
  | nil =>
    cases hrun
    exact h
  | cons t ts ih =>
    obtain ⟨⟨done, s₁⟩, hstep, hrest⟩ := bind_eq_ok.mp hrun
    exact ih (h.exec hstep) hrest

/-- A new creator is for the format its media type names, with nothing queued. -/
theorem new_queued {mimeType : Option Bytes}
    (hrun : (new mimeType).run s = .ok (.ok creator, s')) :
    ∃ text target, mimeType.bind toStr = some text ∧
      KnownFormat.fromMimeType text = some target ∧ Encoder.isSupported target = true ∧
      Queued s' creator [] := by
  cases mimeType with
  | none => cases hrun
  | some mime =>
    by_cases hzero : knownFormatFromMime (some mime) = 0
    · simp only [new, hzero, if_true] at hrun
      cases hrun
    · simp only [new, if_neg hzero] at hrun
      obtain ⟨⟨encoder, s₁⟩, hencoder, hrun⟩ := bind_eq_ok.mp hrun
      cases encoder with
      | none => cases hrun
      | some p =>
        cases hrun
        obtain ⟨text, target, htext, htarget, hconstant⟩ := knownFormatFromMime_ne_zero hzero
        obtain ⟨target', e, htable, hnew, he⟩ := Abi.encoderNew_made hencoder
        rw [hconstant, cUintToFormat_formatToCUint, Option.some.injEq] at htable
        subst htable
        obtain ⟨hsupported, hframes⟩ := Encoder.new_eq_ok hnew
        exact ⟨text, target, htext, htarget, hsupported, p, e, rfl, he, hframes⟩

/-- What a queued frame has become on the encoder. -/
theorem addFrame_queued {width height stride : UInt32} {memoryFormat : Int32}
    {textureBytes : Option Bytes} {frame : CreatorPtr} (h : Queued s creator frames)
    (hrun : (addFrameWithStride creator width height stride memoryFormat textureBytes).run s =
      .ok (.ok frame, s')) :
    ∃ data ng mf, textureBytes = some data ∧ data ≠ [] ∧ glyToNg memoryFormat = some ng ∧
      cUintToMemoryFormat ng = some mf ∧ frame = creator ∧
      Queued s' creator (frames ++ [⟨width, height, actualStride width stride ng, mf, data⟩]) := by
  obtain ⟨p, e, rfl, he, rfl⟩ := h
  cases textureBytes with
  | none => cases hrun
  | some data =>
    simp only [addFrameWithStride] at hrun
    split at hrun
    · cases hrun
    · rename_i hne
      cases hng : glyToNg memoryFormat with
      | none =>
        rw [hng] at hrun
        cases hrun
      | some ng =>
        rw [hng] at hrun
        obtain ⟨⟨answer, s₁⟩, hwith, hrun⟩ := bind_eq_ok.mp hrun
        obtain ⟨rc, hrc, rfl⟩ := withEncoder_eq_ok hwith
        cases Abi.encoderAddFrame_outcome hrc with
        | refused m => cases hrun
        | changed mutate hp hmutate =>
          obtain ⟨mf, hmf, rfl⟩ := hmutate
          cases hp
          cases hrun
          exact ⟨data, ng, mf, rfl, hne, rfl, hmf, rfl, queued_modify he (·.addFrame _) none⟩

/-- Encoding what one frame has become. -/
theorem create_run {p : Nat} {e : Encoder} {codecs : ImageEncoders} {bytes : Bytes}
    (he : s.encoders p = some ⟨e⟩) (hencode : e.encode codecs = .ok (.ok bytes)) :
    ∃ s', (create (some ⟨some p⟩) codecs).run s = .ok (.ok bytes, s') := by
  refine ⟨{ s with lastError := none }, ?_⟩
  simp only [create, withEncoder, Option.isNone_some, Bool.false_eq_true, if_false,
    Abi.encoderEncode, bind_assoc, StateT.run_bind, Abi.run_clearError, ok_bind, StateT.run_get,
    pure_bind, he]
  rw [hencode]
  rfl

/-! ## Strides -/

/-- The stride a caller asks for: the given one, or that of packed rows, in unbounded
arithmetic. -/
def exactStride (width stride ngFormat : UInt32) : Nat :=
  if stride = 0 then width.toNat * bytesPerPixelNg ngFormat else stride.toNat

/-- A product that has wrapped is shorter than a row; one that holds a row has not. -/
theorem actualStride_eq {width stride ngFormat : UInt32}
    (hrow : width.toNat * bytesPerPixelNg ngFormat ≤ (actualStride width stride ngFormat).toNat) :
    (actualStride width stride ngFormat).toNat = exactStride width stride ngFormat := by
  have hbpp : (UInt32.ofNat (bytesPerPixelNg ngFormat)).toNat = bytesPerPixelNg ngFormat := by
    have hle := bytesPerPixelNg_le ngFormat
    rw [UInt32.toNat_ofNat', Nat.mod_eq_of_lt (by omega)]
  by_cases hstride : stride = 0
  · subst hstride
    have hwrapped : (actualStride width 0 ngFormat).toNat =
        width.toNat * bytesPerPixelNg ngFormat % 2 ^ 32 := by
      rw [actualStride, if_neg (by decide), UInt32.toNat_mul, hbpp]
    rw [exactStride, if_pos rfl]
    apply Nat.le_antisymm
    · rw [hwrapped]
      exact Nat.mod_le _ _
    · exact hrow
  · have hpos : stride > 0 := UInt32.pos_iff_ne_zero.mpr hstride
    rw [actualStride, if_pos hpos, exactStride, if_neg hstride]

/-- However a creator was set up, and whatever is set on it before it encodes: what reaches
the codec of a frame that `to_rgba8` takes is, pixel by pixel, the sample at the exact
stride. -/
theorem implicit_stride_exact {s₁ s₂ : Session} {frame : CreatorPtr}
    (hfresh : Queued s creator []) {width height stride : UInt32} {memoryFormat : Int32}
    {textureBytes : Option Bytes} {tunings : List Tuning}
    (hqueued : (addFrameWithStride creator width height stride memoryFormat textureBytes).run s =
      .ok (.ok frame, s₁))
    (htuned : (tune creator tunings).run s₁ = .ok ((), s₂)) :
    ∃ data ng mf p e, textureBytes = some data ∧ glyToNg memoryFormat = some ng ∧
      cUintToMemoryFormat ng = some mf ∧ creator = some ⟨some p⟩ ∧ s₂.encoders p = some ⟨e⟩ ∧
      e.frames = [⟨width, height, actualStride width stride ng, mf, data⟩] ∧
      ∀ rgba, Encoder.toRgba8 data width height (actualStride width stride ng) mf =
          .ok (.ok rgba) →
        (∀ codecs, e.encode codecs = e.encodeDispatch codecs rgba width height) ∧
        (∀ codecs bytes, e.encodeDispatch codecs rgba width height = .ok (.ok bytes) →
          ∃ s₃, (create creator codecs).run s₂ = .ok (.ok bytes, s₃)) ∧
        ∀ x < width.toNat, ∀ y < height.toNat, ∃ r g b a,
          Encoder.sampleRgba8 mf ((data.drop (y * exactStride width stride ng +
            x * bytesPerPixelNg ng)).take (bytesPerPixelNg ng)) = .ok (some (r, g, b, a)) ∧
          (rgba.drop (4 * (y * width.toNat + x))).take 4 = [r, g, b, a] := by
  obtain ⟨data, ng, mf, rfl, -, hng, hmf, -, hone⟩ := addFrame_queued hfresh hqueued
  obtain ⟨p, e, rfl, he, hframes⟩ := hone.tune htuned
  refine ⟨data, ng, mf, p, e, rfl, hng, hmf, rfl, he, hframes, ?_⟩
  intro rgba hrgba
  have hencode : ∀ codecs, e.encode codecs = e.encodeDispatch codecs rgba width height := by
    intro codecs
    rw [Encoder.encode, hframes]
    show (Encoder.toRgba8 data width height _ mf >>= _) = _
    rw [hrgba]
    rfl
  refine ⟨hencode, fun codecs bytes hbytes => create_run he ((hencode codecs).trans hbytes), ?_⟩
  intro x hx y hy
  obtain ⟨mf', hread, hmf', hbpp⟩ := format_of_glyToNg hng
  obtain rfl : mf' = mf := Option.some.inj (hmf'.symm.trans hmf)
  have haccepts := accepts_of_toRgba8 hrgba
  have hstride := actualStride_eq (hbpp.symm ▸ haccepts.row_le)
  obtain ⟨r, g, b, a, hsample, hbytes⟩ := Encoder.remap_rgbaBytes haccepts hread hx hy
  rw [Encoder.toRgba8_eq_remap haccepts (.inr hread)] at hrgba
  obtain rfl := Except.ok.inj (Except.ok.inj hrgba)
  refine ⟨r, g, b, a, ?_, hbytes⟩
  rw [← hstride, hbpp]
  exact hsample

end

/-- The encoder of a new creator for PNG files, the first handle of its thread. -/
def pngSession : Session where
  loaders := fun _ => none
  encoders := Function.update (fun _ => none) 0 (some ⟨⟨.png, [], 75, 6, none, []⟩⟩)
  next := 1
  lastError := none

theorem new_png :
    (new (some (ascii "image/png"))).run .start = .ok (.ok (some ⟨some 0⟩), pngSession) := by
  have hmime : knownFormatFromMime (some (ascii "image/png")) = kfmtPng := by decide +kernel
  simp only [new, hmime]
  rfl

/-- Two pixels of three bytes, one above the other, without a stride. -/
theorem implicit_stride_exact_packed : ∃ s₁ e,
    (addFrameWithStride (some ⟨some 0⟩) 1 2 0 7 (some [1, 2, 3, 4, 5, 6])).run pngSession =
      .ok (.ok (some ⟨some 0⟩), s₁) ∧
    s₁.encoders 0 = some ⟨e⟩ ∧
    ∀ codecs, e.encode codecs = e.encodeDispatch codecs [1, 2, 3, 255, 4, 5, 6, 255] 1 2 := by
  obtain ⟨-, -, -, -, -, hfresh⟩ := new_queued new_png
  obtain ⟨s₁, hqueued⟩ : ∃ s₁, (addFrameWithStride (some ⟨some 0⟩) 1 2 0 7
      (some [1, 2, 3, 4, 5, 6])).run pngSession = .ok (.ok (some ⟨some 0⟩), s₁) := ⟨_, rfl⟩
  have htuned : (tune (some ⟨some 0⟩) []).run s₁ = .ok ((), s₁) := rfl
  obtain ⟨data, ng, mf, p, e, hdata, hng, hmf, hp, he, -, hpixels⟩ :=
    implicit_stride_exact hfresh hqueued htuned
  cases hdata
  cases hng
  cases hmf
  cases hp
  have hrgba : Encoder.toRgba8 [1, 2, 3, 4, 5, 6] 1 2 (actualStride 1 0 formatR8g8b8) .r8g8b8 =
      .ok (.ok [1, 2, 3, 255, 4, 5, 6, 255]) := by decide +kernel
  exact ⟨s₁, e, hqueued, he, (hpixels _ hrgba).1⟩

end Creator
end GlycinNg.Shim
