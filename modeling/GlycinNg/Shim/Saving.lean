import GlycinNg.Encoder.Flatten
import GlycinNg.Shim.Creators

/-! # Saving one picture

A client makes a creator for a media type, sets what there is to set on it, adds one frame,
sets some more, and creates. The calls of such a session return whatever the session before
it (`Ready`), and the file is what the codec of the format makes of the picture under the
settings that were made last (`saves_iff`). -/
namespace GlycinNg.Shim.Creator
open Rust CApi Raster

/-- The part of a setting that counts; compression and metadata reach no codec. -/
def Tuning.amend (e : Encoder) : Tuning → Encoder
  | .quality q => e.setQuality q
  | .iccProfile icc =>
    e.setIccProfile (if icc.getD [] = [] then none else some (icc.getD []))
  | .compression _ | .metadata .. => e

/-- A live creator whose encoder encodes like `e`. -/
def Ready (s : Session) (creator : CreatorPtr) (e : Encoder) : Prop :=
  ∃ p e', creator = some ⟨some p⟩ ∧ s.encoders p = some ⟨e'⟩ ∧ Alike e' e

section
variable {s s' : Session} {creator : CreatorPtr} {e : Encoder}

theorem Ready.queued (h : Ready s creator e) : Queued s creator e.frames := by
  obtain ⟨p, e', hcreator, he, halike⟩ := h
  exact ⟨p, e', hcreator, he, halike.frames⟩

theorem ready_modify {p : Nat} {e' : Encoder} (he : s.encoders p = some ⟨e'⟩)
    (mutate : Encoder → Encoder) (error : Option String) (h : Alike (mutate e') e) :
    Ready { s with
      lastError := error
      encoders := Function.update s.encoders p ((s.encoders p).map fun h => ⟨mutate h.inner⟩) }
      (some ⟨some p⟩) e := by
  refine ⟨p, mutate e', rfl, ?_, h⟩
  show Function.update s.encoders p _ p = _
  rw [Function.update_self, he]
  rfl

/-! ## One call -/

theorem withEncoder_run {α : Type} {p : Nat} {fname : String} {f : Ptr → Abi α} {a : α}
    (h : (f (some p)).run s = .ok (a, s')) :
    (withEncoder (some ⟨some p⟩) fname f).run s = .ok (.ok a, s') := by
  show ((f (some p) >>= fun a => pure (.ok a)) : Abi (Except GError α)).run s = _
  rw [StateT.run_bind, h]
  rfl

theorem encoderSetIccProfile_run {p : Nat} {icc : Bytes} (h : icc ≠ []) :
    (Abi.encoderSetIccProfile (some p) (.bytes icc)).run s = .ok (0, { s with
      lastError := none
      encoders := Function.update s.encoders p
        ((s.encoders p).map fun h => ⟨h.inner.setIccProfile (some icc)⟩) }) := by
  cases icc with
  | nil => exact absurd rfl h
  | cons b bs => rfl

/-- A setting returns, and changes what it sets. -/
theorem Ready.exec (h : Ready s creator e) (t : Tuning) :
    ∃ done s', (t.exec creator).run s = .ok (done, s') ∧ Ready s' creator (t.amend e) := by
  obtain ⟨p, e', rfl, he, halike⟩ := h
  obtain ⟨htarget, hframes, hquality, hicc⟩ := halike
  cases t with
  | quality q =>
    exact ⟨_, _, rfl, ready_modify (e := e.setQuality q) he (·.setQuality q) s.lastError
      ⟨htarget, hframes, rfl, hicc⟩⟩
  | compression c =>
    exact ⟨_, _, rfl, ready_modify he (·.setCompression c) s.lastError
      ⟨htarget, hframes, hquality, hicc⟩⟩
  | metadata key value =>
    rw [Tuning.exec, addMetadataKeyValue]
    split
    · exact ⟨false, s, rfl, p, e', rfl, he, htarget, hframes, hquality, hicc⟩
    · obtain ⟨rc, s', hrc, -⟩ := Creators.Steady.encoderAddMetadata (some p) key value s
      refine ⟨(Except.ok rc : Except GError Int32).toOption == some 0, s', ?_, ?_⟩
      · rw [StateT.run_bind, withEncoder_run hrc]
        rfl
      · cases Abi.encoderAddMetadata_outcome hrc with
        | refused m => exact ⟨p, e', rfl, he, htarget, hframes, hquality, hicc⟩
        | changed mutate hp hmutate =>
          cases hp
          obtain ⟨k, v, rfl⟩ := hmutate
          exact ready_modify he (·.addMetadata k v) none ⟨htarget, hframes, hquality, hicc⟩
  | iccProfile icc =>
    rw [Tuning.exec, setColorIccProfile, Tuning.amend]
    by_cases hempty : icc.getD [] = []
    · rw [if_pos hempty, if_pos hempty]
      exact ⟨true, _, rfl, ready_modify (e := e.setIccProfile none) he (·.setIccProfile none) none
        ⟨htarget, hframes, hquality, rfl⟩⟩
    · rw [if_neg hempty, if_neg hempty]
      refine ⟨true, _, ?_, ready_modify (e := e.setIccProfile (some (icc.getD []))) he
        (·.setIccProfile (some (icc.getD []))) none ⟨htarget, hframes, hquality, rfl⟩⟩
      rw [StateT.run_bind, withEncoder_run (encoderSetIccProfile_run hempty)]
      rfl

theorem Ready.tune (h : Ready s creator e) (tunings : List Tuning) :
    ∃ s', (tune creator tunings).run s = .ok ((), s') ∧
      Ready s' creator (tunings.foldl Tuning.amend e) := by
  induction tunings generalizing s e with
  | nil => exact ⟨s, rfl, h⟩
  | cons t ts ih =>
    obtain ⟨done, s₁, hexec, h₁⟩ := h.exec t
    obtain ⟨s₂, hrest, h₂⟩ := ih h₁
    refine ⟨s₂, ?_, h₂⟩
    rw [Creator.tune, StateT.run_bind, hexec]
    exact hrest

/-- A frame of bytes in a format creators take is queued. -/
theorem Ready.addFrame (h : Ready s creator e) {width height stride ng : UInt32}
    {memoryFormat : Int32} {data : Bytes} {mf : MemoryFormat} (hdata : data ≠ [])
    (hng : glyToNg memoryFormat = some ng) (hmf : cUintToMemoryFormat ng = some mf) :
    ∃ s', (addFrameWithStride creator width height stride memoryFormat (some data)).run s =
        .ok (.ok creator, s') ∧
      Ready s' creator (e.addFrame ⟨width, height, actualStride width stride ng, mf, data⟩) := by
  obtain ⟨p, e', rfl, he, halike⟩ := h
  refine ⟨_, ?_, ready_modify he
    (·.addFrame ⟨width, height, actualStride width stride ng, mf, data⟩) none
    ⟨halike.target, congrArg (· ++ [_]) halike.frames, halike.quality, halike.iccProfile⟩⟩
  simp only [addFrameWithStride, if_neg hdata, hng, withEncoder, Abi.encoderAddFrame, hmf]
  rfl

/-- A media type of a format with an encoder makes a creator. -/
theorem ready_new {mime : Bytes} {text : String} {target : KnownFormat}
    (htext : toStr mime = some text) (htarget : KnownFormat.fromMimeType text = some target)
    (hsupported : Encoder.isSupported target = true) (s : Session) :
    ∃ creator s', (new (some mime)).run s = .ok (.ok creator, s') ∧
      Ready s' creator (job target []) := by
  have hconstant : knownFormatFromMime (some mime) = formatToCUint target := by
    rw [knownFormatFromMime, Option.bind_some, htext]
    simp only [htarget]
    rfl
  have hne : formatToCUint target ≠ 0 := by cases target <;> decide
  have hnew : Encoder.new target = .ok (job target []) := by
    rw [Encoder.new, hsupported]
    rfl
  have hmade : (new (some mime)).run s = .ok (.ok (some ⟨some s.next⟩), { s with
      lastError := none
      encoders := Function.update s.encoders s.next (some ⟨job target []⟩)
      next := s.next + 1 }) := by
    simp only [new, hconstant, if_neg hne, Abi.encoderNew, cUintToFormat_formatToCUint, hnew]
    rfl
  exact ⟨_, _, hmade, s.next, job target [], rfl, Function.update_self .., rfl, rfl, rfl, rfl⟩

/-- `gly_creator_create` answers with the file of its encoder, or with an error. -/
theorem Ready.create_iff (h : Ready s creator e) {codecs : ImageEncoders} {file : Bytes} :
    (∃ s', (create creator codecs).run s = .ok (.ok file, s')) ↔
      e.encode codecs = .ok (.ok file) := by
  obtain ⟨p, e', rfl, he, halike⟩ := h
  rw [← halike.encode codecs]
  constructor
  · rintro ⟨s', hrun⟩
    obtain ⟨r, hr⟩ := encode_returns e' codecs
    cases r with
    | ok bytes =>
      obtain ⟨s'', hrun'⟩ := create_run he hr
      rw [hrun', Except.ok.injEq, Prod.mk.injEq, Except.ok.injEq] at hrun
      rw [hr, hrun.1]
    | error message =>
      simp only [create, withEncoder, Option.isNone_some, Bool.false_eq_true, if_false,
        Abi.encoderEncode, bind_assoc, StateT.run_bind, Abi.run_clearError, ok_bind,
        StateT.run_get, pure_bind, he] at hrun
      rw [hr] at hrun
      cases hrun
  · exact create_run he

end

/-! ## A session -/

/-- The arguments of `gly_creator_add_frame_with_stride`. -/
structure FrameData where
  width : UInt32
  height : UInt32
  stride : UInt32
  memoryFormat : Int32
  data : Bytes

/-- The frame of the engine they become, if the shim takes them. -/
def FrameData.queued (f : FrameData) : Option EncodeFrame :=
  if f.data = [] then none
  else do
    let ng ← glyToNg f.memoryFormat
    let mf ← cUintToMemoryFormat ng
    return ⟨f.width, f.height, actualStride f.width f.stride ng, mf, f.data⟩

theorem FrameData.queued_eq_some {f : FrameData} {frame : EncodeFrame} :
    f.queued = some frame ↔ f.data ≠ [] ∧ ∃ ng mf, glyToNg f.memoryFormat = some ng ∧
      cUintToMemoryFormat ng = some mf ∧
      frame = ⟨f.width, f.height, actualStride f.width f.stride ng, mf, f.data⟩ := by
  rw [queued]
  split
  · rename_i hempty
    simp [hempty]
  · rename_i hdata
    constructor
    · intro h
      obtain ⟨ng, hng, h⟩ := Option.bind_eq_some_iff.mp h
      obtain ⟨mf, hmf, h⟩ := Option.bind_eq_some_iff.mp h
      exact ⟨hdata, ng, mf, hng, hmf, (Option.some.inj h).symm⟩
    · rintro ⟨-, ng, mf, hng, hmf, rfl⟩
      exact Option.bind_eq_some_iff.mpr ⟨ng, hng, Option.bind_eq_some_iff.mpr ⟨mf, hmf, rfl⟩⟩

/-- A session that begins in the state `s` and ends with a file. -/
def Saves (codecs : ImageEncoders) (s : Session) (mime : Bytes) (before : List Tuning)
    (f : FrameData) (after : List Tuning) (file : Bytes) : Prop :=
  ∃ creator s₁ s₂ frame s₃ s₄ s₅,
    (new (some mime)).run s = .ok (.ok creator, s₁) ∧
    (tune creator before).run s₁ = .ok ((), s₂) ∧
    (addFrameWithStride creator f.width f.height f.stride f.memoryFormat (some f.data)).run s₂ =
      .ok (.ok frame, s₃) ∧
    (tune frame after).run s₃ = .ok ((), s₄) ∧
    (create frame codecs).run s₄ = .ok (.ok file, s₅)

theorem amend_addFrame (t : Tuning) (e : Encoder) (frame : EncodeFrame) :
    t.amend (e.addFrame frame) = (t.amend e).addFrame frame := by
  cases t <;> rfl

theorem foldl_amend_addFrame (tunings : List Tuning) (e : Encoder) (frame : EncodeFrame) :
    tunings.foldl Tuning.amend (e.addFrame frame) =
      (tunings.foldl Tuning.amend e).addFrame frame := by
  induction tunings generalizing e with
  | nil => rfl
  | cons t ts ih => rw [List.foldl_cons, List.foldl_cons, amend_addFrame, ih]

/-- The encoder of a session when it encodes. -/
def encoderOf (target : KnownFormat) (tunings : List Tuning) (frame : EncodeFrame) : Encoder :=
  (tunings.foldl Tuning.amend (job target [])).addFrame frame

/-- Whatever came before it, a session ends with the file its encoder makes. -/
theorem saves_iff {codecs : ImageEncoders} {s : Session} {mime : Bytes} {before : List Tuning}
    {f : FrameData} {after : List Tuning} {file : Bytes} :
    Saves codecs s mime before f after file ↔ ∃ text target frame, toStr mime = some text ∧
      KnownFormat.fromMimeType text = some target ∧ Encoder.isSupported target = true ∧
      f.queued = some frame ∧
      (encoderOf target (before ++ after) frame).encode codecs = .ok (.ok file) := by
  have hfold : ∀ target frame, encoderOf target (before ++ after) frame =
      after.foldl Tuning.amend ((before.foldl Tuning.amend (job target [])).addFrame frame) := by
    intro target frame
    rw [encoderOf, List.foldl_append, foldl_amend_addFrame]
  constructor
  · rintro ⟨creator, s₁, s₂, frame, s₃, s₄, s₅, hnew, hbefore, hadd, hafter, hcreate⟩
    obtain ⟨text, target, htext, htarget, hsupported, -⟩ := new_queued hnew
    obtain ⟨creator', s₁', hnew', h₁⟩ := ready_new htext htarget hsupported s
    rw [hnew', Except.ok.injEq, Prod.mk.injEq, Except.ok.injEq] at hnew
    obtain ⟨rfl, rfl⟩ := hnew
    obtain ⟨s₂', hbefore', h₂⟩ := h₁.tune before
    rw [hbefore', Except.ok.injEq, Prod.mk.injEq] at hbefore
    obtain ⟨-, rfl⟩ := hbefore
    obtain ⟨data, ng, mf, hdata, hne, hng, hmf, rfl, -⟩ := addFrame_queued h₂.queued hadd
    obtain rfl := Option.some.inj hdata
    obtain ⟨s₃', hadd', h₃⟩ := h₂.addFrame hne hng hmf
    rw [hadd', Except.ok.injEq, Prod.mk.injEq] at hadd
    obtain ⟨-, rfl⟩ := hadd
    obtain ⟨s₄', hafter', h₄⟩ := h₃.tune after
    rw [hafter', Except.ok.injEq, Prod.mk.injEq] at hafter
    obtain ⟨-, rfl⟩ := hafter
    refine ⟨text, target, _, htext, htarget, hsupported,
      FrameData.queued_eq_some.mpr ⟨hne, ng, mf, hng, hmf, rfl⟩, ?_⟩
    rw [hfold]
    exact h₄.create_iff.mp ⟨s₅, hcreate⟩
  · rintro ⟨text, target, frame, htext, htarget, hsupported, hqueued, hencode⟩
    obtain ⟨hne, ng, mf, hng, hmf, rfl⟩ := FrameData.queued_eq_some.mp hqueued
    obtain ⟨creator, s₁, hnew, h₁⟩ := ready_new htext htarget hsupported s
    obtain ⟨s₂, hbefore, h₂⟩ := h₁.tune before
    obtain ⟨s₃, hadd, h₃⟩ := h₂.addFrame hne hng hmf
    obtain ⟨s₄, hafter, h₄⟩ := h₃.tune after
    rw [hfold] at hencode
    obtain ⟨s₅, hcreate⟩ := h₄.create_iff.mpr hencode
    exact ⟨creator, s₁, s₂, creator, s₃, s₄, s₅, hnew, hbefore, hadd, hafter, hcreate⟩

/-! ## What the codec gets -/

/-- The call into the codec of a format, which takes RGBA pixels or, for JPEG, opaque ones. -/
def codecOf (codecs : ImageEncoders) (quality : UInt8) (icc : Option Bytes) (rgba rgb : Bytes)
    (width height : UInt32) : KnownFormat → Option (Except String Bytes)
  | .png => some (codecs.png icc rgba width height)
  | .jpeg => some (codecs.jpeg quality icc rgb width height)
  | .gif => some (codecs.gif rgba width height)
  | .webP => some (codecs.webP icc rgba width height)
  | .tiff => some (codecs.tiff rgba width height)
  | .bmp => some (codecs.bmp rgba width height)
  | _ => none

/-- The pixels of a frame, each as `g` writes it. -/
def drawn (frame : EncodeFrame) (stride : Nat) (g : Bytes → Bytes) : Bytes :=
  remap frame.format.bytesPerPixel stride frame.width.toNat frame.height.toNat g frame.data

/-- The composite of a picture is the picture of the composites. -/
theorem composite_remap {b stride w h : Nat} {g : Bytes → Bytes} {buf : Bytes}
    (hg : ∀ p, p.length = b → (g p).length = 4) (hbuf : Raster.Holds b stride w h buf) :
    Encoder.composite (remap b stride w h g buf) ((remap b stride w h g buf).length / 4) =
      remap b stride w h (Encoder.overWhitePixel ∘ g) buf := by
  have hlen : (remap b stride w h g buf).length / 4 = h * w := by
    rw [length_remap hg hbuf, ← Nat.mul_assoc, Nat.mul_div_cancel _ (by decide)]
  rw [hlen, Encoder.composite, flatMap_grid, ← remap_remap hg hbuf]
  simp only [← pixel_eq_cell]
  rfl

/-- One frame is encoded when it has the right size, and then as the codec says. -/
theorem encode_one {e : Encoder} {frame : EncodeFrame} (hframes : e.frames = [frame])
    (hformat : frame.format ∈ Encoder.eightBit) {codecs : ImageEncoders} {file : Bytes} :
    e.encode codecs = .ok (.ok file) ↔
      Encoder.Accepts frame.data.length frame.width frame.height frame.stride frame.format ∧
      codecOf codecs e.quality e.iccProfile
        (drawn frame frame.stride.toNat (Encoder.rgbaBytes frame.format))
        (drawn frame frame.stride.toNat (Encoder.overWhitePixel ∘ Encoder.rgbaBytes frame.format))
        frame.width frame.height e.target = some (.ok file) := by
  rw [Encoder.encode, hframes]
  by_cases haccepts : Encoder.Accepts frame.data.length frame.width frame.height frame.stride
      frame.format
  · have hflat := composite_remap (fun p _ => Encoder.length_rgbaBytes frame.format p)
      (holds_iff.mpr haccepts.data_le)
    have hrgba := Encoder.toRgba8_eq_remap haccepts (.inr hformat)
    simp only [hrgba, ok_bind, haccepts, true_and, Encoder.encodeDispatch]
    cases e.target <;>
      simp only [codecOf, drawn, Encoder.flattenOverWhite_eq, hflat, ok_bind, pure, Except.pure,
        Except.ok.injEq, mapError_eq_ok, Option.some.injEq, reduceCtorEq]
  · obtain ⟨message, hrefused⟩ := Encoder.toRgba8_refused haccepts
    simp only [hrefused, ok_bind, haccepts, false_and, pure, Except.pure, Except.ok.injEq,
      reduceCtorEq]

def Tuning.quality? : Tuning → Option UInt8
  | .quality q => some q
  | _ => none

/-- An empty profile takes a profile away. -/
def Tuning.profile? : Tuning → Option (Option Bytes)
  | .iccProfile icc => some (if icc.getD [] = [] then none else some (icc.getD []))
  | _ => none

/-- The quality that was set last. -/
def quality (tunings : List Tuning) : UInt8 :=
  (tunings.filterMap Tuning.quality?).getLast?.getD 75

/-- The colour profile that was set last. -/
def profile (tunings : List Tuning) : Option Bytes :=
  (tunings.filterMap Tuning.profile?).getLast?.getD none

/-- The encoder of a session has the last settings, and its frame. -/
theorem encoderOf_eq (target : KnownFormat) (tunings : List Tuning) (frame : EncodeFrame) :
    encoderOf target tunings frame =
      ⟨target, [frame], quality tunings, 6, profile tunings, []⟩ := by
  have hfold : tunings.foldl Tuning.amend (job target []) =
      ⟨target, [], quality tunings, 6, profile tunings, []⟩ := by
    induction tunings using List.reverseRecOn with
    | nil => rfl
    | append_singleton tunings t ih =>
      rw [List.foldl_append, List.foldl_cons, List.foldl_nil, ih]
      cases t <;>
        simp [Tuning.amend, quality, profile, Tuning.quality?, Tuning.profile?,
          Encoder.setQuality, Encoder.setIccProfile]
  rw [encoderOf, hfold]
  rfl

/-- The frame has the right size, as numbers without bound. -/
structure FrameData.Fits (f : FrameData) (ng : UInt32) (mf : MemoryFormat) : Prop where
  stride_lt : exactStride f.width f.stride ng < 2 ^ 32
  row_le : f.width.toNat * mf.bytesPerPixel ≤ exactStride f.width f.stride ng
  output_le : f.width.toNat * 4 * f.height.toNat ≤ 2 ^ 30
  data_le : f.height.toNat = 0 ∨ (f.height.toNat - 1) * exactStride f.width f.stride ng +
    f.width.toNat * mf.bytesPerPixel ≤ f.data.length

/-- The stride does not wrap while the exact one has 32 bits. -/
theorem actualStride_of_lt {width stride ng : UInt32} (h : exactStride width stride ng < 2 ^ 32) :
    (actualStride width stride ng).toNat = exactStride width stride ng := by
  by_cases hstride : stride = 0
  · have hbpp : (UInt32.ofNat (bytesPerPixelNg ng)).toNat = bytesPerPixelNg ng := by
      have hle := bytesPerPixelNg_le ng
      rw [UInt32.toNat_ofNat', Nat.mod_eq_of_lt (by omega)]
    rw [exactStride, if_pos hstride] at h ⊢
    subst hstride
    rw [actualStride, if_neg (by decide), UInt32.toNat_mul, hbpp, Nat.mod_eq_of_lt h]
  · rw [actualStride, if_pos (UInt32.pos_iff_ne_zero.mpr hstride), exactStride, if_neg hstride]

/-- What `to_rgba8` takes: a stride that has wrapped is too short for a row. -/
theorem FrameData.fits_iff {f : FrameData} {ng : UInt32} {mf : MemoryFormat}
    (hbpp : bytesPerPixelNg ng = mf.bytesPerPixel) :
    f.Fits ng mf ↔
      Encoder.Accepts f.data.length f.width f.height (actualStride f.width f.stride ng) mf := by
  constructor
  · intro h
    have hstride := actualStride_of_lt h.stride_lt
    exact ⟨hstride.symm ▸ h.row_le, h.output_le, hstride.symm ▸ h.data_le⟩
  · intro h
    have hstride := actualStride_eq (hbpp.symm ▸ h.row_le)
    refine ⟨?_, hstride ▸ h.row_le, h.output_le, hstride ▸ h.data_le⟩
    rw [← hstride]
    exact UInt32.toNat_lt _

/-- A codec that can be called is one of a format with an encoder. -/
theorem isSupported_of_codecOf {codecs : ImageEncoders} {q : UInt8} {icc : Option Bytes}
    {rgba rgb : Bytes} {width height : UInt32} {target : KnownFormat} {r : Except String Bytes}
    (h : codecOf codecs q icc rgba rgb width height target = some r) :
    Encoder.isSupported target = true := by
  cases target <;> first | rfl | cases h

/-- The formats creators take can be sampled. -/
theorem sampled_of_glyToNg {value : Int32} {ng : UInt32} {mf : MemoryFormat}
    (hng : glyToNg value = some ng) (hmf : cUintToMemoryFormat ng = some mf) :
    mf ∈ Encoder.eightBit ∧ bytesPerPixelNg ng = mf.bytesPerPixel := by
  obtain ⟨mf', hread, hmf', hbpp⟩ := format_of_glyToNg hng
  cases hmf'.symm.trans hmf
  exact ⟨hread, hbpp⟩

/-- A session in terms of the frame the engine is given. -/
theorem saves_iff_called {codecs : ImageEncoders} {s : Session} {mime : Bytes}
    {before : List Tuning} {f : FrameData} {after : List Tuning} {file : Bytes} :
    Saves codecs s mime before f after file ↔ ∃ text target frame, toStr mime = some text ∧
      KnownFormat.fromMimeType text = some target ∧ f.queued = some frame ∧
      Encoder.Accepts frame.data.length frame.width frame.height frame.stride frame.format ∧
      codecOf codecs (quality (before ++ after)) (profile (before ++ after))
        (drawn frame frame.stride.toNat (Encoder.rgbaBytes frame.format))
        (drawn frame frame.stride.toNat (Encoder.overWhitePixel ∘ Encoder.rgbaBytes frame.format))
        frame.width frame.height target = some (.ok file) := by
  have hformat : ∀ frame, f.queued = some frame → frame.format ∈ Encoder.eightBit := by
    intro frame hqueued
    obtain ⟨-, ng, mf, hng, hmf, rfl⟩ := FrameData.queued_eq_some.mp hqueued
    exact (sampled_of_glyToNg hng hmf).1
  rw [saves_iff]
  constructor
  · rintro ⟨text, target, frame, htext, htarget, -, hqueued, hfile⟩
    rw [encoderOf_eq] at hfile
    exact ⟨text, target, frame, htext, htarget, hqueued,
      (encode_one rfl (hformat frame hqueued)).mp hfile⟩
  · rintro ⟨text, target, frame, htext, htarget, hqueued, hfile⟩
    refine ⟨text, target, frame, htext, htarget, isSupported_of_codecOf hfile.2, hqueued, ?_⟩
    rw [encoderOf_eq]
    exact (encode_one rfl (hformat frame hqueued)).mpr hfile

/-- The picture a client hands over, as the codecs take it: the samples at their places in
`rgba`, and each of them over white in `rgb`. -/
structure FrameData.Pictured (f : FrameData) (ng : UInt32) (mf : MemoryFormat)
    (rgba rgb : Bytes) : Prop where
  length_rgba : rgba.length = 4 * (f.width.toNat * f.height.toNat)
  length_rgb : rgb.length = 3 * (f.width.toNat * f.height.toNat)
  pixels : ∀ x < f.width.toNat, ∀ y < f.height.toNat, ∃ r g b a,
    Encoder.sampleRgba8 mf ((f.data.drop (y * exactStride f.width f.stride ng +
      x * mf.bytesPerPixel)).take mf.bytesPerPixel) = .ok (some (r, g, b, a)) ∧
    (rgba.drop (4 * (y * f.width.toNat + x))).take 4 = [r, g, b, a] ∧
    (rgb.drop (3 * (y * f.width.toNat + x))).take 3 =
      [Encoder.overWhite a r, Encoder.overWhite a g, Encoder.overWhite a b]

section
variable {f : FrameData} {ng : UInt32} {mf : MemoryFormat} {rgba rgb : Bytes}

/-- The frame that reaches the engine. -/
def FrameData.frame (f : FrameData) (ng : UInt32) (mf : MemoryFormat) : EncodeFrame :=
  ⟨f.width, f.height, actualStride f.width f.stride ng, mf, f.data⟩

theorem FrameData.Fits.holds (h : f.Fits ng mf) : Raster.Holds mf.bytesPerPixel
    (exactStride f.width f.stride ng) f.width.toNat f.height.toNat f.data :=
  holds_iff.mpr h.data_le

theorem FrameData.Fits.drawn_eq (h : f.Fits ng mf) (g : Bytes → Bytes) :
    drawn (f.frame ng mf) (actualStride f.width f.stride ng).toNat g =
      remap mf.bytesPerPixel (exactStride f.width f.stride ng) f.width.toNat f.height.toNat g
        f.data := by
  rw [actualStride_of_lt h.stride_lt]
  rfl

theorem length_overWhitePixel {p : Bytes} (h : p.length = 4) :
    (Encoder.overWhitePixel p).length = 3 := by
  obtain ⟨r, g, b, a, rfl⟩ := List.length_eq_four.mp h
  rfl

/-- Only one pair of buffers shows the picture. -/
theorem FrameData.Fits.pictured_iff (h : f.Fits ng mf) (hformat : mf ∈ Encoder.eightBit) :
    f.Pictured ng mf rgba rgb ↔
      rgba = drawn (f.frame ng mf) (actualStride f.width f.stride ng).toNat
        (Encoder.rgbaBytes mf) ∧
      rgb = drawn (f.frame ng mf) (actualStride f.width f.stride ng).toNat
        (Encoder.overWhitePixel ∘ Encoder.rgbaBytes mf) := by
  rw [h.drawn_eq, h.drawn_eq]
  have hrgba : ∀ p : Bytes, p.length = mf.bytesPerPixel → (Encoder.rgbaBytes mf p).length = 4 :=
    fun p _ => Encoder.length_rgbaBytes mf p
  have hrgb : ∀ p : Bytes, p.length = mf.bytesPerPixel →
      ((Encoder.overWhitePixel ∘ Encoder.rgbaBytes mf) p).length = 3 :=
    fun p _ => length_overWhitePixel (Encoder.length_rgbaBytes mf p)
  have hsample : ∀ x < f.width.toNat, ∀ y < f.height.toNat, ∃ r g b a,
      Encoder.sampleRgba8 mf (pixel mf.bytesPerPixel (exactStride f.width f.stride ng) f.data x
        y) = .ok (some (r, g, b, a)) ∧
      Encoder.rgbaBytes mf (pixel mf.bytesPerPixel (exactStride f.width f.stride ng) f.data x
        y) = [r, g, b, a] := by
    intro x hx y hy
    exact Encoder.exists_sample hformat (length_pixel h.holds hx hy)
  constructor
  · intro hpictured
    constructor
    · apply eq_pack (b := 4) (hpictured.length_rgba.trans (by ring))
      intro x hx y hy
      obtain ⟨r, g, b, a, hread, hbytes, -⟩ := hpictured.pixels x hx y hy
      obtain ⟨r', g', b', a', hread', hbytes'⟩ := hsample x hx y hy
      cases hread.symm.trans hread'
      rw [pixel_eq_cell, cell, Nat.mul_comm, hbytes, hbytes']
    · apply eq_pack (b := 3) (hpictured.length_rgb.trans (by ring))
      intro x hx y hy
      obtain ⟨r, g, b, a, hread, -, hbytes⟩ := hpictured.pixels x hx y hy
      obtain ⟨r', g', b', a', hread', hbytes'⟩ := hsample x hx y hy
      cases hread.symm.trans hread'
      rw [pixel_eq_cell, cell, Nat.mul_comm, hbytes, Function.comp_apply, hbytes']
      rfl
  · rintro ⟨rfl, rfl⟩
    refine ⟨?_, ?_, fun x hx y hy => ?_⟩
    · rw [length_remap hrgba h.holds]
      ring
    · rw [length_remap hrgb h.holds]
      ring
    · obtain ⟨r, g, b, a, hread, hbytes⟩ := hsample x hx y hy
      have hpixel := pixel_remap hrgba h.holds hx hy
      have hpixel' := pixel_remap hrgb h.holds hx hy
      rw [pixel_eq_cell, cell, Nat.mul_comm, hbytes] at hpixel
      rw [pixel_eq_cell, cell, Nat.mul_comm, Function.comp_apply, hbytes] at hpixel'
      exact ⟨r, g, b, a, hread, hpixel, hpixel'⟩

end

/-- The whole session as one function: it ends with a file exactly when the media type names a
format with an encoder, the memory format is one that creators take, the frame has the right
size without any wrapping, and the codec, called with the picture under the last settings,
writes that file. -/
theorem saved_file (codecs : ImageEncoders) (s : Session) (mime : Bytes)
    (before : List Tuning) (f : FrameData) (after : List Tuning) (file : Bytes) :
    Saves codecs s mime before f after file ↔ ∃ text target ng mf rgba rgb,
      toStr mime = some text ∧ KnownFormat.fromMimeType text = some target ∧ f.data ≠ [] ∧
      glyToNg f.memoryFormat = some ng ∧ cUintToMemoryFormat ng = some mf ∧ f.Fits ng mf ∧
      f.Pictured ng mf rgba rgb ∧
      codecOf codecs (quality (before ++ after)) (profile (before ++ after)) rgba rgb
        f.width f.height target = some (.ok file) := by
  rw [saves_iff_called]
  constructor
  · rintro ⟨text, target, frame, htext, htarget, hqueued, haccepts, hfile⟩
    obtain ⟨hdata, ng, mf, hng, hmf, rfl⟩ := FrameData.queued_eq_some.mp hqueued
    obtain ⟨hformat, hbpp⟩ := sampled_of_glyToNg hng hmf
    have hfits : f.Fits ng mf := (FrameData.fits_iff hbpp).mpr haccepts
    exact ⟨text, target, ng, mf, _, _, htext, htarget, hdata, hng, hmf, hfits,
      (hfits.pictured_iff hformat).mpr ⟨rfl, rfl⟩, hfile⟩
  · rintro ⟨text, target, ng, mf, rgba, rgb, htext, htarget, hdata, hng, hmf, hfits, hpictured,
      hfile⟩
    obtain ⟨hformat, hbpp⟩ := sampled_of_glyToNg hng hmf
    obtain ⟨rfl, rfl⟩ := (hfits.pictured_iff hformat).mp hpictured
    exact ⟨text, target, f.frame ng mf, htext, htarget,
      FrameData.queued_eq_some.mpr ⟨hdata, ng, mf, hng, hmf, rfl⟩,
      (FrameData.fits_iff hbpp).mp hfits, hfile⟩

end GlycinNg.Shim.Creator
