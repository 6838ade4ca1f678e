import GlycinNg.Image
import GlycinNg.Rust.Bytes
import GlycinNg.Rust.Traced

/-! # What decoders share

A codec crate is what it answers: its header, then one shot after another.
A decoder is a `Decode` computation that logs every call it makes into the crate.
`Delivery` is the other view of a decode, with no control flow: the canvas and
the shots a codec hands over. Each decoder is shown to return an image that
carries the delivery of its codec; results about all formats start there. -/
namespace GlycinNg
open Rust

/-- The calls into codec crates. -/
inductive CodecOp where
  | pngReadInfo | pngNextFrame
  | jpegDecode
  | gifReadInfo | gifReadNextFrame
  | webpNew | webpIccProfile | webpExifMetadata | webpReadFrame | webpReadImage
  | tiffNew | tiffDimensions | tiffColortype | tiffReadImage
  | qoiDecodeToVec
  | jxlRead | jxlRenderFrame
  | imageMakeDecoder | imageSetLimits | imageFromDecoder
  | svgTreeFromData | svgRender
  deriving DecidableEq, Repr

inductive OpKind where
  | header | pixels
  deriving DecidableEq, Repr

/-- Whether a call expands pixels or only reads what describes them. -/
def CodecOp.kind : CodecOp → OpKind
  | .pngReadInfo | .gifReadInfo | .webpNew | .webpIccProfile | .webpExifMetadata
  | .tiffNew | .tiffDimensions | .tiffColortype | .jxlRead | .imageMakeDecoder | .imageSetLimits
  | .svgTreeFromData => .header
  | .pngNextFrame | .jpegDecode | .gifReadNextFrame | .webpReadFrame | .webpReadImage
  | .tiffReadImage | .qoiDecodeToVec | .jxlRenderFrame | .imageFromDecoder | .svgRender =>
    .pixels

abbrev Decode (α : Type) := Traced CodecOp Error α

/-- `formats::DecodeOptions`. -/
structure DecodeOptions where
  limits : Limits
  applyTransformations : Bool
  renderSizeHint : Option (UInt32 × UInt32)

/-- `DecodeOptions::default`. -/
def DecodeOptions.default : DecodeOptions := ⟨Limits.default, true, none⟩

/-- `Option::ok_or`. -/
def okOr {α : Type} (x : Option α) (e : Error) : Except Error α :=
  match x with
  | some a => .ok a
  | none => .error e

@[simp] theorem okOr_eq_ok {α : Type} {x : Option α} {e : Error} {a : α} :
    okOr x e = .ok a ↔ x = some a := by
  cases x <;> simp [okOr]

theorem okOr_error {α : Type} {x : Option α} {e e' : Error} (h : okOr x e = .error e') :
    e' = e := by
  cases x <;> cases h
  rfl

/-- `if c { return Err(e); }`. -/
def failIf (c : Prop) [Decidable c] (e : Error) : Except Error Unit :=
  if c then .error e else .ok ()

@[simp] theorem failIf_eq_ok {c : Prop} [Decidable c] {e : Error} {u : Unit} :
    failIf c e = .ok u ↔ ¬ c := by
  by_cases h : c <;> simp [failIf, h]

theorem failIf_ok {c : Prop} [Decidable c] {e : Error} (h : ¬ c) : failIf c e = .ok () :=
  failIf_eq_ok.mpr h

theorem failIf_error {c : Prop} [Decidable c] {e e' : Error} (h : failIf c e = .error e') :
    e' = e := by
  rw [failIf] at h
  split at h <;> cases h
  rfl

@[simp] theorem mapError_eq_ok {α ε ε' : Type} {x : Except ε α} {f : ε → ε'} {a : α} :
    x.mapError f = .ok a ↔ x = .ok a := by
  cases x <;> simp [Except.mapError]

theorem toOption_eq_some {ε α : Type} {x : Except ε α} {a : α} :
    x.toOption = some a ↔ x = .ok a := by
  cases x <;> simp [Except.toOption]

/-- `decode_memory_mib` in bytes. -/
def memoryLimit (opts : DecodeOptions) : UInt64 :=
  u64SaturatingMul opts.limits.decodeMemoryMib (1024 * 1024)

/-- `be_to_native_u16`, the same in `png.rs` and `jpeg.rs`. -/
def beToNativeU16 (littleEndian : Bool) (buf : Bytes) : Bytes :=
  if littleEndian then swapPairs buf else buf

@[simp] theorem length_beToNativeU16 (littleEndian : Bool) (buf : Bytes) :
    (beToNativeU16 littleEndian buf).length = buf.length := by
  cases littleEndian <;> simp [beToNativeU16]

/-- `u16::to_ne_bytes` over a buffer. -/
def u16ToNativeBytes (littleEndian : Bool) (v : List UInt16) : Bytes :=
  v.flatMap (u16Bytes !littleEndian)

/-- `f32::to_ne_bytes` over a buffer of bit patterns. -/
def floatsToBytes (littleEndian : Bool) (v : List UInt32) : Bytes :=
  v.flatMap (u32Bytes !littleEndian)

theorem length_u16ToNativeBytes (littleEndian : Bool) (v : List UInt16) :
    (u16ToNativeBytes littleEndian v).length = v.length * 2 := by
  simp [u16ToNativeBytes, List.length_flatMap]

theorem length_floatsToBytes (littleEndian : Bool) (v : List UInt32) :
    (floatsToBytes littleEndian v).length = v.length * 4 := by
  simp [floatsToBytes, List.length_flatMap]

/-! ## Pictures -/

/-- Tightly packed pixels as a codec delivers them. -/
structure Picture where
  width : UInt32
  height : UInt32
  format : MemoryFormat
  data : Bytes

namespace Picture

/-- The length of one row. -/
def rowBytes (p : Picture) : Nat := p.width.toNat * p.format.bytesPerPixel

/-- The buffer holds the documented number of samples. -/
def Packed (p : Picture) : Prop := p.data.length = p.rowBytes * p.height.toNat

end Picture

/-- The texture holds exactly the pixels of `p`. -/
structure Texture.Shows (t : Texture) (p : Picture) : Prop where
  width : t.width = p.width
  height : t.height = p.height
  format : t.format = p.format
  stride : t.stride.toNat = p.rowBytes
  data : t.data = p.data

/-- The row length as the decoders compute it, in `u64` and capped at `u32::MAX`. -/
def rowStride (format : MemoryFormat) (width : UInt32) : Except Error UInt32 := do
  let s ← okOr ((u64CheckedMul (UInt64.ofNat format.bytesPerPixel) width.toUInt64).filter
    fun s => s ≤ 0xffffffff) (.limitExceeded "stride")
  return s.toUInt32

/-- `Texture::from_parts` with the error every decoder gives it. -/
def textureOrError (name : String) (width height stride : UInt32) (format : MemoryFormat)
    (data : Bytes) : Except Error Texture :=
  okOr (Texture.fromParts width height stride format data)
    (.decoder name "texture construction failed")

/-- Stride and texture of a packed picture. -/
def packTexture (name : String) (p : Picture) : Except Error Texture := do
  let stride ← rowStride p.format p.width
  textureOrError name p.width p.height stride p.format p.data

/-- The stride of gif and svg: `width.checked_mul(4)` in `u32`. -/
def rgbaStride (width : UInt32) : Except Error UInt32 :=
  okOr (u32CheckedMul width 4) (.limitExceeded "stride")

theorem rowStride_eq {format : MemoryFormat} {width : UInt32} :
    rowStride format width =
      if width.toNat * format.bytesPerPixel ≤ u32Max then
        .ok (UInt32.ofNat (width.toNat * format.bytesPerPixel))
      else .error (.limitExceeded "stride") := by
  have hw := width.toNat_lt
  have hb := format.bytesPerPixel_le
  have hrow : width.toNat * format.bytesPerPixel ≤ 2 ^ 32 * 16 :=
    Nat.mul_le_mul (Nat.le_of_lt hw) hb
  have hbpp : (UInt64.ofNat format.bytesPerPixel).toNat = format.bytesPerPixel :=
    UInt64.toNat_ofNat_of_lt' (by rw [UInt64.size]; omega)
  have hn : (UInt64.ofNat (width.toNat * format.bytesPerPixel)).toNat =
      width.toNat * format.bytesPerPixel :=
    UInt64.toNat_ofNat_of_lt' (by rw [UInt64.size]; omega)
  have hmul : u64CheckedMul (UInt64.ofNat format.bytesPerPixel) width.toUInt64 =
      some (UInt64.ofNat (width.toNat * format.bytesPerPixel)) := by
    rw [u64CheckedMul_eq_some, hn, hbpp, UInt32.toNat_toUInt64, Nat.mul_comm]
  have hle : UInt64.ofNat (width.toNat * format.bytesPerPixel) ≤ 0xffffffff ↔
      width.toNat * format.bytesPerPixel ≤ u32Max := by
    rw [UInt64.le_iff_toNat_le, hn]
    rfl
  have hcast : (UInt64.ofNat (width.toNat * format.bytesPerPixel)).toUInt32 =
      UInt32.ofNat (width.toNat * format.bytesPerPixel) := by
    rw [← UInt32.toNat_inj, UInt64.toNat_toUInt32, hn, UInt32.toNat_ofNat']
  rw [rowStride, hmul, Option.filter_some]
  by_cases h : width.toNat * format.bytesPerPixel ≤ u32Max
  · rw [if_pos (by simpa using hle.mpr h), if_pos h, ← hcast]
    rfl
  · have hgt : ¬ UInt64.ofNat (width.toNat * format.bytesPerPixel) ≤ 0xffffffff := by
      rw [hle]
      exact h
    rw [if_neg (by simpa using hgt), if_neg h]
    rfl

theorem rowStride_ok {format : MemoryFormat} {width stride : UInt32}
    (h : rowStride format width = .ok stride) :
    stride.toNat = width.toNat * format.bytesPerPixel := by
  rw [rowStride_eq] at h
  split at h
  · cases h
    exact UInt32.toNat_ofNat_of_lt' (Nat.lt_of_le_of_lt ‹_› (by decide))
  · cases h

/-- The two ways to compute an RGBA stride agree. -/
theorem rgbaStride_eq {width : UInt32} : rgbaStride width = rowStride .r8g8b8a8 width := by
  rw [rowStride_eq, rgbaStride, MemoryFormat.bytesPerPixel, u32CheckedMul]
  have h : width.toNat * (4 : UInt32).toNat < 2 ^ 32 ↔ width.toNat * 4 ≤ u32Max := by
    rw [u32Max, show (4 : UInt32).toNat = 4 from rfl]
    omega
  by_cases hfit : width.toNat * 4 ≤ u32Max
  · rw [if_pos (h.mpr hfit), if_pos hfit, okOr, Except.ok.injEq, ← UInt32.toNat_inj,
      UInt32.toNat_mul, UInt32.toNat_ofNat']
    rfl
  · rw [if_neg (mt h.mp hfit), if_neg hfit]
    rfl

theorem textureOrError_ok {name : String} {p : Picture} {stride : UInt32} {t : Texture}
    (hs : stride.toNat = p.rowBytes)
    (h : textureOrError name p.width p.height stride p.format p.data = .ok t) : t.Shows p := by
  obtain ⟨hw, hh, hst, hf, hd⟩ := Texture.fromParts_eq_some.mp (okOr_eq_ok.mp h)
  exact ⟨hw, hh, hf, by rw [hst, hs], hd⟩

/-- With the stride of the format, only the length of the buffer can be wrong. -/
theorem textureOrError_packed {name : String} {p : Picture} {stride : UInt32}
    (hs : stride.toNat = p.rowBytes) :
    (∃ t, textureOrError name p.width p.height stride p.format p.data = .ok t) ↔ p.Packed := by
  simp only [textureOrError, okOr_eq_ok, Texture.fromParts_isSome, hs, Picture.Packed,
    Picture.rowBytes]
  constructor
  · intro ⟨hlen, _⟩
    exact hlen
  · intro hlen
    exact ⟨hlen, Nat.le_refl _⟩

theorem packTexture_ok {name : String} {p : Picture} {t : Texture}
    (h : packTexture name p = .ok t) : t.Shows p := by
  obtain ⟨stride, hs, h⟩ := bind_eq_ok.mp h
  exact textureOrError_ok (rowStride_ok hs) h

theorem rowStride_error {format : MemoryFormat} {width : UInt32} {e : Error}
    (h : rowStride format width = .error e) : e = .limitExceeded "stride" := by
  rw [rowStride_eq] at h
  split at h <;> cases h
  rfl

/-- The error of a decoder whose stride, format and buffer disagree. -/
def Error.IsBookkeeping (e : Error) : Prop :=
  ∃ name, e = .decoder name "texture construction failed"

theorem not_isBookkeeping_limitExceeded (which : String) :
    ¬ (Error.limitExceeded which).IsBookkeeping := by
  intro ⟨name, h⟩
  cases h

theorem not_isBookkeeping_check {l : Limits} {width height frames : UInt32} {e : Error}
    (h : l.checkDimensions width height frames = .error e) : ¬ e.IsBookkeeping := by
  obtain ⟨which, rfl⟩ := Limits.checkDimensions_limit h
  exact not_isBookkeeping_limitExceeded which

theorem not_isBookkeeping_okOr {α : Type} {x : Option α} {which : String} {e : Error}
    (h : okOr x (.limitExceeded which) = .error e) : ¬ e.IsBookkeeping := by
  rw [okOr_error h]
  exact not_isBookkeeping_limitExceeded which

theorem not_isBookkeeping_failIf {c : Prop} [Decidable c] {which : String} {e : Error}
    (h : failIf c (.limitExceeded which) = .error e) : ¬ e.IsBookkeeping := by
  rw [failIf_error h]
  exact not_isBookkeeping_limitExceeded which

theorem not_isBookkeeping_texture {name : String} {p : Picture} {stride : UInt32} {e : Error}
    (hp : p.Packed) (hs : stride.toNat = p.rowBytes)
    (h : textureOrError name p.width p.height stride p.format p.data = .error e) :
    ¬ e.IsBookkeeping := by
  have hok : ∃ t, textureOrError name p.width p.height stride p.format p.data = .ok t :=
    (textureOrError_packed hs).mpr hp
  obtain ⟨t, ht⟩ := hok
  rw [ht] at h
  cases h

theorem not_isBookkeeping_stride {format : MemoryFormat} {width : UInt32} {e : Error}
    (h : rowStride format width = .error e) : ¬ e.IsBookkeeping := by
  rw [rowStride_error h]
  exact not_isBookkeeping_limitExceeded "stride"

/-- Packing a picture with the documented number of samples does not fail in the
bookkeeping. -/
theorem not_isBookkeeping_pack {name : String} {p : Picture} {e : Error} (hp : p.Packed)
    (h : packTexture name p = .error e) : ¬ e.IsBookkeeping := by
  rw [packTexture] at h
  cases hs : rowStride p.format p.width with
  | error e' =>
    rw [hs, error_bind, Except.error.injEq] at h
    exact h ▸ not_isBookkeeping_stride hs
  | ok stride =>
    rw [hs, ok_bind] at h
    exact not_isBookkeeping_texture hp (rowStride_ok hs) h

/-- Bookkeeping fails only after the row length was accepted. -/
theorem rowBytes_le_of_isBookkeeping {name : String} {p : Picture} {e : Error}
    (h : packTexture name p = .error e) (he : e.IsBookkeeping) : p.rowBytes ≤ u32Max := by
  by_contra hrow
  rw [Picture.rowBytes] at hrow
  rw [packTexture, rowStride_eq, if_neg hrow, error_bind] at h
  cases h
  exact not_isBookkeeping_limitExceeded "stride" he

/-- A packed picture whose rows fit a stride makes a texture. -/
theorem exists_packTexture (name : String) {p : Picture} (hpacked : p.Packed)
    (hstride : p.rowBytes ≤ u32Max) : ∃ t, packTexture name p = .ok t := by
  have hs : rowStride p.format p.width = .ok (UInt32.ofNat p.rowBytes) := by
    rw [rowStride_eq]
    exact if_pos hstride
  obtain ⟨t, ht⟩ := (textureOrError_packed (rowStride_ok hs)).mpr hpacked
  exact ⟨t, bind_eq_ok.mpr ⟨_, hs, ht⟩⟩

/-- A picture with acceptable rows and a wrong number of samples is refused. -/
theorem packTexture_refused {name : String} {p : Picture} (hrow : p.rowBytes ≤ u32Max)
    (hp : ¬ p.Packed) :
    packTexture name p = .error (.decoder name "texture construction failed") := by
  have hs : (UInt32.ofNat p.rowBytes).toNat = p.rowBytes :=
    UInt32.toNat_ofNat_of_lt' (Nat.lt_of_le_of_lt hrow (by decide))
  rw [Picture.rowBytes] at hrow hs
  rw [packTexture, rowStride_eq, if_pos hrow, ok_bind]
  cases ht : textureOrError name p.width p.height
      (UInt32.ofNat (p.width.toNat * p.format.bytesPerPixel)) p.format p.data with
  | ok t => exact absurd ((textureOrError_packed hs).mp ⟨t, ht⟩) hp
  | error e => rw [okOr_error ht]

/-! ## Gating -/

/-- The decode stops at a limit before any pixel is expanded. -/
def Gated {α : Type} (x : Decode α) : Prop :=
  (∃ which, x.result = .error (.limitExceeded which)) ∧ ∀ op ∈ x.ops, op.kind = .header

/-- The decode expands pixels. -/
def Expands {α : Type} (x : Decode α) : Prop := ∃ op ∈ x.ops, op.kind = .pixels

section
variable {α β : Type} {op : CodecOp} {f : α → Decode β} {a : α}

theorem Expands.not_gated {x : Decode α} (h : Expands x) : ¬ Gated x := by
  intro ⟨_, hall⟩
  obtain ⟨op, hmem, hop⟩ := h
  rw [hall op hmem] at hop
  cases hop

theorem Expands.bind {x : Decode α} (h : Expands x) : Expands (x >>= f) := by
  obtain ⟨op, hmem, hop⟩ := h
  exact ⟨op, Traced.mem_ops_bind_left hmem, hop⟩

theorem expands_perform {r : Except Error α} (hop : op.kind = .pixels) :
    Expands (Traced.perform op r : Decode α) := ⟨op, by simp, hop⟩

/-- A header read that succeeds decides nothing. -/
theorem gated_perform {ε : Type} {r : Except ε α} {g : ε → Error} (hr : r = .ok a)
    (hop : op.kind = .header) : Gated (Traced.perform op (r.mapError g) >>= f) ↔ Gated (f a) := by
  subst hr
  change Gated (Traced.perform op (.ok a) >>= f) ↔ _
  rw [Traced.perform_ok_bind, Gated, Gated, Traced.result_mk, Traced.ops_mk]
  simp [hop]

/-- One that fails gates the decode when it is a limit that was hit. -/
theorem gated_perform_error {ε : Type} {r : Except ε α} {g : ε → Error} {e : ε}
    (hr : r = .error e) (hop : op.kind = .header) :
    Gated (Traced.perform op (r.mapError g) >>= f) ↔ ∃ which, g e = .limitExceeded which := by
  subst hr
  have hfails : (Traced.perform op (.error (g e)) : Decode α).result = .error (g e) := rfl
  change Gated (Traced.perform op (.error (g e)) >>= f) ↔ _
  rw [Traced.bind_of_error hfails, Gated, Traced.result_mk, Traced.ops_mk]
  simp [hop]

/-- A pure step that succeeds decides nothing either. -/
theorem gated_lift {r : Except Error α} (hr : r = .ok a) :
    Gated ((liftM r : Decode α) >>= f) ↔ Gated (f a) := by
  subst hr
  rfl

/-- A pure step that fails gates the decode when it is a limit that was hit. -/
theorem gated_lift_error {r : Except Error α} {e : Error} (hr : r = .error e) :
    Gated ((liftM r : Decode α) >>= f) ↔ ∃ which, e = .limitExceeded which := by
  subst hr
  rw [Traced.lift_error_bind, Gated, Traced.result_mk, Traced.ops_mk]
  simp

theorem gated_check {l : Limits} {width height frames : UInt32} {f : Unit → Decode β}
    (h : ¬ l.Fits width height frames) :
    Gated ((liftM (l.checkDimensions width height frames) : Decode Unit) >>= f) := by
  obtain ⟨which, hcheck⟩ := Limits.checkDimensions_error h
  exact (gated_lift_error hcheck).mpr ⟨which, rfl⟩

end

/-! ## Deliveries -/

/-- One picture of a delivery with the time it is shown. -/
structure Shot where
  picture : Picture
  delay : Option Duration

/-- A canvas and the shots delivered for it. -/
structure Delivery where
  width : UInt32
  height : UInt32
  shots : List Shot

/-- The frame holds exactly the shot `s`. -/
structure Frame.Carries (f : Frame) (s : Shot) : Prop where
  texture : f.texture.Shows s.picture
  delay : f.delay = s.delay

/-- The image holds exactly the delivery `d`, in order, not oriented yet. -/
structure Image.Carries (img : Image) (d : Delivery) : Prop where
  width : img.width = d.width
  height : img.height = d.height
  orientation : img.orientation = .normal
  frames : List.Forall₂ (fun s f => Frame.Carries f s) d.shots img.frames

namespace Delivery

/-- The exact sum of a list of delays, in nanoseconds. -/
def totalNanos (delays : List (Option Duration)) : Nat :=
  (delays.map fun d => d.elim 0 Duration.nanos).sum

@[simp] theorem totalNanos_append (a b : List (Option Duration)) :
    totalNanos (a ++ b) = totalNanos a + totalNanos b := by
  simp [totalNanos]

def delays (d : Delivery) : List (Option Duration) := d.shots.map Shot.delay

/-- The exact number of pixels of all shots. -/
def pixels (d : Delivery) : Nat :=
  (d.shots.map fun s => s.picture.width.toNat * s.picture.height.toNat).sum

/-- Every shot lies inside the canvas. -/
def InsideCanvas (d : Delivery) : Prop :=
  ∀ s ∈ d.shots, s.picture.width ≤ d.width ∧ s.picture.height ≤ d.height

/-- The canvas and every shot are within the caps on width and height. -/
def WithinSides (d : Delivery) (l : Limits) : Prop :=
  d.width ≤ l.maxWidth ∧ d.height ≤ l.maxHeight ∧
    ∀ s ∈ d.shots, s.picture.width ≤ l.maxWidth ∧ s.picture.height ≤ l.maxHeight

end Delivery

theorem Frame.Carries.width_eq {f : Frame} {s : Shot} (h : f.Carries s) :
    f.width = s.picture.width := h.texture.width

theorem Frame.Carries.height_eq {f : Frame} {s : Shot} (h : f.Carries s) :
    f.height = s.picture.height := h.texture.height

namespace Image.Carries
variable {img : Image} {d : Delivery}

/-- What is read off a frame alike is read off its shot alike. -/
theorem map_eq {β : Type} {g : Frame → β} {g' : Shot → β} (h : img.Carries d)
    (hg : ∀ {f s}, Frame.Carries f s → g f = g' s) : img.frames.map g = d.shots.map g' := by
  have hf := h.frames
  generalize img.frames = frames at hf
  generalize d.shots = shots at hf
  induction hf with
  | nil => rfl
  | cons hc _ ih => rw [List.map_cons, List.map_cons, ih, hg hc]

theorem delays_eq (h : img.Carries d) : img.frames.map Frame.delay = d.delays :=
  h.map_eq Frame.Carries.delay

theorem pixels_eq (h : img.Carries d) :
    (img.frames.map fun f => f.width.toNat * f.height.toNat).sum = d.pixels :=
  congrArg List.sum (h.map_eq fun hc => by rw [hc.width_eq, hc.height_eq])

theorem length_eq (h : img.Carries d) : img.frames.length = d.shots.length := by
  have hmap : img.frames.map (fun _ => ()) = d.shots.map (fun _ => ()) := h.map_eq fun _ => rfl
  simpa using congrArg List.length hmap

/-- A condition on sizes holds of the frames when it holds of the shots. -/
theorem forall_sizes (h : img.Carries d) {P : UInt32 × UInt32 → Prop} :
    (∀ f ∈ img.frames, P (f.width, f.height)) ↔
      ∀ s ∈ d.shots, P (s.picture.width, s.picture.height) := by
  have hsizes : img.frames.map (fun f => (f.width, f.height)) =
      d.shots.map (fun s => (s.picture.width, s.picture.height)) :=
    h.map_eq fun hc => by rw [hc.width_eq, hc.height_eq]
  rw [← List.forall_mem_map (f := fun f : Frame => (f.width, f.height)), hsizes,
    List.forall_mem_map]

end Image.Carries

/-! ## Decode loops -/

section
variable {α : Type} {shot : α → Option Shot}

/-- The frames collected so far are the shots pulled so far. -/
def Pulled (shot : α → Option Shot) (pulled : List α) (frames : List Frame) : Prop :=
  ∃ shots, pulled.mapM shot = some shots ∧
    List.Forall₂ (fun s f => Frame.Carries f s) shots frames

theorem Pulled.nil : Pulled shot [] [] := ⟨[], rfl, .nil⟩

theorem Pulled.snoc {pulled : List α} {frames : List Frame} {a : α} {s : Shot} {f : Frame}
    (h : Pulled shot pulled frames) (hs : shot a = some s) (hf : f.Carries s) :
    Pulled shot (pulled ++ [a]) (frames ++ [f]) := by
  obtain ⟨shots, hm, hc⟩ := h
  refine ⟨shots ++ [s], ?_, List.rel_append hc (.cons hf .nil)⟩
  simp [hm, hs]

end

/-- The running total of an animation: the exact sum of the delays so far, cut
at `Duration::MAX`, and never above the cap. -/
structure Timed (cap : Duration) (frames : List Frame) (total : Duration) : Prop where
  nanos : total.nanos = min maxNanos (Delivery.totalNanos (frames.map Frame.delay))
  le_cap : total ≤ cap

namespace Timed
variable {cap total d : Duration} {frames : List Frame} {t : Texture}

theorem nil : Timed cap [] Duration.zero := ⟨rfl, Nat.zero_le _⟩

theorem snoc (h : Timed cap frames total) (hd : ¬ total.saturatingAdd d > cap) :
    Timed cap (frames ++ [⟨t, some d⟩]) (total.saturatingAdd d) where
  nanos := by
    rw [Duration.saturatingAdd_of_min h.nanos, List.map_append, Delivery.totalNanos_append]
    rfl
  le_cap := Nat.not_lt.mp hd

theorem snoc_none (h : Timed cap frames total) : Timed cap (frames ++ [⟨t, none⟩]) total where
  nanos := by
    rw [h.nanos, List.map_append, Delivery.totalNanos_append]
    rfl
  le_cap := h.le_cap

end Timed

/-- The accumulators of a loop over an announced number of frames. -/
structure Animation where
  frames : List Frame
  totalAnimation : Duration

def Animation.start : Animation := ⟨[], Duration.zero⟩

/-- What such a loop keeps true, whatever it pulls its frames from. -/
structure Animation.Inv {α : Type} (shot : α → Option Shot) (cap : Duration) (pulled : List α)
    (s : Animation) : Prop where
  pulled : Pulled shot pulled s.frames
  timed : Timed cap s.frames s.totalAnimation

theorem Animation.Inv.start {α : Type} (shot : α → Option Shot) (cap : Duration) :
    Animation.Inv shot cap [] Animation.start := ⟨Pulled.nil, Timed.nil⟩

/-! ## Single pictures -/

/-- A picture shown for no particular time, on a canvas of its own size. -/
def Picture.delivery (p : Picture) : Delivery := ⟨p.width, p.height, [⟨p, none⟩]⟩

/-- The end of a decoder that returns one picture. -/
def stillImage (name : String) (p : Picture) : Except Error Image := do
  let texture ← packTexture name p
  return Image.fromParts name p.width p.height [⟨texture, none⟩]

theorem fromParts_carries {name : String} {p : Picture} {t : Texture} (ht : t.Shows p) :
    (Image.fromParts name p.width p.height [⟨t, none⟩]).Carries p.delivery :=
  ⟨rfl, rfl, rfl, .cons ⟨ht, rfl⟩ .nil⟩

theorem stillImage_ok {name : String} {p : Picture} {img : Image}
    (h : stillImage name p = .ok img) : img.Carries p.delivery ∧ img.exif = none := by
  obtain ⟨t, ht, h⟩ := bind_eq_ok.mp h
  cases h
  exact ⟨fromParts_carries (packTexture_ok ht), rfl⟩

theorem not_isBookkeeping_still {name : String} {p : Picture} {e : Error} (hp : p.Packed)
    (h : stillImage name p = .error e) : ¬ e.IsBookkeeping := by
  rw [stillImage] at h
  cases ht : packTexture name p with
  | error e' =>
    rw [ht, error_bind, Except.error.injEq] at h
    exact h ▸ not_isBookkeeping_pack hp ht
  | ok t =>
    rw [ht, ok_bind] at h
    cases h

end GlycinNg
