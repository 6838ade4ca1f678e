import GlycinNg.Formats.Caps
import GlycinNg.Loader.Caps
import GlycinNg.Shim.Client
import GlycinNg.Shim.Selection

/-! # The shim does not abort its process

A panic inside an `extern "C"` function aborts the process. The code that could panic on a
caller's thread bakes the orientation and converts frames. Under the default limits, which
the shim never changes, no side of a frame is longer than 65535 pixels (`engine_sides`), so
every rotated row fits its stride, and every frame that is handed out is whole
(`client_never_panics`). -/
namespace GlycinNg.Shim
open Rust CApi

/-- The longest side a frame can have: GIF has no more bits for it, and for every other
format the default limits are lower. -/
def maxSide : Nat := 65535

/-- No side of a frame is longer. -/
def ShortSides (frames : List Frame) : Prop :=
  ∀ f ∈ frames, f.width.toNat ≤ maxSide ∧ f.height.toNat ≤ maxSide

/-- The PNG decoder of a host keeps the frames of an animation inside their canvas. -/
def PngInside (bytes : Bytes) (host : Host) : Prop :=
  ∀ opts d, host.codecs.delivery .png bytes opts = some d → d.InsideCanvas

/-- Besides, no codec of the host panics on the worker. A panic there becomes an error only in a
build that unwinds; the release profile aborts the process. -/
structure Calm (bytes : Bytes) (host : Host) : Prop where
  quiet : host.workerPanic = none
  inside : PngInside bytes host

/-! ## Decoding under the default limits -/

theorem gif_sides {decoder : Gif.Decoder} {d : Delivery} (h : decoder.delivery = some d) :
    ∀ s ∈ d.shots, s.picture.width.toNat ≤ maxSide ∧ s.picture.height.toNat ≤ maxSide := by
  obtain ⟨shots, hshots, h⟩ := Option.bind_eq_some_iff.mp h
  cases h
  refine forall_mem_of_mapM
    (P := fun s => s.picture.width.toNat ≤ maxSide ∧ s.picture.height.toNat ≤ maxSide) hshots ?_
  intro next shot hshot
  obtain ⟨frame, -, rfl⟩ := Option.map_eq_some_iff.mp hshot
  have hw := frame.width.toNat_lt
  have hh := frame.height.toNat_lt
  constructor
  · show frame.width.toUInt32.toNat ≤ 65535
    rw [UInt16.toNat_toUInt32]
    omega
  · show frame.height.toUInt32.toNat ≤ 65535
    rw [UInt16.toNat_toUInt32]
    omega

/-- A side within the default limits is short. -/
theorem short_of_le {n : UInt32} (h : n ≤ 32768) : n.toNat ≤ maxSide := by
  have hle := UInt32.le_iff_toNat_le.mp h
  rw [maxSide]
  exact Nat.le_trans hle (by decide)

/-- The shots of a decode that returns have short sides. -/
theorem delivery_sides {c : Codecs} {format : KnownFormat} {bytes : Bytes} {opts : DecodeOptions}
    {d : Delivery} {img : Image} (hd : c.delivery format bytes opts = some d)
    (haccepted : Accepted Limits.default format d img)
    (hpng : format = .png → d.InsideCanvas) :
    ∀ s ∈ d.shots, s.picture.width.toNat ≤ maxSide ∧ s.picture.height.toNat ≤ maxSide := by
  cases haccepted with
  | still _ _ hfits =>
    intro s hs
    obtain rfl := List.mem_singleton.mp hs
    exact ⟨short_of_le hfits.1, short_of_le hfits.2.1⟩
  | png hfits _ =>
    intro s hs
    obtain ⟨hw, hh⟩ := hpng rfl s hs
    exact ⟨short_of_le (UInt32.le_trans hw hfits.1), short_of_le (UInt32.le_trans hh hfits.2.1)⟩
  | canvas _ hfits _ hsize _ =>
    intro s hs
    obtain ⟨hw, hh⟩ := hsize s hs
    rw [hw, hh]
    exact ⟨short_of_le hfits.1, short_of_le hfits.2.1⟩
  | gif =>
    obtain ⟨decoder, -, hdecoder⟩ := Option.bind_eq_some_iff.mp hd
    exact gif_sides hdecoder

/-- So do the frames of an image the engine's worker returns to the shim. -/
theorem decoded_sides {bytes : Bytes} {apply : Bool} {size : Option (UInt32 × UInt32)}
    {host : Host} {base : Image} {posture : SandboxPosture} (hhost : PngInside bytes host)
    (h : (engineLoader bytes apply size).decoded host = .ok (base, posture)) :
    ShortSides base.frames := by
  obtain ⟨read, format, hread, -, hdispatch⟩ := Loader.decoded_ok h
  cases hread
  obtain ⟨d, hd, hcarries, haccepted⟩ := dispatch_ok hdispatch
  refine (hcarries.forall_sizes (P := fun p => p.1.toNat ≤ maxSide ∧ p.2.toNat ≤ maxSide)).mpr ?_
  refine delivery_sides hd haccepted fun hpng => ?_
  subst hpng
  exact hhost _ d hd

/-! ## The orientation stage -/

theorem rowFits_of_short {frames : List Frame} (h : ShortSides frames) {f : Frame}
    (hf : f ∈ frames) : f.height.toNat * f.texture.format.bytesPerPixel ≤ u32Max := by
  calc f.height.toNat * f.texture.format.bytesPerPixel
      ≤ maxSide * 16 := Nat.mul_le_mul (h f hf).2 f.texture.format.bytesPerPixel_le
    _ ≤ u32Max := by decide

/-- A turned frame has the sides of the frame, in one order or the other. -/
theorem ShortSides.baked {o : Orientation} {frames frames' : List Frame} (h : ShortSides frames)
    (hbaked : List.Forall₂ (Metadata.Baked o) frames frames') : ShortSides frames' := by
  induction hbaked with
  | nil => exact h
  | cons hb _ ih =>
    obtain ⟨hhead, htail⟩ := List.forall_mem_cons.mp h
    refine List.forall_mem_cons.mpr ⟨?_, ih htail⟩
    have hsize := Metadata.Baked.size_eq hb
    rw [Metadata.frameBakedSize] at hsize
    split at hsize
    · obtain ⟨hw, hh⟩ := Prod.mk.inj hsize
      rw [hw, hh]
      exact hhead.symm
    · obtain ⟨hw, hh⟩ := Prod.mk.inj hsize
      rw [hw, hh]
      exact hhead

theorem ShortSides.oriented {img img' : Image} {apply : Bool} (h : ShortSides img.frames)
    (hrun : Metadata.applyOrientationIfPresent img apply = .ok img') : ShortSides img'.frames := by
  by_cases ho : Metadata.exifOrientation img = .normal
  · rw [Metadata.apply_normal ho, Except.ok.injEq] at hrun
    exact hrun ▸ h
  · cases apply with
    | false =>
      rw [Metadata.report_orientation ho, Except.ok.injEq] at hrun
      exact hrun ▸ h
    | true =>
      have hfit : ∀ f ∈ img.frames, f.texture.RowFits (Metadata.exifOrientation img) := by
        intro f hf
        rw [Texture.rowFits_iff]
        intro _
        exact rowFits_of_short h hf
      obtain ⟨frames, hbaked, -, hresult⟩ := Metadata.bake_orientation ho hfit
      rw [hresult, Except.ok.injEq] at hrun
      subst hrun
      exact h.baked hbaked

/-- The stage after the worker returns, whatever the blob asks for. -/
theorem ShortSides.orientation_returns {img : Image} (h : ShortSides img.frames) (apply : Bool) :
    ∃ img', Metadata.applyOrientationIfPresent img apply = .ok img' := by
  by_cases ho : Metadata.exifOrientation img = .normal
  · exact ⟨img, Metadata.apply_normal ho apply⟩
  · cases apply with
    | false => exact ⟨_, Metadata.report_orientation ho⟩
    | true =>
      have hfit : ∀ f ∈ img.frames, f.texture.RowFits (Metadata.exifOrientation img) := by
        intro f hf
        rw [Texture.rowFits_iff]
        intro _
        exact rowFits_of_short h hf
      obtain ⟨frames, -, -, hrun⟩ := Metadata.bake_orientation ho hfit
      exact ⟨_, hrun⟩

/-- The engine under the shim's configuration answers, and the image it answers with has
short sides. -/
theorem engine_load {bytes : Bytes} (apply : Bool) (size : Option (UInt32 × UInt32)) {host : Host}
    (hhost : PngInside bytes host) :
    ∃ answer, (engineLoader bytes apply size).load host = .ok answer ∧
      ∀ img, answer = .ok img → ShortSides img.frames := by
  cases hdecoded : (engineLoader bytes apply size).decoded host with
  | error e =>
    refine ⟨.error e, ?_, by simp⟩
    rw [Loader.load, hdecoded]
    rfl
  | ok answer =>
    obtain ⟨base, posture⟩ := answer
    have hbase := decoded_sides hhost hdecoded
    obtain ⟨oriented, horiented⟩ := hbase.orientation_returns apply
    have hshort := hbase.oriented horiented
    refine ⟨.ok (oriented.setSandboxPosture posture), ?_, ?_⟩
    · rw [Loader.load_of_decoded hdecoded]
      show (Metadata.applyOrientationIfPresent base apply >>= _) = _
      rw [horiented]
      rfl
    · intro img himg
      rw [Except.ok.injEq] at himg
      subst himg
      exact hshort

/-! ## Frames that are handed out -/

/-- A caller that walks the rows of the frame stays inside its bytes. -/
structure RawFrame.Whole (f : RawFrame) : Prop extends f.Valid where
  width_le : f.width.toNat ≤ maxSide
  height_le : f.height.toNat ≤ maxSide

theorem rawFrame_whole {image : Image} (h : ShortSides image.frames) {index : Nat} {raw : RawFrame}
    (hraw : rawFrame image index = some raw) : raw.Whole := by
  have hvalid := rawFrame_valid hraw
  obtain ⟨t, ht, rfl⟩ := Option.map_eq_some_iff.mp hraw
  obtain ⟨f, hf, rfl⟩ := Option.map_eq_some_iff.mp ht
  obtain ⟨hw, hh⟩ := h f (List.mem_of_getElem? hf)
  exact ⟨hvalid, hw, hh⟩

namespace RawFrame.Whole
variable {f : RawFrame}

theorem sized (h : f.Whole) : f.Sized := ⟨h.row_le, h.data_length, h.width_le⟩

/-- Conversion writes whole frames, and it always returns. -/
theorem maybeConvert (h : f.Whole) (mask : UInt32) :
    ∃ out, Shim.maybeConvert f mask = .ok out ∧ out.Whole := by
  refine ⟨_, maybeConvert_eq h.sized mask, ?_⟩
  cases htarget : f.conversionTarget mask with
  | none => exact h
  | some target =>
    have hfrom := convertedFrom_of_target h.sized htarget
    obtain ⟨-, hpick, -⟩ := conversionTarget_some htarget
    exact {
      bpp_ne := (pickTarget_some hpick).2
      row_le := Nat.le_of_eq hfrom.stride.symm
      data_length := hfrom.data_length
      width_le := h.width_le
      height_le := h.height_le }

end RawFrame.Whole

/-- An answer with a frame has a whole one. -/
def WholeAnswer (answer : Except GError FrameState) : Prop :=
  ∀ f, answer = .ok f → f.frame.Whole

theorem WholeAnswer.converted {answer : Except GError FrameState} (h : WholeAnswer answer)
    (mask : UInt32) :
    ∃ answer', Shim.converted mask answer = .ok answer' ∧ WholeAnswer answer' := by
  cases answer with
  | error e => exact ⟨.error e, rfl, nofun⟩
  | ok f =>
    obtain ⟨out, hout, hwhole⟩ := (h f rfl).maybeConvert mask
    refine ⟨.ok ⟨out, f.cicp⟩, ?_, ?_⟩
    · rw [Shim.converted, hout]
      rfl
    · rintro _ ⟨⟩
      exact hwhole

theorem cachedRaw_whole {img : ImageState} (h : ShortSides img.inner.frames)
    (loopAnimation : Bool) : WholeAnswer (img.cachedRaw loopAnimation).2 := by
  intro f hf
  rcases img.cachedRaw_cases loopAnimation with ⟨_, raw, -, hraw, hcase⟩ | ⟨_, -, -, hcase⟩ | hcase
  · rw [hcase, Except.ok.injEq] at hf
    subst hf
    exact rawFrame_whole h hraw
  · rw [hcase] at hf
    cases hf
  · rw [hcase] at hf
    cases hf

section
variable {world : Host → Prop} {bytes : Bytes}

/-- The image behind a view has short sides. -/
theorem Backed.short {img : ImageState} (h : Backed world bytes img)
    (hworld : ∀ host, world host → PngInside bytes host) : ShortSides img.inner.frames := by
  obtain ⟨apply, host, hhost, hload⟩ := h.decoded
  obtain ⟨answer, hanswer, hshort⟩ := engine_load apply none (hworld host hhost)
  rw [hload, Except.ok.injEq] at hanswer
  exact hshort _ hanswer.symm

/-- A new decode answers, and its image has short sides. -/
theorem Backed.rerendered {img : ImageState} (h : Backed world bytes img) {host : Host}
    (hhost : PngInside bytes host) (request : Option FrameRequest) :
    ∃ answer, img.rerendered host request = .ok answer ∧
      ∀ newImage, answer = some newImage → ShortSides newImage.frames := by
  rw [ImageState.rerendered]
  cases hsize : img.rerenderSize request with
  | none => exact ⟨none, rfl, by simp⟩
  | some size =>
    obtain ⟨r, sw, sh⟩ := size
    obtain ⟨hr, -⟩ := ImageState.rerenderSize_eq_some.mp hsize
    obtain ⟨rfl, hlimits⟩ := h.rerender r hr
    obtain ⟨answer, hanswer, hshort⟩ := engine_load r.applyTransformations (some (sw, sh)) hhost
    dsimp only
    rw [rerender_loader hlimits, loaderLoad, hanswer]
    cases answer with
    | error e => exact ⟨none, rfl, by simp⟩
    | ok newImage =>
      refine ⟨some newImage, rfl, ?_⟩
      intro other hother
      exact hshort other (congrArg _ (Option.some.inj hother))

/-- The frame a call is about is whole. -/
theorem Backed.engineFrame {img : ImageState} (h : Backed world bytes img)
    (hworld : ∀ host, world host → PngInside bytes host) {host : Host} (hhost : world host)
    (request : Option FrameRequest) :
    ∃ img' answer, img.engineFrame host request = .ok (img', answer) ∧ WholeAnswer answer := by
  obtain ⟨rerendered, hrerendered, hshort⟩ := h.rerendered (hworld host hhost) request
  have hcached := cachedRaw_whole (h.short hworld)
  rw [ImageState.engineFrame, hrerendered, ok_bind]
  cases rerendered with
  | none => exact ⟨_, _, rfl, hcached _⟩
  | some newImage =>
    cases hraw : rawFrame newImage 0 with
    | none => exact ⟨_, _, by simp only [Option.bind_some, hraw]; rfl, hcached _⟩
    | some raw =>
      refine ⟨_, .ok ⟨raw, newImage.cicp⟩, by simp only [Option.bind_some, hraw]; rfl, ?_⟩
      rintro _ ⟨⟩
      exact rawFrame_whole (hshort _ rfl) hraw

end

/-- While no codec panics, no load and no request for a frame, in whatever state the client has
brought its handles, panics; and the rows of every frame handed out lie inside its bytes. -/
theorem client_never_panics (world : Host → Prop) (bytes : Bytes)
    (hworld : ∀ host, world host → Calm bytes host) :
    (∀ s, Loading world bytes s → ∀ host, world host →
      ∃ s' answer, s.load host = .ok (s', answer)) ∧
    ∀ img, Viewing world bytes img → ∀ c : Call, world c.host →
      ∃ img' answer, img.specificFrame c.host c.request = .ok (img', answer) ∧
        WholeAnswer answer := by
  have hinside : ∀ host, world host → PngInside bytes host :=
    fun host hhost => (hworld host hhost).inside
  constructor
  · intro s hs host hhost
    rw [LoaderState.load]
    cases hinner : s.inner with
    | none => exact ⟨_, _, rfl⟩
    | some inner =>
      obtain ⟨answer, hanswer, -⟩ := engine_load s.applyTransformations none (hinside host hhost)
      dsimp only
      rw [hs.engineLoader_eq hinner, loaderLoad, hanswer]
      cases answer with
      | error e => exact ⟨_, _, rfl⟩
      | ok image => exact ⟨_, _, rfl⟩
  · intro img himg c hhost
    obtain ⟨img', answer, hengine, hwhole⟩ := himg.backed.engineFrame hinside hhost c.request
    obtain ⟨answer', hanswer', hwhole'⟩ := hwhole.converted img.accepted
    refine ⟨img', answer', ?_, hwhole'⟩
    rw [ImageState.specificFrame_eq, hengine, ok_bind]
    dsimp only
    rw [hanswer']
    rfl

/-- A world whose only decoder is for PNG. -/
theorem client_never_panics_greyPixel :
    ∃ s' img, greyLoader.load (.plain greyPixel) = .ok (s', .ok img) ∧
      ∃ img' answer, img.specificFrame (.plain greyPixel) none = .ok (img', answer) ∧
        WholeAnswer answer := by
  have hworld : ∀ host, host = Host.plain greyPixel →
      Calm [0x89, 0x50, 0x4e, 0x47, 0x0d, 0x0a, 0x1a, 0x0a] host := by
    rintro _ rfl
    refine ⟨rfl, ?_⟩
    intro opts d hd
    cases hd
    intro s hs
    obtain rfl := List.mem_singleton.mp hs
    decide
  obtain ⟨-, hviews⟩ := client_never_panics _ _ hworld
  exact ⟨_, _, rfl, hviews _ (.loaded .new rfl rfl) ⟨.plain greyPixel, none⟩ rfl⟩

end GlycinNg.Shim
