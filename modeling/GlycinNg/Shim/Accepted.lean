import GlycinNg.Shim.Frames

/-! # Accepted memory formats

The mask a caller records on a loader reaches a frame through the image state,
which keeps it only for images that can be rendered again.
`accepted_formats_iff` says for which images every frame honours it. -/
namespace GlycinNg.Shim
open Rust CApi

/-- An image can be rendered again when it is an SVG whose source was kept. -/
theorem ImageState.rerender_isSome_iff (s : LoaderState) (image : Image) :
    (ImageState.new s image).rerender.isSome = true ↔
      image.formatName = "svg" ∧ s.sourceBytes.isSome = true := by
  have hname : isRescalableFormat ((imageFormatName image).getD "") = true ↔
      image.formatName = "svg" := by
    rw [isRescalableFormat, imageFormatName, beq_iff_eq]
    split
    · rfl
    · rename_i h
      constructor
      · intro hempty
        exact absurd hempty (by decide)
      · intro hsvg
        exact absurd (by simp [hsvg]) h
  rw [← hname, ImageState.new]
  cases s.sourceBytes <;>
    cases isRescalableFormat ((imageFormatName image).getD "") <;> simp

namespace ImageState
variable {img img' : ImageState} {mask : UInt32}

/-- Every frame the shim hands out is the engine's, converted under `mask`. -/
def Converts (img : ImageState) (mask : UInt32) : Prop :=
  ∀ calls last answers, img.frames calls = .ok (last, answers) →
    ∃ engine, img.engineFrames calls = .ok (last, engine) ∧
      List.Forall₂ (fun e a => converted mask e = .ok a) engine answers

/-- A call moves the image state as the call before conversion does. -/
theorem specificFrame_ok {host : Host} {request : Option FrameRequest}
    {answer : Except GError FrameState} (h : img.specificFrame host request = .ok (img', answer)) :
    ∃ engine, img.engineFrame host request = .ok (img', engine) ∧
      converted img.accepted engine = .ok answer := by
  rw [specificFrame_eq] at h
  obtain ⟨⟨img'', engine⟩, hengine, h⟩ := bind_eq_ok.mp h
  obtain ⟨answer', hanswer, h⟩ := bind_eq_ok.mp h
  cases h
  exact ⟨engine, hengine, hanswer⟩

theorem cachedRaw_rerender (img : ImageState) (loopAnimation : Bool) :
    (img.cachedRaw loopAnimation).1.inner = img.inner ∧
      (img.cachedRaw loopAnimation).1.rerender = img.rerender ∧
      (img.cachedRaw loopAnimation).1.frameCount = img.frameCount := by
  rcases img.cachedRaw_cases loopAnimation with ⟨_, _, -, -, h⟩ | ⟨_, -, -, h⟩ | h <;>
    rw [h] <;> exact ⟨rfl, rfl, rfl⟩

/-- No call changes what the frames are taken from. -/
theorem engineFrame_rerender {host : Host} {request : Option FrameRequest}
    {answer : Except GError FrameState} (h : img.engineFrame host request = .ok (img', answer)) :
    img'.inner = img.inner ∧ img'.rerender = img.rerender ∧ img'.frameCount = img.frameCount := by
  obtain ⟨rerendered, -, h⟩ := bind_eq_ok.mp h
  split at h
  · have hcached := img.cachedRaw_rerender ((request.map FrameRequest.loopAnimation).getD true)
    have hstate : img.cachedRaw _ = (img', answer) := Except.ok.inj h
    rw [hstate] at hcached
    exact hcached
  · cases h
    exact ⟨rfl, rfl, rfl⟩

/-- With the mask of the loader in the image state, every frame honours it. -/
theorem converts_accepted (img : ImageState) : img.Converts img.accepted := by
  intro calls
  induction calls generalizing img with
  | nil =>
    intro last answers h
    obtain ⟨rfl, rfl⟩ := replay_nil_eq_ok.mp h
    exact ⟨[], rfl, .nil⟩
  | cons c calls ih =>
    intro last answers h
    obtain ⟨img', answer, rest, hstep, hrest, rfl⟩ := replay_cons_eq_ok.mp h
    obtain ⟨e, hengine, hconverted⟩ := specificFrame_ok hstep
    obtain ⟨es, hes, hall⟩ := ih img' last rest hrest
    have hmask : img'.accepted = img.accepted := by
      rw [accepted, accepted, (engineFrame_rerender hengine).2.1]
    rw [hmask] at hall
    exact ⟨e :: es, replay_cons_eq_ok.mpr ⟨img', e, es, hengine, hes, rfl⟩, .cons hconverted hall⟩

/-- Without a kept mask nothing is converted. -/
theorem converted_zero (answer : Except GError FrameState) : converted 0 answer = .ok answer := by
  cases answer <;> rfl

/-- An image that cannot be rendered again answers with its cached frames. -/
theorem engineFrame_of_raster (h : img.rerender = none) (host : Host)
    (request : Option FrameRequest) :
    img.engineFrame host request =
      .ok (img.cachedRaw ((request.map FrameRequest.loopAnimation).getD true)) := by
  have hsize : img.rerenderSize request = none := by
    rw [rerenderSize, h]
  rw [engineFrame, rerendered, hsize]
  rfl

theorem specificFrame_of_raster (h : img.rerender = none) (host : Host)
    (request : Option FrameRequest) :
    img.specificFrame host request =
      .ok (img.cachedRaw ((request.map FrameRequest.loopAnimation).getD true)) := by
  have haccepted : img.accepted = 0 := by
    rw [accepted, h]
    rfl
  rw [specificFrame_eq, engineFrame_of_raster h, haccepted]
  simp only [ok_bind, converted_zero]
  rfl

/-- Every cached frame is in a format `mask` accepts, or cannot be converted. -/
def Accepts (img : ImageState) (mask : UInt32) : Prop :=
  ∀ f ∈ img.inner.frames,
    LeavesAlone mask (memoryFormatToCUint f.texture.format) f.width f.height

/-- Such frames are what `maybe_convert` makes of them. -/
theorem accepts_iff {img : ImageState} : img.Accepts mask ↔
    ∀ idx raw, rawFrame img.inner idx = some raw → maybeConvert raw mask = .ok raw := by
  constructor
  · intro h idx raw hraw
    refine (maybeConvert_eq_self_iff (rawFrame_valid hraw) mask).mpr ?_
    obtain ⟨t, htexture, rfl⟩ := Option.map_eq_some_iff.mp hraw
    obtain ⟨f, hf, rfl⟩ := Option.map_eq_some_iff.mp htexture
    exact h f (List.mem_of_getElem? hf)
  · intro h f hf
    obtain ⟨idx, raw, hraw, hformat, hwidth, hheight⟩ := exists_rawFrame hf
    have halone := (maybeConvert_eq_self_iff (rawFrame_valid hraw) mask).mp (h idx raw hraw)
    rwa [hformat, hwidth, hheight] at halone

theorem Accepts.cachedRaw (h : img.Accepts mask) (loopAnimation : Bool) :
    converted mask (img.cachedRaw loopAnimation).2 = .ok (img.cachedRaw loopAnimation).2 := by
  rcases img.cachedRaw_cases loopAnimation with ⟨idx, raw, -, hraw, hc⟩ | ⟨_, -, -, hc⟩ | hc
  · simp only [hc, converted, accepts_iff.mp h idx raw hraw, ok_bind]
    rfl
  · rw [hc]
    rfl
  · rw [hc]
    rfl

theorem Accepts.converts (hraster : img.rerender = none) (h : img.Accepts mask) :
    img.Converts mask := by
  intro calls
  induction calls generalizing img with
  | nil =>
    intro last answers hrun
    obtain ⟨rfl, rfl⟩ := replay_nil_eq_ok.mp hrun
    exact ⟨[], rfl, .nil⟩
  | cons c calls ih =>
    intro last answers hrun
    obtain ⟨img', answer, rest, hstep, hrest, rfl⟩ := replay_cons_eq_ok.mp hrun
    rw [specificFrame_of_raster hraster, Except.ok.injEq] at hstep
    obtain ⟨hinner, hrerender, -⟩ :=
      img.cachedRaw_rerender ((c.request.map FrameRequest.loopAnimation).getD true)
    have hconverted := h.cachedRaw ((c.request.map FrameRequest.loopAnimation).getD true)
    rw [hstep] at hinner hrerender hconverted
    have haccepts : img'.Accepts mask := by
      rw [Accepts, hinner]
      exact h
    obtain ⟨es, hes, hall⟩ := ih (hrerender.trans hraster) haccepts last rest hrest
    exact ⟨answer :: es, replay_cons_eq_ok.mpr
      ⟨img', answer, es, by rw [engineFrame_of_raster hraster, hstep], hes, rfl⟩,
      .cons hconverted hall⟩

/-- Honouring a mask over all sequences is kept by every call. -/
theorem Converts.step {c : Call} {answer : Except GError FrameState} (h : img.Converts mask)
    (hstep : img.specificFrame c.host c.request = .ok (img', answer)) : img'.Converts mask := by
  intro calls last answers hrun
  obtain ⟨engine, hengine, hall⟩ := h (c :: calls) last (answer :: answers)
    (replay_cons_eq_ok.mpr ⟨img', answer, answers, hstep, hrun, rfl⟩)
  obtain ⟨img'', e, es, he, hes, rfl⟩ := replay_cons_eq_ok.mp hengine
  obtain ⟨e', he', -⟩ := specificFrame_ok hstep
  rw [he', Except.ok.injEq, Prod.mk.injEq] at he
  obtain ⟨rfl, rfl⟩ := he
  cases hall with
  | cons _ hall => exact ⟨es, hes, hall⟩

/-- The cursor passes every frame, so a raster image that honours `mask` has only
frames that need no conversion. -/
theorem Converts.accepts_from {idx : Nat} {raw : RawFrame} {n : Nat} (host : Host)
    (hraster : img.rerender = none) (h : img.Converts mask)
    (hcursor : img.cursor + n = idx) (hcount : idx < img.frameCount)
    (hraw : rawFrame img.inner idx = some raw) : maybeConvert raw mask = .ok raw := by
  induction n generalizing img with
  | zero =>
    obtain rfl : img.cursor = idx := hcursor
    have hcached := cachedRaw_of_lt hcount hraw true
    have hcall : img.frames [⟨host, none⟩] =
        .ok ({ img with cursor := img.cursor + 1 }, [.ok ⟨raw, img.inner.cicp⟩]) :=
      replay_cons_eq_ok.mpr ⟨_, _, [], (specificFrame_of_raster hraster host none).trans
        (congrArg _ hcached), rfl, rfl⟩
    obtain ⟨engine, hengine, hall⟩ := h _ _ _ hcall
    obtain ⟨img'', e, es, he, -, rfl⟩ := replay_cons_eq_ok.mp hengine
    have he : (img'', e) = ({ img with cursor := img.cursor + 1 }, .ok ⟨raw, img.inner.cicp⟩) :=
      (Except.ok.inj (he.symm.trans (engineFrame_of_raster hraster host none))).trans hcached
    obtain ⟨-, rfl⟩ := Prod.mk.inj he
    cases hall with
    | cons hconverted _ =>
      obtain ⟨raw', hraw', hconverted⟩ := bind_eq_ok.mp hconverted
      cases hconverted
      exact hraw'
  | succ n ih =>
    have hnext : img.specificFrame host none =
        .ok ({ img with cursor := img.cursor + 1 }, (img.cachedRaw true).2) := by
      rw [specificFrame_of_raster hraster, ← cachedRaw_cursor_of_lt (by omega) true]
      rfl
    have hmoved : Converts { img with cursor := img.cursor + 1 } mask :=
      h.step (c := ⟨host, none⟩) hnext
    have hstill : ImageState.rerender { img with cursor := img.cursor + 1 } = none := hraster
    exact ih hstill hmoved (by dsimp only; omega) hcount hraw

end ImageState

/-- Of an image loaded after a caller recorded the mask, every frame any
sequence of calls returns is converted under it, exactly when the image is an
SVG or none of its frames needs a conversion. -/
theorem accepted_formats_iff (host : Host) (loader loader' : LoaderState) (mask : UInt32)
    (img : ImageState)
    (h : (loader.setAcceptedMemoryFormats mask).load host = .ok (loader', .ok img)) :
    img.Converts mask ↔
      (img.inner.formatName = "svg" ∧ loader.sourceBytes.isSome = true) ∨ img.Accepts mask := by
  obtain ⟨image, rfl⟩ := LoaderState.load_ok h
  have hsome := ImageState.rerender_isSome_iff (loader.setAcceptedMemoryFormats mask) image
  cases hre : (ImageState.new (loader.setAcceptedMemoryFormats mask) image).rerender with
  | some rerender =>
    rw [hre] at hsome
    refine iff_of_true ?_ (.inl (hsome.mp rfl))
    have haccepted : (ImageState.new (loader.setAcceptedMemoryFormats mask) image).accepted =
        mask := by
      rw [ImageState.accepted, hre]
      rw [ImageState.new] at hre
      obtain ⟨bytes, -, hre⟩ := Option.bind_eq_some_iff.mp hre
      split at hre <;> cases hre
      rfl
    have hconverts := ImageState.converts_accepted
      (.new (loader.setAcceptedMemoryFormats mask) image)
    rwa [haccepted] at hconverts
  | none =>
    rw [hre] at hsome
    have hsvg : ¬ (image.formatName = "svg" ∧ loader.sourceBytes.isSome = true) := by
      intro hsvg
      exact absurd (hsome.mpr hsvg) (by decide)
    constructor
    · intro hconverts
      right
      rw [ImageState.accepts_iff]
      intro idx raw hraw
      have hidx : idx < image.frames.length := by
        obtain ⟨texture, htexture, -⟩ := Option.map_eq_some_iff.mp hraw
        obtain ⟨frame, hframe, -⟩ := Option.map_eq_some_iff.mp htexture
        exact (List.getElem?_eq_some_iff.mp hframe).1
      exact hconverts.accepts_from (n := idx) host hre (Nat.zero_add idx) hidx hraw
    · intro hcondition
      rcases hcondition with hsvg' | haccepts
      · exact absurd hsvg' hsvg
      · exact haccepts.converts hre

/-- A PNG file of one grey pixel. -/
def greyPixel : Codecs :=
  { Codecs.failing with
    png := fun _ _ => .ok {
      outputColorType := (.grayscale, .eight)
      width := 1
      height := 1
      animationControl := none
      iccProfile := none
      exifMetadata := none
      outputBufferSize := fun _ => some 1
      nextFrame := fun _ => .ok (⟨1, 1, 1⟩, [7])
      frameControl := fun _ => none
      uncompressedLatin1Text := []
      compressedLatin1Text := []
      utf8Text := []
      codingIndependentCodePoints := none } }

/-- The file as the shim gets it: the signature is enough to choose the codec. -/
def greyLoader : LoaderState :=
  .newFromBytes [0x89, 0x50, 0x4e, 0x47, 0x0d, 0x0a, 0x1a, 0x0a]

/-- The bit of R8G8B8A8 in a selection. -/
def selectR8g8b8a8 : UInt32 := 32

theorem accepted_formats_iff_greyPixel :
    ∃ loader' img, (greyLoader.setAcceptedMemoryFormats selectR8g8b8a8).load (.plain greyPixel) =
        .ok (loader', .ok img) ∧
      (img.Converts selectR8g8b8a8 ↔
        (img.inner.formatName = "svg" ∧ greyLoader.sourceBytes.isSome = true) ∨
          img.Accepts selectR8g8b8a8) :=
  ⟨_, _, rfl, accepted_formats_iff (.plain greyPixel) greyLoader _ selectR8g8b8a8 _ rfl⟩

/-- The grey frame is handed out as it is, although it could be converted. -/
theorem greyPixel_not_converted :
    ∃ loader' img, (greyLoader.setAcceptedMemoryFormats selectR8g8b8a8).load (.plain greyPixel) =
        .ok (loader', .ok img) ∧
      (∃ last, img.frames [⟨.plain greyPixel, none⟩] =
        .ok (last, [.ok ⟨⟨1, 1, 1, formatG8, [7], 0⟩, none⟩])) ∧
      maybeConvert ⟨1, 1, 1, formatG8, [7], 0⟩ selectR8g8b8a8 =
        .ok ⟨1, 1, 4, formatR8g8b8a8, [7, 7, 7, 255], 0⟩ ∧
      ¬ img.Converts selectR8g8b8a8 := by
  have hconvert : maybeConvert ⟨1, 1, 1, formatG8, [7], 0⟩ selectR8g8b8a8 =
      .ok ⟨1, 1, 4, formatR8g8b8a8, [7, 7, 7, 255], 0⟩ := by decide +kernel
  refine ⟨_, _, rfl, ⟨_, rfl⟩, hconvert, ?_⟩
  intro hconverts
  have hraw := hconverts.accepts_from (n := 0) (.plain greyPixel) rfl rfl Nat.one_pos rfl
  exact absurd (hconvert.symm.trans hraw) (by decide)

end GlycinNg.Shim
