import GlycinNg.Shim.Bounds

/-! # SVG at the size that is asked for

A frame request may name a size. For an SVG the shim then decodes the bytes again at that
size, and falls back on the frame it has when it cannot. `frame_is_drawn` says what a frame
of an SVG shows: what the renderer draws from the bytes of the loader, at exactly the size
asked for where a new decode was needed and returned, else at the size of the image. -/
namespace GlycinNg.Shim
open Rust CApi

/-! ## What the renderer draws -/

/-- The picture of a render, as the engine hands it to the shim. -/
def drawnRaw (size : UInt32 × UInt32) (pixmap : List Svg.Pixel) : RawFrame where
  width := size.1
  height := size.2
  stride := size.1 * 4
  format := formatR8g8b8a8
  data := (Svg.picture size pixmap).data
  delayMs := 0

/-- What the renderer draws from the bytes at a size. -/
def Draws (svg : Svg.Crate) (bytes : Bytes) (size : UInt32 × UInt32) (raw : RawFrame) : Prop :=
  ∃ tree pixmap, svg.tree bytes = .ok tree ∧ tree.pixmap size.1 size.2 = some pixmap ∧
    raw = drawnRaw size pixmap

/-- The image is one render of the size. -/
structure Drawing (svg : Svg.Crate) (bytes : Bytes) (size : UInt32 × UInt32) (img : Image) :
    Prop where
  width : img.width = size.1
  height : img.height = size.2
  count : img.frames.length = 1
  cicp : img.cicp = none
  drawn : ∃ raw, rawFrame img 0 = some raw ∧ Draws svg bytes size raw
  short : size.1.toNat ≤ maxSide

theorem picture_of_delivery {p q : Picture} (h : p.delivery = q.delivery) : p = q := by
  have hshots := congrArg Delivery.shots h
  exact congrArg Shot.picture (List.head_eq_of_cons_eq hshots)

/-- The engine's image of a picture. -/
theorem rawFrame_drawn {size : UInt32 × UInt32} {pixmap : List Svg.Pixel} {img : Image}
    (h : img.Carries (Svg.picture size pixmap).delivery) :
    rawFrame img 0 = some (drawnRaw size pixmap) := by
  obtain ⟨-, -, -, hframes⟩ := h
  obtain ⟨f, rest, hf, -, heq⟩ := List.forall₂_cons_left_iff.mp hframes
  obtain ⟨hw, hh, hformat, hstride, hdata⟩ := hf.texture
  have hdelay : imageFrameDelayMs img 0 = 0 := by
    rw [imageFrameDelayMs, heq, List.getElem?_cons_zero, Option.bind_some, hf.delay]
  have htexture : imageTexture img 0 = some f.texture := by
    rw [imageTexture, heq]
    rfl
  have hrow : f.texture.stride = size.1 * 4 := by
    rw [← UInt32.toNat_inj, UInt32.toNat_mul, hstride, Nat.mod_eq_of_lt]
    · rfl
    · have hlt := f.texture.stride.toNat_lt
      rwa [hstride] at hlt
  rw [rawFrame, htexture, Option.map_some, hdelay, hw, hh, hdata, hrow, textureFormat, hformat]
  rfl

theorem Svg.decode_drawing {svg : Svg.Crate} {bytes : Bytes} {opts : DecodeOptions} {img : Image}
    (hlimits : opts.limits = .default) (h : (Svg.decode svg bytes opts).result = .ok img) :
    ∃ tree, svg.tree bytes = .ok tree ∧ Drawing svg bytes (tree.size opts) img := by
  obtain ⟨tree, p, htree, hdelivery, hfits, hcarries⟩ := Svg.decode_ok h
  obtain ⟨pixmap, hpixmap, hpicture⟩ := Option.map_eq_some_iff.mp hdelivery
  obtain rfl := picture_of_delivery hpicture
  rw [hlimits] at hfits
  exact ⟨tree, htree, {
    width := hcarries.width
    height := hcarries.height
    count := hcarries.length_eq
    cicp := (Svg.decode_plain svg img h).cicp
    drawn := ⟨_, rawFrame_drawn hcarries, tree, pixmap, htree, hpixmap, rfl⟩
    short := short_of_le hfits.1 }⟩

/-! ## What the engine loads -/

section
variable {bytes : Bytes} {apply : Bool} {size : Option (UInt32 × UInt32)} {host : Host}
  {img : Image}

theorem engineLoader_chooseFormat (bytes : Bytes) (apply : Bool)
    (size : Option (UInt32 × UInt32)) :
    (engineLoader bytes apply size).chooseFormat bytes = Sniff.detect bytes := by
  rw [Loader.chooseFormat]
  simp [engineLoader, Loader.newBytes, Loader.new]

/-- The signature of the bytes decides whether they are an SVG. -/
theorem detect_svg_iff (h : (engineLoader bytes apply size).load host = .ok (.ok img)) :
    img.formatName = "svg" ↔ Sniff.detect bytes = some .svg := by
  obtain ⟨read, format, hread, hformat, hname⟩ := Loader.load_named h
  cases hread
  rw [engineLoader_chooseFormat] at hformat
  rw [hname, hformat, Option.some.injEq]
  constructor
  · intro hsvg
    exact KnownFormat.name_injective hsvg
  · rintro rfl
    rfl

/-- An SVG comes out of the engine as it was drawn: there is no orientation in it. -/
theorem engine_drawing (h : (engineLoader bytes apply size).load host = .ok (.ok img))
    (hsvg : Sniff.detect bytes = some .svg) :
    ∃ tree, host.codecs.svg.tree bytes = .ok tree ∧
      Drawing host.codecs.svg bytes (tree.size (engineLoader bytes apply size).options) img := by
  obtain ⟨base, posture, oriented, hdecoded, horiented, rfl⟩ := Loader.load_ok h
  obtain ⟨read, format, hread, hformat, hdispatch⟩ := Loader.decoded_ok hdecoded
  cases hread
  rw [engineLoader_chooseFormat, hsvg] at hformat
  obtain rfl := Option.some.inj hformat
  have hexif := (dispatch_plain host.codecs (by decide) (by decide) base hdispatch).exif
  have hnormal : Metadata.exifOrientation base = .normal := by
    rw [Metadata.exifOrientation, hexif]
  rw [Metadata.apply_normal hnormal, Except.ok.injEq] at horiented
  subst horiented
  obtain ⟨tree, htree, hdrawing⟩ := Svg.decode_drawing rfl hdispatch
  exact ⟨tree, htree, hdrawing.width, hdrawing.height, hdrawing.count, hdrawing.cicp,
    hdrawing.drawn, hdrawing.short⟩

/-- With a size that is not empty, at that size. -/
theorem engine_drawing_sized {sw sh : UInt32}
    (h : (engineLoader bytes apply (some (sw, sh))).load host = .ok (.ok img))
    (hsvg : Sniff.detect bytes = some .svg) (hw : sw > 0) (hh : sh > 0) :
    Drawing host.codecs.svg bytes (sw, sh) img := by
  obtain ⟨tree, -, hdrawing⟩ := engine_drawing h hsvg
  have hmax : ∀ n : UInt32, n > 0 → max n 1 = n := by
    intro n hn
    show (if n ≤ 1 then 1 else n) = n
    split
    · have h1 : (1 : UInt32) ≤ n := UInt32.le_iff_toNat_le.mpr (UInt32.lt_iff_toNat_lt.mp hn)
      exact UInt32.le_antisymm h1 ‹n ≤ 1›
    · rfl
  have hsize : tree.size (engineLoader bytes apply (some (sw, sh))).options = (sw, sh) := by
    show (max sw 1, max sh 1) = _
    rw [hmax sw hw, hmax sh hh]
  rwa [hsize] at hdrawing

end

/-! ## What the shim hands out -/

/-- The frame is the renderer's picture of the bytes at the size, converted for the client. -/
structure DrawnAt (svg : Svg.Crate) (bytes : Bytes) (mask : UInt32) (size : UInt32 × UInt32)
    (f : FrameState) : Prop where
  width : f.frame.width = size.1
  height : f.frame.height = size.2
  drawn : ∃ raw, Draws svg bytes size raw ∧ maybeConvert raw mask = .ok f.frame
  cicp : f.cicp = none

theorem Drawing.drawnAt {svg : Svg.Crate} {bytes : Bytes} {size : UInt32 × UInt32} {img : Image}
    (h : Drawing svg bytes size img) {raw : RawFrame} (hraw : rawFrame img 0 = some raw)
    {mask : UInt32} {f : FrameState}
    (hf : converted mask (.ok ⟨raw, img.cicp⟩) = .ok (.ok f)) :
    DrawnAt svg bytes mask size f := by
  obtain ⟨_, hraw', hdraws⟩ := h.drawn
  obtain rfl := Option.some.inj (hraw'.symm.trans hraw)
  obtain ⟨out, hout, hf⟩ := bind_eq_ok.mp hf
  cases hf
  obtain ⟨tree, pixmap, htree, hpixmap, rfl⟩ := hdraws
  have hvalid := rawFrame_valid hraw
  have hsized : (drawnRaw size pixmap).Sized := ⟨hvalid.row_le, hvalid.data_length, h.short⟩
  have hsame : out.width = size.1 ∧ out.height = size.2 := by
    rw [maybeConvert_eq hsized, Except.ok.injEq] at hout
    subst hout
    cases (drawnRaw size pixmap).conversionTarget mask <;> exact ⟨rfl, rfl⟩
  exact ⟨hsame.1, hsame.2, ⟨_, ⟨tree, pixmap, htree, hpixmap, rfl⟩, hout⟩, h.cicp⟩

/-- The one cached frame of an SVG: at once, again for a client that loops, then no more. -/
theorem Drawing.cachedRaw {svg : Svg.Crate} {bytes : Bytes} {size : UInt32 × UInt32}
    {img : ImageState} (h : Drawing svg bytes size img.inner)
    (hcount : img.frameCount = img.inner.frames.length) {raw : RawFrame}
    (hraw : rawFrame img.inner 0 = some raw) (loopAnimation : Bool) :
    img.cachedRaw loopAnimation =
      if img.cursor = 0 ∨ loopAnimation = true then
        ({ img with cursor := 1 }, .ok ⟨raw, img.inner.cicp⟩)
      else (img, .error (.new 2 "no more frames")) := by
  rw [h.count] at hcount
  by_cases hzero : img.cursor = 0
  · have hlt : img.cursor < img.frameCount := by omega
    have hfound : rawFrame img.inner img.cursor = some raw := by rw [hzero, hraw]
    rw [ImageState.cachedRaw_of_lt hlt hfound, if_pos (.inl hzero), hzero]
  · have hle : img.frameCount ≤ img.cursor := by omega
    cases loopAnimation with
    | true =>
      have hnext : img.advance true = (some 0, { img with cursor := 1 }) := by
        rw [ImageState.advance, if_neg (by omega), if_pos hle, if_pos rfl]
      rw [ImageState.cachedRaw, hnext, if_pos (.inr rfl)]
      simp only [hraw]
    | false =>
      rw [ImageState.cachedRaw, ImageState.advance_of_le hle, if_neg (by simp [hzero])]

/-- The loop flag of a request; NULL loops. -/
def Call.loops (c : Call) : Bool := (c.request.map FrameRequest.loopAnimation).getD true

/-- A call asks for a size that is not empty. -/
def Call.Asks (c : Call) (size : UInt32 × UInt32) : Prop :=
  c.request.bind FrameRequest.scale = some size ∧ size.1 > 0 ∧ size.2 > 0

/-- What a call is answered from the cached frame of an SVG. -/
inductive CachedAnswer (world : Host → Prop) (bytes : Bytes) (img : ImageState) (c : Call) :
    ImageState → Except GError FrameState → Prop where
  | frame {host : Host} {f : FrameState} (hhost : world host)
    (hopen : img.cursor = 0 ∨ c.loops = true)
    (hdrawn : DrawnAt host.codecs.svg bytes img.accepted (img.inner.width, img.inner.height) f) :
    CachedAnswer world bytes img c { img with cursor := 1 } (.ok f)
  | stop (hclosed : ¬ (img.cursor = 0 ∨ c.loops = true)) :
    CachedAnswer world bytes img c img (.error (.new 2 "no more frames"))

/-- What a call is answered on an SVG: the picture at the size asked for, with the image as
it was; or, where there is no such size, or it is that of the image, or the bytes cannot be
decoded at it, the cached picture. -/
inductive SvgAnswer (world : Host → Prop) (bytes : Bytes) (img : ImageState) (c : Call) :
    ImageState → Except GError FrameState → Prop where
  | rendered {size : UInt32 × UInt32} {f : FrameState} (hasks : c.Asks size)
    (hdrawn : DrawnAt c.host.codecs.svg bytes img.accepted size f) :
    SvgAnswer world bytes img c img (.ok f)
  | cached {img' : ImageState} {answer : Except GError FrameState}
    (hvain : ∀ size, c.Asks size → size = (img.inner.width, img.inner.height) ∨
      ∃ apply e, (engineLoader bytes apply (some size)).load c.host = .ok (.error e))
    (hcached : CachedAnswer world bytes img c img' answer) :
    SvgAnswer world bytes img c img' answer

section
variable {world : Host → Prop} {bytes : Bytes} {img : ImageState}

/-- The image behind the view of an SVG is a render of its size. -/
theorem Backed.drawing (h : Backed world bytes img) (hsvg : img.inner.formatName = "svg") :
    Sniff.detect bytes = some .svg ∧ ∃ host, world host ∧
      Drawing host.codecs.svg bytes (img.inner.width, img.inner.height) img.inner := by
  obtain ⟨apply, host, hhost, hload⟩ := h.decoded
  have hdetect := (detect_svg_iff hload).mp hsvg
  obtain ⟨tree, -, hdrawing⟩ := engine_drawing hload hdetect
  have hsize : tree.size (engineLoader bytes apply none).options =
      (img.inner.width, img.inner.height) := Prod.ext hdrawing.width.symm hdrawing.height.symm
  exact ⟨hdetect, host, hhost, hsize ▸ hdrawing⟩

/-- Nothing comes of a new decode only where the size was asked for in vain. -/
theorem Backed.vain_of_none (h : Backed world bytes img) (hsvg : img.inner.formatName = "svg")
    {c : Call} (hnone : img.rerendered c.host c.request = .ok none) :
    ∀ size, c.Asks size → size = (img.inner.width, img.inner.height) ∨
      ∃ apply e, (engineLoader bytes apply (some size)).load c.host = .ok (.error e) := by
  rintro ⟨sw, sh⟩ ⟨hscale, hw, hh⟩
  by_cases hsame : sw = img.inner.width ∧ sh = img.inner.height
  · exact .inl (Prod.ext hsame.1 hsame.2)
  · obtain ⟨r, hr⟩ := Option.isSome_iff_exists.mp (h.rescalable.mpr hsvg)
    obtain ⟨rfl, hlimits⟩ := h.rerender r hr
    have hsize : img.rerenderSize c.request = some (r, sw, sh) :=
      ImageState.rerenderSize_eq_some.mpr ⟨hr, hscale, hw, hh, not_and_or.mp hsame⟩
    rw [ImageState.rerendered, hsize] at hnone
    dsimp only at hnone
    rw [rerender_loader hlimits] at hnone
    obtain ⟨answer, hanswer, hnone⟩ := bind_eq_ok.mp hnone
    cases answer with
    | ok image => cases hnone
    | error message =>
      refine .inr ⟨r.applyTransformations, ?_⟩
      obtain ⟨loaded, hloaded, hmessage⟩ := bind_eq_ok.mp hanswer
      cases loaded with
      | ok image => cases hmessage
      | error e => exact ⟨e, hloaded⟩

/-- A new decode draws the bytes at the size asked for. -/
theorem Backed.rendered (h : Backed world bytes img) (hsvg : img.inner.formatName = "svg")
    {c : Call} {newImage : Image} (hsome : img.rerendered c.host c.request = .ok (some newImage)) :
    ∃ size, c.Asks size ∧ Drawing c.host.codecs.svg bytes size newImage := by
  obtain ⟨r, sw, sh, hsize, hload⟩ := ImageState.rerendered_eq_some.mp hsome
  obtain ⟨hr, hscale, hw, hh, -⟩ := ImageState.rerenderSize_eq_some.mp hsize
  obtain ⟨rfl, hlimits⟩ := h.rerender r hr
  rw [rerender_loader hlimits] at hload
  exact ⟨(sw, sh), ⟨hscale, hw, hh⟩, engine_drawing_sized hload (h.drawing hsvg).1 hw hh⟩

theorem Backed.cachedAnswer (h : Backed world bytes img) (hsvg : img.inner.formatName = "svg")
    {c : Call} {answer : Except GError FrameState}
    (hanswer : converted img.accepted (img.cachedRaw c.loops).2 = .ok answer) :
    CachedAnswer world bytes img c (img.cachedRaw c.loops).1 answer := by
  obtain ⟨-, host, hhost, hdrawing⟩ := h.drawing hsvg
  obtain ⟨raw, hraw, -⟩ := hdrawing.drawn
  rw [hdrawing.cachedRaw h.count hraw] at hanswer ⊢
  by_cases hopen : img.cursor = 0 ∨ c.loops = true
  · rw [if_pos hopen] at hanswer ⊢
    obtain ⟨out, hout, hconverted⟩ := bind_eq_ok.mp hanswer
    cases hconverted
    exact .frame hhost hopen (hdrawing.drawnAt hraw hanswer)
  · rw [if_neg hopen] at hanswer ⊢
    cases hanswer
    exact .stop hopen

end

/-- Every answer about an SVG is drawn from the bytes of its loader; every other image answers
with its cached frames, whatever size is asked for and whatever the world answers now. -/
theorem frame_is_drawn (world : Host → Prop) (bytes : Bytes) (img : ImageState)
    (h : Viewing world bytes img) (c : Call) (img' : ImageState)
    (answer : Except GError FrameState)
    (hcall : img.specificFrame c.host c.request = .ok (img', answer)) :
    (img.inner.formatName = "svg" → SvgAnswer world bytes img c img' answer) ∧
      (img.inner.formatName ≠ "svg" → (img', answer) = img.cachedRaw c.loops) := by
  have hbacked := h.backed
  constructor
  · intro hsvg
    obtain ⟨engine, hengine, hanswer⟩ := ImageState.specificFrame_ok hcall
    rw [ImageState.engineFrame] at hengine
    obtain ⟨rerendered, hrerendered, hengine⟩ := bind_eq_ok.mp hengine
    cases rerendered with
    | none =>
      have hpair : img.cachedRaw c.loops = (img', engine) := Except.ok.inj hengine
      obtain ⟨rfl, rfl⟩ := Prod.mk.inj hpair
      exact .cached (hbacked.vain_of_none hsvg hrerendered) (hbacked.cachedAnswer hsvg hanswer)
    | some newImage =>
      obtain ⟨size, hasks, hdrawing⟩ := hbacked.rendered hsvg hrerendered
      obtain ⟨raw, hraw, -⟩ := hdrawing.drawn
      simp only [Option.bind_some, hraw, Option.map_some] at hengine
      cases hengine
      obtain ⟨out, hout, hconverted⟩ := bind_eq_ok.mp hanswer
      cases hconverted
      exact .rendered hasks (hdrawing.drawnAt hraw hanswer)
  · intro hraster
    have hnone : img.rerender = none := by
      rw [← Option.not_isSome_iff_eq_none]
      exact mt hbacked.rescalable.mp hraster
    rw [ImageState.specificFrame_of_raster hnone, Except.ok.injEq] at hcall
    exact hcall.symm

theorem frame_is_drawn_blackSvg :
    ∃ s' img img' answer, blackLoader.load (.plain blackSvg) = .ok (s', .ok img) ∧
      img.specificFrame (.plain blackSvg) blackDoubled.request = .ok (img', answer) ∧
      SvgAnswer (· = .plain blackSvg) (ascii "<svg>") img blackDoubled img' answer :=
  ⟨_, _, _, _, rfl, rfl,
    (frame_is_drawn (· = .plain blackSvg) (ascii "<svg>") _ (.loaded .new rfl rfl) blackDoubled
      _ _ rfl).1 rfl⟩

end GlycinNg.Shim
