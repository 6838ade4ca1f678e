import GlycinNg.Formats.Caps
import GlycinNg.Shim.Frames

/-! # Frame delays of the shim

A delay is kept by the decoders in microseconds or finer, leaves the engine in
whole milliseconds and is handed out by the shim in microseconds again.
`frame_delay_iff` says which delays survive the way. -/
namespace GlycinNg

/-- `Frame::delay().as_micros()`, 0 without a delay. -/
def Frame.delayMicros (f : Frame) : Nat := f.delay.elim 0 Rust.Duration.asMicros

/-- The delay is a whole number of milliseconds and fits an `i64` of microseconds. -/
def Frame.WholeMillis (f : Frame) : Prop :=
  f.delayMicros % 1000 = 0 ∧ f.delayMicros ≤ Rust.i64Max

/-! ## The delays of the decoders -/

/-- Frames whose delays are `u32` numbers of milliseconds all pass. -/
theorem Image.Carries.wholeMillis {img : Image} {d : Delivery} (h : img.Carries d)
    (hmillis : d.InMillis) : ∀ f ∈ img.frames, f.WholeMillis := by
  intro f hf
  obtain ⟨s, hs, hdelay⟩ := List.mem_map.mp (h.delays_eq ▸ List.mem_map_of_mem hf)
  have hmax : Rust.i64Max = 2 ^ 63 - 1 := rfl
  unfold Frame.WholeMillis Frame.delayMicros
  rw [← hdelay]
  cases ht : s.delay with
  | none => exact ⟨rfl, Nat.zero_le _⟩
  | some t =>
    obtain ⟨ms, hms, rfl⟩ := hmillis s hs t ht
    have hmicros : (Rust.Duration.fromMillis ms).asMicros = 1000 * ms.toNat := by
      simp only [Rust.Duration.asMicros, Rust.Duration.fromMillis]
      omega
    rw [Option.elim_some, hmicros]
    omega

/-- GIF and WebP count in centiseconds and milliseconds, and the formats of one
picture have no delay: only PNG and JPEG XL produce delays that do not pass. -/
theorem wholeMillis_of_dispatch {c : Codecs} {format : KnownFormat} {bytes : Rust.Bytes}
    {opts : DecodeOptions} {img : Image} (hpng : format ≠ .png) (hjxl : format ≠ .jxl)
    (h : (dispatch c format bytes opts).result = .ok img) : ∀ f ∈ img.frames, f.WholeMillis := by
  obtain ⟨d, hd, hcarries, haccepted⟩ := dispatch_ok h
  apply hcarries.wholeMillis
  cases haccepted with
  | still =>
    intro s hs t ht
    cases List.mem_singleton.mp hs
    cases ht
  | png => exact absurd rfl hpng
  | canvas hformat =>
    rcases hformat with rfl | rfl
    · obtain ⟨decoder, -, hdecoder⟩ := Option.bind_eq_some_iff.mp hd
      exact WebP.inMillis hdecoder
    · exact absurd rfl hjxl
  | gif =>
    obtain ⟨decoder, -, hdecoder⟩ := Option.bind_eq_some_iff.mp hd
    exact Gif.inMillis hdecoder

/-- An `fcTL` delay of `num/den` seconds passes when it is a whole number of
milliseconds once it has been cut to microseconds; a `den` of 0 stands for 100. -/
theorem Png.wholeMillis_iff {f : Frame} {fc : Png.FrameControl} (h : f.delay = some fc.delay) :
    f.WholeMillis ↔
      fc.delayNum.toNat * 1000000 /
        (if fc.delayDen = 0 then 100 else fc.delayDen.toNat) % 1000 = 0 := by
  have hnum := fc.delayNum.toNat_lt
  have hmax : Rust.i64Max = 2 ^ 63 - 1 := rfl
  have hmicros : f.delayMicros =
      fc.delayNum.toNat * 1000000 / (if fc.delayDen = 0 then 100 else fc.delayDen.toNat) := by
    have hmul : (Rust.u64SaturatingMul fc.delayNum.toUInt64 1000000).toNat =
        fc.delayNum.toNat * 1000000 := by
      have hlt : fc.delayNum.toUInt64.toNat * (1000000 : UInt64).toNat < 2 ^ 64 := by
        rw [UInt16.toNat_toUInt64, show (1000000 : UInt64).toNat = 1000000 from rfl]
        omega
      rw [Rust.u64SaturatingMul, if_pos hlt, UInt64.toNat_mul, Nat.mod_eq_of_lt hlt]
      rfl
    have hden : fc.delayDen.toUInt64 = 0 ↔ fc.delayDen = 0 := by
      rw [← UInt64.toNat_inj, ← UInt16.toNat_inj, UInt16.toNat_toUInt64]
      rfl
    rw [Frame.delayMicros, h, Option.elim_some, Rust.Duration.asMicros, Png.FrameControl.delay]
    simp only [Rust.Duration.fromMicros, UInt64.toNat_div, hmul, hden]
    rw [Nat.mul_div_cancel_left _ (by decide)]
    split <;> rfl
  have hle := Nat.div_le_self (fc.delayNum.toNat * 1000000)
    (if fc.delayDen = 0 then 100 else fc.delayDen.toNat)
  unfold Frame.WholeMillis
  rw [hmicros]
  omega

namespace Shim
open Rust CApi

/-- `gly_frame_get_delay`: microseconds. -/
def frameGetDelay (f : FrameState) : Int := i64SaturatingMul (u64AsI64 f.frame.delayMs) 1000

/-! ## The unit conversions -/

/-- Milliseconds cut from `n` microseconds and widened again are `n` exactly when
nothing was cut off and nothing saturates. -/
theorem micros_through_millis_iff (n : Nat) :
    i64SaturatingMul (u64AsI64 (UInt64.ofNat (n / 1000))) 1000 = n ↔
      n % 1000 = 0 ∧ n ≤ i64Max := by
  unfold i64SaturatingMul u64AsI64
  rw [UInt64.toNat_ofNat']
  have hmax : i64Max = 2 ^ 63 - 1 := rfl
  by_cases h : n / 1000 % 2 ^ 64 ≤ i64Max
  · rw [if_pos h]
    omega
  · rw [if_neg h]
    omega

/-- What the C ABI reports for a frame. -/
theorem imageFrameDelayMs_eq {image : Image} {index : Nat} {f : Frame}
    (h : image.frames[index]? = some f) :
    imageFrameDelayMs image index = UInt64.ofNat (f.delayMicros / 1000) := by
  unfold imageFrameDelayMs Frame.delayMicros
  rw [h, Option.bind_some]
  cases f.delay with
  | none => rfl
  | some d =>
    simp only [Option.elim_some, Duration.asMillis, Duration.asMicros, Nat.div_div_eq_div_mul]

/-! ## Conversions keep the delay -/

theorem convertLayout_delayMs {src out : RawFrame} {target : UInt32}
    (h : convertLayout src target = .ok (some out)) : out.delayMs = src.delayMs := by
  unfold convertLayout at h
  dsimp only at h
  split at h
  · cases h
  split at h
  · cases h
  · obtain ⟨data, -, h⟩ := bind_eq_ok.mp h
    cases data with
    | none => cases h
    | some data =>
      cases h
      rfl

theorem maybeConvert_delayMs {frame out : RawFrame} {mask : UInt32}
    (h : maybeConvert frame mask = .ok out) : out.delayMs = frame.delayMs := by
  unfold maybeConvert at h
  split at h
  · cases h
    rfl
  split at h
  · cases h
    rfl
  split at h
  · cases h
    rfl
  split at h
  · cases h
    rfl
  · obtain ⟨converted, hconverted, h⟩ := bind_eq_ok.mp h
    cases h
    cases converted with
    | none => rfl
    | some converted => exact convertLayout_delayMs hconverted

/-! ## The frame behind an answer -/

/-- The frame of the engine a call is about: the first frame of the new decode
if the image is rendered again, else the one at the cursor. -/
def ImageState.sourceFrame (host : Host) (img : ImageState) (request : Option FrameRequest) :
    Checked (Option Frame) := do
  let loopAnimation := (request.map FrameRequest.loopAnimation).getD true
  let rerendered ← img.rerendered host request
  match rerendered.bind Image.firstFrame with
  | some f => return some f
  | none => return (img.advance loopAnimation).1.bind fun idx => img.inner.frames[idx]?

/-- A frame of the engine carries the delay of its frame, in milliseconds. -/
theorem rawFrame_some {image : Image} {index : Nat} {raw : RawFrame}
    (h : rawFrame image index = some raw) :
    ∃ f, image.frames[index]? = some f ∧ raw.delayMs = UInt64.ofNat (f.delayMicros / 1000) := by
  obtain ⟨t, ht, rfl⟩ := Option.map_eq_some_iff.mp h
  obtain ⟨f, hf, -⟩ := Option.map_eq_some_iff.mp ht
  exact ⟨f, hf, imageFrameDelayMs_eq hf⟩

theorem rawFrame_none {image : Image} (h : rawFrame image 0 = none) : image.firstFrame = none := by
  have ht := Option.map_eq_none_iff.mp h
  have hf := Option.map_eq_none_iff.mp ht
  rwa [← List.head?_eq_getElem?] at hf

/-- The cached path answers with the frame at the cursor. -/
theorem cachedRaw_ok {img img' : ImageState} {loopAnimation : Bool} {answer : FrameState}
    (h : img.cachedRaw loopAnimation = (img', .ok answer)) :
    ∃ idx, (img.advance loopAnimation).1 = some idx ∧
      rawFrame img.inner idx = some answer.frame := by
  unfold ImageState.cachedRaw at h
  split at h
  · cases h
  · rename_i idx img'' hadvance
    rw [hadvance]
    split at h
    · cases h
    · rename_i raw hraw
      cases h
      exact ⟨idx, rfl, hraw⟩

/-- The call before its conversion answers with the frame it is about. -/
theorem engineFrame_delayMs {host : Host} {img img' : ImageState}
    {request : Option FrameRequest} {answer : FrameState}
    (h : img.engineFrame host request = .ok (img', .ok answer)) :
    ∃ f, img.sourceFrame host request = .ok (some f) ∧
      answer.frame.delayMs = UInt64.ofNat (f.delayMicros / 1000) := by
  obtain ⟨rerendered, hre, h⟩ := bind_eq_ok.mp h
  unfold ImageState.sourceFrame
  rw [hre, ok_bind]
  have cached : ∀ {img'' : ImageState},
      img.cachedRaw ((request.map FrameRequest.loopAnimation).getD true) =
        (img'', .ok answer) →
      ∃ f, ((img.advance ((request.map FrameRequest.loopAnimation).getD true)).1.bind
          fun idx => img.inner.frames[idx]?) = some f ∧
        answer.frame.delayMs = UInt64.ofNat (f.delayMicros / 1000) := by
    intro img'' hcached
    obtain ⟨idx, hidx, hraw⟩ := cachedRaw_ok hcached
    obtain ⟨f, hf, hdelay⟩ := rawFrame_some hraw
    exact ⟨f, by rw [hidx, Option.bind_some, hf], hdelay⟩
  cases rerendered with
  | none =>
    obtain ⟨f, hf, hdelay⟩ := cached (Except.ok.inj h)
    exact ⟨f, congrArg _ hf, hdelay⟩
  | some newImage =>
    cases hraw : rawFrame newImage 0 with
    | none =>
      simp only [Option.bind_some, hraw, Option.map_none] at h
      obtain ⟨f, hf, hdelay⟩ := cached (Except.ok.inj h)
      refine ⟨f, ?_, hdelay⟩
      simp only [Option.bind_some, rawFrame_none hraw]
      exact congrArg _ hf
    | some raw =>
      simp only [Option.bind_some, hraw, Option.map_some] at h
      cases h
      obtain ⟨f, hf, hdelay⟩ := rawFrame_some hraw
      rw [← List.head?_eq_getElem?] at hf
      refine ⟨f, ?_, hdelay⟩
      simp only [Option.bind_some, Image.firstFrame, hf]
      rfl

/-- So does what the shim answers, converted or not. -/
theorem specificFrame_delayMs {host : Host} {img img' : ImageState}
    {request : Option FrameRequest} {answer : FrameState}
    (h : img.specificFrame host request = .ok (img', .ok answer)) :
    ∃ f, img.sourceFrame host request = .ok (some f) ∧
      answer.frame.delayMs = UInt64.ofNat (f.delayMicros / 1000) := by
  rw [ImageState.specificFrame_eq] at h
  obtain ⟨⟨img'', raw⟩, hraw, h⟩ := bind_eq_ok.mp h
  obtain ⟨out, hout, h⟩ := bind_eq_ok.mp h
  cases h
  cases raw with
  | error e => cases hout
  | ok raw =>
    obtain ⟨frame, hframe, hout⟩ := bind_eq_ok.mp hout
    cases hout
    obtain ⟨f, hsource, hdelay⟩ := engineFrame_delayMs hraw
    exact ⟨f, hsource, (maybeConvert_delayMs hframe).trans hdelay⟩

/-- The shim reports the delay of a frame in microseconds exactly when it is a
whole number of milliseconds. -/
theorem frame_delay_iff (host : Host) (img img' : ImageState) (request : Option FrameRequest)
    (answer : FrameState) (h : img.specificFrame host request = .ok (img', .ok answer)) :
    ∃ f, img.sourceFrame host request = .ok (some f) ∧
      (frameGetDelay answer = f.delayMicros ↔ f.WholeMillis) := by
  obtain ⟨f, hsource, hdelay⟩ := specificFrame_delayMs h
  refine ⟨f, hsource, ?_⟩
  rw [frameGetDelay, hdelay, micros_through_millis_iff]
  exact Iff.rfl

/-- An APNG file of one pixel, shown for a sixtieth of a second. -/
def sixtiethPng : Codecs :=
  { Codecs.failing with
    png := fun _ _ => .ok {
      outputColorType := (.grayscale, .eight)
      width := 1
      height := 1
      animationControl := some 1
      iccProfile := none
      exifMetadata := none
      outputBufferSize := fun _ => some 1
      nextFrame := fun _ => .ok (⟨1, 1, 1⟩, [7])
      frameControl := fun _ => some ⟨1, 60⟩
      uncompressedLatin1Text := []
      compressedLatin1Text := []
      utf8Text := []
      codingIndependentCodePoints := none } }

/-- The file as the shim gets it: the signature is enough to choose the codec. -/
def pngLoader : LoaderState :=
  .newFromBytes [0x89, 0x50, 0x4e, 0x47, 0x0d, 0x0a, 0x1a, 0x0a]

theorem frame_delay_iff_sixtiethPng :
    ∃ loader' img img' answer, pngLoader.load (.plain sixtiethPng) = .ok (loader', .ok img) ∧
      img.specificFrame (.plain sixtiethPng) none = .ok (img', .ok answer) ∧
      ∃ f, img.sourceFrame (.plain sixtiethPng) none = .ok (some f) ∧
        (frameGetDelay answer = f.delayMicros ↔ f.WholeMillis) :=
  ⟨_, _, _, _, rfl, rfl, frame_delay_iff (.plain sixtiethPng) _ _ none _ rfl⟩

/-- Its 16 666 microseconds come out of the shim as 16 000. -/
theorem sixtiethPng_delay_cut :
    ∃ loader' img img' answer f, pngLoader.load (.plain sixtiethPng) = .ok (loader', .ok img) ∧
      img.specificFrame (.plain sixtiethPng) none = .ok (img', .ok answer) ∧
      img.sourceFrame (.plain sixtiethPng) none = .ok (some f) ∧
      f.delayMicros = 16666 ∧ frameGetDelay answer = 16000 :=
  ⟨_, _, _, _, _, rfl, rfl, rfl, by decide, by decide⟩

end Shim
end GlycinNg
