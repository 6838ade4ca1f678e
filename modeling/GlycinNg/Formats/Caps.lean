import GlycinNg.Formats

/-! # Caps on what is returned

A decode that returns is compared with the caps of `Limits`, computed without
bound: `spatial_limits_iff` for width, height, frames and pixels,
`animation_duration_iff` for the time. Each holds exactly where the decoder of
the format checks the cap in question, or where the delivery happens to meet it. -/
namespace GlycinNg
open Rust

theorem sum_map_le {α : Type} {l : List α} {f : α → Nat} {b : Nat} (h : ∀ a ∈ l, f a ≤ b) :
    (l.map f).sum ≤ l.length * b := by
  simpa using List.sum_le_card_nsmul (l.map f) b (List.forall_mem_map.mpr h)

/-- The four spatial caps, for the image and for each of its frames. -/
structure Image.WithinCaps (img : Image) (l : Limits) : Prop where
  width : img.width ≤ l.maxWidth
  height : img.height ≤ l.maxHeight
  frameSizes : ∀ f ∈ img.frames, f.width ≤ l.maxWidth ∧ f.height ≤ l.maxHeight
  frames : img.frames.length ≤ l.maxFrames.toNat
  pixels : (img.frames.map fun f => f.width.toNat * f.height.toNat).sum ≤ l.maxPixels.toNat

/-- The caps read off the delivery. -/
theorem withinCaps_iff {img : Image} {d : Delivery} {l : Limits} (h : img.Carries d) :
    img.WithinCaps l ↔
      d.WithinSides l ∧ d.shots.length ≤ l.maxFrames.toNat ∧ d.pixels ≤ l.maxPixels.toNat := by
  have hsizes := h.forall_sizes (P := fun p => p.1 ≤ l.maxWidth ∧ p.2 ≤ l.maxHeight)
  constructor
  · intro hcaps
    have hpixels := hcaps.pixels
    rw [h.pixels_eq] at hpixels
    exact ⟨⟨h.width ▸ hcaps.width, h.height ▸ hcaps.height, hsizes.mp hcaps.frameSizes⟩,
      h.length_eq ▸ hcaps.frames, hpixels⟩
  · intro ⟨⟨hwidth, hheight, hshots⟩, hlen, hpixels⟩
    exact {
      width := h.width ▸ hwidth
      height := h.height ▸ hheight
      frameSizes := hsizes.mpr hshots
      frames := h.length_eq ▸ hlen
      pixels := by rwa [h.pixels_eq] }

/-- Frames inside a checked canvas are within all caps. -/
theorem within_of_fits {d : Delivery} {l : Limits} {n : UInt32} (hin : d.InsideCanvas)
    (hfits : l.Fits d.width d.height n) (hlen : d.shots.length = n.toNat) :
    d.WithinSides l ∧ d.shots.length ≤ l.maxFrames.toNat ∧ d.pixels ≤ l.maxPixels.toNat := by
  obtain ⟨hw, hh, hn, hpixels⟩ := hfits
  have harea : ∀ s ∈ d.shots, s.picture.width.toNat * s.picture.height.toNat ≤
      d.width.toNat * d.height.toNat := by
    intro s hs
    obtain ⟨hsw, hsh⟩ := hin s hs
    exact Nat.mul_le_mul (UInt32.le_iff_toNat_le.mp hsw) (UInt32.le_iff_toNat_le.mp hsh)
  refine ⟨⟨hw, hh, ?_⟩, hlen ▸ UInt32.le_iff_toNat_le.mp hn, ?_⟩
  · intro s hs
    obtain ⟨hsw, hsh⟩ := hin s hs
    exact ⟨UInt32.le_trans hsw hw, UInt32.le_trans hsh hh⟩
  · calc d.pixels
        ≤ d.shots.length * (d.width.toNat * d.height.toNat) := sum_map_le harea
      _ = d.width.toNat * d.height.toNat * n.toNat := by rw [hlen, Nat.mul_comm]
      _ ≤ l.maxPixels.toNat := hpixels

/-- A decoded image is within the spatial caps unless it is a GIF whose screen
or some frame is wider or higher than allowed. -/
theorem spatial_limits_iff (c : Codecs) (format : KnownFormat) (bytes : Bytes)
    (opts : DecodeOptions) (img : Image)
    (hpng : format = .png → ∀ d, c.delivery format bytes opts = some d → d.InsideCanvas)
    (h : (dispatch c format bytes opts).result = .ok img) :
    img.WithinCaps opts.limits ↔
      (format = .gif →
        ∀ d, c.delivery format bytes opts = some d → d.WithinSides opts.limits) := by
  obtain ⟨d, hd, hcarries, haccepted⟩ := dispatch_ok h
  rw [withinCaps_iff hcarries, hd]
  simp only [Option.some.injEq, forall_eq']
  cases haccepted with
  | @still _ _ p hgif _ hfits =>
    have hin : p.delivery.InsideCanvas := by
      intro s hs
      cases List.mem_singleton.mp hs
      exact ⟨UInt32.le_refl _, UInt32.le_refl _⟩
    exact iff_of_true (within_of_fits hin hfits rfl) fun hg => absurd hg hgif
  | png hfits hlen => exact iff_of_true (within_of_fits (hpng rfl d hd) hfits hlen) nofun
  | canvas hformat hfits hlen hsize =>
    have hin : d.InsideCanvas := by
      intro s hs
      obtain ⟨hw, hh⟩ := hsize s hs
      exact ⟨UInt32.le_of_eq hw, UInt32.le_of_eq hh⟩
    apply iff_of_true (within_of_fits hin hfits hlen)
    intro hgif
    subst hgif
    rcases hformat with h | h <;> cases h
  | gif _ hpixels hlen =>
    constructor
    · intro ⟨hsides, _, _⟩ _
      exact hsides
    · intro hsides
      exact ⟨hsides rfl, hlen, hpixels⟩

/-- A GIF file of one frame, 16 by 1. -/
def wideGif : Codecs :=
  { Codecs.failing with
    gif := fun _ _ => .ok ⟨16, 1, [.ok ⟨16, 1, 0, List.replicate 64 0⟩]⟩ }

theorem spatial_limits_iff_wideGif :
    ∃ img, (dispatch wideGif .gif [] DecodeOptions.default).result = .ok img ∧
      (img.WithinCaps Limits.default ↔
        (KnownFormat.gif = .gif → ∀ d,
          wideGif.delivery .gif [] DecodeOptions.default = some d →
            d.WithinSides Limits.default)) :=
  ⟨_, rfl, spatial_limits_iff wideGif .gif [] DecodeOptions.default _ nofun rfl⟩

/-- With a cap of 8 on the width the file is still decoded, 16 pixels wide. -/
theorem wideGif_over_max_width :
    ∃ img, (dispatch wideGif .gif []
        { DecodeOptions.default with limits := { Limits.default with maxWidth := 8 } }).result =
          .ok img ∧
      ¬ img.WithinCaps { Limits.default with maxWidth := 8 } :=
  ⟨_, rfl, fun h => absurd h.width (by decide)⟩

/-! ## Durations -/

/-- Every delay is a `u32` number of milliseconds. -/
def Delivery.InMillis (d : Delivery) : Prop :=
  ∀ s ∈ d.shots, ∀ t ∈ s.delay, ∃ ms : UInt64, ms.toNat < 2 ^ 32 ∧ t = Duration.fromMillis ms

theorem Gif.inMillis {decoder : Gif.Decoder} {d : Delivery} (h : decoder.delivery = some d) :
    d.InMillis := by
  simp only [Gif.Decoder.delivery, bind, Option.bind_eq_some_iff] at h
  obtain ⟨shots, hshots, h⟩ := h
  cases h
  refine forall_mem_of_mapM hshots ?_
  intro next s hs t ht
  obtain ⟨frame, -, rfl⟩ := Option.map_eq_some_iff.mp hs
  cases ht
  have hlt := frame.delay.toNat_lt
  refine ⟨frame.delay.toUInt64 * 10, ?_, rfl⟩
  rw [UInt64.toNat_mul, UInt16.toNat_toUInt64]
  exact Nat.lt_of_le_of_lt (Nat.mod_le _ _) (by simp; omega)

theorem WebP.inMillis {decoder : WebP.Decoder} {d : Delivery} (h : decoder.delivery = some d) :
    d.InMillis := by
  obtain ⟨shots, hshots, rfl⟩ := Option.map_eq_some_iff.mp h
  rw [WebP.Decoder.shots] at hshots
  by_cases hanim : decoder.isAnimated = true
  · rw [if_pos hanim] at hshots
    refine forall_mem_of_mapM hshots ?_
    intro k s hs t ht
    simp only [WebP.Decoder.shot, bind, Option.bind_eq_some_iff] at hs
    obtain ⟨size, -, frame, -, hs⟩ := hs
    cases hs
    cases ht
    exact ⟨frame.1.toUInt64, by simpa using frame.1.toNat_lt, rfl⟩
  · rw [if_neg hanim, Option.map_eq_some_iff] at hshots
    obtain ⟨s, hs, rfl⟩ := hshots
    simp only [WebP.Decoder.stillShot, bind, Option.bind_eq_some_iff] at hs
    obtain ⟨size, -, written, -, hs⟩ := hs
    cases hs
    intro s hs t ht
    cases List.mem_singleton.mp hs
    cases ht

/-- A `u32` number of delays of at most `2^32` ms each is far below `Duration::MAX`. -/
theorem totalNanos_le {d : Delivery} {n : UInt32} (hlen : d.shots.length ≤ n.toNat)
    (h : d.InMillis) : Delivery.totalNanos d.delays ≤ maxNanos := by
  have hn := n.toNat_lt
  have hnanos : ∀ s ∈ d.shots, s.delay.elim 0 Duration.nanos ≤ 1000000 * 2 ^ 32 := by
    intro s hs
    cases hdelay : s.delay with
    | none => exact Nat.zero_le _
    | some t =>
      obtain ⟨ms, hms, rfl⟩ := h s hs t hdelay
      simp only [Option.elim_some, Duration.fromMillis]
      omega
  rw [Delivery.totalNanos, Delivery.delays, List.map_map]
  calc (d.shots.map _).sum
      ≤ d.shots.length * (1000000 * 2 ^ 32) := sum_map_le hnanos
    _ ≤ 2 ^ 32 * (1000000 * 2 ^ 32) := Nat.mul_le_mul_right _ (by omega)
    _ ≤ maxNanos := by decide

/-- Where the running total of a decoder is the exact sum of the delays, or is
not kept at all: PNG has no running total, and that of JPEG XL may saturate. -/
def Codecs.DelaysFit (c : Codecs) (format : KnownFormat) (bytes : Bytes) (opts : DecodeOptions) :
    Prop :=
  match format with
  | .png => ∀ d, c.delivery format bytes opts = some d →
      Delivery.totalNanos d.delays ≤ opts.limits.maxAnimationDuration.nanos
  | .jxl => opts.limits.maxAnimationDuration = Duration.max →
      ∀ d, c.delivery format bytes opts = some d → Delivery.totalNanos d.delays ≤ maxNanos
  | _ => True

/-- The exact sum of the delays of a decoded image is within the cap, except for
a PNG whose `fcTL` delays add up to more, and for a JPEG XL without a cap whose
delays add up to more than `Duration::MAX`. -/
theorem animation_duration_iff (c : Codecs) (format : KnownFormat) (bytes : Bytes)
    (opts : DecodeOptions) (img : Image)
    (h : (dispatch c format bytes opts).result = .ok img) :
    Delivery.totalNanos (img.frames.map Frame.delay) ≤
        opts.limits.maxAnimationDuration.nanos ↔
      c.DelaysFit format bytes opts := by
  obtain ⟨d, hd, hcarries, haccepted⟩ := dispatch_ok h
  have hdelays := hcarries.delays_eq
  rw [hdelays]
  cases haccepted with
  | @still _ _ p hgif hjxl hfits =>
    have hzero : Delivery.totalNanos p.delivery.delays = 0 := rfl
    rw [hzero]
    refine iff_of_true (Nat.zero_le _) ?_
    cases format with
    | png =>
      intro d' hd'
      rw [hd] at hd'
      cases hd'
      exact Nat.zero_le _
    | jxl => exact absurd rfl hjxl
    | _ => trivial
  | png => simp only [Codecs.DelaysFit, hd, Option.some.injEq, forall_eq']
  | canvas hformat _ hlen _ htimed =>
    have hnanos := htimed.nanos
    rw [hdelays] at hnanos
    rw [Duration.sum_le_iff hnanos htimed.le_cap]
    rcases hformat with rfl | rfl
    · obtain ⟨decoder, -, hdecoder⟩ := Option.bind_eq_some_iff.mp hd
      exact iff_of_true (fun _ => totalNanos_le hlen.le (WebP.inMillis hdecoder)) trivial
    · simp only [Codecs.DelaysFit, hd, Option.some.injEq, forall_eq']
  | gif _ _ hlen htimed =>
    have hnanos := htimed.nanos
    rw [hdelays] at hnanos
    rw [Duration.sum_le_iff hnanos htimed.le_cap]
    obtain ⟨decoder, -, hdecoder⟩ := Option.bind_eq_some_iff.mp hd
    exact iff_of_true (fun _ => totalNanos_le hlen (Gif.inMillis hdecoder)) trivial

/-- An APNG file of two pixels, each shown for 40 seconds. -/
def slowPng : Codecs :=
  { Codecs.failing with
    png := fun _ _ => .ok {
      outputColorType := (.grayscale, .eight)
      width := 1
      height := 1
      animationControl := some 2
      iccProfile := none
      exifMetadata := none
      outputBufferSize := fun _ => some 1
      nextFrame := fun _ => .ok (⟨1, 1, 1⟩, [0])
      frameControl := fun _ => some ⟨40, 1⟩
      uncompressedLatin1Text := []
      compressedLatin1Text := []
      utf8Text := []
      codingIndependentCodePoints := none } }

theorem animation_duration_iff_slowPng :
    ∃ img, (dispatch slowPng .png [] DecodeOptions.default).result = .ok img ∧
      (Delivery.totalNanos (img.frames.map Frame.delay) ≤
          Limits.default.maxAnimationDuration.nanos ↔
        slowPng.DelaysFit .png [] DecodeOptions.default) :=
  ⟨_, rfl, animation_duration_iff slowPng .png [] DecodeOptions.default _ rfl⟩

/-- It is decoded although the cap is 60 seconds. -/
theorem slowPng_over_max_animation_duration :
    ∃ img, (dispatch slowPng .png [] DecodeOptions.default).result = .ok img ∧
      ¬ Delivery.totalNanos (img.frames.map Frame.delay) ≤
        Limits.default.maxAnimationDuration.nanos :=
  ⟨_, rfl, by decide⟩

end GlycinNg
