import GlycinNg.Encoder
import GlycinNg.Shim.Convert

/-! # The two converters to RGBA

The shim converts decoded frames in `convert.rs`, the engine the frames it encodes
in `encoder.rs`: two samplers over two numberings of the formats, one that looks
every row up and one that checks the whole buffer first. They give the same bytes
(`converters_agree`). -/
namespace GlycinNg.Shim
open Rust CApi

/-- The tuple of a sampler as a pixel. -/
def Rgba.ofTuple (px : UInt8 × UInt8 × UInt8 × UInt8) : Rgba := ⟨px.1, px.2.1, px.2.2.1, px.2.2.2⟩

theorem unpremulRgb8_eq (r g b a : UInt8) :
    unpremulRgb8 ⟨r, g, b, a⟩ = .ofTuple (Encoder.unpremulRgb8 r g b a) := by
  unfold unpremulRgb8 Encoder.unpremulRgb8
  split <;> rfl

/-- The samplers agree on every format and every slice, panics included. -/
theorem sampleRgba8_eq (f : MemoryFormat) (p : Bytes) :
    sampleRgba8 (memoryFormatToCUint f) p =
      (Encoder.sampleRgba8 f p).map (Option.map Rgba.ofTuple) := by
  cases f
  all_goals
    unfold memoryFormatToCUint sampleRgba8 Encoder.sampleRgba8 pick
    cases index p 0 <;> cases index p 1 <;> cases index p 2 <;> cases index p 3 <;>
      first | rfl | exact congrArg (fun px => Except.ok (some px)) (unpremulRgb8_eq _ _ _ _)

/-- So do the row loops: where one gives up the other reports an error. -/
theorem convertRow_eq (f : MemoryFormat) (row : Bytes) (n x : Nat) :
    convertRow (memoryFormatToCUint f) formatR8g8b8a8 row n x =
      (Encoder.convertRow f row n x).map Except.toOption := by
  induction n generalizing x with
  | zero => rfl
  | succ n ih =>
    rw [convertRow, Encoder.convertRow, bytesPerPixelNg_memoryFormatToCUint]
    cases slice row (x * f.bytesPerPixel) (x * f.bytesPerPixel + f.bytesPerPixel) with
    | error e => rfl
    | ok p =>
      rw [ok_bind, ok_bind, sampleRgba8_eq]
      cases Encoder.sampleRgba8 f p with
      | error e => rfl
      | ok px =>
        cases px with
        | none => rfl
        | some px =>
          show (convertRow (memoryFormatToCUint f) formatR8g8b8a8 row n (x + 1) >>= _) =
            (Encoder.convertRow f row n (x + 1) >>= _).map _
          rw [ih]
          cases Encoder.convertRow f row n (x + 1) with
          | error e => rfl
          | ok out => cases out <;> rfl

section
variable {f : MemoryFormat} {width height stride : UInt32} {data : Bytes} {d : UInt64}

/-- A frame in the numbering of the shim. -/
def frameOf (f : MemoryFormat) (width height stride : UInt32) (data : Bytes) (delayMs : UInt64) :
    RawFrame where
  width := width
  height := height
  stride := stride
  format := memoryFormatToCUint f
  data := data
  delayMs := delayMs

/-- Every row lies inside the buffer. -/
def RowsInside (f : MemoryFormat) (width height stride : UInt32) (data : Bytes) : Prop :=
  ∀ y < height.toNat, y * stride.toNat + width.toNat * f.bytesPerPixel ≤ data.length

/-- On rows that are there, looking them up and slicing them is the same. -/
theorem convertRows_eq (hinside : RowsInside f width height stride data) {n y : Nat}
    (hy : y + n ≤ height.toNat) :
    convertRows (frameOf f width height stride data d) formatR8g8b8a8 n y =
      (Encoder.convertRows data width stride f (width.toNat * f.bytesPerPixel) n y).map
        Except.toOption := by
  induction n generalizing y with
  | zero => rfl
  | succ n ih =>
    have hrow := hinside y (by omega)
    have hrest := ih (y := y + 1) (by omega)
    rw [convertRows, Encoder.convertRows]
    simp only [frameOf, bytesPerPixelNg_memoryFormatToCUint] at hrest ⊢
    by_cases hstart : y * stride.toNat < usizeValues
    case neg =>
      simp only [usizeMul, if_neg hstart]
      rfl
    by_cases hend : y * stride.toNat + width.toNat * f.bytesPerPixel < usizeValues
    case neg =>
      simp only [usizeMul_ok hstart, ok_bind, usizeAdd, if_neg hend]
      rfl
    simp only [usizeMul_ok hstart, usizeAdd_ok hend, ok_bind,
      getRange_window hrow, slice_window hrow, convertRow_eq]
    cases Encoder.convertRow f
        ((data.drop (y * stride.toNat)).take (width.toNat * f.bytesPerPixel)) width.toNat 0 with
    | error e => rfl
    | ok out =>
      cases out with
      | error e => rfl
      | ok out =>
        show (convertRows _ _ n (y + 1) >>= _) =
          (Encoder.convertRows _ _ _ _ _ n (y + 1) >>= _).map _
        rw [hrest]
        cases Encoder.convertRows data width stride f (width.toNat * f.bytesPerPixel) n (y + 1) with
        | error e => rfl
        | ok rest => cases rest <;> rfl

/-- A conversion that succeeds has found every row it looked up. -/
theorem inside_of_convertRows {n y : Nat} {out : Bytes}
    (h : convertRows (frameOf f width height stride data d) formatR8g8b8a8 n y =
      .ok (some out)) {i : Nat} (hy : y ≤ i) (hi : i < y + n) :
    i * stride.toNat + width.toNat * f.bytesPerPixel ≤ data.length := by
  induction n generalizing y out with
  | zero => omega
  | succ n ih =>
    rw [convertRows] at h
    simp only [frameOf, bytesPerPixelNg_memoryFormatToCUint] at h ih
    obtain ⟨start, hstart, h⟩ := bind_eq_ok.mp h
    obtain ⟨stop, hstop, h⟩ := bind_eq_ok.mp h
    obtain rfl := eq_of_usizeMul hstart
    obtain rfl := eq_of_usizeAdd hstop
    split at h
    · cases h
    · rename_i row hrow
      have hend : y * stride.toNat + width.toNat * f.bytesPerPixel ≤ data.length := by
        rw [getRange] at hrow
        split at hrow
        · rename_i hle
          exact hle.2
        · cases hrow
      obtain ⟨pixels, -, h⟩ := bind_eq_ok.mp h
      cases pixels with
      | none => cases h
      | some pixels =>
        obtain ⟨rest, hrest, h⟩ := bind_eq_ok.mp h
        cases rest with
        | none => cases h
        | some rest =>
          rcases Nat.eq_or_lt_of_le hy with rfl | hlt
          · exact hend
          · exact ih hrest hlt (by omega)

/-- One check of the last row covers the rows above it. -/
theorem rowsInside_iff :
    RowsInside f width height stride data ↔ height.toNat = 0 ∨
      (height.toNat - 1) * stride.toNat + width.toNat * f.bytesPerPixel ≤ data.length := by
  constructor
  · intro hinside
    rcases Nat.eq_zero_or_pos height.toNat with hzero | hpos
    · exact .inl hzero
    · exact .inr (hinside _ (by omega))
  · intro hlast y hy
    have hlast := hlast.resolve_left (by omega)
    have hrow : y * stride.toNat ≤ (height.toNat - 1) * stride.toNat :=
      Nat.mul_le_mul_right _ (by omega)
    omega

/-- What `to_rgba8` computes when the sizes are right. -/
theorem toRgba8_eq (h : Encoder.Accepts data.length width height stride f) :
    Encoder.toRgba8 data width height stride f =
      Encoder.convertRows data width stride f (width.toNat * f.bytesPerPixel) height.toNat 0 := by
  rw [Encoder.toRgba8, Encoder.checkFrame_ok_iff.mpr ⟨rfl, h⟩]

/-- A frame that `to_rgba8` converts has the right sizes. -/
theorem accepts_of_toRgba8 {out : Bytes}
    (h : Encoder.toRgba8 data width height stride f = .ok (.ok out)) :
    Encoder.Accepts data.length width height stride f := by
  unfold Encoder.toRgba8 at h
  split at h
  · cases h
  · rename_i rowBytes hcheck
    exact (Encoder.checkFrame_ok_iff.mp hcheck).2

/-- What `convert_layout` computes when the rows are inside the buffer. -/
theorem convertLayout_eq (hrow : width.toNat * f.bytesPerPixel ≤ stride.toNat)
    (hinside : RowsInside f width height stride data) :
    (convertLayout (frameOf f width height stride data d) formatR8g8b8a8).map
        (Option.map RawFrame.data) =
      (Encoder.convertRows data width stride f (width.toNat * f.bytesPerPixel) height.toNat 0).map
        Except.toOption := by
  have hbpp : bytesPerPixelNg (frameOf f width height stride data d).format =
      f.bytesPerPixel := bytesPerPixelNg_memoryFormatToCUint f
  have hpos := f.bytesPerPixel_pos
  have hne : ¬ (f.bytesPerPixel = 0 ∨ bytesPerPixelNg formatR8g8b8a8 = 0) :=
    not_or.mpr ⟨by omega, by decide⟩
  rw [← convertRows_eq (d := d) hinside (Nat.le_of_eq (Nat.zero_add _))]
  simp only [convertLayout, hbpp, if_neg hne]
  rw [if_neg (show ¬ (frameOf f width height stride data d).stride.toNat <
    (frameOf f width height stride data d).width.toNat * f.bytesPerPixel
    from Nat.not_lt.mpr hrow)]
  show Except.map _ (convertRows (frameOf f width height stride data d) formatR8g8b8a8
    height.toNat 0 >>= _) = _
  cases convertRows (frameOf f width height stride data d) formatR8g8b8a8
      height.toNat 0 with
  | error e => rfl
  | ok out => cases out <;> rfl

/-- A frame that `convert_layout` converts has rows that fit and are there. -/
theorem inside_of_convertLayout {frame : RawFrame}
    (h : convertLayout (frameOf f width height stride data d) formatR8g8b8a8 =
      .ok (some frame)) :
    width.toNat * f.bytesPerPixel ≤ stride.toNat ∧ RowsInside f width height stride data := by
  have hbpp : bytesPerPixelNg (frameOf f width height stride data d).format =
      f.bytesPerPixel := bytesPerPixelNg_memoryFormatToCUint f
  simp only [convertLayout, hbpp] at h
  split at h
  · cases h
  split at h
  · cases h
  · rename_i hrow
    obtain ⟨out, hout, h⟩ := bind_eq_ok.mp h
    cases out with
    | none => cases h
    | some out =>
      refine ⟨Nat.not_lt.mp hrow, ?_⟩
      intro y hy
      exact inside_of_convertRows hout (Nat.zero_le y) ((Nat.zero_add _).symm ▸ hy)

/-- What the engine converts for an encoder the shim converts to the same bytes,
and the other way round below the engine's cap on its output. -/
theorem converters_agree (f : MemoryFormat) (width height stride : UInt32) (data : Bytes)
    (delayMs : UInt64) :
    (∀ out, Encoder.toRgba8 data width height stride f = .ok (.ok out) →
      ∃ frame, convertLayout ⟨width, height, stride, memoryFormatToCUint f, data, delayMs⟩
        formatR8g8b8a8 = .ok (some frame) ∧ frame.data = out) ∧
    ∀ frame, convertLayout ⟨width, height, stride, memoryFormatToCUint f, data, delayMs⟩
        formatR8g8b8a8 = .ok (some frame) →
      width.toNat * 4 * height.toNat ≤ 2 ^ 30 →
        Encoder.toRgba8 data width height stride f = .ok (.ok frame.data) := by
  constructor
  · intro out hout
    have haccepts := accepts_of_toRgba8 hout
    have heq := convertLayout_eq (d := delayMs) haccepts.row_le
      (rowsInside_iff.mpr haccepts.data_le)
    rw [toRgba8_eq haccepts] at hout
    rw [hout] at heq
    cases hlayout : convertLayout (frameOf f width height stride data delayMs) formatR8g8b8a8 with
    | error e =>
      rw [hlayout] at heq
      cases heq
    | ok frame =>
      rw [hlayout] at heq
      obtain ⟨frame, rfl, hdata⟩ := Option.map_eq_some_iff.mp (Except.ok.inj heq)
      exact ⟨frame, hlayout, hdata⟩
  · intro frame hframe hcap
    obtain ⟨hrow, hinside⟩ := inside_of_convertLayout hframe
    have heq := convertLayout_eq (d := delayMs) hrow hinside
    change convertLayout (frameOf f width height stride data delayMs) _ = _ at hframe
    rw [hframe] at heq
    rw [toRgba8_eq ⟨hrow, hcap, rowsInside_iff.mp hinside⟩]
    cases hrows : Encoder.convertRows data width stride f (width.toNat * f.bytesPerPixel)
        height.toNat 0 with
    | error e =>
      rw [hrows] at heq
      cases heq
    | ok out =>
      rw [hrows] at heq
      have hout := toOption_eq_some.mp (Except.ok.inj heq).symm
      rw [hout]

end

theorem converters_agree_premultiplied :
    ∃ frame, convertLayout ⟨1, 1, 4, formatR8g8b8a8Pre, [64, 64, 64, 128], 0⟩ formatR8g8b8a8 =
        .ok (some frame) ∧ frame.data = [127, 127, 127, 128] ∧
      Encoder.toRgba8 [64, 64, 64, 128] 1 1 4 .r8g8b8a8Premultiplied = .ok (.ok frame.data) := by
  have hengine : Encoder.toRgba8 [64, 64, 64, 128] 1 1 4 .r8g8b8a8Premultiplied =
      .ok (.ok [127, 127, 127, 128]) := by decide +kernel
  obtain ⟨hto, hback⟩ := converters_agree .r8g8b8a8Premultiplied 1 1 4 [64, 64, 64, 128] 0
  obtain ⟨frame, hframe, hdata⟩ := hto _ hengine
  exact ⟨frame, hframe, hdata, hback frame hframe (by decide)⟩

end GlycinNg.Shim
