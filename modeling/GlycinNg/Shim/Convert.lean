import GlycinNg.CApi

/-! # Memory formats of the shim

`memformat.rs` and `convert.rs`. A frame whose format the caller does not accept
is rewritten pixel by pixel through straight RGBA; where that is not possible it
is handed out as it is. -/
namespace GlycinNg.Shim
open Rust CApi

/-! ## `memformat.rs` -/

/-- The `GlyMemoryFormat` value of a format constant; R8G8B8A8 for any other number. -/
def ngToGly (format : UInt32) : Nat :=
  match format with
  | formatB8g8r8a8Pre => 0
  | formatA8r8g8b8Pre => 1
  | formatR8g8b8a8Pre => 2
  | formatB8g8r8a8 => 3
  | formatA8r8g8b8 => 4
  | formatR8g8b8a8 => 5
  | formatA8b8g8r8 => 6
  | formatR8g8b8 => 7
  | formatB8g8r8 => 8
  | formatR16g16b16 => 9
  | formatR16g16b16a16Pre => 10
  | formatR16g16b16a16 => 11
  | formatR16g16b16F => 12
  | formatR16g16b16a16F => 13
  | formatR32g32b32F => 14
  | formatR32g32b32a32FPre => 15
  | formatR32g32b32a32F => 16
  | formatG8a8Pre => 17
  | formatG8a8 => 18
  | formatG8 => 19
  | formatG16a16Pre => 20
  | formatG16a16 => 21
  | formatG16 => 22
  | _ => 5

/-- 0 for a number that is no format constant. -/
def bytesPerPixelNg (format : UInt32) : Nat :=
  match format with
  | formatG8 => 1
  | formatG8a8 | formatG8a8Pre | formatG16 => 2
  | formatR8g8b8 | formatB8g8r8 => 3
  | formatR8g8b8a8 | formatR8g8b8a8Pre | formatB8g8r8a8 | formatB8g8r8a8Pre | formatA8r8g8b8
  | formatA8r8g8b8Pre | formatA8b8g8r8 | formatG16a16 | formatG16a16Pre => 4
  | formatR16g16b16 | formatR16g16b16F => 6
  | formatR16g16b16a16 | formatR16g16b16a16Pre | formatR16g16b16a16F => 8
  | formatR32g32b32F => 12
  | formatR32g32b32a32F | formatR32g32b32a32FPre => 16
  | _ => 0

/-- The shim and the engine agree on how wide a pixel is. -/
theorem bytesPerPixelNg_memoryFormatToCUint (f : MemoryFormat) :
    bytesPerPixelNg (memoryFormatToCUint f) = f.bytesPerPixel := by
  cases f <;> rfl

theorem bytesPerPixelNg_le (format : UInt32) : bytesPerPixelNg format ≤ 16 := by
  unfold bytesPerPixelNg
  split <;> decide

theorem ngToGly_le (format : UInt32) : ngToGly format ≤ 22 := by
  unfold ngToGly
  split <;> decide

/-! ## Selections -/

/-- `Selection::all().bits()`: the 23 known bits. -/
def selectionAll : UInt32 := 0x7fffff

/-- `Selection::from_bits`, which refuses unknown bits. -/
def selectionFromBits (bits : UInt32) : Option UInt32 :=
  if bits &&& ~~~selectionAll = 0 then some bits else none

/-- Whether the bit of a format is selected. The source checks first that the
bit has a number below 32, which `ngToGly_le` shows it always has. -/
def selectionAccepts (selection ngFormat : UInt32) : Bool :=
  let bit := (1 <<< UInt32.ofNat (ngToGly ngFormat)) &&& selectionAll
  selection &&& bit != 0

/-- The straight-alpha equivalent of a premultiplied format. -/
def straight (src : UInt32) : Option UInt32 :=
  match src with
  | formatR8g8b8a8Pre => some formatR8g8b8a8
  | formatB8g8r8a8Pre => some formatB8g8r8a8
  | formatA8r8g8b8Pre => some formatA8r8g8b8
  | formatG8a8Pre => some formatG8a8
  | formatG16a16Pre => some formatG16a16
  | _ => none

def priority : List UInt32 :=
  [formatR8g8b8a8, formatB8g8r8a8, formatA8r8g8b8, formatR8g8b8, formatB8g8r8, formatG8a8, formatG8]

def pickTarget (src selection : UInt32) : Option UInt32 :=
  ((straight src).toList ++ priority).find? (selectionAccepts selection)

/-! ## Pixels -/

structure Rgba where
  r : UInt8
  g : UInt8
  b : UInt8
  a : UInt8
  deriving DecidableEq, Repr

def luma (px : Rgba) : UInt8 :=
  UInt8.ofNat ((30 * px.r.toNat + 59 * px.g.toNat + 11 * px.b.toNat) / 100)

/-- `((c * 255) / a).min(255)`. -/
def unpremul (c a : UInt8) : UInt8 := UInt8.ofNat (min (c.toNat * 255 / a.toNat) 255)

def unpremulG8 (g a : UInt8) : UInt8 × UInt8 := if a = 0 then (0, 0) else (unpremul g a, a)

def unpremulRgb8 (px : Rgba) : Rgba :=
  if px.a = 0 then ⟨0, 0, 0, 0⟩
  else ⟨unpremul px.r px.a, unpremul px.g px.a, unpremul px.b px.a, px.a⟩

/-- `p[i], p[j], p[k], p[l]` as one pixel. -/
def pick (p : Bytes) (i j k l : Nat) : Checked Rgba := do
  return ⟨← index p i, ← index p j, ← index p k, ← index p l⟩

/-- `sample_rgba8`; `none` for the formats that are not of 8 bits. -/
def sampleRgba8 (fmt : UInt32) (p : Bytes) : Checked (Option Rgba) := do
  match fmt with
  | formatG8 => do
    let g ← index p 0
    return some ⟨g, g, g, 255⟩
  | formatG8a8 => do
    let g ← index p 0
    return some ⟨g, g, g, ← index p 1⟩
  | formatG8a8Pre => do
    let (g, a) := unpremulG8 (← index p 0) (← index p 1)
    return some ⟨g, g, g, a⟩
  | formatR8g8b8 => return some ⟨← index p 0, ← index p 1, ← index p 2, 255⟩
  | formatB8g8r8 => return some ⟨← index p 2, ← index p 1, ← index p 0, 255⟩
  | formatR8g8b8a8 => return some (← pick p 0 1 2 3)
  | formatR8g8b8a8Pre => return some (unpremulRgb8 (← pick p 0 1 2 3))
  | formatB8g8r8a8 => return some (← pick p 2 1 0 3)
  | formatB8g8r8a8Pre => return some (unpremulRgb8 (← pick p 2 1 0 3))
  | formatA8r8g8b8 => return some (← pick p 1 2 3 0)
  | formatA8r8g8b8Pre => return some (unpremulRgb8 (← pick p 1 2 3 0))
  | formatA8b8g8r8 => return some (← pick p 3 2 1 0)
  | _ => return none

/-- `emit_pixel`: the bytes it appends. -/
def emitPixel (target : UInt32) (px : Rgba) : Bytes :=
  match target with
  | formatR8g8b8a8 => [px.r, px.g, px.b, px.a]
  | formatB8g8r8a8 => [px.b, px.g, px.r, px.a]
  | formatA8r8g8b8 => [px.a, px.r, px.g, px.b]
  | formatA8b8g8r8 => [px.a, px.b, px.g, px.r]
  | formatR8g8b8 => [px.r, px.g, px.b]
  | formatB8g8r8 => [px.b, px.g, px.r]
  | formatG8a8 => [luma px, px.a]
  | formatG8 => [luma px]
  | _ => [px.r, px.g, px.b, px.a]

/-! ## Frames -/

/-- `convert::RawFrame`. -/
structure RawFrame where
  width : UInt32
  height : UInt32
  stride : UInt32
  format : UInt32
  data : Bytes
  delayMs : UInt64
  deriving DecidableEq, Repr

/-- The bytes one row is converted to; `none` at a pixel that cannot be sampled. -/
def convertRow (format target : UInt32) (row : Bytes) : (n x : Nat) → Checked (Option Bytes)
  | 0, _ => return some []
  | n + 1, x => do
    let bpp := bytesPerPixelNg format
    let px ← slice row (x * bpp) (x * bpp + bpp)
    match ← sampleRgba8 format px with
    | none => return none
    | some rgba =>
      match ← convertRow format target row n (x + 1) with
      | none => return none
      | some rest => return some (emitPixel target rgba ++ rest)

/-- The rows from `y` on. -/
def convertRows (src : RawFrame) (target : UInt32) : (n y : Nat) → Checked (Option Bytes)
  | 0, _ => return some []
  | n + 1, y => do
    let rowOff ← usizeMul y src.stride.toNat
    let rowEnd ← usizeAdd rowOff (src.width.toNat * bytesPerPixelNg src.format)
    match getRange src.data rowOff rowEnd with
    | none => return none
    | some row =>
      match ← convertRow src.format target row src.width.toNat 0 with
      | none => return none
      | some out =>
        match ← convertRows src target n (y + 1) with
        | none => return none
        | some rest => return some (out ++ rest)

/-- `convert_layout`. Its `Vec::with_capacity` is left out, which panics where the output would
be longer than `isize::MAX`: no frame whose rows are all in memory is that large. -/
def convertLayout (src : RawFrame) (target : UInt32) : Checked (Option RawFrame) := do
  let srcBpp := bytesPerPixelNg src.format
  let dstBpp := bytesPerPixelNg target
  if srcBpp = 0 ∨ dstBpp = 0 then return none
  else if src.stride.toNat < src.width.toNat * srcBpp then return none
  else
    match ← convertRows src target src.height.toNat 0 with
    | none => return none
    | some out =>
      return some {
        width := src.width
        height := src.height
        stride := UInt32.ofNat (src.width.toNat * dstBpp)
        format := target
        data := out
        delayMs := src.delayMs }

/-- `convert::maybe_convert`. -/
def maybeConvert (frame : RawFrame) (selectionBits : UInt32) : Checked RawFrame :=
  if selectionBits = 0 then return frame
  else
    match selectionFromBits selectionBits with
    | none => return frame
    | some selection =>
      if selectionAccepts selection frame.format then return frame
      else
        match pickTarget frame.format selection with
        | none => return frame
        | some target => do return (← convertLayout frame target).getD frame

/-- Without a selection every frame passes. -/
@[simp] theorem maybeConvert_zero (frame : RawFrame) : maybeConvert frame 0 = .ok frame := rfl

/-- Premultiplied pixels are divided by their alpha when R8G8B8A8 is asked for. -/
example : maybeConvert ⟨1, 1, 4, formatR8g8b8a8Pre, [64, 64, 64, 128], 0⟩ 32 =
    .ok ⟨1, 1, 4, formatR8g8b8a8, [127, 127, 127, 128], 0⟩ := by decide +kernel

/-! ## What a conversion does -/

/-- The formats `sample_rgba8` reads. -/
def eightBit : List UInt32 :=
  [formatG8, formatG8a8, formatG8a8Pre, formatR8g8b8, formatB8g8r8, formatR8g8b8a8,
    formatR8g8b8a8Pre, formatB8g8r8a8, formatB8g8r8a8Pre, formatA8r8g8b8, formatA8r8g8b8Pre,
    formatA8b8g8r8]

/-- Sampling stays inside a pixel that has the width of its format. -/
theorem sampleRgba8_returns {fmt : UInt32} {p : Bytes} (h : p.length = bytesPerPixelNg fmt) :
    ∃ px, sampleRgba8 fmt p = .ok px ∧ (px.isSome = true ↔ fmt ∈ eightBit) := by
  unfold sampleRgba8
  split
  case h_1 =>
    obtain ⟨g, rfl⟩ := List.length_eq_one_iff.mp h
    exact ⟨_, rfl, iff_of_true rfl (by decide)⟩
  case h_2 | h_3 =>
    obtain ⟨g, a, rfl⟩ := List.length_eq_two.mp h
    exact ⟨_, rfl, iff_of_true rfl (by decide)⟩
  case h_4 | h_5 =>
    obtain ⟨r, g, b, rfl⟩ := List.length_eq_three.mp h
    exact ⟨_, rfl, iff_of_true rfl (by decide)⟩
  case h_13 =>
    refine ⟨none, rfl, iff_of_false nofun ?_⟩
    simp only [eightBit, List.mem_cons, List.not_mem_nil, or_false, not_or]
    exact ⟨‹_›, ‹_›, ‹_›, ‹_›, ‹_›, ‹_›, ‹_›, ‹_›, ‹_›, ‹_›, ‹_›, ‹_›⟩
  all_goals
    obtain ⟨r, g, b, a, rfl⟩ := List.length_eq_four.mp h
    exact ⟨_, rfl, iff_of_true rfl (by decide)⟩

/-- The pixels from `x` on are inside a row of whole pixels, and can all be
sampled or none of them. -/
theorem convertRow_returns (target : UInt32) {format : UInt32} {row : Bytes} {width n x : Nat}
    (hrow : row.length = width * bytesPerPixelNg format) (hx : x + n = width) :
    ∃ out, convertRow format target row n x = .ok out ∧
      (out.isSome = true ↔ format ∈ eightBit ∨ n = 0) := by
  induction n generalizing x with
  | zero => exact ⟨_, rfl, iff_of_true rfl (.inr rfl)⟩
  | succ n ih =>
    have hend : x * bytesPerPixelNg format + bytesPerPixelNg format ≤ row.length := by
      rw [hrow, ← Nat.succ_mul]
      exact Nat.mul_le_mul_right _ (by omega)
    obtain ⟨px, hpx, hsome⟩ := sampleRgba8_returns (length_window hend)
    obtain ⟨rest, hrest, hrestSome⟩ := ih (x := x + 1) (by omega)
    rw [convertRow, slice_window hend, ok_bind, hpx, ok_bind]
    cases px with
    | none => exact ⟨none, rfl, by simpa using hsome⟩
    | some rgba =>
      have hformat : format ∈ eightBit := hsome.mp rfl
      cases rest with
      | none => exact absurd (hrestSome.mpr (.inl hformat)) nofun
      | some rest =>
        dsimp only
        rw [hrest]
        exact ⟨_, rfl, iff_of_true rfl (.inl hformat)⟩

/-- The row after any row of a frame starts at an offset a `usize` can hold. -/
theorem RawFrame.nextRow_lt (src : RawFrame) {y : Nat} (hy : y < src.height.toNat) :
    y * src.stride.toNat + src.stride.toNat < usizeValues := by
  have hheight := src.height.toNat_lt
  rw [← Nat.succ_mul]
  calc (y + 1) * src.stride.toNat
      < 2 ^ 32 * 2 ^ 32 := Nat.mul_lt_mul'' (by omega) src.stride.toNat_lt
    _ = usizeValues := rfl

/-- The rows from `y` on are inside the offsets a `usize` can hold. When the
buffer has as many rows as the frame, only the format decides. -/
theorem convertRows_returns (target : UInt32) {src : RawFrame} {n y : Nat}
    (hrow : src.width.toNat * bytesPerPixelNg src.format ≤ src.stride.toNat)
    (hy : y + n ≤ src.height.toNat) :
    ∃ out, convertRows src target n y = .ok out ∧
      (src.stride.toNat * src.height.toNat ≤ src.data.length →
        (out.isSome = true ↔ src.format ∈ eightBit ∨ src.width.toNat = 0 ∨ n = 0)) := by
  induction n generalizing y with
  | zero => exact ⟨_, rfl, fun _ => iff_of_true rfl (.inr (.inr rfl))⟩
  | succ n ih =>
    have hnext := src.nextRow_lt (y := y) (by omega)
    have hlast : (y + 1) * src.stride.toNat ≤ src.stride.toNat * src.height.toNat := by
      rw [Nat.mul_comm src.stride.toNat]
      exact Nat.mul_le_mul_right _ (by omega)
    rw [Nat.succ_mul] at hlast
    obtain ⟨rest, hrest, hrestSome⟩ := ih (y := y + 1) (by omega)
    rw [convertRows, usizeMul_ok (by omega), ok_bind, usizeAdd_ok (by omega), ok_bind, getRange]
    split
    · rename_i h
      refine ⟨none, rfl, ?_⟩
      intro hdata
      rw [if_pos ⟨by omega, by omega⟩] at h
      cases h
    · rename_i row h
      have hlen : row.length = src.width.toNat * bytesPerPixelNg src.format := by
        split at h <;> cases h
        rw [List.length_take, List.length_drop]
        omega
      obtain ⟨out, hout, hsome⟩ := convertRow_returns target hlen (Nat.zero_add _)
      rw [hout, ok_bind]
      cases out with
      | none =>
        have hnone := mt hsome.mpr Bool.false_ne_true
        refine ⟨none, rfl, ?_⟩
        intro _
        apply iff_of_false Bool.false_ne_true
        rintro (h | h | h)
        · exact hnone (.inl h)
        · exact hnone (.inr h)
        · cases h
      | some out =>
        have hpixels := hsome.mp rfl
        dsimp only
        rw [hrest]
        cases rest with
        | none =>
          refine ⟨none, rfl, ?_⟩
          intro hdata
          have hread := (hrestSome hdata).mpr (hpixels.imp id .inl)
          exact absurd hread Bool.false_ne_true
        | some rest =>
          refine ⟨_, rfl, ?_⟩
          intro _
          exact iff_of_true rfl (hpixels.imp id .inl)

/-- The conversion returns on every frame, whatever its fields, where the output can be
allocated. -/
theorem convertLayout_returns (src : RawFrame) (target : UInt32) :
    ∃ out, convertLayout src target = .ok out := by
  rw [convertLayout]
  split
  · exact ⟨_, rfl⟩
  split
  · exact ⟨_, rfl⟩
  · rename_i hrow
    obtain ⟨out, hout, -⟩ := convertRows_returns target
      (Nat.not_lt.mp hrow) (Nat.le_of_eq (Nat.zero_add _))
    rw [hout, ok_bind]
    cases out <;> exact ⟨_, rfl⟩

theorem maybeConvert_returns (frame : RawFrame) (mask : UInt32) :
    ∃ out, maybeConvert frame mask = .ok out := by
  unfold maybeConvert
  split
  · exact ⟨_, rfl⟩
  split
  · exact ⟨_, rfl⟩
  split
  · exact ⟨_, rfl⟩
  split
  · exact ⟨_, rfl⟩
  · rename_i target _
    obtain ⟨out, hout⟩ := convertLayout_returns frame target
    exact ⟨_, by rw [hout]; rfl⟩

/-! ## Frames that stay as they are -/

/-- The checks `Texture::from_parts` has made on the frame of a texture. -/
structure RawFrame.Valid (frame : RawFrame) : Prop where
  bpp_ne : bytesPerPixelNg frame.format ≠ 0
  row_le : frame.width.toNat * bytesPerPixelNg frame.format ≤ frame.stride.toNat
  data_length : frame.data.length = frame.stride.toNat * frame.height.toNat

/-- A valid frame is converted exactly when its format can be read or it has no pixel. -/
theorem convertLayout_valid {src : RawFrame} (h : src.Valid) {target : UInt32}
    (htarget : bytesPerPixelNg target ≠ 0) :
    ∃ out, convertLayout src target = .ok out ∧ (∀ o ∈ out, o.format = target) ∧
      (out.isSome = true ↔
        src.format ∈ eightBit ∨ src.width.toNat = 0 ∨ src.height.toNat = 0) := by
  obtain ⟨out, hout, hsome⟩ := convertRows_returns target h.row_le
    (Nat.le_of_eq (Nat.zero_add src.height.toNat))
  have hsome := hsome (Nat.le_of_eq h.data_length.symm)
  rw [convertLayout, if_neg (not_or.mpr ⟨h.bpp_ne, htarget⟩), if_neg (Nat.not_lt.mpr h.row_le),
    hout, ok_bind]
  cases out with
  | none => exact ⟨none, rfl, nofun, hsome⟩
  | some out => exact ⟨some _, rfl, by rintro _ ⟨⟩; rfl, hsome⟩

/-- A target is accepted and can be written. -/
theorem pickTarget_some {src selection target : UInt32}
    (h : pickTarget src selection = some target) :
    selectionAccepts selection target = true ∧ bytesPerPixelNg target ≠ 0 := by
  refine ⟨List.find?_some h, ?_⟩
  rcases List.mem_append.mp (List.mem_of_find?_eq_some h) with hmem | hmem
  · unfold straight at hmem
    split at hmem <;> cases hmem <;> first | decide | contradiction
  · simp only [priority, List.mem_cons, List.not_mem_nil, or_false] at hmem
    rcases hmem with rfl | rfl | rfl | rfl | rfl | rfl | rfl <;> decide

/-- The mask leaves frames of this format and size as they are: it is empty or
has an unknown bit, it accepts the format, it accepts nothing that can be
written, or there are pixels and the format cannot be read. -/
def LeavesAlone (mask format width height : UInt32) : Prop :=
  mask = 0 ∨ selectionFromBits mask = none ∨ selectionAccepts mask format = true ∨
    pickTarget format mask = none ∨ (format ∉ eightBit ∧ width.toNat ≠ 0 ∧ height.toNat ≠ 0)

/-- These are the frames that `maybe_convert` returns unchanged. -/
theorem maybeConvert_eq_self_iff {frame : RawFrame} (h : frame.Valid) (mask : UInt32) :
    maybeConvert frame mask = .ok frame ↔
      LeavesAlone mask frame.format frame.width frame.height := by
  rw [LeavesAlone]
  by_cases hzero : mask = 0
  · subst hzero
    exact iff_of_true rfl (.inl rfl)
  rw [maybeConvert, if_neg hzero]
  cases hselection : selectionFromBits mask with
  | none => exact iff_of_true rfl (.inr (.inl rfl))
  | some selection =>
    obtain rfl : mask = selection := by
      rw [selectionFromBits] at hselection
      split at hselection <;> cases hselection
      rfl
    dsimp only
    cases haccepts : selectionAccepts mask frame.format with
    | true => exact iff_of_true rfl (.inr (.inr (.inl rfl)))
    | false =>
      rw [if_neg nofun]
      cases htarget : pickTarget frame.format mask with
      | none => exact iff_of_true rfl (.inr (.inr (.inr (.inl rfl))))
      | some target =>
        obtain ⟨hchosen, hwrite⟩ := pickTarget_some htarget
        obtain ⟨out, hout, hformat, hsome⟩ := convertLayout_valid h hwrite
        dsimp only
        rw [hout, ok_bind]
        cases out with
        | none =>
          refine iff_of_true rfl (.inr (.inr (.inr (.inr ?_))))
          simpa using mt hsome.mpr nofun
        | some out =>
          -- the target is accepted and the format of the frame is not
          have hne : out ≠ frame := by
            rintro rfl
            rw [hformat out rfl, hchosen] at haccepts
            cases haccepts
          have hread := hsome.mp rfl
          apply iff_of_false
          · intro hsame
            exact hne (Except.ok.inj hsame)
          · rintro (h | h | h | h | ⟨hformat, hwidth, hheight⟩)
            · exact hzero h
            · cases h
            · cases h
            · cases h
            · rcases hread with h | h | h
              · exact hformat h
              · exact hwidth h
              · exact hheight h

end GlycinNg.Shim
