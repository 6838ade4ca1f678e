import GlycinNg.Shim.Pixels
import Mathlib.Data.Nat.Bitwise

/-! # Selections and what they get

A caller's mask against the formats by name. `conversion_sound`: a frame is handed out as
it is or in a selected format with every pixel carried over. `selection_met_iff`: a mask
that could be met is, unless it asks for A8B8G8R8 alone, which the list of targets leaves
out. -/
namespace GlycinNg.Shim
open Rust CApi

/-! ## Masks by name -/

/-- The constants of `Selection`, each with the number of its bit. -/
def selectionBits : List (UInt32 × Nat) :=
  [(formatB8g8r8a8Pre, 0), (formatA8r8g8b8Pre, 1), (formatR8g8b8a8Pre, 2), (formatB8g8r8a8, 3),
    (formatA8r8g8b8, 4), (formatR8g8b8a8, 5), (formatA8b8g8r8, 6), (formatR8g8b8, 7),
    (formatB8g8r8, 8), (formatR16g16b16, 9), (formatR16g16b16a16Pre, 10),
    (formatR16g16b16a16, 11), (formatR16g16b16F, 12), (formatR16g16b16a16F, 13),
    (formatR32g32b32F, 14), (formatR32g32b32a32FPre, 15), (formatR32g32b32a32F, 16),
    (formatG8a8Pre, 17), (formatG8a8, 18), (formatG8, 19), (formatG16a16Pre, 20),
    (formatG16a16, 21), (formatG16, 22)]

/-- The bit of the format is set in the mask. -/
def Selects (mask format : UInt32) : Prop :=
  ∃ c ∈ selectionBits, c.1 = format ∧ mask.toNat.testBit c.2 = true

instance decidableSelects (mask format : UInt32) : Decidable (Selects mask format) :=
  inferInstanceAs (Decidable (∃ c ∈ selectionBits, c.1 = format ∧ mask.toNat.testBit c.2 = true))

/-- The numbering of `GlyMemoryFormat` is that of the bits. -/
theorem ngToGly_of_mem {c : UInt32 × Nat} (h : c ∈ selectionBits) : ngToGly c.1 = c.2 := by
  have hall : selectionBits.all (fun c => ngToGly c.1 == c.2) = true := by decide
  simpa using List.all_eq_true.mp hall c h

/-- Every format constant has one. -/
theorem mem_selectionBits {format : UInt32} (h : bytesPerPixelNg format ≠ 0) :
    (format, ngToGly format) ∈ selectionBits := by
  unfold bytesPerPixelNg at h
  split at h
  all_goals first | exact absurd rfl h | decide

theorem toNat_selectionBit {n : Nat} (h : n ≤ 22) :
    ((1 <<< UInt32.ofNat n) &&& selectionAll).toNat = 2 ^ n := by
  have hall : ∀ n < 23, ((1 <<< UInt32.ofNat n) &&& selectionAll).toNat = 2 ^ n := by decide
  exact hall n (Nat.lt_succ_of_le h)

theorem selectionAccepts_iff_testBit {mask format : UInt32} :
    selectionAccepts mask format = true ↔ mask.toNat.testBit (ngToGly format) = true := by
  have hbit := toNat_selectionBit (ngToGly_le format)
  rw [selectionAccepts, bne_iff_ne, ne_eq, ← UInt32.toNat_inj, UInt32.toNat_and, hbit,
    Nat.and_two_pow]
  cases mask.toNat.testBit (ngToGly format) <;> simp

/-- `selection_accepts` tests the bit of the format. -/
theorem selectionAccepts_iff {mask format : UInt32} (h : bytesPerPixelNg format ≠ 0) :
    selectionAccepts mask format = true ↔ Selects mask format := by
  rw [selectionAccepts_iff_testBit]
  constructor
  · intro hbit
    exact ⟨_, mem_selectionBits h, rfl, hbit⟩
  · rintro ⟨c, hmem, rfl, hbit⟩
    rw [ngToGly_of_mem hmem]
    exact hbit

/-! ## Targets -/

/-- The list of targets is what `emit_pixel` has branches for, without A8B8G8R8. -/
theorem mem_emitted_iff {f : UInt32} : f ∈ emitted ↔ f = formatA8b8g8r8 ∨ f ∈ priority := by
  simp only [emitted, priority, List.mem_cons, List.not_mem_nil, or_false]
  tauto

/-- The straight equivalent of a format that can be read is on the list. -/
theorem straight_mem_priority {src target : UInt32} (hread : src ∈ eightBit)
    (h : straight src = some target) : target ∈ priority := by
  unfold straight at h
  split at h
  case h_5 => exact absurd hread (by decide)
  case h_6 => cases h
  all_goals
    obtain rfl := Option.some.inj h
    decide

/-- A target is on the list, or is the straight equivalent of a format that cannot be
read. -/
theorem pickTarget_mem {src selection target : UInt32}
    (h : pickTarget src selection = some target) :
    target ∈ priority ∨ (src ∉ eightBit ∧ target = formatG16a16) := by
  rcases List.mem_append.mp (List.mem_of_find?_eq_some h) with hmem | hmem
  · by_cases hread : src ∈ eightBit
    · exact .inl (straight_mem_priority hread (Option.mem_toList.mp hmem))
    · refine .inr ⟨hread, ?_⟩
      have hstraight := Option.mem_toList.mp hmem
      unfold straight at hstraight
      split at hstraight
      case h_5 => exact (Option.some.inj hstraight).symm
      case h_6 => cases hstraight
      all_goals exact absurd (by decide) hread
  · exact .inl hmem

/-- There is none exactly when nothing on the list is selected. -/
theorem pickTarget_eq_none {src selection : UInt32} (hread : src ∈ eightBit) :
    pickTarget src selection = none ↔ ∀ f ∈ priority, selectionAccepts selection f = false := by
  rw [pickTarget, List.find?_eq_none]
  constructor
  · intro h f hf
    simpa using h f (List.mem_append_right _ hf)
  · intro h f hf
    have hmem : f ∈ priority := by
      rcases List.mem_append.mp hf with hf | hf
      · exact straight_mem_priority hread (Option.mem_toList.mp hf)
      · exact hf
    simpa using h f hmem

theorem pickTarget_writable {src selection target : UInt32}
    (h : pickTarget src selection = some target) :
    target ∈ emitted ∨ bytesPerPixelNg target = 4 := by
  rcases pickTarget_mem h with hmem | ⟨-, rfl⟩
  · exact .inl (mem_emitted_iff.mpr (.inr hmem))
  · exact .inr rfl

/-! ## What `maybe_convert` returns -/

namespace RawFrame

instance decidableReadable (f : RawFrame) : Decidable f.Readable :=
  inferInstanceAs (Decidable (f.format ∈ eightBit ∨ f.width.toNat = 0 ∨ f.height.toNat = 0))

/-- What the limits of the shim leave of the frames of a texture; the format can be any
number. -/
structure Sized (f : RawFrame) : Prop where
  row_le : f.width.toNat * bytesPerPixelNg f.format ≤ f.stride.toNat
  data_length : f.data.length = f.stride.toNat * f.height.toNat
  width_le : f.width.toNat ≤ 65535

theorem Sized.complete {f : RawFrame} (h : f.Sized) : f.Complete where
  row_le := h.row_le
  holds := by
    intro y hy
    have hrow := h.row_le
    have hend := Raster.cell_end_le (b := f.stride.toNat) hy
    rw [h.data_length, Nat.mul_comm f.stride.toNat]
    omega

/-- The format the frame is converted to, `none` where it is left alone. -/
def conversionTarget (mask : UInt32) (f : RawFrame) : Option UInt32 :=
  if mask = 0 ∨ mask &&& ~~~selectionAll ≠ 0 ∨ selectionAccepts mask f.format = true then none
  else if bytesPerPixelNg f.format = 0 ∨ ¬ f.Readable then none
  else pickTarget f.format mask

end RawFrame

variable {frame : RawFrame} {mask : UInt32}

/-- A frame in a selected format passes. -/
theorem maybeConvert_of_accepts (h : selectionAccepts mask frame.format = true) :
    maybeConvert frame mask = .ok frame := by
  unfold maybeConvert
  split
  · rfl
  split
  · rfl
  · rename_i selection hselection
    obtain rfl : mask = selection := by
      rw [selectionFromBits] at hselection
      split at hselection <;> cases hselection
      rfl
    rw [if_pos h]
    rfl

/-- Where the format is unknown, or there are pixels and they cannot be read, there is no
conversion. -/
theorem convertLayout_eq_none (h : frame.Sized) {target : UInt32}
    (htarget : bytesPerPixelNg target ≠ 0)
    (hread : bytesPerPixelNg frame.format = 0 ∨ ¬ frame.Readable) :
    convertLayout frame target = .ok none := by
  by_cases hbpp : bytesPerPixelNg frame.format = 0
  · rw [convertLayout, if_pos (.inl hbpp)]
    rfl
  · obtain ⟨out, hout, -, hsome⟩ :=
      convertLayout_valid ⟨hbpp, h.row_le, h.data_length⟩ htarget
    have hnone := mt hsome.mp (hread.resolve_left hbpp)
    rw [hout, Option.not_isSome_iff_eq_none.mp hnone]

/-- The target that is chosen decides what is returned. -/
theorem maybeConvert_eq (h : frame.Sized) (mask : UInt32) :
    maybeConvert frame mask = .ok ((frame.conversionTarget mask).elim frame frame.converted) := by
  unfold RawFrame.conversionTarget
  by_cases hpass : mask = 0 ∨ mask &&& ~~~selectionAll ≠ 0 ∨
      selectionAccepts mask frame.format = true
  · rw [if_pos hpass]
    rcases hpass with rfl | hunknown | haccepts
    · rfl
    · rw [maybeConvert, selectionFromBits, if_neg hunknown]
      exact ite_self _
    · exact maybeConvert_of_accepts haccepts
  · rw [if_neg hpass]
    simp only [not_or, not_not] at hpass
    obtain ⟨hzero, hknown, hnot⟩ := hpass
    rw [maybeConvert, if_neg hzero, selectionFromBits, if_pos hknown]
    dsimp only
    rw [if_neg hnot]
    cases htarget : pickTarget frame.format mask with
    | none =>
      rw [ite_self]
      rfl
    | some target =>
      obtain ⟨-, hwrite⟩ := pickTarget_some htarget
      dsimp only
      split_ifs with hread
      · rw [convertLayout_eq_none h hwrite hread]
        rfl
      · rw [not_or, not_not] at hread
        rw [convertLayout_eq_converted h.complete hread.2 hread.1 hwrite]
        rfl

/-- A target is selected and can be written, and the frame can be read. -/
theorem conversionTarget_some {target : UInt32} (h : frame.conversionTarget mask = some target) :
    selectionAccepts mask target = true ∧ pickTarget frame.format mask = some target ∧
      bytesPerPixelNg frame.format ≠ 0 ∧ frame.Readable := by
  rw [RawFrame.conversionTarget] at h
  split_ifs at h with _ hread
  rw [not_or, not_not] at hread
  exact ⟨(pickTarget_some h).1, h, hread⟩

/-! ## Conversion is sound -/

/-- The frame in a format of the mask, whole and without padding. Its format is one that
`emit_pixel` has a branch for wherever there is a pixel to write. -/
structure ConvertedFrom (frame : RawFrame) (mask : UInt32) (out : RawFrame) : Prop where
  width : out.width = frame.width
  height : out.height = frame.height
  delay : out.delayMs = frame.delayMs
  selected : Selects mask out.format
  stride : out.stride.toNat = out.width.toNat * bytesPerPixelNg out.format
  data_length : out.data.length = out.stride.toNat * out.height.toNat
  pixels : ∀ x < frame.width.toNat, ∀ y < frame.height.toNat,
    out.format ∈ emitted ∧ ∃ px, sampleRgba8 frame.format (frame.pixel x y) = .ok (some px) ∧
      out.pixel x y = emitPixel out.format px

/-- Frames that differ in their strides and padding at most. -/
structure SamePixels (frame other : RawFrame) : Prop where
  width : frame.width = other.width
  height : frame.height = other.height
  format : frame.format = other.format
  delay : frame.delayMs = other.delayMs
  pixels : ∀ x < frame.width.toNat, ∀ y < frame.height.toNat, frame.pixel x y = other.pixel x y

theorem SamePixels.conversionTarget_eq {other : RawFrame} (h : SamePixels frame other)
    (mask : UInt32) : frame.conversionTarget mask = other.conversionTarget mask := by
  have hread : frame.Readable ↔ other.Readable := by
    rw [RawFrame.Readable, RawFrame.Readable, h.width, h.height, h.format]
  simp only [RawFrame.conversionTarget, h.format, hread]

/-- What is converted is converted soundly. -/
theorem convertedFrom_of_target (h : frame.Sized) {target : UInt32}
    (htarget : frame.conversionTarget mask = some target) :
    ConvertedFrom frame mask (frame.converted target) := by
  obtain ⟨haccepts, hpick, hbpp, hread⟩ := conversionTarget_some htarget
  have hwritable := pickTarget_writable hpick
  have hwrite : bytesPerPixelNg target ≠ 0 := (pickTarget_some hpick).2
  have hsmall : frame.width.toNat * bytesPerPixelNg target < 2 ^ 32 := by
    calc frame.width.toNat * bytesPerPixelNg target
        ≤ 65535 * 16 := Nat.mul_le_mul h.width_le (bytesPerPixelNg_le target)
      _ < 2 ^ 32 := by decide
  refine ⟨rfl, rfl, rfl, (selectionAccepts_iff hwrite).mp haccepts, converted_stride hsmall,
    converted_data_length h.complete hwritable hsmall, ?_⟩
  intro x hx y hy
  have hformat : frame.format ∈ eightBit := by
    rcases hread with hread | hread | hread
    · exact hread
    · omega
    · omega
  have hlen := h.complete.length_pixel hx hy
  refine ⟨?_, _, sampleRgba8_eq_rgba hformat hlen,
    pixel_converted h.complete hwritable hsmall hx hy⟩
  rcases pickTarget_mem hpick with hmem | ⟨hnot, -⟩
  · exact mem_emitted_iff.mpr (.inr hmem)
  · exact absurd hformat hnot

/-- Whatever its format and the mask, a frame is handed out as it is or converted whole;
a second conversion changes nothing, and strides and padding play no part. -/
theorem conversion_sound (frame : RawFrame) (h : frame.Sized) (mask : UInt32) :
    ∃ out, maybeConvert frame mask = .ok out ∧
      (out = frame ∨ ConvertedFrom frame mask out) ∧
      maybeConvert out mask = .ok out ∧
      ∀ other : RawFrame, other.Sized → SamePixels frame other →
        ∃ out', maybeConvert other mask = .ok out' ∧
          (out = frame ∧ out' = other ∨ out' = out) := by
  refine ⟨_, maybeConvert_eq h mask, ?_⟩
  cases htarget : frame.conversionTarget mask with
  | none =>
    have hself := maybeConvert_eq h mask
    rw [htarget] at hself
    refine ⟨.inl rfl, hself, ?_⟩
    intro other hother hsame
    refine ⟨_, maybeConvert_eq hother mask, .inl ⟨rfl, ?_⟩⟩
    rw [← hsame.conversionTarget_eq, htarget]
    rfl
  | some target =>
    obtain ⟨haccepts, -⟩ := conversionTarget_some htarget
    refine ⟨.inr (convertedFrom_of_target h htarget), maybeConvert_of_accepts haccepts, ?_⟩
    intro other hother hsame
    refine ⟨_, maybeConvert_eq hother mask, .inr ?_⟩
    rw [← hsame.conversionTarget_eq, htarget]
    exact (converted_congr hsame.width hsame.height hsame.format hsame.delay hsame.pixels).symm

/-- Half-transparent grey, one premultiplied pixel. -/
def premulPixel : RawFrame := ⟨1, 1, 4, formatR8g8b8a8Pre, [64, 64, 64, 128], 0⟩

theorem conversion_sound_premulPixel :
    premulPixel.Sized ∧ ∃ out, maybeConvert premulPixel 32 = .ok out ∧
      ConvertedFrom premulPixel 32 out := by
  have hsized : premulPixel.Sized := ⟨by decide, by decide, by decide⟩
  obtain ⟨out, hout, hsound, -⟩ := conversion_sound premulPixel hsized 32
  have hconverts : maybeConvert premulPixel 32 ≠ .ok premulPixel := by decide +kernel
  refine ⟨hsized, out, hout, hsound.resolve_left ?_⟩
  rintro rfl
  exact hconverts hout

/-! ## Selections that are met -/

/-- Of the formats that can be written the mask selects A8B8G8R8 alone, and it does not
select the frame's own. -/
def OnlyA8b8g8r8 (mask format : UInt32) : Prop :=
  ¬ Selects mask format ∧ ∀ f ∈ emitted, Selects mask f ↔ f = formatA8b8g8r8

theorem notMem_priority : formatA8b8g8r8 ∉ priority := by decide

/-- With a mask of known bits that does not select the frame's own format, the list of
targets decides. -/
theorem conversionTarget_eq_pickTarget (hread : frame.format ∈ eightBit)
    (hknown : mask &&& ~~~selectionAll = 0) (hnot : ¬ Selects mask frame.format) :
    frame.conversionTarget mask = pickTarget frame.format mask := by
  have hbpp := bytesPerPixelNg_ne_of_eightBit hread
  have haccepts : selectionAccepts mask frame.format = false := by
    simpa using mt (selectionAccepts_iff hbpp).mp hnot
  by_cases hzero : mask = 0
  · subst hzero
    have hnone : pickTarget frame.format 0 = none := by
      rw [pickTarget_eq_none hread]
      intro f _
      simp [selectionAccepts]
    rw [hnone]
    rfl
  · rw [RawFrame.conversionTarget, if_neg (by simp [hzero, hknown, haccepts]),
      if_neg (not_or.mpr ⟨hbpp, not_not.mpr (.inl hread)⟩)]

/-- There is a target exactly when the list has a selected format. -/
theorem pickTarget_eq_none_iff {format : UInt32} (hread : format ∈ eightBit) :
    pickTarget format mask = none ↔ ∀ f ∈ priority, ¬ Selects mask f := by
  rw [pickTarget_eq_none hread]
  apply forall₂_congr
  intro f hf
  have hbpp := bytesPerPixelNg_ne_of_emitted (mem_emitted_iff.mpr (.inr hf))
  rw [← selectionAccepts_iff hbpp, Bool.not_eq_true]

/-- Nothing on the list is selected, and A8B8G8R8 is. -/
theorem onlyA8b8g8r8_iff {format : UInt32} : OnlyA8b8g8r8 mask format ↔
    ¬ Selects mask format ∧ (∀ f ∈ priority, ¬ Selects mask f) ∧ Selects mask formatA8b8g8r8 := by
  have hmem : formatA8b8g8r8 ∈ emitted := mem_emitted_iff.mpr (.inl rfl)
  refine and_congr_right fun _ => ?_
  constructor
  · intro honly
    refine ⟨?_, (honly _ hmem).mpr rfl⟩
    intro f hf hsel
    have heq := (honly f (mem_emitted_iff.mpr (.inr hf))).mp hsel
    exact notMem_priority (heq ▸ hf)
  · intro ⟨hnone, hsel⟩ f hf
    rcases mem_emitted_iff.mp hf with rfl | hf
    · exact iff_of_true hsel rfl
    · exact iff_of_false (hnone f hf) fun heq => notMem_priority (heq ▸ hf)

/-- A mask that could be met is, but for one that asks for A8B8G8R8 alone. -/
theorem selection_met_iff (frame : RawFrame) (h : frame.Valid)
    (hmax : frame.width.toNat ≤ 65535) (hread : frame.format ∈ eightBit) (mask : UInt32)
    (hknown : mask &&& ~~~selectionAll = 0) :
    (∃ out, maybeConvert frame mask = .ok out ∧
      (Selects mask frame.format ∨ (∃ f ∈ emitted, Selects mask f) → Selects mask out.format)) ↔
      ¬ OnlyA8b8g8r8 mask frame.format := by
  have hsized : frame.Sized := ⟨h.row_le, h.data_length, hmax⟩
  have hbpp := bytesPerPixelNg_ne_of_eightBit hread
  rw [maybeConvert_eq hsized]
  by_cases hown : Selects mask frame.format
  · -- the frame passes
    have htarget : frame.conversionTarget mask = none := by
      rw [RawFrame.conversionTarget,
        if_pos (.inr (.inr ((selectionAccepts_iff hbpp).mpr hown)))]
    rw [htarget]
    exact iff_of_true ⟨frame, rfl, fun _ => hown⟩ fun honly => honly.1 hown
  · rw [conversionTarget_eq_pickTarget hread hknown hown]
    cases hpick : pickTarget frame.format mask with
    | some target =>
      obtain ⟨haccepts, hwrite⟩ := pickTarget_some hpick
      refine iff_of_true ⟨_, rfl, fun _ => (selectionAccepts_iff hwrite).mp haccepts⟩ ?_
      intro honly
      have hnone := (pickTarget_eq_none_iff hread).mpr (onlyA8b8g8r8_iff.mp honly).2.1
      cases hpick.symm.trans hnone
    | none =>
      -- nothing on the list is selected: what is selected can only be A8B8G8R8
      have hnone := (pickTarget_eq_none_iff hread).mp hpick
      have honly : OnlyA8b8g8r8 mask frame.format ↔ Selects mask formatA8b8g8r8 := by
        rw [onlyA8b8g8r8_iff]
        exact ⟨fun h => h.2.2, fun h => ⟨hown, hnone, h⟩⟩
      rw [honly]
      constructor
      · intro ⟨out, hout, hmet⟩ hsel
        cases hout
        exact hown (hmet (.inr ⟨_, mem_emitted_iff.mpr (.inl rfl), hsel⟩))
      · intro hnot
        refine ⟨frame, rfl, ?_⟩
        rintro (hsel | ⟨f, hf, hsel⟩)
        · exact hsel
        · rcases mem_emitted_iff.mp hf with rfl | hf
          · exact absurd hsel hnot
          · exact absurd hsel (hnone f hf)

theorem selection_met_iff_premulPixel :
    ∃ out, maybeConvert premulPixel 32 = .ok out ∧
      (Selects 32 premulPixel.format ∨ (∃ f ∈ emitted, Selects 32 f) → Selects 32 out.format) := by
  refine (selection_met_iff premulPixel ⟨by decide, by decide, by decide⟩ (by decide) (by decide) 32
    (by decide)).mpr ?_
  intro honly
  have heq := (honly.2 formatR8g8b8a8 (by decide)).mp (by decide)
  exact absurd heq (by decide)

/-- A pixel of R8G8B8A8 stays as it is for a caller that takes A8B8G8R8 alone. -/
theorem selection_not_met :
    ¬ ∀ frame : RawFrame, frame.Valid → 0 < frame.width.toNat → 0 < frame.height.toNat →
      frame.width.toNat ≤ 65535 → frame.format ∈ eightBit →
      ∀ mask : UInt32, mask &&& ~~~selectionAll = 0 →
        (Selects mask frame.format ∨ ∃ f ∈ emitted, Selects mask f) →
          ∃ out, maybeConvert frame mask = .ok out ∧ Selects mask out.format := by
  intro h
  obtain ⟨out, hout, hselects⟩ := h ⟨1, 1, 4, formatR8g8b8a8, [10, 20, 30, 40], 0⟩
    ⟨by decide, by decide, by decide⟩ (by decide) (by decide) (by decide) (by decide) 64
    (by decide) (.inr ⟨formatA8b8g8r8, by decide, by decide⟩)
  have hsame : maybeConvert ⟨1, 1, 4, formatR8g8b8a8, [10, 20, 30, 40], 0⟩ 64 =
      .ok ⟨1, 1, 4, formatR8g8b8a8, [10, 20, 30, 40], 0⟩ := by decide +kernel
  obtain rfl := Except.ok.inj (hsame.symm.trans hout)
  exact absurd hselects (by decide)

end GlycinNg.Shim
