import GlycinNg.Rust.Num

/-! # Crate errors and per-decode resource caps

`error.rs` and `limits.rs`. `Error` carries the texts the source attaches, so
that a claim about which error a decoder returns is a claim about the code. -/
namespace GlycinNg
open Rust

/-- `error::Error`. -/
inductive Error where
  | io (message : String)
  | unsupportedFormat
  | sandboxUnavailable (layer : String)
  | limitExceeded (which : String)
  | truncated (what : String)
  | malformed (message : String)
  | decoder (format message : String)
  | encoder (format message : String)
  | internal (message : String)
  deriving DecidableEq, Repr

/-- `limits::Limits`. -/
structure Limits where
  maxWidth : UInt32
  maxHeight : UInt32
  maxPixels : UInt64
  maxFrames : UInt32
  maxAnimationDuration : Duration
  decodeMemoryMib : UInt64
  decodeCpuSeconds : UInt64
  deriving DecidableEq, Repr

namespace Limits

/-- `Limits::default`. -/
def default : Limits where
  maxWidth := 32768
  maxHeight := 32768
  maxPixels := 256 * 1024 * 1024
  maxFrames := 1024
  maxAnimationDuration := Duration.fromSecs 60
  decodeMemoryMib := 512
  decodeCpuSeconds := 30

/-- `Limits::unlimited`. -/
def unlimited : Limits where
  maxWidth := 0xffffffff
  maxHeight := 0xffffffff
  maxPixels := 0xffffffffffffffff
  maxFrames := 0xffffffff
  maxAnimationDuration := Duration.max
  decodeMemoryMib := 0xffffffffffffffff
  decodeCpuSeconds := 0xffffffffffffffff

/-- `Limits::check_dimensions`. -/
def checkDimensions (l : Limits) (width height frames : UInt32) : Except Error Unit :=
  if width > l.maxWidth then .error (.limitExceeded "max_width")
  else if height > l.maxHeight then .error (.limitExceeded "max_height")
  else if frames > l.maxFrames then .error (.limitExceeded "max_frames")
  else
    let total := (u64CheckedMul width.toUInt64 height.toUInt64).bind
      fun p => u64CheckedMul p frames.toUInt64
    match total with
    | some p => if p > l.maxPixels then .error (.limitExceeded "max_pixels") else .ok ()
    | none => .error (.limitExceeded "max_pixels")

/-- `frames` pictures of `width` by `height` respect the four spatial caps, with
the pixel total computed without bound. -/
def Fits (l : Limits) (width height frames : UInt32) : Prop :=
  width ≤ l.maxWidth ∧ height ≤ l.maxHeight ∧ frames ≤ l.maxFrames ∧
    width.toNat * height.toNat * frames.toNat ≤ l.maxPixels.toNat

instance (l : Limits) (width height frames : UInt32) : Decidable (l.Fits width height frames) :=
  inferInstanceAs (Decidable (_ ∧ _ ∧ _ ∧ _))

/-- Two `u32` factors never overflow a `u64`. -/
theorem mul_u32_lt (a b : UInt32) : a.toNat * b.toNat < 2 ^ 64 := by
  have ha := a.toNat_lt
  have hb := b.toNat_lt
  calc a.toNat * b.toNat < 2 ^ 32 * 2 ^ 32 := Nat.mul_lt_mul'' ha hb
    _ = 2 ^ 64 := rfl

/-- The checked `u64` product decides the unbounded pixel cap. -/
theorem checkDimensions_ok_iff {l : Limits} {width height frames : UInt32} :
    l.checkDimensions width height frames = .ok () ↔ l.Fits width height frames := by
  have hp : u64CheckedMul width.toUInt64 height.toUInt64 =
      some (width.toUInt64 * height.toUInt64) := if_pos (by simpa using mul_u32_lt width height)
  have hpn : (width.toUInt64 * height.toUInt64).toNat = width.toNat * height.toNat := by
    rw [UInt64.toNat_mul]
    exact Nat.mod_eq_of_lt (mul_u32_lt width height)
  have hmax := l.maxPixels.toNat_lt
  simp only [checkDimensions, Fits, hp, Option.bind_some, ← UInt32.not_lt, gt_iff_lt]
  cases ht : u64CheckedMul (width.toUInt64 * height.toUInt64) frames.toUInt64 with
  | none =>
    rw [u64CheckedMul_eq_none, hpn, UInt32.toNat_toUInt64] at ht
    have : ¬ width.toNat * height.toNat * frames.toNat ≤ l.maxPixels.toNat := by omega
    split_ifs <;> simp_all
  | some p =>
    rw [u64CheckedMul_eq_some, hpn, UInt32.toNat_toUInt64] at ht
    simp only [← ht, UInt64.lt_iff_toNat_lt]
    split_ifs <;> simp_all

/-- A pixel count above `u64::MAX` is over every cap. -/
example : unlimited.checkDimensions 0xffffffff 0xffffffff 0xffffffff =
    .error (.limitExceeded "max_pixels") := by decide

/-- `check_dimensions` either accepts or reports an exceeded limit. -/
theorem checkDimensions_error {l : Limits} {width height frames : UInt32}
    (h : ¬ l.Fits width height frames) :
    ∃ which, l.checkDimensions width height frames = .error (.limitExceeded which) := by
  rw [← checkDimensions_ok_iff] at h
  unfold checkDimensions at h ⊢
  split
  · exact ⟨"max_width", rfl⟩
  split
  · exact ⟨"max_height", rfl⟩
  split
  · exact ⟨"max_frames", rfl⟩
  dsimp only at h ⊢
  split
  · split
    · exact ⟨"max_pixels", rfl⟩
    · simp_all
  · exact ⟨"max_pixels", rfl⟩

theorem checkDimensions_limit {l : Limits} {width height frames : UInt32} {e : Error}
    (h : l.checkDimensions width height frames = .error e) : ∃ which, e = .limitExceeded which := by
  have hfit : ¬ l.Fits width height frames := by
    intro hfit
    rw [checkDimensions_ok_iff.mpr hfit] at h
    cases h
  obtain ⟨which, hw⟩ := checkDimensions_error hfit
  rw [hw, Except.error.injEq] at h
  exact ⟨which, h.symm⟩

end Limits

end GlycinNg
