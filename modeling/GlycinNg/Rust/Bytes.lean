import GlycinNg.Rust.Checked

/-! # Integers as bytes, and buffers filled in place

`to_be_bytes`/`from_be_bytes` and their little-endian twins at 16 and 32 bits,
and the effect of a callee that writes into the front of a caller's buffer. -/
namespace Rust

/-- `u16::from_be_bytes` or `u16::from_le_bytes`. -/
def u16OfBytes (bigEndian : Bool) (b₀ b₁ : UInt8) : UInt16 :=
  if bigEndian then UInt16.ofNat (b₀.toNat * 256 + b₁.toNat)
  else UInt16.ofNat (b₁.toNat * 256 + b₀.toNat)

/-- `u16::to_be_bytes` or `u16::to_le_bytes`. -/
def u16Bytes (bigEndian : Bool) (v : UInt16) : Bytes :=
  let hi := UInt8.ofNat (v.toNat / 256)
  let lo := UInt8.ofNat v.toNat
  if bigEndian then [hi, lo] else [lo, hi]

/-- `u32::from_be_bytes` or `u32::from_le_bytes`. -/
def u32OfBytes (bigEndian : Bool) (b₀ b₁ b₂ b₃ : UInt8) : UInt32 :=
  if bigEndian then
    UInt32.ofNat (((b₀.toNat * 256 + b₁.toNat) * 256 + b₂.toNat) * 256 + b₃.toNat)
  else UInt32.ofNat (((b₃.toNat * 256 + b₂.toNat) * 256 + b₁.toNat) * 256 + b₀.toNat)

/-- `u32::to_be_bytes` or `u32::to_le_bytes`. -/
def u32Bytes (bigEndian : Bool) (v : UInt32) : Bytes :=
  let b₀ := UInt8.ofNat v.toNat
  let b₁ := UInt8.ofNat (v.toNat / 256)
  let b₂ := UInt8.ofNat (v.toNat / 65536)
  let b₃ := UInt8.ofNat (v.toNat / 16777216)
  if bigEndian then [b₃, b₂, b₁, b₀] else [b₀, b₁, b₂, b₃]

@[simp] theorem length_u16Bytes (bigEndian : Bool) (v : UInt16) :
    (u16Bytes bigEndian v).length = 2 := by
  cases bigEndian <;> rfl

@[simp] theorem length_u32Bytes (bigEndian : Bool) (v : UInt32) :
    (u32Bytes bigEndian v).length = 4 := by
  cases bigEndian <;> rfl

/-- `r[0], r[1]` read back what was written. -/
theorem u16Bytes_eq (bigEndian : Bool) (v : UInt16) :
    ∃ b₀ b₁, u16Bytes bigEndian v = [b₀, b₁] ∧ u16OfBytes bigEndian b₀ b₁ = v := by
  have hv := v.toNat_lt
  cases bigEndian <;> refine ⟨_, _, rfl, ?_⟩ <;> rw [← UInt16.toNat_inj] <;>
    simp only [u16OfBytes, UInt16.toNat_ofNat', UInt8.toNat_ofNat', Bool.false_eq_true, if_true,
      if_false] <;> omega

theorem u32Bytes_eq (bigEndian : Bool) (v : UInt32) :
    ∃ b₀ b₁ b₂ b₃, u32Bytes bigEndian v = [b₀, b₁, b₂, b₃] ∧
      u32OfBytes bigEndian b₀ b₁ b₂ b₃ = v := by
  have hv := v.toNat_lt
  cases bigEndian <;> refine ⟨_, _, _, _, rfl, ?_⟩ <;> rw [← UInt32.toNat_inj] <;>
    simp only [u32OfBytes, UInt32.toNat_ofNat', UInt8.toNat_ofNat', Bool.false_eq_true, if_true,
      if_false] <;> omega

/-- Swap the bytes of every whole pair, as `chunks_exact_mut(2)` with `swap` does. -/
def swapPairs : Bytes → Bytes
  | a :: b :: rest => b :: a :: swapPairs rest
  | rest => rest

@[simp] theorem length_swapPairs : ∀ b : Bytes, (swapPairs b).length = b.length
  | [] => rfl
  | [_] => rfl
  | _ :: _ :: rest => by simp [swapPairs, length_swapPairs rest]

/-- A buffer after a callee wrote `written` to its front. The length of the
buffer is the caller's; what does not fit is not written. -/
def overlay {α : Type} (written buf : List α) : List α :=
  written.take buf.length ++ buf.drop written.length

@[simp] theorem length_overlay {α : Type} (written buf : List α) :
    (overlay written buf).length = buf.length := by
  simp only [overlay, List.length_append, List.length_take, List.length_drop]
  omega

end Rust
