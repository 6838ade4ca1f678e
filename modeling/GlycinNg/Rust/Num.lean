import GlycinNg.Rust.Checked

/-! # Fixed-width arithmetic and `Duration` of the standard library

The checked and saturating methods of Rust's integers at the widths in use, and
`std::time::Duration` as a bounded number of nanoseconds. -/
namespace Rust

/-! ## Integers -/

/-- `u16::checked_mul`. -/
def u16CheckedMul (a b : UInt16) : Option UInt16 :=
  if a.toNat * b.toNat < 2 ^ 16 then some (a * b) else none

/-- `u32::checked_mul`. -/
def u32CheckedMul (a b : UInt32) : Option UInt32 :=
  if a.toNat * b.toNat < 2 ^ 32 then some (a * b) else none

/-- `u64::checked_add`. -/
def u64CheckedAdd (a b : UInt64) : Option UInt64 :=
  if a.toNat + b.toNat < 2 ^ 64 then some (a + b) else none

/-- `u64::checked_mul`. -/
def u64CheckedMul (a b : UInt64) : Option UInt64 :=
  if a.toNat * b.toNat < 2 ^ 64 then some (a * b) else none

/-- `u64::saturating_mul`. -/
def u64SaturatingMul (a b : UInt64) : UInt64 :=
  if a.toNat * b.toNat < 2 ^ 64 then a * b else UInt64.ofNat (2 ^ 64 - 1)

/-- `i64::MAX`. -/
def i64Max : Nat := 2 ^ 63 - 1

/-- `x as i64`: the upper half of the `u64` range wraps to negative values. -/
def u64AsI64 (x : UInt64) : Int := if x.toNat ≤ i64Max then x.toNat else x.toNat - 2 ^ 64

/-- `i64::saturating_mul`. -/
def i64SaturatingMul (a b : Int) : Int := max (-2 ^ 63) (min (a * b) i64Max)

/-- `u32` arithmetic, which panics where it overflows. -/
def u32Add (a b : UInt32) : Checked UInt32 :=
  if a.toNat + b.toNat < 2 ^ 32 then .ok (a + b) else .error .overflow

def u32Sub (a b : UInt32) : Checked UInt32 :=
  if b.toNat ≤ a.toNat then .ok (a - b) else .error .overflow

def u32Mul (a b : UInt32) : Checked UInt32 :=
  if a.toNat * b.toNat < 2 ^ 32 then .ok (a * b) else .error .overflow

theorem u32Add_ok {a b : UInt32} (h : a.toNat + b.toNat < 2 ^ 32) :
    u32Add a b = .ok (a + b) ∧ (a + b).toNat = a.toNat + b.toNat :=
  ⟨if_pos h, by rw [UInt32.toNat_add, Nat.mod_eq_of_lt h]⟩

theorem u32Sub_ok {a b : UInt32} (h : b.toNat ≤ a.toNat) :
    u32Sub a b = .ok (a - b) ∧ (a - b).toNat = a.toNat - b.toNat :=
  ⟨if_pos h, UInt32.toNat_sub_of_le a b (UInt32.le_iff_toNat_le.mpr h)⟩

theorem u32Mul_ok {a b : UInt32} (h : a.toNat * b.toNat < 2 ^ 32) :
    u32Mul a b = .ok (a * b) ∧ (a * b).toNat = a.toNat * b.toNat :=
  ⟨if_pos h, by rw [UInt32.toNat_mul, Nat.mod_eq_of_lt h]⟩

theorem u16CheckedMul_eq_some {a b c : UInt16} :
    u16CheckedMul a b = some c ↔ c.toNat = a.toNat * b.toNat := by
  have hc := c.toNat_lt
  by_cases h : a.toNat * b.toNat < 2 ^ 16
  · simp only [u16CheckedMul, if_pos h, Option.some.injEq, ← UInt16.toNat_inj, UInt16.toNat_mul,
      Nat.mod_eq_of_lt h, eq_comm]
  · simp only [u16CheckedMul, if_neg h, reduceCtorEq, false_iff]
    omega

theorem u64CheckedAdd_eq_some {a b c : UInt64} :
    u64CheckedAdd a b = some c ↔ c.toNat = a.toNat + b.toNat := by
  have hc := c.toNat_lt
  by_cases h : a.toNat + b.toNat < 2 ^ 64
  · simp only [u64CheckedAdd, if_pos h, Option.some.injEq, ← UInt64.toNat_inj, UInt64.toNat_add,
      Nat.mod_eq_of_lt h, eq_comm]
  · simp only [u64CheckedAdd, if_neg h, reduceCtorEq, false_iff]
    omega

theorem u64CheckedMul_eq_some {a b c : UInt64} :
    u64CheckedMul a b = some c ↔ c.toNat = a.toNat * b.toNat := by
  have hc := c.toNat_lt
  by_cases h : a.toNat * b.toNat < 2 ^ 64
  · simp only [u64CheckedMul, if_pos h, Option.some.injEq, ← UInt64.toNat_inj, UInt64.toNat_mul,
      Nat.mod_eq_of_lt h, eq_comm]
  · simp only [u64CheckedMul, if_neg h, reduceCtorEq, false_iff]
    omega

theorem u64CheckedMul_eq_none {a b : UInt64} :
    u64CheckedMul a b = none ↔ 2 ^ 64 ≤ a.toNat * b.toNat := by
  simp only [u64CheckedMul]
  split <;> simp <;> omega

/-! ## Durations -/

/-- `Duration::MAX` in nanoseconds: `u64::MAX` seconds and 999 999 999 ns. -/
def maxNanos : Nat := 2 ^ 64 * 1000000000 - 1

/-- `std::time::Duration`. -/
structure Duration where
  nanos : Nat
  le_max : nanos ≤ maxNanos
  deriving DecidableEq, Repr

namespace Duration

def zero : Duration := ⟨0, by decide⟩

/-- `Duration::MAX`. -/
def max : Duration := ⟨maxNanos, Nat.le_refl _⟩

-- The literal factor stands on the left: the kernel unfolds a product along its
-- right factor, which is not a literal here.
def fromSecs (s : UInt64) : Duration :=
  ⟨1000000000 * s.toNat, by have := s.toNat_lt; simp only [maxNanos]; omega⟩

def fromMillis (ms : UInt64) : Duration :=
  ⟨1000000 * ms.toNat, by have := ms.toNat_lt; simp only [maxNanos]; omega⟩

def fromMicros (us : UInt64) : Duration :=
  ⟨1000 * us.toNat, by have := us.toNat_lt; simp only [maxNanos]; omega⟩

/-- `Duration::as_millis`, a `u128`. -/
def asMillis (d : Duration) : Nat := d.nanos / 1000000

/-- `Duration::as_micros`, a `u128`. -/
def asMicros (d : Duration) : Nat := d.nanos / 1000

def saturatingAdd (a b : Duration) : Duration := ⟨min maxNanos (a.nanos + b.nanos), by omega⟩

instance : LE Duration := ⟨fun a b => a.nanos ≤ b.nanos⟩
instance : LT Duration := ⟨fun a b => a.nanos < b.nanos⟩
instance (a b : Duration) : Decidable (a ≤ b) := inferInstanceAs (Decidable (a.nanos ≤ b.nanos))
instance (a b : Duration) : Decidable (a < b) := inferInstanceAs (Decidable (a.nanos < b.nanos))

theorem le_def {a b : Duration} : a ≤ b ↔ a.nanos ≤ b.nanos := Iff.rfl

@[simp] theorem nanos_saturatingAdd (a b : Duration) :
    (a.saturatingAdd b).nanos = min maxNanos (a.nanos + b.nanos) := rfl

/-- Saturation commutes with accumulation: a running total kept with
`saturating_add` is the exact sum cut at `Duration::MAX`. -/
theorem saturatingAdd_of_min {total d : Duration} {sum : Nat} (h : total.nanos = min maxNanos sum) :
    (total.saturatingAdd d).nanos = min maxNanos (sum + d.nanos) := by
  rw [nanos_saturatingAdd, h]
  omega

/-- An exact sum is within a cap when the running total is and did not saturate. -/
theorem sum_le_iff {total cap : Duration} {sum : Nat} (h : total.nanos = min maxNanos sum)
    (hle : total ≤ cap) : sum ≤ cap.nanos ↔ (cap = max → sum ≤ maxNanos) := by
  have hcap := cap.le_max
  rw [le_def, h] at hle
  have hmax : cap = max ↔ cap.nanos = maxNanos := by
    cases cap
    simp [max]
  rw [hmax]
  omega

end Duration

end Rust
