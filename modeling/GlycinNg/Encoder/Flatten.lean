import GlycinNg.Encoder
import GlycinNg.Raster.Strided
import Mathlib.Algebra.Order.Round
import Mathlib.Data.Rat.Floor

/-! # Flattening in place

`flatten_over_white` writes three bytes for every four it reads, into the buffer it reads
from. The loop invariant is that the pixels written so far are followed, after a gap of one
byte for each, by the pixels not read yet; so the result is what a second buffer would
hold. -/
namespace GlycinNg.Encoder
open Rust Raster

/-! ## One channel -/

/-- `over_white` before the cast to `u8`. -/
def overWhiteU32 (a c : UInt8) : Checked UInt32 := do
  let a := a.toUInt32
  let scaled ← u32Mul c.toUInt32 a
  let background ← u32Mul 255 (← u32Sub 255 a)
  let sum ← u32Add (← u32Add scaled background) 127
  return sum / 255

/-- The composite of a channel is at most 255 after the division. -/
theorem overWhite_le (a c : UInt8) : c.toNat * a.toNat + 255 * (255 - a.toNat) ≤ 255 * 255 := by
  have ha := a.toNat_lt
  have hprod : c.toNat * a.toNat ≤ 255 * a.toNat :=
    Nat.mul_le_mul_right _ (Nat.lt_succ_iff.mp c.toNat_lt)
  omega

theorem toNat_overWhite (a c : UInt8) : (overWhite a c).toNat =
    (c.toNat * a.toNat + 255 * (255 - a.toNat) + 127) / 255 := by
  have hle := overWhite_le a c
  rw [overWhite, UInt8.toNat_ofNat', Nat.mod_eq_of_lt]
  omega

/-- Nothing overflows, and the cast cuts nothing off. -/
theorem overWhiteU32_ok (a c : UInt8) :
    ∃ v, overWhiteU32 a c = .ok v ∧ v.toNat < 256 ∧ v.toUInt8 = overWhite a c := by
  have ha := a.toNat_lt
  have hle := overWhite_le a c
  have hsub := u32Sub_ok (a := 255) (b := a.toUInt32)
    (by rw [UInt8.toNat_toUInt32]; exact Nat.lt_succ_iff.mp ha)
  rw [UInt8.toNat_toUInt32] at hsub
  have hscaled := u32Mul_ok (a := c.toUInt32) (b := a.toUInt32)
    (by rw [UInt8.toNat_toUInt32, UInt8.toNat_toUInt32]; omega)
  rw [UInt8.toNat_toUInt32, UInt8.toNat_toUInt32] at hscaled
  have hbackground := u32Mul_ok (a := 255) (b := 255 - a.toUInt32)
    (by rw [hsub.2]; exact Nat.lt_of_le_of_lt (Nat.mul_le_mul_left _ (Nat.sub_le _ _)) (by decide))
  rw [hsub.2] at hbackground
  have hsum := u32Add_ok (a := c.toUInt32 * a.toUInt32) (b := 255 * (255 - a.toUInt32))
    (by rw [hscaled.2, hbackground.2]; exact Nat.lt_of_le_of_lt hle (by decide))
  rw [hscaled.2, hbackground.2] at hsum
  have hrounded := u32Add_ok (a := c.toUInt32 * a.toUInt32 + 255 * (255 - a.toUInt32)) (b := 127)
    (by rw [hsum.2]; exact Nat.lt_of_le_of_lt (Nat.add_le_add_right hle _) (by decide))
  rw [hsum.2] at hrounded
  have hvalue : ((c.toUInt32 * a.toUInt32 + 255 * (255 - a.toUInt32) + 127) / 255).toNat =
      (overWhite a c).toNat := by
    rw [UInt32.toNat_div, hrounded.2, toNat_overWhite]
    rfl
  refine ⟨(c.toUInt32 * a.toUInt32 + 255 * (255 - a.toUInt32) + 127) / 255, ?_, ?_, ?_⟩
  · rw [overWhiteU32, hscaled.1, ok_bind, hsub.1, ok_bind, hbackground.1, ok_bind, hsum.1, ok_bind,
      hrounded.1, ok_bind]
    rfl
  · rw [hvalue]
    exact (overWhite a c).toNat_lt
  · rw [← UInt8.toNat_inj, UInt32.toNat_toUInt8, hvalue,
      Nat.mod_eq_of_lt (overWhite a c).toNat_lt]

/-- A channel is composited over white and rounded to the nearest value, a half upwards. -/
theorem overWhite_eq_round (a c : UInt8) :
    ((overWhite a c).toNat : ℤ) =
      round (((c.toNat : ℚ) * a.toNat + 255 * (255 - a.toNat)) / 255) := by
  have ha : a.toNat ≤ 255 := Nat.lt_succ_iff.mp a.toNat_lt
  have hcast : ((c.toNat : ℚ) * a.toNat + 255 * (255 - a.toNat)) =
      ((c.toNat * a.toNat + 255 * (255 - a.toNat) : ℕ) : ℚ) := by
    push_cast [Nat.cast_sub ha]
    ring
  have hdouble : (2 : ℚ) * (((c.toNat * a.toNat + 255 * (255 - a.toNat) : ℕ) : ℚ) / 255) =
      ((2 * (c.toNat * a.toNat + 255 * (255 - a.toNat)) : ℕ) : ℚ) / (255 : ℕ) := by
    push_cast
    ring
  rw [hcast, round_eq_div, hdouble, Rat.floor_natCast_div_natCast, toNat_overWhite]
  push_cast
  omega

/-! ## The loop -/

/-- A pixel over white. -/
def overWhitePixel (p : Bytes) : Bytes :=
  match p with
  | [r, g, b, a] => [overWhite a r, overWhite a g, overWhite a b]
  | _ => []

/-- What a second buffer would hold: the composites of the first `n` pixels. -/
def composite (buf : Bytes) (n : Nat) : Bytes :=
  (List.range n).flatMap fun i => overWhitePixel (cell 4 buf i)

/-- `n` pixels are written, and the rest of the input has not been touched. -/
def Flattened (input : Bytes) (n : Nat) (buf : Bytes) : Prop :=
  ∃ gap, gap.length = n ∧ buf = composite input n ++ (gap ++ input.drop (n * 4))

variable {buf : Bytes}

/-- A pixel that is there has four bytes. -/
theorem exists_cell {i : Nat} (hi : i < buf.length / 4) :
    ∃ r g b a, cell 4 buf i = [r, g, b, a] ∧
      buf.drop (i * 4) = r :: g :: b :: a :: buf.drop ((i + 1) * 4) := by
  have hlen : (cell 4 buf i).length = 4 := length_cell (by omega)
  obtain ⟨r, g, b, a, hcell⟩ := List.length_eq_four.mp hlen
  refine ⟨r, g, b, a, hcell, ?_⟩
  have hsplit := (List.take_append_drop 4 (buf.drop (i * 4))).symm
  rw [← cell, hcell, List.drop_drop] at hsplit
  rwa [Nat.succ_mul]

theorem length_composite {n : Nat} (hn : n ≤ buf.length / 4) :
    (composite buf n).length = n * 3 := by
  apply length_flatMap_range
  intro i hi
  obtain ⟨r, g, b, a, hcell, -⟩ := exists_cell (Nat.lt_of_lt_of_le hi hn)
  rw [hcell]
  rfl

theorem composite_succ {n : Nat} :
    composite buf (n + 1) = composite buf n ++ overWhitePixel (cell 4 buf n) := by
  rw [composite, List.range_succ, List.flatMap_append, List.flatMap_singleton, composite]

/-- Three bytes written over the first three of what follows a prefix. -/
theorem setIndex_three {l r : Bytes} {i : Nat} {m₀ m₁ m₂ : UInt8} (hl : l.length = i)
    (y₀ y₁ y₂ : UInt8) :
    (do
      let buf ← setIndex (l ++ m₀ :: m₁ :: m₂ :: r) i y₀
      let buf ← setIndex buf (i + 1) y₁
      setIndex buf (i + 2) y₂) = .ok (l ++ y₀ :: y₁ :: y₂ :: r) := by
  have hone : l ++ y₀ :: m₁ :: m₂ :: r = (l ++ [y₀]) ++ m₁ :: m₂ :: r := by simp
  have htwo : (l ++ [y₀]) ++ y₁ :: m₂ :: r = (l ++ [y₀, y₁]) ++ m₂ :: r := by simp
  rw [setIndex_append_cons hl, ok_bind, hone, setIndex_append_cons (by simp [hl]), ok_bind, htwo,
    setIndex_append_cons (by simp [hl])]
  simp

/-- The four bytes of the pixel behind a prefix. -/
theorem index_four {l : Bytes} {i : Nat} (hl : l.length = i) (r g b a : UInt8) (rest : Bytes) :
    index (l ++ r :: g :: b :: a :: rest) i = .ok r ∧
      index (l ++ r :: g :: b :: a :: rest) (i + 1) = .ok g ∧
      index (l ++ r :: g :: b :: a :: rest) (i + 2) = .ok b ∧
      index (l ++ r :: g :: b :: a :: rest) (i + 3) = .ok a := by
  subst hl
  simp [index]

/-- One turn of the loop: what is overwritten lies in the gap or in the pixel that has
just been read. -/
theorem flattenPixel_step {input : Bytes} {n : Nat} (h : Flattened input n buf)
    (hn : n < input.length / 4) :
    ∃ buf', flattenPixel buf n = .ok buf' ∧ Flattened input (n + 1) buf' := by
  obtain ⟨gap, hgap, rfl⟩ := h
  obtain ⟨r, g, b, a, hcell, hdrop⟩ := exists_cell hn
  have hdone := length_composite (Nat.le_of_lt hn)
  have hread : (composite input n ++ gap).length = n * 4 := by
    rw [List.length_append, hdone, hgap]
    omega
  -- the first three bytes behind the output make way for the composite
  obtain ⟨m₀, m₁, m₂, htake⟩ : ∃ m₀ m₁ m₂, (gap ++ [r, g, b, a]).take 3 = [m₀, m₁, m₂] :=
    List.length_eq_three.mp (by simp)
  have hgap' : gap ++ [r, g, b, a] = m₀ :: m₁ :: m₂ :: (gap ++ [r, g, b, a]).drop 3 := by
    have hsplit := (List.take_append_drop 3 (gap ++ [r, g, b, a])).symm
    rwa [htake] at hsplit
  have hbuf : composite input n ++ (gap ++ r :: g :: b :: a :: input.drop ((n + 1) * 4)) =
      composite input n ++
        m₀ :: m₁ :: m₂ :: ((gap ++ [r, g, b, a]).drop 3 ++ input.drop ((n + 1) * 4)) := by
    have happend : gap ++ r :: g :: b :: a :: input.drop ((n + 1) * 4) =
        (gap ++ [r, g, b, a]) ++ input.drop ((n + 1) * 4) := by simp
    rw [happend, hgap']
    simp
  obtain ⟨hr, hg, hb, ha⟩ := index_four hread r g b a (input.drop ((n + 1) * 4))
  rw [List.append_assoc] at hr hg hb ha
  refine ⟨composite input n ++ overWhite a r :: overWhite a g :: overWhite a b ::
    ((gap ++ [r, g, b, a]).drop 3 ++ input.drop ((n + 1) * 4)), ?_, ?_⟩
  · rw [hdrop, flattenPixel, ha, ok_bind, hr, ok_bind, hg, ok_bind, hb, ok_bind, hbuf]
    exact setIndex_three hdone _ _ _
  · refine ⟨(gap ++ [r, g, b, a]).drop 3, by simp [hgap], ?_⟩
    rw [composite_succ, hcell, overWhitePixel]
    simp

/-- The loop over all pixels. -/
theorem flatten_loop (input : Bytes) {n : Nat} (hn : n ≤ input.length / 4) :
    ∃ buf, (List.range n).foldlM flattenPixel input = .ok buf ∧ Flattened input n buf := by
  induction n with
  | zero => exact ⟨input, rfl, [], rfl, rfl⟩
  | succ n ih =>
    obtain ⟨buf, hbuf, hinv⟩ := ih (by omega)
    obtain ⟨buf', hstep, hinv'⟩ := flattenPixel_step hinv (by omega)
    refine ⟨buf', ?_, hinv'⟩
    rw [List.range_succ, List.foldlM_append, hbuf, ok_bind, List.foldlM_cons, hstep, ok_bind]
    rfl

/-- The loop leaves in its own buffer what a second one would hold. -/
theorem flattenOverWhite_eq (buf : Bytes) :
    flattenOverWhite buf = .ok (composite buf (buf.length / 4)) := by
  obtain ⟨out, hloop, gap, -, rfl⟩ := flatten_loop buf (Nat.le_refl _)
  rw [flattenOverWhite, hloop, ok_bind, List.take_left' (length_composite (Nat.le_refl _))]
  rfl

/-- One byte of the composite. -/
theorem getElem?_composite {i k : Nat} (hi : i < buf.length / 4) (hk : k < 3) :
    ∃ c a, buf[4 * i + k]? = some c ∧ buf[4 * i + 3]? = some a ∧
      (composite buf (buf.length / 4))[3 * i + k]? = some (overWhite a c) := by
  obtain ⟨r, g, b, a, hcell, -⟩ := exists_cell hi
  have hlen : ∀ i < buf.length / 4, (overWhitePixel (cell 4 buf i)).length = 3 := by
    intro i hi
    obtain ⟨r, g, b, a, hcell, -⟩ := exists_cell hi
    rw [hcell]
    rfl
  have hout : cell 3 (composite buf (buf.length / 4)) i =
      [overWhite a r, overWhite a g, overWhite a b] := by
    rw [composite, cell_flatMap_range hlen hi, hcell]
    rfl
  have hread : ∀ k < 4, buf[4 * i + k]? = [r, g, b, a][k]? := by
    intro k hk
    rw [← hcell, getElem?_cell hk, Nat.mul_comm]
  have hwritten : (composite buf (buf.length / 4))[3 * i + k]? =
      [overWhite a r, overWhite a g, overWhite a b][k]? := by
    rw [← hout, getElem?_cell hk, Nat.mul_comm]
  rw [hread k (by omega), hread 3 (by decide), hwritten]
  obtain rfl | rfl | rfl : k = 0 ∨ k = 1 ∨ k = 2 := by omega
  · exact ⟨r, a, rfl, rfl, rfl⟩
  · exact ⟨g, a, rfl, rfl, rfl⟩
  · exact ⟨b, a, rfl, rfl, rfl⟩

/-- For every buffer: three bytes for each whole pixel, each the rounded composite of the
channel and the alpha that were there, with no overflow on the way. -/
theorem flattenOverWhite_exact (buf : Bytes) :
    ∃ out, flattenOverWhite buf = .ok out ∧ out.length = 3 * (buf.length / 4) ∧
      (∀ i k, i < buf.length / 4 → k < 3 → ∃ c a v, buf[4 * i + k]? = some c ∧
        buf[4 * i + 3]? = some a ∧ out[3 * i + k]? = some v ∧
        (v.toNat : ℤ) = round (((c.toNat : ℚ) * a.toNat + 255 * (255 - a.toNat)) / 255)) ∧
      ∀ a c, ∃ v, overWhiteU32 a c = .ok v ∧ v.toNat < 256 ∧ v.toUInt8 = overWhite a c := by
  refine ⟨_, flattenOverWhite_eq buf, ?_, ?_, overWhiteU32_ok⟩
  · rw [length_composite (Nat.le_refl _), Nat.mul_comm]
  · intro i k hi hk
    obtain ⟨c, a, hc, ha, hv⟩ := getElem?_composite hi hk
    exact ⟨c, a, _, hc, ha, hv, overWhite_eq_round a c⟩

/-- The output overlaps input that is still to be read. -/
example : flattenOverWhite [255, 0, 0, 255, 0, 255, 0, 0, 0, 0, 255, 128, 10, 20, 30, 64] =
    .ok [255, 0, 0, 255, 255, 255, 127, 127, 255, 194, 196, 199] := by decide +kernel

end GlycinNg.Encoder
