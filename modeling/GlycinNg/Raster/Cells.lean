import Mathlib.Data.List.Basic
import Mathlib.Data.List.Nodup
import Mathlib.Data.List.Range

/-! # Buffers of equal cells

A raster buffer is a list cut into cells of `b` elements. Writing a cell
touches no other cell, a buffer is determined by its cells, and a batch of
writes to pairwise different cells that covers the buffer leaves exactly the
written cells. `coords` enumerates a grid in row-major order and relates nested
loops over it to one loop. -/
namespace Raster
variable {α σ : Type}

/-- Overwrite the block of `buf` that starts at `off`. -/
def blit (buf : List α) (off : Nat) (block : List α) : List α :=
  buf.take off ++ block ++ buf.drop (off + block.length)

/-- The `i`-th cell of `b` elements. -/
def cell (b : Nat) (buf : List α) (i : Nat) : List α := (buf.drop (i * b)).take b

/-- Write a batch of cells in order. -/
def scatter (b : Nat) (buf : List α) (ws : List (Nat × List α)) : List α :=
  ws.foldl (fun buf w => blit buf (w.1 * b) w.2) buf

theorem length_blit {buf block : List α} {off : Nat} (h : off + block.length ≤ buf.length) :
    (blit buf off block).length = buf.length := by
  simp only [blit, List.length_append, List.length_take, List.length_drop]
  omega

/-- A cell ends before the buffer does. -/
theorem cell_end_le {n b i : Nat} (h : i < n) : i * b + b ≤ n * b := by
  have := Nat.mul_le_mul_right b (Nat.succ_le_of_lt h)
  rwa [Nat.succ_mul] at this

theorem length_cell {buf : List α} {b i : Nat} (h : i * b + b ≤ buf.length) :
    (cell b buf i).length = b := by
  rw [cell, List.length_take, List.length_drop]
  omega

theorem cell_blit_self {buf block : List α} {n b i : Nat} (hbuf : buf.length = n * b) (hi : i < n)
    (hb : block.length = b) : cell b (blit buf (i * b) block) i = block := by
  have hend := cell_end_le (b := b) hi
  have htake : (buf.take (i * b)).length = i * b := by rw [List.length_take]; omega
  rw [cell, blit, List.append_assoc, List.drop_left' htake, List.take_left' hb]

theorem cell_blit_ne {buf block : List α} {n b i j : Nat} (hbuf : buf.length = n * b) (hi : i < n)
    (hb : block.length = b) (hij : i ≠ j) : cell b (blit buf (i * b) block) j = cell b buf j := by
  have hend := cell_end_le (b := b) hi
  have htake : (buf.take (i * b)).length = i * b := by rw [List.length_take]; omega
  rcases Nat.lt_or_gt_of_ne hij with h | h
  · -- the cell lies after the block: only the untouched tail is read
    have hj : i * b + b ≤ j * b := cell_end_le h
    have hpre : (buf.take (i * b) ++ block).length = i * b + b := by
      rw [List.length_append, htake, hb]
    obtain ⟨k, hk⟩ := Nat.exists_eq_add_of_le hj
    rw [cell, cell, blit, hb, hk, List.drop_append, List.drop_of_length_le (by omega), hpre,
      List.nil_append, Nat.add_sub_cancel_left, List.drop_drop]
  · -- the cell lies before the block: only the untouched head is read
    have hj : j * b + b ≤ i * b := cell_end_le h
    rw [cell, cell, blit, List.append_assoc, List.drop_append_of_le_length (by omega),
      List.take_append_of_le_length (by rw [List.length_drop, htake]; omega), List.drop_take,
      List.take_take, Nat.min_eq_left (by omega)]

/-- A buffer is the concatenation of its cells. -/
theorem flatMap_cell {buf : List α} {n b : Nat} (h : buf.length = n * b) :
    (List.range n).flatMap (cell b buf) = buf := by
  have take : ∀ k, (List.range k).flatMap (cell b buf) = buf.take (k * b) := by
    intro k
    induction k with
    | zero => simp
    | succ k ih =>
      rw [List.range_succ, List.flatMap_append, ih, Nat.succ_mul, List.take_add]
      simp [cell]
  rw [take, ← h, List.take_length]

/-! ## Batches of writes -/

/-- Every write of the batch hits a whole cell of an `n`-cell buffer. -/
def Fits (n b : Nat) (ws : List (Nat × List α)) : Prop := ∀ w ∈ ws, w.1 < n ∧ w.2.length = b

theorem length_scatter {n b : Nat} {buf : List α} {ws : List (Nat × List α)} (hws : Fits n b ws)
    (hbuf : buf.length = n * b) : (scatter b buf ws).length = n * b := by
  induction ws generalizing buf with
  | nil => exact hbuf
  | cons w ws ih =>
    obtain ⟨hw, hb⟩ := hws w (by simp)
    have hend := cell_end_le (b := b) hw
    have hrest : Fits n b ws := by
      intro w hw
      exact hws w (by simp [hw])
    apply ih hrest
    rw [length_blit (by omega), hbuf]

/-- A cell no write names keeps its contents. -/
theorem cell_scatter_of_notMem {n b i : Nat} {buf : List α} {ws : List (Nat × List α)}
    (hws : Fits n b ws) (hbuf : buf.length = n * b) (hi : i ∉ ws.map Prod.fst) :
    cell b (scatter b buf ws) i = cell b buf i := by
  induction ws generalizing buf with
  | nil => rfl
  | cons w ws ih =>
    obtain ⟨hw, hb⟩ := hws w (by simp)
    have hend := cell_end_le (b := b) hw
    simp only [List.map_cons, List.mem_cons, not_or] at hi
    have hlen : (blit buf (w.1 * b) w.2).length = n * b := by rw [length_blit (by omega), hbuf]
    have hrest : Fits n b ws := by
      intro w hw
      exact hws w (by simp [hw])
    have hkept := cell_blit_ne hbuf hw hb (Ne.symm hi.1)
    exact (ih hrest hlen hi.2).trans hkept

/-- With pairwise different targets, each write survives the batch. -/
theorem cell_scatter_of_mem {n b i : Nat} {buf block : List α} {ws : List (Nat × List α)}
    (hws : Fits n b ws) (hbuf : buf.length = n * b) (hnd : (ws.map Prod.fst).Nodup)
    (hi : (i, block) ∈ ws) : cell b (scatter b buf ws) i = block := by
  induction ws generalizing buf with
  | nil => cases hi
  | cons w ws ih =>
    obtain ⟨hw, hb⟩ := hws w (by simp)
    have hend := cell_end_le (b := b) hw
    rw [List.map_cons, List.nodup_cons] at hnd
    have hlen : (blit buf (w.1 * b) w.2).length = n * b := by rw [length_blit (by omega), hbuf]
    have hrest : Fits n b ws := by
      intro w hw
      exact hws w (by simp [hw])
    rcases List.mem_cons.mp hi with rfl | hi
    · have hwritten := cell_blit_self hbuf hw hb
      exact (cell_scatter_of_notMem hrest hlen hnd.1).trans hwritten
    · exact ih hrest hlen hnd.2 hi

/-- A batch that writes every cell exactly once leaves the written cells. -/
theorem scatter_eq {n b : Nat} {buf : List α} {ws : List (Nat × List α)} {block : Nat → List α}
    (hws : Fits n b ws) (hbuf : buf.length = n * b) (hnd : (ws.map Prod.fst).Nodup)
    (hall : ∀ i < n, (i, block i) ∈ ws) : scatter b buf ws = (List.range n).flatMap block := by
  rw [← flatMap_cell (length_scatter hws hbuf)]
  apply List.flatMap_congr
  intro i hi
  exact cell_scatter_of_mem hws hbuf hnd (hall i (List.mem_range.mp hi))

/-! ## Grids in row-major order -/

/-- The positions `(x, y)` of a `w` by `h` grid, row by row. -/
def coords (w h : Nat) : List (Nat × Nat) :=
  (List.range h).flatMap fun y => (List.range w).map fun x => (x, y)

theorem mem_coords {w h x y : Nat} : (x, y) ∈ coords w h ↔ x < w ∧ y < h := by
  simp [coords, and_comm]

/-- Two nested loops over a grid are one loop over its positions. -/
theorem foldl_coords (f : σ → Nat → Nat → σ) (s : σ) (w h : Nat) :
    (List.range h).foldl (fun s y => (List.range w).foldl (fun s x => f s x y) s) s =
      (coords w h).foldl (fun s p => f s p.1 p.2) s := by
  simp only [coords, List.foldl_flatMap, List.foldl_map]

/-- The cells of a grid, taken row by row, are its cells by row-major index. -/
theorem flatMap_coords (g : Nat → List α) (w h : Nat) :
    (coords w h).flatMap (fun p => g (p.2 * w + p.1)) = (List.range (h * w)).flatMap g := by
  induction h with
  | zero => simp [coords]
  | succ h ih =>
    rw [Nat.succ_mul, List.range_add, List.flatMap_append, ← ih]
    simp only [coords, List.range_succ, List.flatMap_append, List.flatMap_singleton]
    simp [List.flatMap_map]

/-- Row-major indices tell positions apart. -/
theorem index_inj {w x y x' y' : Nat} (hx : x < w) (hx' : x' < w)
    (h : y * w + x = y' * w + x') : x = x' ∧ y = y' := by
  have row : ∀ y x, x < w → (y * w + x) / w = y := by
    intro y x hx
    rw [Nat.add_comm, Nat.add_mul_div_right _ _ (by omega), Nat.div_eq_of_lt hx, Nat.zero_add]
  have hy : y = y' := by rw [← row y x hx, h, row y' x' hx']
  subst hy
  exact ⟨by omega, rfl⟩

theorem index_lt {w h x y : Nat} (hx : x < w) (hy : y < h) : y * w + x < h * w := by
  have := Nat.mul_le_mul_right w (Nat.succ_le_of_lt hy)
  rw [Nat.succ_mul] at this
  omega

theorem nodup_coords (w h : Nat) : (coords w h).Nodup := by
  rw [coords, List.nodup_flatMap]
  constructor
  · intro y _
    apply List.nodup_range.map
    intro a b h
    simpa using h
  · -- two rows differ in their second coordinate
    apply List.Pairwise.imp_of_mem ?_ List.nodup_range
    intro y y' _ _ hne
    refine List.disjoint_iff_ne.mpr ?_
    intro a ha b hb hab
    obtain ⟨x, -, rfl⟩ := List.mem_map.mp ha
    obtain ⟨x', -, rfl⟩ := List.mem_map.mp hb
    exact hne (congrArg Prod.snd hab)

end Raster
