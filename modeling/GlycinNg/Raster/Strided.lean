import GlycinNg.Raster.Cells

/-! # Strided rasters

The rows of a raster start `stride` elements apart and hold pixels of `b` elements each;
what is left of a row is padding. `remap` writes one block for every pixel, row by row and
without padding: each block lands at its place (`pixel_remap`), only pixels are read
(`remap_congr`), and two passes are one (`remap_remap`). -/
namespace Raster
variable {α β γ : Type}

/-- The elements of the pixel at `(x, y)`. -/
def pixel (b stride : Nat) (buf : List α) (x y : Nat) : List α :=
  (buf.drop (y * stride + x * b)).take b

/-- Every row of a `w` by `h` raster ends inside the buffer. -/
def Holds (b stride w h : Nat) (buf : List α) : Prop :=
  ∀ y < h, y * stride + w * b ≤ buf.length

/-- One block for each position of a `w` by `h` grid, row by row. -/
def pack (w h : Nat) (block : Nat → Nat → List α) : List α :=
  (List.range h).flatMap fun y => (List.range w).flatMap fun x => block x y

/-- A packed raster with the blocks that `f` makes of the pixels of another. -/
def remap (b stride w h : Nat) (f : List α → List β) (buf : List α) : List β :=
  pack w h fun x y => f (pixel b stride buf x y)

variable {b stride w h x y : Nat} {buf : List α}

/-- One check of the last row covers the rows above it. -/
theorem holds_iff :
    Holds b stride w h buf ↔ h = 0 ∨ (h - 1) * stride + w * b ≤ buf.length := by
  constructor
  · intro hbuf
    rcases Nat.eq_zero_or_pos h with hzero | hpos
    · exact .inl hzero
    · exact .inr (hbuf _ (by omega))
  · intro hlast y hy
    have hlast := hlast.resolve_left (by omega)
    have hrow : y * stride ≤ (h - 1) * stride := Nat.mul_le_mul_right _ (by omega)
    omega

theorem pixel_end_le (hbuf : Holds b stride w h buf) (hx : x < w) (hy : y < h) :
    y * stride + x * b + b ≤ buf.length := by
  have hrow := hbuf y hy
  have hend := cell_end_le (b := b) hx
  omega

theorem length_pixel (hbuf : Holds b stride w h buf) (hx : x < w) (hy : y < h) :
    (pixel b stride buf x y).length = b := by
  have hend := pixel_end_le hbuf hx hy
  rw [pixel, List.length_take, List.length_drop]
  omega

/-- Without padding the pixels are the cells of the buffer. -/
theorem pixel_eq_cell : pixel b (w * b) buf x y = cell b buf (y * w + x) := by
  rw [pixel, cell, Nat.add_mul, Nat.mul_assoc]

/-- The pixels of a row that has been cut out of the buffer. -/
theorem cell_row (hx : x < w) :
    cell b ((buf.drop (y * stride)).take (w * b)) x = pixel b stride buf x y := by
  have hend := cell_end_le (b := b) hx
  rw [cell, pixel, List.drop_take, List.drop_drop, List.take_take,
    Nat.min_eq_left (by omega)]

/-- The elements of a cell. -/
theorem getElem?_cell {i k : Nat} (hk : k < b) : (cell b buf i)[k]? = buf[i * b + k]? := by
  rw [cell, List.getElem?_take_of_lt hk, List.getElem?_drop]

/-! ## Packed rasters -/

/-- The length of a buffer that is written in blocks of one length. -/
theorem length_flatMap_range {g : Nat → List α} {n : Nat} (hg : ∀ i < n, (g i).length = b) :
    ((List.range n).flatMap g).length = n * b := by
  induction n with
  | zero => simp
  | succ n ih =>
    have hrest : ∀ i < n, (g i).length = b := by
      intro i hi
      exact hg i (Nat.lt_succ_of_lt hi)
    rw [List.range_succ, List.flatMap_append, List.flatMap_singleton, List.length_append,
      ih hrest, hg n (Nat.lt_succ_self n), Nat.succ_mul]

/-- Each of its blocks is one of its cells. -/
theorem cell_flatMap_range {g : Nat → List α} {n i : Nat} (hg : ∀ i < n, (g i).length = b)
    (hi : i < n) : cell b ((List.range n).flatMap g) i = g i := by
  induction n with
  | zero => omega
  | succ n ih =>
    have hrest : ∀ i < n, (g i).length = b := by
      intro i hi
      exact hg i (Nat.lt_succ_of_lt hi)
    have hlen := length_flatMap_range hrest
    rw [List.range_succ, List.flatMap_append, List.flatMap_singleton]
    rcases Nat.lt_succ_iff_lt_or_eq.mp hi with hlt | rfl
    · have hend := cell_end_le (b := b) hlt
      rw [cell, List.drop_append_of_le_length (by omega),
        List.take_append_of_le_length (by rw [List.length_drop]; omega)]
      exact ih hrest hlt
    · rw [cell, List.drop_left' hlen, List.take_of_length_le (Nat.le_of_eq (hg i hi))]

section
variable {block : Nat → Nat → List α}

theorem length_pack (hblock : ∀ x < w, ∀ y < h, (block x y).length = b) :
    (pack w h block).length = h * (w * b) := by
  apply length_flatMap_range
  intro y hy
  apply length_flatMap_range
  intro x hx
  exact hblock x hx y hy

/-- Each block lands at its place. -/
theorem pixel_pack (hblock : ∀ x < w, ∀ y < h, (block x y).length = b) (hx : x < w)
    (hy : y < h) : pixel b (w * b) (pack w h block) x y = block x y := by
  have hrow : ∀ y < h, ((List.range w).flatMap fun x => block x y).length = w * b := by
    intro y hy
    apply length_flatMap_range
    intro x hx
    exact hblock x hx y hy
  have hcell : ∀ x < w, (block x y).length = b := by
    intro x hx
    exact hblock x hx y hy
  calc pixel b (w * b) (pack w h block) x y
      = cell b (cell (w * b) (pack w h block) y) x := (cell_row hx).symm
    _ = cell b ((List.range w).flatMap fun x => block x y) x := by
      rw [pack, cell_flatMap_range hrow hy]
    _ = block x y := cell_flatMap_range hcell hx

theorem pack_congr {block' : Nat → Nat → List α}
    (hsame : ∀ x < w, ∀ y < h, block x y = block' x y) : pack w h block = pack w h block' := by
  apply List.flatMap_congr
  intro y hy
  apply List.flatMap_congr
  intro x hx
  exact hsame x (List.mem_range.mp hx) y (List.mem_range.mp hy)

end

/-- A packed raster holds all of its pixels. -/
theorem holds_packed (hlen : buf.length = h * (w * b)) : Holds b (w * b) w h buf := by
  intro y hy
  have hend := cell_end_le (b := w * b) hy
  omega

/-! ## Passes over a raster -/

section
variable {b' stride' : Nat} {f : List α → List β}

theorem length_remap (hf : ∀ p, p.length = b → (f p).length = b')
    (hbuf : Holds b stride w h buf) : (remap b stride w h f buf).length = h * (w * b') := by
  apply length_pack
  intro x hx y hy
  exact hf _ (length_pixel hbuf hx hy)

/-- The pixel at a position depends on the pixel that was there. -/
theorem pixel_remap (hf : ∀ p, p.length = b → (f p).length = b')
    (hbuf : Holds b stride w h buf) (hx : x < w) (hy : y < h) :
    pixel b' (w * b') (remap b stride w h f buf) x y = f (pixel b stride buf x y) := by
  apply pixel_pack ?_ hx hy
  intro x hx y hy
  exact hf _ (length_pixel hbuf hx hy)

/-- Padding is never read. -/
theorem remap_congr {f' : List α → List β} {buf' : List α}
    (hsame : ∀ x < w, ∀ y < h, f (pixel b stride buf x y) = f' (pixel b' stride' buf' x y)) :
    remap b stride w h f buf = remap b' stride' w h f' buf' :=
  pack_congr hsame

/-- Two passes are one. -/
theorem remap_remap {g : List β → List γ} (hf : ∀ p, p.length = b → (f p).length = b')
    (hbuf : Holds b stride w h buf) :
    remap b' (w * b') w h g (remap b stride w h f buf) = remap b stride w h (g ∘ f) buf := by
  apply pack_congr
  intro x hx y hy
  rw [pixel_remap hf hbuf hx hy]
  rfl

end

/-- A grid, row by row, is one run over the numbers of its places. -/
theorem flatMap_grid (g : Nat → List α) :
    (List.range (h * w)).flatMap g = pack w h fun x y => g (y * w + x) := by
  induction h with
  | zero => rw [Nat.zero_mul]; rfl
  | succ n ih =>
    rw [Nat.succ_mul, List.range_add, List.flatMap_append, ih, pack, pack, List.range_succ,
      List.flatMap_append, List.flatMap_singleton, List.flatMap_map]

/-- A packed raster is known by its pixels. -/
theorem eq_pack {block : Nat → Nat → List α} (hlen : buf.length = h * (w * b))
    (hblock : ∀ x < w, ∀ y < h, pixel b (w * b) buf x y = block x y) : buf = pack w h block := by
  rw [← Nat.mul_assoc] at hlen
  rw [← flatMap_cell hlen, flatMap_grid]
  apply pack_congr
  intro x hx y hy
  rw [← pixel_eq_cell, hblock x hx y hy]

end Raster
