import GlycinNg.Rust.Checked

/-! # Reading a stream to its end

A stream hands out what it holds in pieces, through one buffer that is used again for every
piece. How the pieces are cut does not matter, nor what is left in the buffer of an earlier
one (`readToEnd_iff`). -/
namespace Rust
variable {σ α : Type}

/-- A read into a buffer: how many elements it has read, negative on an error, the buffer after
it, and the stream. -/
abbrev ReadInto (σ α : Type) := σ → List α → Int × List α × σ

/-- Reads until there is nothing more, at most `fuel` times; `none` on an error. -/
def readToEnd (read : ReadInto σ α) : Nat → σ → List α → List α →
    Option (Checked (Option (List α)))
  | 0, _, _, _ => none
  | fuel + 1, s, buf, chunk =>
    let (n, chunk, s) := read s chunk
    if n < 0 then some (.ok none)
    else if n = 0 then some (.ok (some buf))
    else
      match slice chunk 0 n.toNat with
      | .ok piece => readToEnd read fuel s (buf ++ piece) chunk
      | .error panic => some (.error panic)

/-- What one read comes to. -/
inductive Answer (σ α : Type) where
  | failed
  | ended
  | piece (l : List α) (next : σ)

/-- A read keeps to this answer: a piece fits into the buffer and stands at its beginning, and
what is behind it may be anything. -/
def Answer.Fills (size : Nat) (r : Int × List α × σ) : Answer σ α → Prop
  | .failed => r.1 < 0
  | .ended => r.1 = 0
  | .piece l next => l ≠ [] ∧ r.1 = l.length ∧ l <+: r.2.1 ∧ r.2.1.length = size ∧ r.2.2 = next

/-- The stream hands out `l`, in whatever pieces, and then ends (`true`) or fails. -/
inductive Holds (next : σ → Answer σ α) : σ → List α → Bool → Prop
  | failed {s : σ} (h : next s = .failed) : Holds next s [] false
  | ended {s : σ} (h : next s = .ended) : Holds next s [] true
  | piece {s s' : σ} {l rest : List α} {ok : Bool} (h : next s = .piece l s')
      (hrest : Holds next s' rest ok) : Holds next s (l ++ rest) ok

section
variable {read : ReadInto σ α} {next : σ → Answer σ α} {s : σ} {l buf chunk : List α} {ok : Bool}
  {fuel : Nat} {size : Nat}

/-- One round of the loop. -/
theorem readToEnd_succ (h : (next s).Fills size (read s chunk)) :
    readToEnd read (fuel + 1) s buf chunk =
      match next s with
      | .failed => some (.ok none)
      | .ended => some (.ok (some buf))
      | .piece l s' => readToEnd read fuel s' (buf ++ l) (read s chunk).2.1 := by
  rcases hread : read s chunk with ⟨n, chunk', s'⟩
  rw [hread] at h
  rw [readToEnd, hread]
  dsimp only
  cases hnext : next s with
  | failed =>
    rw [hnext] at h
    have hneg : n < 0 := h
    rw [if_pos hneg]
  | ended =>
    rw [hnext] at h
    obtain rfl : n = 0 := h
    rw [if_neg (lt_irrefl 0), if_pos rfl]
  | piece l s'' =>
    rw [hnext] at h
    obtain ⟨hne, rfl, hpiece, -, rfl⟩ := h
    have hpos : 0 < l.length := List.length_pos_iff.mpr hne
    have hslice : slice chunk' 0 l.length = .ok l := by
      rw [slice_ok (Nat.zero_le _) hpiece.length_le, List.drop_zero, Nat.sub_zero,
        ← List.prefix_iff_eq_take.mp hpiece]
    rw [if_neg (by omega), if_neg (by omega), Int.toNat_natCast, hslice]

/-- The loop reads what the stream hands out. -/
theorem Holds.readToEnd (hdoc : ∀ s chunk, chunk.length = size → (next s).Fills size (read s chunk))
    (h : Holds next s l ok) : ∃ reads, ∀ fuel buf chunk, reads ≤ fuel → chunk.length = size →
      readToEnd read fuel s buf chunk = some (.ok (if ok then some (buf ++ l) else none)) := by
  induction h with
  | @failed s h =>
    refine ⟨1, fun fuel buf chunk hfuel hlength => ?_⟩
    obtain ⟨n, rfl⟩ := Nat.exists_eq_add_of_le' hfuel
    rw [readToEnd_succ (hdoc s chunk hlength), h]
    rfl
  | @ended s h =>
    refine ⟨1, fun fuel buf chunk hfuel hlength => ?_⟩
    obtain ⟨n, rfl⟩ := Nat.exists_eq_add_of_le' hfuel
    rw [readToEnd_succ (hdoc s chunk hlength), h, List.append_nil]
    rfl
  | @piece s s' l rest ok h hrest ih =>
    obtain ⟨reads, hreads⟩ := ih
    refine ⟨reads + 1, fun fuel buf chunk hfuel hlength => ?_⟩
    obtain ⟨n, rfl⟩ := Nat.exists_eq_add_of_le' hfuel
    have hfills := hdoc s chunk hlength
    rw [← Nat.add_assoc, readToEnd_succ hfills, h]
    rw [h] at hfills
    obtain ⟨-, -, -, hlength', -⟩ := hfills
    rw [← List.append_assoc]
    exact hreads (n + reads) (buf ++ l) _ (by omega) hlength'

/-- Where the loop comes to its end, the stream does. -/
theorem holds_of_readToEnd
    (hdoc : ∀ s chunk, chunk.length = size → (next s).Fills size (read s chunk))
    (hlength : chunk.length = size) {r : Checked (Option (List α))}
    (h : readToEnd read fuel s buf chunk = some r) :
    ∃ l ok, Holds next s l ok ∧ r = .ok (if ok then some (buf ++ l) else none) := by
  induction fuel generalizing s buf chunk with
  | zero => cases h
  | succ fuel ih =>
    have hfills := hdoc s chunk hlength
    rw [readToEnd_succ hfills] at h
    cases hnext : next s with
    | failed =>
      rw [hnext] at h
      cases h
      exact ⟨[], false, .failed hnext, rfl⟩
    | ended =>
      rw [hnext] at h
      cases h
      exact ⟨[], true, .ended hnext, by rw [List.append_nil]; rfl⟩
    | piece l s' =>
      rw [hnext] at h hfills
      obtain ⟨-, -, -, hlength', -⟩ := hfills
      obtain ⟨rest, ok, hholds, rfl⟩ := ih hlength' h
      exact ⟨l ++ rest, ok, .piece hnext hholds, by rw [List.append_assoc]⟩

/-- The loop comes to an end where the stream does, with all of it. -/
theorem readToEnd_iff
    (hdoc : ∀ s chunk, chunk.length = size → (next s).Fills size (read s chunk))
    (hlength : chunk.length = size) (r : Checked (Option (List α))) :
    (∃ fuel, readToEnd read fuel s [] chunk = some r) ↔
      ∃ l ok, Holds next s l ok ∧ r = .ok (if ok then some l else none) := by
  constructor
  · rintro ⟨fuel, h⟩
    exact holds_of_readToEnd hdoc hlength h
  · rintro ⟨l, ok, hholds, rfl⟩
    obtain ⟨reads, hreads⟩ := hholds.readToEnd hdoc
    exact ⟨reads, hreads reads [] chunk (Nat.le_refl reads) hlength⟩

/-- A stream hands out one thing. -/
theorem Holds.unique {l' : List α} {ok' : Bool} (h : Holds next s l ok) (h' : Holds next s l' ok') :
    l = l' ∧ ok = ok' := by
  induction h generalizing l' ok' with
  | failed h =>
    cases h' with
    | failed => exact ⟨rfl, rfl⟩
    | ended h' => cases h.symm.trans h'
    | piece h' => cases h.symm.trans h'
  | ended h =>
    cases h' with
    | failed h' => cases h.symm.trans h'
    | ended => exact ⟨rfl, rfl⟩
    | piece h' => cases h.symm.trans h'
  | piece h hrest ih =>
    cases h' with
    | failed h' => cases h.symm.trans h'
    | ended h' => cases h.symm.trans h'
    | piece h' hrest' =>
      cases h.symm.trans h'
      obtain ⟨rfl, rfl⟩ := ih hrest'
      exact ⟨rfl, rfl⟩

end

end Rust
