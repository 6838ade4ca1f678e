import Mathlib.Data.List.Infix
import Mathlib.Data.List.Count

/-! # Brackets in a stream

Some items of a stream open a bracket and some close one. `skip` passes over items with
a counter of open brackets; `pass` replaces items one by one and, where the replaced item
opens a bracket, skips all that is inside. `pass_isSome_iff` says when a pass reaches the
end of its stream, whatever the stream. -/
namespace Nested

/-- What an item does to the number of open brackets. -/
inductive Mark where
  | opens | closes | neutral
  deriving DecidableEq, Repr

/-- The number of open brackets after such an item. -/
def Mark.count : Mark → Nat → Nat
  | .opens, depth => depth + 1
  | .closes, depth => depth - 1
  | .neutral, depth => depth

section
variable {γ β : Type} (mark : γ → Mark) (replace : γ → Option β)

/-- The items after the one that closes the last of `depth` open brackets. -/
def skip : (depth : Nat) → List γ → Option (List γ)
  | 0, rest => some rest
  | _ + 1, [] => none
  | depth + 1, a :: rest => skip ((mark a).count (depth + 1)) rest

/-- The items that open a bracket. -/
def opened (l : List γ) : Nat := l.countP fun a => mark a = .opens

/-- The items that close a bracket. -/
def closed (l : List γ) : Nat := l.countP fun a => mark a = .closes

/-- Somewhere `depth` more brackets have been closed than opened. -/
def Closes (depth : Nat) (l : List γ) : Prop :=
  ∃ pre post, l = pre ++ post ∧ opened mark pre + depth ≤ closed mark pre

/-- Where the stream goes on after a replaced item. -/
def resume (a : γ) (rest : List γ) : Option (List γ) :=
  if mark a = .opens then skip mark 1 rest else some rest

end

variable {γ β : Type} {mark : γ → Mark} {replace : γ → Option β} {a : γ} {l rest : List γ}
  {depth : Nat}

@[simp] theorem opened_nil : opened mark [] = 0 := rfl

@[simp] theorem closed_nil : closed mark [] = 0 := rfl

@[simp] theorem opened_cons :
    opened mark (a :: l) = opened mark l + if mark a = .opens then 1 else 0 := by
  simp [opened, List.countP_cons]

@[simp] theorem closed_cons :
    closed mark (a :: l) = closed mark l + if mark a = .closes then 1 else 0 := by
  simp [closed, List.countP_cons]

theorem Closes.mono {depth' : Nat} (h : Closes mark depth l) (hle : depth' ≤ depth) :
    Closes mark depth' l := by
  obtain ⟨pre, post, hl, hcount⟩ := h
  exact ⟨pre, post, hl, by omega⟩

theorem closes_zero : Closes mark 0 l := ⟨[], l, rfl, Nat.le_refl _⟩

theorem not_closes_nil : ¬ Closes mark (depth + 1) [] := by
  intro ⟨pre, post, hl, hcount⟩
  obtain ⟨rfl, -⟩ := List.append_eq_nil_iff.mp hl.symm
  simp at hcount

theorem balance_cons : opened mark (a :: l) + (depth + 1) ≤ closed mark (a :: l) ↔
    opened mark l + (mark a).count (depth + 1) ≤ closed mark l := by
  rw [opened_cons, closed_cons]
  cases mark a <;> simp [Mark.count] <;> omega

/-- The first item moves the goal by its bracket. -/
theorem closes_cons_iff : Closes mark (depth + 1) (a :: l) ↔
    Closes mark ((mark a).count (depth + 1)) l := by
  constructor
  · intro ⟨pre, post, hl, hcount⟩
    cases pre with
    | nil => simp at hcount
    | cons a' pre =>
      obtain ⟨rfl, rfl⟩ := List.cons.inj hl
      exact ⟨pre, post, rfl, balance_cons.mp hcount⟩
  · intro ⟨pre, post, hl, hcount⟩
    exact ⟨a :: pre, post, by rw [hl, List.cons_append], balance_cons.mpr hcount⟩

@[simp] theorem skip_zero : skip mark 0 l = some l := by
  cases l <;> rfl

/-- `skip` finds the end of its brackets exactly where the stream has one. -/
theorem skip_isSome_iff : (skip mark depth l).isSome ↔ Closes mark depth l := by
  induction l generalizing depth with
  | nil =>
    cases depth with
    | zero => simp [skip, closes_zero]
    | succ depth => simp [skip, not_closes_nil]
  | cons a l ih =>
    cases depth with
    | zero => simp [skip, closes_zero]
    | succ depth =>
      rw [closes_cons_iff, skip]
      exact ih

theorem skip_suffix (h : skip mark depth l = some rest) : rest <:+ l := by
  induction l generalizing depth with
  | nil =>
    cases depth with
    | zero =>
      cases h
      exact List.suffix_refl []
    | succ depth => cases h
  | cons a l ih =>
    cases depth with
    | zero =>
      cases h
      exact List.suffix_refl (a :: l)
    | succ depth => exact (ih h).trans (List.suffix_cons a l)

theorem exists_succ_of_skip (h : skip mark depth l = some rest) (hlt : rest.length < l.length) :
    ∃ d, depth = d + 1 := by
  cases depth with
  | zero =>
    rw [skip_zero, Option.some.injEq] at h
    rw [h] at hlt
    exact absurd hlt (Nat.lt_irrefl _)
  | succ depth => exact ⟨depth, rfl⟩

/-- A bracket that opens on the way is closed on the way. -/
theorem closes_of_skipped {pre post : List γ} (h : skip mark depth (pre ++ a :: post) = some rest)
    (hrest : rest.length ≤ post.length) (ha : mark a = .opens) : Closes mark 1 post := by
  induction pre generalizing depth with
  | nil =>
    obtain ⟨depth, rfl⟩ := exists_succ_of_skip h (Nat.lt_succ_of_le hrest)
    rw [List.nil_append, skip, ha] at h
    exact (skip_isSome_iff.mp (Option.isSome_of_eq_some h)).mono (Nat.succ_le_succ (Nat.zero_le _))
  | cons b pre ih =>
    obtain ⟨depth, rfl⟩ := exists_succ_of_skip h (by simp; omega)
    exact ih h

/-! ## Passes -/

theorem resume_suffix (h : resume mark a l = some rest) : rest <:+ l := by
  rw [resume] at h
  split at h
  · exact skip_suffix h
  · cases h
    exact List.suffix_refl l

/-- One pass over a stream: each item is kept or replaced, and what is inside a
replaced bracket is dropped. -/
def pass (mark : γ → Mark) (replace : γ → Option β) : List γ → Option (List (β ⊕ γ))
  | [] => some []
  | a :: rest =>
    match replace a with
    | none => (pass mark replace rest).map (.inr a :: ·)
    | some b =>
      match h : resume mark a rest with
      | none => none
      | some rest' =>
        have := (resume_suffix h).length_le
        (pass mark replace rest').map (.inl b :: ·)
termination_by l => l.length

@[simp] theorem pass_nil : pass mark replace [] = some [] := by
  rw [pass]

theorem pass_keep (ha : replace a = none) :
    pass mark replace (a :: l) = (pass mark replace l).map (.inr a :: ·) := by
  rw [pass]
  simp [ha]

theorem pass_replace {b : β} (ha : replace a = some b) :
    pass mark replace (a :: l) =
      (resume mark a l).bind fun rest => (pass mark replace rest).map (.inl b :: ·) := by
  rw [pass]
  simp only [ha]
  split <;> simp [*]

/-- Every bracket that a replaced item opens is closed. -/
def Delimited (mark : γ → Mark) (replace : γ → Option β) (l : List γ) : Prop :=
  ∀ pre a post, l = pre ++ a :: post → (replace a).isSome → mark a = .opens → Closes mark 1 post

theorem Delimited.suffix (h : Delimited mark replace l) (hrest : rest <:+ l) :
    Delimited mark replace rest := by
  obtain ⟨front, rfl⟩ := hrest
  intro pre a post hl
  exact h (front ++ pre) a post (by rw [hl, List.append_assoc])

theorem delimited_nil : Delimited mark replace [] := by
  intro pre a post hl
  simp at hl

theorem Delimited.cons_keep (ha : replace a = none) (h : Delimited mark replace l) :
    Delimited mark replace (a :: l) := by
  intro pre b post hl hb hopens
  cases pre with
  | nil =>
    obtain ⟨rfl, -⟩ := List.cons.inj hl
    simp [ha] at hb
  | cons a' pre =>
    obtain ⟨-, rfl⟩ := List.cons.inj hl
    exact h pre b post rfl hb hopens

/-- What a skipped bracket contains is delimited by it. -/
theorem Delimited.cons_resume (hrest : resume mark a l = some rest)
    (h : Delimited mark replace rest) : Delimited mark replace (a :: l) := by
  intro pre b post hl hb hopens
  rw [resume] at hrest
  cases pre with
  | nil =>
    obtain ⟨rfl, rfl⟩ := List.cons.inj hl
    rw [if_pos hopens] at hrest
    exact skip_isSome_iff.mp (Option.isSome_of_eq_some hrest)
  | cons a' pre =>
    obtain ⟨rfl, rfl⟩ := List.cons.inj hl
    split at hrest
    · rcases Nat.lt_or_ge post.length rest.length with hlt | hle
      · have hsuffix : b :: post <:+ pre ++ b :: post := List.suffix_append pre (b :: post)
        obtain ⟨front, rfl⟩ := List.suffix_of_suffix_length_le hsuffix (skip_suffix hrest) hlt
        exact h front b post rfl hb hopens
      · exact closes_of_skipped hrest hle hopens
    · cases hrest
      exact h pre b post rfl hb hopens

theorem Delimited.resumes (h : Delimited mark replace (a :: l)) (ha : (replace a).isSome) :
    (resume mark a l).isSome := by
  rw [resume]
  split
  · rename_i hopens
    exact skip_isSome_iff.mpr (h [] a l rfl ha hopens)
  · rfl

/-- A pass reaches the end of its stream exactly when what it replaces is delimited. -/
theorem pass_isSome_iff : (pass mark replace l).isSome ↔ Delimited mark replace l := by
  fun_induction pass mark replace l with
  | case1 => simp [delimited_nil]
  | case2 a l ha ih =>
    rw [Option.isSome_map, ih]
    exact ⟨Delimited.cons_keep ha, fun h => h.suffix (List.suffix_cons a l)⟩
  | case3 a l b ha hresume =>
    refine iff_of_false (by simp) ?_
    intro h
    have hresumes := h.resumes (by simp [ha])
    simp [hresume] at hresumes
  | case4 a l b ha rest hresume _ ih =>
    rw [Option.isSome_map, ih]
    have hsuffix : rest <:+ a :: l := (resume_suffix hresume).trans (List.suffix_cons a l)
    exact ⟨Delimited.cons_resume hresume, fun h => h.suffix hsuffix⟩

/-- A pass replaces something as soon as anything can be replaced. -/
theorem pass_replaced_iff {out : List (β ⊕ γ)} (h : pass mark replace l = some out) :
    out.any Sum.isLeft ↔ ∃ a ∈ l, (replace a).isSome := by
  fun_induction pass mark replace l generalizing out with
  | case1 =>
    cases h
    simp
  | case2 a l ha ih =>
    obtain ⟨out, hout, rfl⟩ := Option.map_eq_some_iff.mp h
    simp [ha, ih hout]
  | case3 => cases h
  | case4 a l b ha rest hresume _ ih =>
    obtain ⟨out, hout, rfl⟩ := Option.map_eq_some_iff.mp h
    simp [ha]

end Nested
