import Mathlib.Algebra.GroupWithZero.Nat
import Mathlib.Algebra.Order.BigOperators.Group.List
import Mathlib.Data.List.Forall2

/-! # Panicking Rust operations as values

An expression that can panic is a `Checked` value: indexing, slicing,
`copy_from_slice`, `usize` arithmetic with overflow checks and `expect` return
`.error` where Rust panics. A proof that a computation is `.ok` therefore shows
at once that every index is in bounds and that no `usize` wraps. `usize` is the
64-bit one. -/
namespace Rust

/-- Byte buffers: `Vec<u8>`, `Box<[u8]>` and `&[u8]` alike. -/
abbrev Bytes := List UInt8

/-- Why a thread panicked. -/
inductive Panic where
  | indexOutOfBounds
  | overflow
  | copyLengthMismatch
  | expectNone (message : String)
  deriving DecidableEq, Repr

abbrev Checked (α : Type) := Except Panic α

instance decidableEqExcept {ε α : Type} [DecidableEq ε] [DecidableEq α] :
    DecidableEq (Except ε α)
  | .ok a, .ok b => decidable_of_iff (a = b) (by simp)
  | .error a, .error b => decidable_of_iff (a = b) (by simp)
  | .ok _, .error _ => isFalse (by simp)
  | .error _, .ok _ => isFalse (by simp)

/-- The number of `usize` values. -/
def usizeValues : Nat := 2 ^ 64

section
variable {α β σ : Type}

@[simp] theorem ok_bind {ε : Type} (a : α) (f : α → Except ε β) : (Except.ok a >>= f) = f a := rfl

@[simp] theorem error_bind {ε : Type} (e : ε) (f : α → Except ε β) :
    ((Except.error e : Except ε α) >>= f) = .error e := rfl

/-- A computation returns exactly when both of its halves do. -/
theorem bind_eq_ok {ε : Type} {x : Except ε α} {f : α → Except ε β} {b : β} :
    (x >>= f) = .ok b ↔ ∃ a, x = .ok a ∧ f a = .ok b := by
  cases x <;> simp

/-! ## Arithmetic -/

def usizeAdd (a b : Nat) : Checked Nat :=
  if a + b < usizeValues then .ok (a + b) else .error .overflow

def usizeMul (a b : Nat) : Checked Nat :=
  if a * b < usizeValues then .ok (a * b) else .error .overflow

def usizeSub (a b : Nat) : Checked Nat :=
  if b ≤ a then .ok (a - b) else .error .overflow

theorem usizeAdd_ok {a b : Nat} (h : a + b < usizeValues) : usizeAdd a b = .ok (a + b) := if_pos h

theorem usizeMul_ok {a b : Nat} (h : a * b < usizeValues) : usizeMul a b = .ok (a * b) := if_pos h

theorem usizeSub_ok {a b : Nat} (h : b ≤ a) : usizeSub a b = .ok (a - b) := if_pos h

theorem eq_of_usizeAdd {a b c : Nat} (h : usizeAdd a b = .ok c) : c = a + b := by
  rw [usizeAdd] at h
  split at h <;> cases h
  rfl

theorem eq_of_usizeMul {a b c : Nat} (h : usizeMul a b = .ok c) : c = a * b := by
  rw [usizeMul] at h
  split at h <;> cases h
  rfl

/-- `usize::checked_add`, which reports an overflow instead of panicking. -/
def checkedAdd (a b : Nat) : Option Nat := if a + b < usizeValues then some (a + b) else none

/-- `usize::checked_mul`. -/
def checkedMul (a b : Nat) : Option Nat := if a * b < usizeValues then some (a * b) else none

theorem checkedAdd_some {a b : Nat} (h : a + b < usizeValues) : checkedAdd a b = some (a + b) :=
  if_pos h

theorem checkedMul_some {a b : Nat} (h : a * b < usizeValues) : checkedMul a b = some (a * b) :=
  if_pos h

theorem eq_of_checkedAdd {a b c : Nat} (h : checkedAdd a b = some c) : c = a + b := by
  rw [checkedAdd] at h
  split at h <;> cases h
  rfl

theorem eq_of_checkedMul {a b c : Nat} (h : checkedMul a b = some c) : c = a * b := by
  rw [checkedMul] at h
  split at h <;> cases h
  rfl

/-! ## Slices -/

/-- `xs[i]`. -/
def index (xs : List α) (i : Nat) : Checked α :=
  match xs[i]? with
  | some a => .ok a
  | none => .error .indexOutOfBounds

/-- `&xs[a..b]`. -/
def slice (xs : List α) (a b : Nat) : Checked (List α) :=
  if a ≤ b ∧ b ≤ xs.length then .ok ((xs.drop a).take (b - a)) else .error .indexOutOfBounds

/-- `xs.get(a..b)`. -/
def getRange (xs : List α) (a b : Nat) : Option (List α) :=
  if a ≤ b ∧ b ≤ xs.length then some ((xs.drop a).take (b - a)) else none

/-- `xs.get(a..)`. -/
def getFrom (xs : List α) (a : Nat) : Option (List α) :=
  if a ≤ xs.length then some (xs.drop a) else none

/-- `dst[a..b].copy_from_slice(src)`, returning the new `dst`. -/
def copyFromSlice (dst : List α) (a b : Nat) (src : List α) : Checked (List α) :=
  if a ≤ b ∧ b ≤ dst.length then
    if src.length = b - a then .ok (dst.take a ++ src ++ dst.drop b)
    else .error .copyLengthMismatch
  else .error .indexOutOfBounds

/-- `xs[i] = a`, returning the new `xs`. -/
def setIndex (xs : List α) (i : Nat) (a : α) : Checked (List α) :=
  if i < xs.length then .ok (xs.set i a) else .error .indexOutOfBounds

/-- `Option::expect`. -/
def expect (x : Option α) (message : String) : Checked α :=
  match x with
  | some a => .ok a
  | none => .error (.expectNone message)

theorem slice_ok {xs : List α} {a b : Nat} (h : a ≤ b) (hb : b ≤ xs.length) :
    slice xs a b = .ok ((xs.drop a).take (b - a)) := if_pos ⟨h, hb⟩

/-- The `n` elements from `a` on, where they are there. -/
theorem length_window {xs : List α} {a n : Nat} (h : a + n ≤ xs.length) :
    ((xs.drop a).take n).length = n := by
  rw [List.length_take, List.length_drop]
  omega

theorem slice_window {xs : List α} {a n : Nat} (h : a + n ≤ xs.length) :
    slice xs a (a + n) = .ok ((xs.drop a).take n) := by
  rw [slice_ok (Nat.le_add_right a n) h, Nat.add_sub_cancel_left]

theorem getRange_window {xs : List α} {a n : Nat} (h : a + n ≤ xs.length) :
    getRange xs a (a + n) = some ((xs.drop a).take n) := by
  rw [getRange, if_pos ⟨Nat.le_add_right a n, h⟩, Nat.add_sub_cancel_left]

theorem copyFromSlice_ok {dst src : List α} {a b : Nat} (h : a ≤ b) (hb : b ≤ dst.length)
    (hs : src.length = b - a) :
    copyFromSlice dst a b src = .ok (dst.take a ++ src ++ dst.drop b) := by
  rw [copyFromSlice, if_pos ⟨h, hb⟩, if_pos hs]

/-- The element behind a prefix is set. -/
theorem setIndex_append_cons {l r : List α} {i : Nat} {a b : α} (h : l.length = i) :
    setIndex (l ++ a :: r) i b = .ok (l ++ b :: r) := by
  subst h
  simp [setIndex]

theorem expect_ok {x : Option α} {a : α} {message : String} (h : x = some a) :
    expect x message = .ok a := by simp [expect, h]

/-! ## Loops -/

/-- A loop whose every step returns, computes the pure loop of its steps. The
invariant `Inv` carries what a step needs of the accumulator. -/
theorem foldlM_ok {Inv : σ → Prop} {step : σ → β → Checked σ} {f : σ → β → σ} {l : List β} {s : σ}
    (h : ∀ s, Inv s → ∀ b ∈ l, step s b = .ok (f s b) ∧ Inv (f s b)) (hs : Inv s) :
    l.foldlM step s = .ok (l.foldl f s) ∧ Inv (l.foldl f s) := by
  induction l generalizing s with
  | nil => exact ⟨rfl, hs⟩
  | cons b l ih =>
    obtain ⟨hb, hi⟩ := h s hs b (by simp)
    rw [List.foldlM_cons, hb, ok_bind, List.foldl_cons]
    apply ih ?_ hi
    intro s hs b hb
    exact h s hs b (by simp [hb])

/-- A `map` with a step that panics, where all panics are the same one. -/
theorem mapM_error {step : α → Checked β} {e : Panic} {l : List α}
    (h : ∃ a ∈ l, step a = .error e) (hall : ∀ a ∈ l, ∀ e', step a = .error e' → e' = e) :
    l.mapM step = .error e := by
  induction l with
  | nil =>
    obtain ⟨a, ha, -⟩ := h
    cases ha
  | cons a l ih =>
    rw [List.mapM_cons]
    cases ha : step a with
    | error e' => rw [hall a (by simp) e' ha, error_bind]
    | ok b =>
      have hrest : ∃ a ∈ l, step a = .error e := by
        obtain ⟨a', ha', he⟩ := h
        rcases List.mem_cons.mp ha' with rfl | ha'
        · rw [ha] at he
          cases he
        · exact ⟨a', ha', he⟩
      have hallRest : ∀ a ∈ l, ∀ e', step a = .error e' → e' = e := by
        intro a ha
        exact hall a (by simp [ha])
      rw [ok_bind, ih hrest hallRest, error_bind]

/-- A `map` whose every step can return, returns the list of what they return. -/
theorem exists_mapM_ok {step : α → Checked β} {R : α → β → Prop} {l : List α}
    (h : ∀ a ∈ l, ∃ b, step a = .ok b ∧ R a b) :
    ∃ l', l.mapM step = .ok l' ∧ List.Forall₂ R l l' := by
  induction l with
  | nil => exact ⟨[], rfl, .nil⟩
  | cons a l ih =>
    obtain ⟨b, hb, hR⟩ := h a (by simp)
    have hrest : ∀ a ∈ l, ∃ b, step a = .ok b ∧ R a b := by
      intro a ha
      exact h a (by simp [ha])
    obtain ⟨l', hl', hF⟩ := ih hrest
    refine ⟨b :: l', ?_, .cons hR hF⟩
    rw [List.mapM_cons, hb, ok_bind, hl']
    rfl

/-- A `map` into `Option` succeeds exactly with the list of the answers. -/
theorem mapM_eq_some {f : α → Option β} {l : List α} {l' : List β} :
    l.mapM f = some l' ↔ List.Forall₂ (fun a b => f a = some b) l l' := by
  induction l generalizing l' with
  | nil => cases l' <;> simp
  | cons a l ih =>
    cases l' with
    | nil => cases hf : f a <;> cases hm : l.mapM f <;> simp [hf, hm]
    | cons b l' =>
      rw [List.forall₂_cons, ← ih]
      cases hf : f a <;> cases hm : l.mapM f <;> simp [hf, hm]

theorem forall_mem_of_mapM {f : α → Option β} {P : β → Prop} {l : List α} {l' : List β}
    (h : l.mapM f = some l') (hf : ∀ a b, f a = some b → P b) : ∀ b ∈ l', P b := by
  rw [mapM_eq_some] at h
  induction h with
  | nil =>
    intro b hb
    cases hb
  | cons hab _ ih => exact List.forall_mem_cons.mpr ⟨hf _ _ hab, ih⟩

/-! ## Calls on a state -/

/-- The answers to a sequence of calls, and the state after it; a call that
panics ends the sequence. -/
def replay {ι : Type} (step : σ → ι → Checked (σ × α)) : σ → List ι → Checked (σ × List α)
  | s, [] => return (s, [])
  | s, i :: is => do
    let (s, answer) ← step s i
    let (s, answers) ← replay step s is
    return (s, answer :: answers)

theorem replay_nil_eq_ok {ι : Type} {step : σ → ι → Checked (σ × α)} {s last : σ}
    {answers : List α} : replay step s [] = .ok (last, answers) ↔ last = s ∧ answers = [] := by
  constructor
  · intro h
    cases h
    exact ⟨rfl, rfl⟩
  · rintro ⟨rfl, rfl⟩
    rfl

/-- A sequence returns exactly when its first call does and the rest returns from
the state that call leaves. -/
theorem replay_cons_eq_ok {ι : Type} {step : σ → ι → Checked (σ × α)} {s last : σ} {i : ι}
    {is : List ι} {answers : List α} :
    replay step s (i :: is) = .ok (last, answers) ↔
      ∃ s' answer rest, step s i = .ok (s', answer) ∧ replay step s' is = .ok (last, rest) ∧
        answers = answer :: rest := by
  constructor
  · intro h
    obtain ⟨⟨s', answer⟩, hstep, h⟩ := bind_eq_ok.mp h
    obtain ⟨⟨s'', rest⟩, hrest, h⟩ := bind_eq_ok.mp h
    cases h
    exact ⟨s', answer, rest, hstep, hrest, rfl⟩
  · rintro ⟨s', answer, rest, hstep, hrest, rfl⟩
    rw [replay, hstep, ok_bind]
    dsimp only
    rw [hrest]
    rfl

/-- One more call after a sequence that has returned. -/
theorem replay_concat {ι : Type} {step : σ → ι → Checked (σ × α)} {s s' last : σ} {is : List ι}
    {answers : List α} {i : ι} {answer : α} (h : replay step s is = .ok (s', answers))
    (hstep : step s' i = .ok (last, answer)) :
    replay step s (is ++ [i]) = .ok (last, answers ++ [answer]) := by
  induction is generalizing s answers with
  | nil =>
    obtain ⟨rfl, rfl⟩ := replay_nil_eq_ok.mp h
    exact replay_cons_eq_ok.mpr ⟨last, answer, [], hstep, replay_nil_eq_ok.mpr ⟨rfl, rfl⟩, rfl⟩
  | cons j is ih =>
    obtain ⟨s₁, answer₁, rest, hfirst, hrest, rfl⟩ := replay_cons_eq_ok.mp h
    exact replay_cons_eq_ok.mpr ⟨s₁, answer₁, rest ++ [answer], hfirst, ih hrest, rfl⟩

end

end Rust
