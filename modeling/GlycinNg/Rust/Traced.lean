import GlycinNg.Rust.Checked

/-! # Fallible computations that log their effects

`Traced ω ε α` is a computation that performs operations `ω` in order and ends
in a value `α` or an error `ε`. The log survives an error, so a property can
speak about what was done before a computation gave up. The rules come in two
kinds: inversion through `>>=`, and an invariant rule for `List.foldlM` whose
invariant may mention the part of the list already consumed. -/
namespace Rust

/-- A computation with the operations it performed and how it ended. The fields
are read through `ops` and `result`, which unlike projections are not unfolded
as long as their arguments can be compared. -/
structure Traced (ω ε α : Type) where
  log : List ω
  ending : Except ε α

namespace Traced
variable {ω ε α β σ : Type}

def ops (x : Traced ω ε α) : List ω := x.log
def result (x : Traced ω ε α) : Except ε α := x.ending

@[simp] theorem ops_mk (l : List ω) (r : Except ε α) : ops ⟨l, r⟩ = l := rfl
@[simp] theorem result_mk (l : List ω) (r : Except ε α) : result ⟨l, r⟩ = r := rfl

def bind (x : Traced ω ε α) (f : α → Traced ω ε β) : Traced ω ε β :=
  match x.result with
  | .ok a => ⟨x.ops ++ (f a).ops, (f a).result⟩
  | .error e => ⟨x.ops, .error e⟩

instance : Monad (Traced ω ε) where
  pure a := ⟨[], .ok a⟩
  bind := bind

/-- Perform one operation, which answers `r`. -/
def perform (op : ω) (r : Except ε α) : Traced ω ε α := ⟨[op], r⟩

/-- A pure step: nothing is performed. -/
def lift (r : Except ε α) : Traced ω ε α := ⟨[], r⟩

instance : MonadLift (Except ε) (Traced ω ε) := ⟨lift⟩

@[simp] theorem pure_result (a : α) : (pure a : Traced ω ε α).result = .ok a := rfl
@[simp] theorem perform_ops (op : ω) (r : Except ε α) : (perform op r).ops = [op] := rfl

/-! ## Sequencing -/

theorem bind_of_ok {x : Traced ω ε α} {a : α} (h : x.result = .ok a) (f : α → Traced ω ε β) :
    x >>= f = ⟨x.ops ++ (f a).ops, (f a).result⟩ := by
  change x.bind f = _
  rw [bind, h]

theorem bind_of_error {x : Traced ω ε α} {e : ε} (h : x.result = .error e)
    (f : α → Traced ω ε β) : x >>= f = ⟨x.ops, .error e⟩ := by
  change x.bind f = _
  rw [bind, h]

@[simp] theorem pure_bind (a : α) (f : α → Traced ω ε β) : (pure a >>= f) = f a := rfl

theorem bind_eq_ok {x : Traced ω ε α} {f : α → Traced ω ε β} {b : β} :
    (x >>= f).result = .ok b ↔ ∃ a, x.result = .ok a ∧ (f a).result = .ok b := by
  cases h : x.result with
  | ok a => simp [bind_of_ok h]
  | error e => simp [bind_of_error h]

theorem bind_eq_error {x : Traced ω ε α} {f : α → Traced ω ε β} {e : ε} :
    (x >>= f).result = .error e ↔
      x.result = .error e ∨ ∃ a, x.result = .ok a ∧ (f a).result = .error e := by
  cases h : x.result with
  | ok a => simp [bind_of_ok h]
  | error e => simp [bind_of_error h]

theorem lift_bind_eq_ok {r : Except ε α} {f : α → Traced ω ε β} {b : β} :
    ((liftM r : Traced ω ε α) >>= f).result = .ok b ↔ ∃ a, r = .ok a ∧ (f a).result = .ok b :=
  bind_eq_ok

theorem perform_bind_eq_ok {op : ω} {r : Except ε α} {f : α → Traced ω ε β} {b : β} :
    (perform op r >>= f).result = .ok b ↔ ∃ a, r = .ok a ∧ (f a).result = .ok b :=
  bind_eq_ok

theorem lift_bind_eq_error {r : Except ε α} {f : α → Traced ω ε β} {e : ε} :
    ((liftM r : Traced ω ε α) >>= f).result = .error e ↔
      r = .error e ∨ ∃ a, r = .ok a ∧ (f a).result = .error e :=
  bind_eq_error

theorem perform_bind_eq_error {op : ω} {r : Except ε α} {f : α → Traced ω ε β} {e : ε} :
    (perform op r >>= f).result = .error e ↔
      r = .error e ∨ ∃ a, r = .ok a ∧ (f a).result = .error e :=
  bind_eq_error

/-- An operation that succeeds hands its answer on. -/
theorem result_perform_bind {ε' : Type} {op : ω} {r : Except ε' α} {g : ε' → ε}
    {f : α → Traced ω ε β} {a : α} (hr : r = .ok a) :
    (perform op (r.mapError g) >>= f).result = (f a).result := by
  subst hr
  rfl

/-- So does a pure step. -/
theorem result_lift_bind {r : Except ε α} {f : α → Traced ω ε β} {a : α} (hr : r = .ok a) :
    ((liftM r : Traced ω ε α) >>= f).result = (f a).result := by
  subst hr
  rfl

theorem perform_ok_bind (op : ω) (a : α) (f : α → Traced ω ε β) :
    (perform op (.ok a) >>= f) = ⟨op :: (f a).ops, (f a).result⟩ := rfl

theorem lift_error_bind (e : ε) (f : α → Traced ω ε β) :
    ((liftM (.error e : Except ε α) : Traced ω ε α) >>= f) = ⟨[], .error e⟩ := rfl

/-- A loop fails only through one of its steps. -/
theorem exists_of_foldlM_error {step : σ → β → Traced ω ε σ} {l : List β} {s : σ} {e : ε}
    (h : (l.foldlM step s).result = .error e) :
    ∃ b ∈ l, ∃ s, (step s b).result = .error e := by
  induction l generalizing s with
  | nil => cases h
  | cons b l ih =>
    rw [List.foldlM_cons] at h
    rcases bind_eq_error.mp h with h | ⟨s', -, h⟩
    · exact ⟨b, by simp, s, h⟩
    · obtain ⟨b', hb', s, h⟩ := ih h
      exact ⟨b', by simp [hb'], s, h⟩

/-- What the first computation did stays in the log. -/
theorem mem_ops_bind_left {x : Traced ω ε α} {f : α → Traced ω ε β} {op : ω} (h : op ∈ x.ops) :
    op ∈ (x >>= f).ops := by
  cases hx : x.result with
  | ok a => simp [bind_of_ok hx, h]
  | error e => simpa [bind_of_error hx] using h

/-! ## Loops -/

/-- The invariant rule. `Inv pre s` relates the accumulator to the elements
consumed so far; a step that succeeds extends `pre` by its element. -/
theorem foldlM_inv (Inv : List β → σ → Prop) {step : σ → β → Traced ω ε σ} {l : List β} {s s' : σ}
    (hstep : ∀ pre b post s s', l = pre ++ b :: post → Inv pre s →
      (step s b).result = .ok s' → Inv (pre ++ [b]) s')
    (hs : Inv [] s) (h : (l.foldlM step s).result = .ok s') : Inv l s' := by
  have run : ∀ post pre s, l = pre ++ post → Inv pre s →
      (post.foldlM step s).result = .ok s' → Inv l s' := by
    intro post
    induction post with
    | nil =>
      intro pre s hl hi h
      rw [List.foldlM_nil, pure_result, Except.ok.injEq] at h
      subst h
      simpa [hl] using hi
    | cons b post ih =>
      intro pre s hl hi h
      rw [List.foldlM_cons] at h
      obtain ⟨s₁, h₁, h⟩ := bind_eq_ok.mp h
      exact ih (pre ++ [b]) s₁ (by simp [hl]) (hstep pre b post s s₁ hl hi h₁) h
  exact run l [] s rfl hs h

/-- The progress rule. A loop whose every step returns from the invariant and
restores it, returns. -/
theorem exists_foldlM_ok (Inv : List β → σ → Prop) {step : σ → β → Traced ω ε σ} {l : List β}
    {s : σ} (hstep : ∀ pre b post s, l = pre ++ b :: post → Inv pre s →
      ∃ s', (step s b).result = .ok s' ∧ Inv (pre ++ [b]) s')
    (hs : Inv [] s) : ∃ s', (l.foldlM step s).result = .ok s' := by
  have run : ∀ post pre s, l = pre ++ post → Inv pre s →
      ∃ s', (post.foldlM step s).result = .ok s' := by
    intro post
    induction post with
    | nil =>
      intro pre s _ _
      exact ⟨s, rfl⟩
    | cons b post ih =>
      intro pre s hl hi
      obtain ⟨s₁, h₁, hi₁⟩ := hstep pre b post s hl hi
      obtain ⟨s', h'⟩ := ih (pre ++ [b]) s₁ (by simp [hl]) hi₁
      refine ⟨s', ?_⟩
      rw [List.foldlM_cons]
      exact bind_eq_ok.mpr ⟨s₁, h₁, h'⟩
  exact run l [] s rfl hs

end Traced

end Rust
