import Mathlib.Algebra.BigOperators.Group.List.Basic
import Mathlib.Logic.Relation

/-! # Programs of atomic operations

A program ends with a value or performs an operation and goes on with the answer.
`Along` is about every history a program can have, complete or not; `Safe` is about the
resources it holds while it runs. Both have a rule for sequencing. -/
namespace Concurrent
universe u v

/-- A program over operations `Op`; the operation `o` is answered by an `Ans o`. -/
inductive Prog (Op : Type u) (Ans : Op → Type v) (α : Type v) where
  | ret (a : α)
  | op (o : Op) (k : Ans o → Prog Op Ans α)

variable {Op : Type u} {Ans : Op → Type v} {α β : Type v}

namespace Prog

protected def bind (p : Prog Op Ans α) (f : α → Prog Op Ans β) : Prog Op Ans β :=
  match p with
  | .ret a => f a
  | .op o k => .op o fun a => (k a).bind f

instance instMonad : Monad (Prog Op Ans) where
  pure := .ret
  bind := .bind

/-- One operation. -/
def perform (o : Op) : Prog Op Ans (Ans o) := .op o .ret

/-- The value of a program that has come to its end. -/
def value : Prog Op Ans α → Option α
  | .ret a => some a
  | .op _ _ => none

end Prog

/-- An operation that has been performed, and its answer. -/
abbrev Event (Op : Type u) (Ans : Op → Type v) := Σ o : Op, Ans o

/-! ## Histories -/

/-- Every history of the program satisfies `I`: the empty one, and those that go on from
the first operation with any answer. The second argument of `I` is the value, once there
is one. -/
def Along : Prog Op Ans α → (List (Event Op Ans) → Option α → Prop) → Prop
  | .ret a, I => I [] (some a)
  | .op o k, I => I [] none ∧ ∀ a, Along (k a) fun h x => I (⟨o, a⟩ :: h) x

namespace Along
variable {I J : List (Event Op Ans) → Option α → Prop}

theorem start {p : Prog Op Ans α} (h : Along p I) : I [] p.value := by
  cases p with
  | ret a => exact h
  | op o k => exact h.1

theorem mono {p : Prog Op Ans α} (h : Along p I) (hIJ : ∀ e x, I e x → J e x) : Along p J := by
  induction p generalizing I J with
  | ret a => exact hIJ _ _ h
  | op o k ih => exact ⟨hIJ _ _ h.1, fun a => ih a (h.2 a) fun e x => hIJ _ x⟩

/-- The histories of two programs one after the other. -/
theorem bind {p : Prog Op Ans β} {f : β → Prog Op Ans α}
    (h : Along p fun e x => match x with
      | none => I e none
      | some b => Along (f b) fun e' x' => I (e ++ e') x') : Along (p >>= f) I := by
  induction p generalizing I with
  | ret b => exact h
  | op o k ih => exact ⟨h.1, fun a => ih a (h.2 a)⟩

/-- What holds of every history, of this program and of every other. -/
theorem of_forall (p : Prog Op Ans α) (h : ∀ e x, I e x) : Along p I := by
  induction p generalizing I with
  | ret a => exact h _ _
  | op o k ih => exact ⟨h _ _, fun a => ih a fun e x => h _ x⟩

/-- A property of complete histories that more events at the front do not spoil. -/
theorem after {p : Prog Op Ans β} {f : β → Prog Op Ans α}
    (hI : ∀ e e' x, I e' x → I (e ++ e') x) (hnone : ∀ e, I e none) (h : ∀ b, Along (f b) I) :
    Along (p >>= f) I := by
  refine bind (of_forall p fun e x => ?_)
  cases x with
  | none => exact hnone e
  | some b => exact (h b).mono fun e' x' => hI e e' x'

/-- One operation, and what follows its answer. -/
theorem step {o : Op} {f : Ans o → Prog Op Ans α} (hnone : I [] none)
    (h : ∀ a, Along (f a) fun e x => I (⟨o, a⟩ :: e) x) : Along (Prog.perform o >>= f) I :=
  ⟨hnone, h⟩

end Along

/-- No event is as in `E`, and the value, once there is one, is as in `Q`. -/
def Avoids (E : Event Op Ans → Prop) (Q : α → Prop) (e : List (Event Op Ans)) (x : Option α) :
    Prop :=
  (∀ ev ∈ e, ¬ E ev) ∧ ∀ a ∈ x, Q a

section
variable {E : Event Op Ans → Prop} {Q : α → Prop}

theorem Avoids.ret {a : α} (h : Q a) : Avoids E Q [] (some a) :=
  ⟨by simp, by simpa using h⟩

theorem Avoids.cons {ev : Event Op Ans} {e : List (Event Op Ans)} {x : Option α} (hev : ¬ E ev)
    (h : Avoids E Q e x) : Avoids E Q (ev :: e) x :=
  ⟨by simpa using ⟨hev, h.1⟩, h.2⟩

/-- One operation none of whose answers makes an event as in `E`. -/
theorem Along.avoids_step {o : Op} {f : Ans o → Prog Op Ans α} (hop : ∀ a, ¬ E ⟨o, a⟩)
    (h : ∀ a, Along (f a) (Avoids E Q)) : Along (Prog.perform o >>= f) (Avoids E Q) :=
  .step ⟨by simp, by simp⟩ fun a => (h a).mono fun _ _ => .cons (hop a)

theorem Along.avoids_bind {Q' : β → Prop} {p : Prog Op Ans β} {f : β → Prog Op Ans α}
    (hp : Along p (Avoids E Q')) (hf : ∀ b, Q' b → Along (f b) (Avoids E Q)) :
    Along (p >>= f) (Avoids E Q) := by
  refine .bind (hp.mono fun e x he => ?_)
  cases x with
  | none => exact ⟨he.1, by simp⟩
  | some b =>
    refine (hf b (he.2 b rfl)).mono fun e' x' he' => ⟨fun ev hev => ?_, he'.2⟩
    rcases List.mem_append.mp hev with hev | hev
    · exact he.1 ev hev
    · exact he'.1 ev hev

end

/-! ## Resources -/

section
variable {R : Type v} (Spec : (o : Op) → R → (Ans o → R) → Prop)

/-- Holding `r` the program can run to its end, each operation within its specification
`Spec o r r'`, which turns `r` into `r' a` on the answer `a`; `Post` holds at the end. -/
def Safe (Post : α → R → Prop) : Prog Op Ans α → R → Prop
  | .ret a, r => Post a r
  | .op o k, r => ∃ r', Spec o r r' ∧ ∀ a, Safe Post (k a) (r' a)

variable {Spec} {Post : α → R → Prop} {r : R}

namespace Safe

theorem op {o : Op} {k : Ans o → Prog Op Ans α} {r' : Ans o → R} (hspec : Spec o r r')
    (h : ∀ a, Safe Spec Post (k a) (r' a)) : Safe Spec Post (.op o k) r :=
  ⟨r', hspec, h⟩

/-- One operation, and what follows its answer. -/
theorem step {o : Op} {f : Ans o → Prog Op Ans α} {r' : Ans o → R} (hspec : Spec o r r')
    (h : ∀ a, Safe Spec Post (f a) (r' a)) : Safe Spec Post (Prog.perform o >>= f) r :=
  ⟨r', hspec, h⟩

/-- A program of one operation. -/
theorem last {o : Op} {Post : Ans o → R → Prop} {r' : Ans o → R} (hspec : Spec o r r')
    (h : ∀ a, Post a (r' a)) : Safe Spec Post (Prog.perform o) r :=
  ⟨r', hspec, h⟩

theorem mono {Post' : α → R → Prop} {p : Prog Op Ans α} (h : Safe Spec Post p r)
    (hPost : ∀ a r, Post a r → Post' a r) : Safe Spec Post' p r := by
  induction p generalizing r with
  | ret a => exact hPost a r h
  | op o k ih =>
    obtain ⟨r', hspec, h⟩ := h
    exact ⟨r', hspec, fun a => ih a (h a)⟩

/-- Sequencing: the second program starts with what the first has left. -/
theorem bind {Mid : β → R → Prop} {p : Prog Op Ans β} {f : β → Prog Op Ans α}
    (h : Safe Spec Mid p r) (hf : ∀ b r, Mid b r → Safe Spec Post (f b) r) :
    Safe Spec Post (p >>= f) r := by
  induction p generalizing r with
  | ret b => exact hf b r h
  | op o k ih =>
    obtain ⟨r', hspec, h⟩ := h
    exact ⟨r', hspec, fun a => ih a (h a)⟩

/-- Sequencing after a program that leaves `r₁`, whatever its value. -/
theorem seq {r₁ : R} {p : Prog Op Ans β} {f : β → Prog Op Ans α}
    (h : Safe Spec (fun _ r' => r' = r₁) p r) (hf : ∀ b, Safe Spec Post (f b) r₁) :
    Safe Spec Post (p >>= f) r :=
  h.bind fun b _ hr => hr ▸ hf b

end Safe

end

end Concurrent
