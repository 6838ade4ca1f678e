import Mathlib.Logic.Function.Basic

/-! # Records written field by field

A record with independent fields, seen through `get` and `set`: after any sequence of
writes each field holds its last write, or what it held before (`get_foldl_write`). -/
namespace Store

/-- A family of independent fields of `R`; the field `f` holds a `V f`. -/
structure Fields (R : Type) {F : Type} (V : F → Type) where
  get : R → (f : F) → V f
  set : R → (f : F) → V f → R
  get_set_self : ∀ r f v, get (set r f v) f = v
  get_set_ne : ∀ r f v g, g ≠ f → get (set r f v) g = get r g

variable {R F : Type} {V : F → Type}

/-- Set one field. -/
def Fields.write (fields : Fields R V) (r : R) (w : Σ f, V f) : R := fields.set r w.1 w.2

/-- What one write leaves in the field `f`, if it is about `f`. -/
def valueAt [DecidableEq F] (f : F) (w : Σ f, V f) : Option (V f) :=
  if h : w.1 = f then some (h ▸ w.2) else none

/-- The last value written to the field `f`. -/
def lastWrite [DecidableEq F] (f : F) : List (Σ f, V f) → Option (V f)
  | [] => none
  | w :: ws => (lastWrite f ws).or (valueAt f w)

namespace Fields
variable [DecidableEq F] (fields : Fields R V)

theorem get_write (r : R) (w : Σ f, V f) (f : F) :
    fields.get (fields.write r w) f = (valueAt f w).getD (fields.get r f) := by
  unfold valueAt
  split
  · rename_i h
    subst h
    exact fields.get_set_self r w.1 w.2
  · rename_i h
    exact fields.get_set_ne r w.1 w.2 f (Ne.symm h)

/-- Each field holds its last write. -/
theorem get_foldl_write (ws : List (Σ f, V f)) (r : R) (f : F) :
    fields.get (ws.foldl fields.write r) f = (lastWrite f ws).getD (fields.get r f) := by
  induction ws generalizing r with
  | nil => rfl
  | cons w ws ih =>
    rw [List.foldl_cons, ih, get_write, lastWrite]
    cases lastWrite f ws <;> rfl

omit [DecidableEq F] in
/-- What no field reaches survives every sequence of writes. -/
theorem foldl_write_eq {β : Type} {p : R → β} (h : ∀ r f v, p (fields.set r f v) = p r)
    (ws : List (Σ f, V f)) (r : R) : p (ws.foldl fields.write r) = p r := by
  induction ws generalizing r with
  | nil => rfl
  | cons w ws ih =>
    rw [List.foldl_cons, ih]
    exact h r w.1 w.2

end Fields
end Store
