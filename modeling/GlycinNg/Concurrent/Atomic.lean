import GlycinNg.Concurrent.Pool

/-! # One object behind a lock

Any number of threads operate on one object, each operation at once. Whatever the threads
do and however they interleave, the object has been through one sequence of operations
(`Reachable.sequential`), and what a thread has seen is a part of it. -/
namespace Concurrent
variable {S Op : Type} {Ans : Op → Type} {α : Type}

section
variable (step : S → (o : Op) → Ans o × S)

/-- The object after a sequence of operations. -/
def after : S → List Op → S
  | s, [] => s
  | s, o :: os => after (step s o).2 os

/-- The operations with their answers. -/
def history : S → List Op → List (Event Op Ans)
  | _, [] => []
  | s, o :: os => ⟨o, (step s o).1⟩ :: history (step s o).2 os

/-- Threads that run any programs over the object; the world is the object and a log of
what has been done to it. -/
def atomic : System (S × List (Event Op Ans)) (Prog Op Ans α) Op Ans α where
  Exec w o a w' := a = (step w.1 o).1 ∧ w' = ((step w.1 o).2, w.2 ++ [⟨o, a⟩])
  body p := p
  Starts w _ w' := w' = w
  Ends w _ _ w' := w' = w
  Acts _ _ := False

end

variable {step : S → (o : Op) → Ans o × S} {s : S} {o : Op}

@[simp] theorem after_snoc (os : List Op) :
    after step s (os ++ [o]) = (step (after step s os) o).2 := by
  induction os generalizing s with
  | nil => rfl
  | cons o' os ih => exact ih

@[simp] theorem history_snoc (os : List Op) : history step s (os ++ [o]) =
    history step s os ++ [⟨o, (step (after step s os) o).1⟩] := by
  induction os generalizing s with
  | nil => rfl
  | cons o' os ih => exact congrArg (List.cons _) ih

/-- One entry for each operation. -/
theorem map_fst_history (os : List Op) : (history step s os).map Sigma.fst = os := by
  induction os generalizing s with
  | nil => rfl
  | cons o os ih => exact congrArg (List.cons o) ih

/-- The entry of an operation has the answer to it after the operations before. -/
theorem getElem?_history {os : List Op} {k : Nat} {ev : Event Op Ans}
    (h : (history step s os)[k]? = some ev) :
    ∃ o, os[k]? = some o ∧ ev = ⟨o, (step (after step s (os.take k)) o).1⟩ := by
  induction os generalizing s k with
  | nil => cases h
  | cons o os ih =>
    cases k with
    | zero => exact ⟨o, rfl, (Option.some.inj h).symm⟩
    | succ k => exact ih h

/-- In every pool that can be reached the object has been through one sequence of
operations, and each thread has seen a part of it. -/
theorem Reachable.sequential {pool : Pool (S × List (Event Op Ans)) (Prog Op Ans α) Op Ans α}
    (h : (atomic step).Reachable (s, []) pool) :
    (∃ os, pool.world = (after step s os, history step s os)) ∧
      ∀ t ∈ pool.threads, t.hist.Sublist pool.world.2 := by
  induction h with
  | refl => exact ⟨⟨[], rfl⟩, by simp⟩
  | tail _ hstep ih =>
    obtain ⟨⟨os, hos⟩, hsub⟩ := ih
    cases hstep with
    | act ts hact => exact hact.elim
    | start ts hstart =>
      subst hstart
      refine ⟨⟨os, hos⟩, ?_⟩
      intro t ht
      rcases List.mem_append.mp ht with ht | ht
      · exact hsub t ht
      · obtain rfl := List.mem_singleton.mp ht
        exact List.nil_sublist _
    | @op w w' l r c e o k a hexec =>
      obtain ⟨rfl, rfl⟩ := hexec
      dsimp only at hos hsub
      subst hos
      refine ⟨⟨os ++ [o], by simp⟩, ?_⟩
      have hown := hsub _ (List.mem_append_right l List.mem_cons_self)
      have hothers : ∀ t ∈ l ++ ⟨c, e, .op o k, false⟩ :: r,
          t.hist.Sublist (history step s os ++ [⟨o, (step (after step s os) o).1⟩]) := by
        intro t ht
        exact (hsub t ht).trans (List.sublist_append_left _ _)
      exact System.forall_replace hothers (hown.append (List.Sublist.refl _))
    | «return» l r hend =>
      subst hend
      have hown := hsub _ (List.mem_append_right l List.mem_cons_self)
      exact ⟨⟨os, hos⟩, System.forall_replace hsub hown⟩

end Concurrent
