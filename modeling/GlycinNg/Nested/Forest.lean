import GlycinNg.Nested.Brackets

/-! # Forests and their streams

A forest is written to a stream node by node, an opening item before the children and a
closing one after them. A pass over such a stream with nothing but a counter of brackets
is a rewrite of the forest: `pass_flatten`. -/
namespace Nested

/-- Ordered trees with nodes `ν` and leaves `κ`, by first child and next sibling. -/
inductive Forest (ν κ : Type) where
  | nil
  | leaf (a : κ) (rest : Forest ν κ)
  | node (a : ν) (children rest : Forest ν κ)

namespace Forest

section
variable {ν κ γ β : Type}

/-- The stream of a forest. -/
def flatten (opening closing : ν → γ) (single : κ → γ) : Forest ν κ → List γ
  | nil => []
  | leaf a rest => single a :: rest.flatten opening closing single
  | node a children rest =>
    opening a :: children.flatten opening closing single ++
      closing a :: rest.flatten opening closing single

/-- Each outermost replaceable node, with its whole subtree, and each replaceable leaf
outside of those becomes one leaf. -/
def replaceOutermost (byNode : ν → Option β) (byLeaf : κ → Option β) :
    Forest ν κ → Forest ν (β ⊕ κ)
  | nil => nil
  | leaf a rest =>
    leaf ((byLeaf a).elim (.inr a) .inl) (rest.replaceOutermost byNode byLeaf)
  | node a children rest =>
    match byNode a with
    | some b => leaf (.inl b) (rest.replaceOutermost byNode byLeaf)
    | none =>
      node a (children.replaceOutermost byNode byLeaf) (rest.replaceOutermost byNode byLeaf)

/-- The number of leaves that stand for something replaced. -/
def replacements : Forest ν (β ⊕ κ) → Nat
  | nil => 0
  | leaf (.inl _) rest => rest.replacements + 1
  | leaf (.inr _) rest => rest.replacements
  | node _ children rest => children.replacements + rest.replacements

end

variable {ν κ γ β : Type} {mark : γ → Mark} {replace : γ → Option β} {opening closing : ν → γ}
  {single : κ → γ}

/-- A node is a bracket or its items are neutral, like the leaves; only leaves and
brackets are replaced. -/
structure Marked (mark : γ → Mark) (replace : γ → Option β) (opening closing : ν → γ)
    (single : κ → γ) : Prop where
  node : ∀ a, mark (opening a) = .opens ∧ mark (closing a) = .closes ∨
    mark (opening a) = .neutral ∧ mark (closing a) = .neutral
  leaf : ∀ a, mark (single a) = .neutral
  replaced : ∀ a, (replace (opening a)).isSome → mark (opening a) = .opens
  closing : ∀ a, replace (closing a) = none

/-- A whole forest leaves the counter where it was. -/
theorem skip_flatten (h : Marked mark replace opening closing single) (f : Forest ν κ)
    (depth : Nat) (rest : List γ) :
    skip mark (depth + 1) (f.flatten opening closing single ++ rest) =
      skip mark (depth + 1) rest := by
  induction f generalizing depth rest with
  | nil => rfl
  | leaf a f ih => rw [flatten, List.cons_append, skip, h.leaf, Mark.count, ih]
  | node a children f ihc ihf =>
    rw [flatten, List.append_assoc, List.cons_append, List.cons_append, skip]
    rcases h.node a with ⟨hopening, hclosing⟩ | ⟨hopening, hclosing⟩ <;>
      rw [hopening, Mark.count, ihc, skip, hclosing]
    · exact ihf depth rest
    · exact ihf depth rest

/-- After a replaced node the stream goes on behind its closing item. -/
theorem resume_node (h : Marked mark replace opening closing single) {a : ν}
    (ha : (replace (opening a)).isSome) (children : Forest ν κ) (rest : List γ) :
    resume mark (opening a) (children.flatten opening closing single ++ closing a :: rest) =
      some rest := by
  have hopens := h.replaced a ha
  have hcloses : mark (closing a) = .closes := by
    rcases h.node a with ⟨-, hcloses⟩ | ⟨hneutral, -⟩
    · exact hcloses
    · cases hopens.symm.trans hneutral
  rw [resume, if_pos hopens, skip_flatten h, skip, hcloses]
  exact skip_zero

/-- The items of a forest that a pass has been over. -/
def passed (opening closing : ν → γ) (single : κ → γ) (f : Forest ν (β ⊕ κ)) : List (β ⊕ γ) :=
  f.flatten (.inr ∘ opening) (.inr ∘ closing) (Sum.map id single)

@[simp] theorem passed_nil :
    (nil : Forest ν (β ⊕ κ)).passed opening closing single = [] := rfl

@[simp] theorem passed_leaf (a : β ⊕ κ) (f : Forest ν (β ⊕ κ)) :
    (leaf a f).passed opening closing single =
      a.map id single :: f.passed opening closing single := rfl

@[simp] theorem passed_node (a : ν) (children f : Forest ν (β ⊕ κ)) :
    (node a children f).passed opening closing single =
      .inr (opening a) :: children.passed opening closing single ++
        .inr (closing a) :: f.passed opening closing single := rfl

theorem pass_flatten_append (h : Marked mark replace opening closing single) (f : Forest ν κ)
    (rest : List γ) :
    pass mark replace (f.flatten opening closing single ++ rest) =
      (pass mark replace rest).map
        ((f.replaceOutermost (replace ∘ opening) (replace ∘ single)).passed
          opening closing single ++ ·) := by
  induction f generalizing rest with
  | nil => simp [flatten, replaceOutermost]
  | leaf a f ih =>
    have hresume (l : List γ) : resume mark (single a) l = some l := by
      simp [resume, h.leaf]
    rw [flatten, List.cons_append]
    cases ha : replace (single a) with
    | none =>
      rw [pass_keep ha, ih]
      simp [replaceOutermost, ha, Function.comp_def]
    | some b =>
      rw [pass_replace ha, hresume, Option.bind_some, ih]
      simp [replaceOutermost, ha, Function.comp_def]
  | node a children f ihc ihf =>
    rw [flatten, List.append_assoc, List.cons_append, List.cons_append]
    cases ha : replace (opening a) with
    | none =>
      rw [pass_keep ha, ihc, pass_keep (h.closing a), ihf]
      simp [replaceOutermost, ha, Function.comp_def]
    | some b =>
      rw [pass_replace ha, resume_node h (by simp [ha]), Option.bind_some, ihf]
      simp [replaceOutermost, ha, Function.comp_def]

/-- A pass over the stream of a forest reaches its end, and rewrites the forest. -/
theorem pass_flatten (h : Marked mark replace opening closing single) (f : Forest ν κ) :
    pass mark replace (f.flatten opening closing single) =
      some ((f.replaceOutermost (replace ∘ opening) (replace ∘ single)).passed
        opening closing single) := by
  have hpass := pass_flatten_append h f []
  rw [List.append_nil] at hpass
  simp [hpass]

/-- Something is replaced in the stream when something is in the forest. -/
theorem any_passed (f : Forest ν (β ⊕ κ)) :
    (f.passed opening closing single).any Sum.isLeft ↔ 0 < f.replacements := by
  induction f with
  | nil => simp [replacements]
  | leaf a f ih =>
    cases a with
    | inl b => simp [replacements]
    | inr a => simpa [replacements] using ih
  | node a children f ihc ihf =>
    rw [replacements, Nat.add_pos_iff_pos_or_pos, ← ihc, ← ihf]
    simp

end Forest
end Nested
