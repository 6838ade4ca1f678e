import Mathlib.Logic.Function.Basic

/-! # Custody of things that are released

Things are live from when they are acquired to when they are released. A live thing is
either loose, in the hands of exactly one party, or held by exactly one owner. The four
moves are acquiring, releasing, putting a loose thing into an owner and taking it out. -/
namespace Concurrent
variable {H O : Type}

/-- Every live thing is in one place; `loose` counts the hands it is in. -/
structure Custody (live : H → Prop) (holding : O → Option H) (loose : H → Nat) : Prop where
  loose_le : ∀ h, loose h ≤ 1
  live_of_loose : ∀ h, 0 < loose h → live h
  live_of_held : ∀ o h, holding o = some h → live h
  held_not_loose : ∀ o h, holding o = some h → loose h = 0
  holder_unique : ∀ o o' h, holding o = some h → holding o' = some h → o = o'
  in_custody : ∀ h, live h → 0 < loose h ∨ ∃ o, holding o = some h

/-- Nothing is live, and nothing is held. -/
theorem Custody.empty : Custody (fun _ : H => False) (fun _ : O => none) fun _ => 0 where
  loose_le _ := Nat.zero_le 1
  live_of_loose _ h := absurd h (Nat.lt_irrefl 0)
  live_of_held _ _ h := nomatch h
  held_not_loose _ _ h := nomatch h
  holder_unique _ _ _ h := nomatch h
  in_custody _ h := h.elim

namespace Custody
variable {live live' : H → Prop} {holding holding' : O → Option H} {loose loose' : H → Nat}
  {h : H} {o : O} [DecidableEq H] [DecidableEq O]

omit [DecidableEq O] in
/-- A thing that is new comes to one party's hands. -/
theorem acquire (c : Custody live holding loose) (hnew : ¬ live h)
    (hlive : ∀ x, live' x ↔ live x ∨ x = h)
    (hloose : ∀ x, loose' x = loose x + if x = h then 1 else 0) :
    Custody live' holding loose' := by
  have hzero : loose h = 0 := Nat.eq_zero_of_not_pos fun hpos => hnew (c.live_of_loose h hpos)
  refine ⟨fun x => ?_, fun x hx => ?_, fun o x hx => ?_, fun o x hx => ?_, c.holder_unique,
    fun x hx => ?_⟩
  · grind [c.loose_le x]
  · grind [c.live_of_loose x]
  · exact (hlive x).mpr (.inl (c.live_of_held o x hx))
  · have hne : x ≠ h := fun heq => hnew (heq ▸ c.live_of_held o x hx)
    rw [hloose, if_neg hne, c.held_not_loose o x hx]
  · rcases (hlive x).mp hx with hx | rfl
    · refine (c.in_custody x hx).imp_left fun hpos => ?_
      rw [hloose]
      omega
    · left
      rw [hloose, if_pos rfl]
      omega

omit [DecidableEq O] in
/-- Who has a thing in hand releases it. -/
theorem release (c : Custody live holding loose) (hlive : ∀ x, live' x ↔ live x ∧ x ≠ h)
    (hloose : ∀ x, loose x = loose' x + if x = h then 1 else 0) :
    Custody live' holding loose' := by
  have hone : loose h = loose' h + 1 := by rw [hloose h, if_pos rfl]
  have hzero : loose' h = 0 := by
    have := c.loose_le h
    omega
  have hheld : ∀ o x, holding o = some x → x ≠ h := by
    intro o x hx heq
    have := c.held_not_loose o x hx
    rw [heq] at this
    omega
  refine ⟨fun x => ?_, fun x hx => ?_, fun o x hx => ?_, fun o x hx => ?_, c.holder_unique,
    fun x hx => ?_⟩
  · grind [c.loose_le x]
  · grind [c.live_of_loose x]
  · exact (hlive x).mpr ⟨c.live_of_held o x hx, hheld o x hx⟩
  · grind [c.held_not_loose o x hx]
  · obtain ⟨hx, hne⟩ := (hlive x).mp hx
    have hin := c.in_custody x hx
    rwa [hloose x, if_neg hne] at hin

/-- What one party has in hand goes to an owner that holds nothing. -/
theorem stow (c : Custody live holding loose) (hnone : holding o = none)
    (hholding : holding' = Function.update holding o (some h))
    (hloose : ∀ x, loose x = loose' x + if x = h then 1 else 0) :
    Custody live holding' loose' := by
  have hone : loose h = loose' h + 1 := by rw [hloose h, if_pos rfl]
  have hle := c.loose_le h
  have hfree : ∀ o', holding o' ≠ some h := by
    intro o' heq
    have := c.held_not_loose o' h heq
    omega
  subst hholding
  refine ⟨fun x => ?_, fun x hx => ?_, fun o' x hx => ?_, fun o' x hx => ?_,
    fun o₁ o₂ x h₁ h₂ => ?_, fun x hx => ?_⟩
  · grind [c.loose_le x]
  · grind [c.live_of_loose x]
  · grind [Function.update_apply, c.live_of_held o' x, c.live_of_loose h]
  · grind [Function.update_apply, c.held_not_loose o' x]
  · grind [Function.update_apply, c.holder_unique o₁ o₂ x]
  · by_cases heq : x = h
    · exact .inr ⟨o, by rw [heq, Function.update_self]⟩
    · rcases c.in_custody x hx with hpos | ⟨o', ho'⟩
      · left
        rwa [hloose x, if_neg heq] at hpos
      · exact .inr ⟨o', by grind [Function.update_apply]⟩

/-- What an owner holds goes to one party's hands. -/
theorem unstow (c : Custody live holding loose) (hheld : holding o = some h)
    (hholding : holding' = Function.update holding o none)
    (hloose : ∀ x, loose' x = loose x + if x = h then 1 else 0) :
    Custody live holding' loose' := by
  have hzero := c.held_not_loose o h hheld
  subst hholding
  refine ⟨fun x => ?_, fun x hx => ?_, fun o' x hx => ?_, fun o' x hx => ?_,
    fun o₁ o₂ x h₁ h₂ => ?_, fun x hx => ?_⟩
  · grind [c.loose_le x]
  · grind [c.live_of_loose x, c.live_of_held o h hheld]
  · grind [Function.update_apply, c.live_of_held o' x]
  · grind [Function.update_apply, c.held_not_loose o' x, c.holder_unique o o' x]
  · grind [Function.update_apply, c.holder_unique o₁ o₂ x]
  · by_cases heq : x = h
    · left
      rw [hloose x, if_pos heq]
      omega
    · rcases c.in_custody x hx with hpos | ⟨o', ho'⟩
      · left
        rwa [hloose x, if_neg heq]
      · exact .inr ⟨o', by grind [Function.update_apply]⟩

end Custody

end Concurrent
