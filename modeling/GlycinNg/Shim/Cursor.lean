import GlycinNg.Concurrent.Atomic
import GlycinNg.Shim.Threads

/-! # The animation cursor

`ImageState::advance` over any run of calls, by one caller or by many. After `m` indices the
last one handed out is `m - 1` modulo the number of frames, and the cursor is one further
(`Turns`); the order of the frames and the end of a run that does not loop follow. -/
namespace GlycinNg.Shim.Threads
open Concurrent

/-- What `advance` is asked and answers. -/
abbrev CursorLog := List (Event Bool fun _ => Option Nat)

/-- The indices that have been handed out. -/
def indices (e : CursorLog) : List Nat := e.filterMap Sigma.snd

@[simp] theorem indices_append (e e' : CursorLog) : indices (e ++ e') = indices e ++ indices e' :=
  List.filterMap_append

/-! ## Where the cursor stands -/

/-- `m` indices have been handed out in turn, and the cursor is behind the last. -/
structure Turns (n m : Nat) (e : CursorLog) (s : ImageState) : Prop where
  frameCount_eq : s.frameCount = n
  indices_eq : indices e = (List.range m).map (· % n)
  cursor_eq : s.cursor = if m = 0 then 0 else (m - 1) % n + 1
  pos : m ≠ 0 → 0 < n

variable {n m : Nat} {e : CursorLog} {s : ImageState}

theorem Turns.cursor_le (h : Turns n m e s) : s.cursor ≤ n := by
  rw [h.cursor_eq]
  split
  · exact Nat.zero_le n
  · rename_i hm
    exact Nat.mod_lt _ (h.pos hm)

/-- The index after `m` of them is `m` modulo the number of frames. -/
theorem mod_succ_turn (hm : m ≠ 0) : m % n = ((m - 1) % n + 1) % n := by
  rw [Nat.mod_add_mod, Nat.sub_add_cancel (Nat.pos_of_ne_zero hm)]

/-- The next frame is the one at the cursor, or the first where the cursor is behind the
last. -/
theorem Turns.mod_eq (h : Turns n m e s) (hn : 0 < n) :
    m % n = if n ≤ s.cursor then 0 else s.cursor := by
  have hle := h.cursor_le
  rw [h.cursor_eq] at hle ⊢
  by_cases hm : m = 0
  · rw [if_pos hm, if_neg (by omega), hm, Nat.zero_mod]
  · rw [if_neg hm] at hle ⊢
    rw [mod_succ_turn hm]
    split
    · rw [Nat.le_antisymm hle ‹_›, Nat.mod_self]
    · rw [Nat.mod_eq_of_lt (by omega)]

/-- No index is left for a caller that does not loop. -/
def Exhausted (n : Nat) (s : ImageState) (loopAnimation : Bool) : Prop :=
  n = 0 ∨ n ≤ s.cursor ∧ loopAnimation = false

instance decidableExhausted (n : Nat) (s : ImageState) (loopAnimation : Bool) :
    Decidable (Exhausted n s loopAnimation) :=
  inferInstanceAs (Decidable (n = 0 ∨ n ≤ s.cursor ∧ loopAnimation = false))

/-- What one call does, in terms of the number of indices before it. -/
theorem Turns.advance_eq (h : Turns n m e s) (loopAnimation : Bool) :
    s.advance loopAnimation = if Exhausted n s loopAnimation then (none, s)
      else (some (m % n), { s with cursor := m % n + 1 }) := by
  unfold ImageState.advance
  rw [h.frameCount_eq]
  by_cases hzero : n = 0
  · rw [if_pos hzero, if_pos (.inl hzero)]
  · have hmod := h.mod_eq (Nat.pos_of_ne_zero hzero)
    rw [if_neg hzero]
    by_cases hend : n ≤ s.cursor
    · rw [if_pos hend] at hmod
      rw [if_pos hend, hmod]
      cases loopAnimation with
      | true => rw [if_pos rfl, if_neg (by simp [Exhausted, hzero])]
      | false => rw [if_neg (by decide), if_pos (.inr ⟨hend, rfl⟩)]
    · rw [if_neg hend] at hmod
      rw [if_neg hend, hmod, if_neg (by simp [Exhausted, hzero, hend])]

/-- A call that hands out an index. -/
theorem Turns.advance_some (h : Turns n m e s) {loopAnimation : Bool}
    (hleft : ¬ Exhausted n s loopAnimation) :
    Turns n (m + 1) (e ++ [⟨loopAnimation, (s.advance loopAnimation).1⟩])
      (s.advance loopAnimation).2 := by
  rw [h.advance_eq, if_neg hleft]
  refine ⟨h.frameCount_eq, ?_, rfl, fun _ => ?_⟩
  · rw [indices_append, h.indices_eq, List.range_succ, List.map_append]
    rfl
  · exact Nat.pos_of_ne_zero fun hzero => hleft (.inl hzero)

/-- A call that hands out none. -/
theorem Turns.advance_none (h : Turns n m e s) {loopAnimation : Bool}
    (hend : Exhausted n s loopAnimation) :
    Turns n m (e ++ [⟨loopAnimation, (s.advance loopAnimation).1⟩])
      (s.advance loopAnimation).2 := by
  rw [h.advance_eq, if_pos hend]
  refine ⟨h.frameCount_eq, ?_, h.cursor_eq, h.pos⟩
  rw [indices_append, h.indices_eq]
  exact List.append_nil _

/-- Any run of calls on a new image. -/
theorem exists_turns (image : Addr) (n : Nat) (rerender : Option Rerender) (flags : List Bool) :
    ∃ m, Turns n m (history ImageState.advance (.new image n rerender) flags)
      (after ImageState.advance (.new image n rerender) flags) := by
  induction flags using List.reverseRecOn with
  | nil => exact ⟨0, rfl, rfl, rfl, fun h => absurd rfl h⟩
  | append_singleton flags flag ih =>
    obtain ⟨m, h⟩ := ih
    rw [history_snoc, after_snoc]
    by_cases hend : Exhausted n (after ImageState.advance (.new image n rerender) flags) flag
    · exact ⟨m, h.advance_none hend⟩
    · exact ⟨m + 1, h.advance_some hend⟩

/-- Calls that all loop hand out an index each. -/
theorem looping_turns (image : Addr) (hn : 0 < n) (rerender : Option Rerender)
    {flags : List Bool} (hloop : ∀ flag ∈ flags, flag = true) :
    Turns n flags.length (history ImageState.advance (.new image n rerender) flags)
      (after ImageState.advance (.new image n rerender) flags) := by
  induction flags using List.reverseRecOn with
  | nil => exact ⟨rfl, rfl, rfl, fun h => absurd rfl h⟩
  | append_singleton flags flag ih =>
    obtain rfl : flag = true := hloop flag (by simp)
    have hloop : ∀ flag ∈ flags, flag = true := by
      intro flag hflag
      exact hloop flag (by simp [hflag])
    rw [history_snoc, after_snoc, List.length_append]
    apply (ih hloop).advance_some
    simp [Exhausted, Nat.ne_of_gt hn]

/-! ## What a caller sees -/

/-- With the cursor behind the last frame, the last indices are those of all frames. -/
theorem Turns.all_delivered (h : Turns n m e s) (hend : s.cursor = n) :
    List.range n <:+ indices e := by
  rw [h.cursor_eq] at hend
  rw [h.indices_eq]
  by_cases hm : m = 0
  · rw [if_pos hm] at hend
    subst hend
    exact List.nil_suffix
  · rw [if_neg hm] at hend
    have hle : n ≤ m := by
      have hmod := Nat.mod_le (m - 1) n
      omega
    have hmod : (m - n) % n = 0 := by
      rw [← Nat.mod_eq_sub_mod hle, mod_succ_turn hm, hend, Nat.mod_self]
    have htail : (List.range n).map ((· % n) ∘ (m - n + ·)) = List.range n := by
      have hself : ∀ k ∈ List.range n, ((· % n) ∘ (m - n + ·)) k = id k := by
        intro k hk
        rw [List.mem_range] at hk
        show (m - n + k) % n = k
        rw [Nat.add_mod, hmod, Nat.zero_add, Nat.mod_mod, Nat.mod_eq_of_lt hk]
      rw [List.map_congr_left hself, List.map_id]
    refine ⟨(List.range (m - n)).map (· % n), ?_⟩
    have hsplit : m = (m - n) + n := by omega
    conv_rhs => rw [hsplit, List.range_add, List.map_append, List.map_map, htail]

theorem Turns.in_range (h : Turns n m e s) {i : Nat} (hi : i ∈ indices e) : i < n := by
  rw [h.indices_eq] at hi
  obtain ⟨k, hk, rfl⟩ := List.mem_map.mp hi
  rw [List.mem_range] at hk
  exact Nat.mod_lt _ (h.pos (by omega))

/-- The indices begin with the first frame. -/
theorem Turns.first (h : Turns n m e s) {i : Nat} (hi : i ∈ (indices e).head?) : i = 0 := by
  rw [h.indices_eq] at hi
  cases m with
  | zero => cases hi
  | succ m =>
    rw [List.range_succ_eq_map, List.map_cons, List.head?_cons] at hi
    obtain rfl := Option.some.inj hi
    exact Nat.zero_mod n

/-- An index is followed by the one of the next frame. -/
theorem Turns.successor (h : Turns n m e s) {before rest : List Nat} {i j : Nat}
    (hsplit : indices e = before ++ i :: j :: rest) : j = (i + 1) % n := by
  rw [h.indices_eq] at hsplit
  have hi : ((List.range m).map (· % n))[before.length]? = some i := by
    rw [hsplit]
    simp
  have hj : ((List.range m).map (· % n))[before.length + 1]? = some j := by
    rw [hsplit]
    simp
  rw [List.getElem?_map, Option.map_eq_some_iff] at hi hj
  obtain ⟨k, hk, rfl⟩ := hi
  obtain ⟨k', hk', rfl⟩ := hj
  obtain ⟨-, rfl⟩ := List.getElem?_eq_some_iff.mp hk
  obtain ⟨-, rfl⟩ := List.getElem?_eq_some_iff.mp hk'
  simp

/-- Where every call loops, the `k`-th index is `k` modulo the number of frames. -/
theorem looping_index (image : Addr) (hn : 0 < n) (rerender : Option Rerender)
    {flags : List Bool} (hloop : ∀ flag ∈ flags, flag = true) {k : Nat}
    {ev : Event Bool fun _ => Option Nat}
    (hev : (history ImageState.advance (.new image n rerender) flags)[k]? = some ev) :
    ev.2 = some (k % n) := by
  obtain ⟨flag, hflag, rfl⟩ := getElem?_history hev
  obtain ⟨hk, rfl⟩ := List.getElem?_eq_some_iff.mp hflag
  have hbefore : ∀ flag ∈ flags.take k, flag = true := by
    intro flag hflag
    exact hloop flag (List.mem_of_mem_take hflag)
  have hturns := looping_turns image hn rerender hbefore
  have htrue : flags[k] = true := hloop _ (List.getElem_mem hk)
  show (ImageState.advance _ flags[k]).1 = _
  rw [htrue, hturns.advance_eq, if_neg (by simp [Exhausted, Nat.ne_of_gt hn]), List.length_take,
    Nat.min_eq_left (Nat.le_of_lt hk)]

/-- The indices handed out are in range and in order, the cursor is among the frames or
behind the last, and a call gets none only where there are no frames, or all have been
handed out since the first was and it does not loop. -/
structure InOrder (n : Nat) (e : CursorLog) (s : ImageState) : Prop where
  in_range : ∀ i ∈ indices e, i < n
  cursor_le : s.cursor ≤ n
  first : ∀ i ∈ (indices e).head?, i = 0
  successor : ∀ before i j rest, indices e = before ++ i :: j :: rest → j = (i + 1) % n
  ends : ∀ flag, (s.advance flag).1 = none → (s.advance flag).2 = s ∧
    (n = 0 ∨ flag = false ∧ List.range n <:+ indices e)
  looping : 0 < n → (∀ ev ∈ e, ev.1 = true) → ∀ k ev, e[k]? = some ev → ev.2 = some (k % n)

theorem inOrder_run (image : Addr) (n : Nat) (rerender : Option Rerender) (flags : List Bool) :
    InOrder n (history ImageState.advance (.new image n rerender) flags)
      (after ImageState.advance (.new image n rerender) flags) := by
  obtain ⟨m, h⟩ := exists_turns image n rerender flags
  refine ⟨fun _ => h.in_range, h.cursor_le, fun _ => h.first, fun _ _ _ _ => h.successor,
    ?ends, ?looping⟩
  case ends =>
    intro flag hnone
    rw [h.advance_eq] at hnone ⊢
    by_cases hend : Exhausted n (after ImageState.advance (.new image n rerender) flags) flag
    · rw [if_pos hend]
      refine ⟨rfl, hend.imp_right ?_⟩
      rintro ⟨hle, hflag⟩
      exact ⟨hflag, h.all_delivered (Nat.le_antisymm h.cursor_le hle)⟩
    · rw [if_neg hend] at hnone
      cases hnone
  case looping =>
    intro hn hloop k ev
    apply looping_index image hn rerender
    intro flag hflag
    have hasked : (history ImageState.advance (.new image n rerender) flags).map Sigma.fst =
        flags := map_fst_history flags
    rw [← hasked] at hflag
    obtain ⟨ev, hev, rfl⟩ := List.mem_map.mp hflag
    exact hloop ev hev

/-- Over any run of calls, and over any interleaving of any number of callers, the frames
are visited in order. -/
theorem cursor_in_order (image : Addr) (n : Nat) (rerender : Option Rerender) {α : Type} :
    (∀ flags : List Bool,
      InOrder n (history ImageState.advance (.new image n rerender) flags)
        (after ImageState.advance (.new image n rerender) flags)) ∧
      ∀ pool : Pool (ImageState × CursorLog) (Prog Bool (fun _ => Option Nat) α) Bool
          (fun _ => Option Nat) α,
        (atomic ImageState.advance).Reachable (.new image n rerender, []) pool →
          InOrder n pool.world.2 pool.world.1 ∧
            ∀ t ∈ pool.threads, t.hist.Sublist pool.world.2 := by
  refine ⟨inOrder_run image n rerender, ?_⟩
  intro pool hpool
  obtain ⟨⟨flags, hworld⟩, hsub⟩ := Reachable.sequential hpool
  refine ⟨?_, hsub⟩
  rw [hworld]
  exact inOrder_run image n rerender flags

/-- A caller that has asked once. -/
theorem cursor_in_order_asked :
    ∃ pool : Pool (ImageState × CursorLog) (Prog Bool (fun _ => Option Nat) Unit) Bool
        (fun _ => Option Nat) Unit,
      (atomic ImageState.advance).Reachable (.new 0 2 none, []) pool ∧
        indices pool.world.2 = [0] ∧ InOrder 2 pool.world.2 pool.world.1 := by
  have hstart : (atomic ImageState.advance).Step
      (⟨(.new 0 2 none, []), []⟩ : Pool (ImageState × CursorLog)
        (Prog Bool (fun _ => Option Nat) Unit) Bool (fun _ => Option Nat) Unit)
      ⟨(.new 0 2 none, []), [⟨.op true fun _ => .ret (), [], .op true fun _ => .ret (), false⟩]⟩ :=
    .start [] rfl
  have hasked := (Relation.ReflTransGen.refl.tail hstart).tail (.op [] [] ⟨rfl, rfl⟩)
  exact ⟨_, hasked, rfl, ((cursor_in_order 0 2 none).2 _ hasked).1⟩

/-- Three frames, once through, refused, and again. -/
example : (history ImageState.advance (.new 0 3 none) [false, true, false, false, true, false]).map
    Sigma.snd = [some 0, some 1, some 2, none, some 0, some 1] := by decide

end GlycinNg.Shim.Threads
