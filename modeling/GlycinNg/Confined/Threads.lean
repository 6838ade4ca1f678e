import Mathlib.Logic.Function.Basic

/-! # Threads under restrictions

A thread holds restrictions, and makes a call only where all of them admit it. It can take on
a restriction and gives none up; a thread that it starts holds what it holds. So a restriction
binds the whole line of the thread that took it on (`Run.confined`), and no one else
(`Run.held_from`). -/
namespace Confined
variable {Tid Call Rule : Type}

/-- The restrictions of every thread there has been. -/
abbrev Held (Tid Rule : Type) := Tid → Option (List Rule)

inductive Event (Tid Call Rule : Type) where
  | performed (t : Tid) (c : Call)
  | restricted (t : Tid) (r : Rule)
  | started (t child : Tid)

/-- The thread is `w` or comes from it, by threads started during `events`. -/
inductive Line (events : List (Event Tid Call Rule)) (w : Tid) : Tid → Prop where
  | self : Line events w w
  | child {t child : Tid} (h : Line events w t) (hstart : .started t child ∈ events) :
      Line events w child

section
variable [DecidableEq Tid] (admits : Rule → Call → Prop)

inductive Step : Held Tid Rule → List (Event Tid Call Rule) → Held Tid Rule → Prop where
  | quiet (held : Held Tid Rule) : Step held [] held
  | perform {held : Held Tid Rule} {t : Tid} {rules : List Rule} {c : Call}
      (ht : held t = some rules) (hadmits : ∀ r ∈ rules, admits r c) :
      Step held [.performed t c] held
  | restrict {held : Held Tid Rule} {t : Tid} {rules : List Rule} {r : Rule}
      (ht : held t = some rules) :
      Step held [.restricted t r] (Function.update held t (some (r :: rules)))
  | start {held : Held Tid Rule} {t child : Tid} {rules : List Rule} (ht : held t = some rules)
      (hfresh : held child = none) :
      Step held [.started t child] (Function.update held child (some rules))

/-- Steps one after the other, with what happened in them. -/
inductive Run : Held Tid Rule → List (Event Tid Call Rule) → Held Tid Rule → Prop where
  | nil (held : Held Tid Rule) : Run held [] held
  | cons {held held' held'' : Held Tid Rule} {e events : List (Event Tid Call Rule)}
      (h : Step admits held e held') (hrun : Run held' events held'') :
      Run held (e ++ events) held''

end

variable [DecidableEq Tid] {admits : Rule → Call → Prop} {held held' held'' : Held Tid Rule}
  {e events events' : List (Event Tid Call Rule)} {t w child : Tid} {c : Call} {r : Rule}

namespace Line

omit [DecidableEq Tid] in
theorem mono (h : Line events w t) (hsub : ∀ e ∈ events, e ∈ events') : Line events' w t := by
  induction h with
  | self => exact .self
  | child _ hstart ih => exact .child ih (hsub _ hstart)

omit [DecidableEq Tid] in
theorem trans {u : Tid} (h : Line events w u) (h' : Line events u t) : Line events w t := by
  induction h' with
  | self => exact h
  | child _ hstart ih => exact .child ih hstart

end Line

namespace Step

/-- A step leaves a thread what it held. -/
theorem keeps (h : Step admits held e held') (hr : ∃ rules, held t = some rules ∧ r ∈ rules) :
    ∃ rules, held' t = some rules ∧ r ∈ rules := by
  obtain ⟨rules, ht, hr⟩ := hr
  cases h with
  | quiet => exact ⟨rules, ht, hr⟩
  | perform => exact ⟨rules, ht, hr⟩
  | @restrict u rulesᵤ rᵤ hu =>
    by_cases heq : t = u
    · subst heq
      obtain rfl := Option.some.inj (hu.symm.trans ht)
      exact ⟨_, Function.update_self .., List.mem_cons_of_mem _ hr⟩
    · exact ⟨rules, (Function.update_of_ne heq ..).trans ht, hr⟩
  | @start u child rulesᵤ hu hfresh =>
    have hne : t ≠ child := by
      rintro rfl
      rw [hfresh] at ht
      cases ht
    exact ⟨rules, (Function.update_of_ne hne ..).trans ht, hr⟩

/-- A thread that there is stays. -/
theorem exists_held (h : Step admits held e held') (ht : held t ≠ none) : held' t ≠ none := by
  cases h with
  | quiet => exact ht
  | perform => exact ht
  | restrict hu =>
    rw [Function.update_apply]
    split
    · exact Option.some_ne_none _
    · exact ht
  | start hu hfresh =>
    rw [Function.update_apply]
    split
    · exact Option.some_ne_none _
    · exact ht

/-- Only a new thread is started. -/
theorem fresh_of_started (h : Step admits held e held') (hstart : .started t child ∈ e) :
    held child = none ∧ held' child = held t ∧ held t ≠ none := by
  cases h with
  | quiet => cases hstart
  | perform => cases List.mem_singleton.mp hstart
  | restrict => cases List.mem_singleton.mp hstart
  | start hu hfresh =>
    cases List.mem_singleton.mp hstart
    refine ⟨hfresh, (Function.update_self ..).trans hu.symm, ?_⟩
    rw [hu]
    exact Option.some_ne_none _

/-- A call is made where every restriction of the thread admits it. -/
theorem of_performed (h : Step admits held e held') (hc : .performed t c ∈ e) :
    ∃ rules, held t = some rules ∧ ∀ r ∈ rules, admits r c := by
  cases h with
  | quiet => cases hc
  | perform ht hadmits =>
    cases List.mem_singleton.mp hc
    exact ⟨_, ht, hadmits⟩
  | restrict => cases List.mem_singleton.mp hc
  | start => cases List.mem_singleton.mp hc

/-- A step that makes a call starts no thread. -/
theorem not_started_of_performed (h : Step admits held e held') (hc : .performed t c ∈ e) :
    .started w child ∉ e := by
  cases h with
  | quiet => cases hc
  | perform => exact fun hstart => nomatch List.mem_singleton.mp hstart
  | restrict => cases List.mem_singleton.mp hc
  | start => cases List.mem_singleton.mp hc

/-- Where a restriction that a thread holds after the step comes from. -/
theorem held_from (h : Step admits held e held') {rules : List Rule}
    (ht : held' t = some rules) (hr : r ∈ rules) :
    .restricted t r ∈ e ∨ (∃ rules, held t = some rules ∧ r ∈ rules) ∨
      ∃ u rules, .started u t ∈ e ∧ held u = some rules ∧ r ∈ rules := by
  cases h with
  | quiet => exact .inr (.inl ⟨rules, ht, hr⟩)
  | perform => exact .inr (.inl ⟨rules, ht, hr⟩)
  | @restrict u rulesᵤ rᵤ hu =>
    by_cases heq : t = u
    · subst heq
      rw [Function.update_self] at ht
      obtain rfl := Option.some.inj ht
      rcases List.mem_cons.mp hr with rfl | hr
      · exact .inl (List.mem_singleton_self _)
      · exact .inr (.inl ⟨rulesᵤ, hu, hr⟩)
    · rw [Function.update_of_ne heq] at ht
      exact .inr (.inl ⟨rules, ht, hr⟩)
  | @start u child rulesᵤ hu hfresh =>
    by_cases heq : t = child
    · subst heq
      rw [Function.update_self] at ht
      obtain rfl := Option.some.inj ht
      exact .inr (.inr ⟨u, rulesᵤ, List.mem_singleton_self _, hu, hr⟩)
    · rw [Function.update_of_ne heq] at ht
      exact .inr (.inl ⟨rules, ht, hr⟩)

end Step

namespace Run

/-- A thread that there was before is not started. -/
theorem not_started (h : Run admits held events held') (ht : held child ≠ none) :
    .started t child ∉ events := by
  induction h with
  | nil => exact List.not_mem_nil
  | cons hstep _ ih =>
    rw [List.mem_append, not_or]
    exact ⟨fun hstart => ht (hstep.fresh_of_started hstart).1, ih (hstep.exists_held ht)⟩

/-- A thread that there was before is in its own line only. -/
theorem eq_of_line (h : Run admits held events held') (ht : held t ≠ none)
    (hline : Line events w t) : t = w := by
  cases hline with
  | self => rfl
  | child _ hstart => exact absurd hstart (h.not_started ht)

/-- A line goes on from its first thread, or from one that the first step starts there. -/
theorem line_cons (hstep : Step admits held e held') (hrun : Run admits held' events held'')
    (h : Line (e ++ events) w t) :
    Line events w t ∨ ∃ u, .started w u ∈ e ∧ Line events u t := by
  induction h with
  | self => exact .inl .self
  | @child t child hline hstart ih =>
    rcases List.mem_append.mp hstart with hstart | hstart
    · have hfresh := hstep.fresh_of_started hstart
      have hback := hstep.exists_held hfresh.2.2
      rcases ih with h | ⟨u, hu, h⟩
      · rw [hrun.eq_of_line hback h] at hstart
        exact .inr ⟨child, hstart, .self⟩
      · rw [hrun.eq_of_line hback h] at hfresh
        exact absurd (hstep.fresh_of_started hu).1 hfresh.2.2
    · rcases ih with h | ⟨u, hu, h⟩
      · exact .inl (.child h hstart)
      · exact .inr ⟨u, hu, .child h hstart⟩

/-- What a thread holds binds every call of its line. -/
theorem confined (h : Run admits held events held')
    (hr : ∃ rules, held w = some rules ∧ r ∈ rules) (hline : Line events w t)
    (hc : .performed t c ∈ events) : admits r c := by
  induction h generalizing w with
  | nil => cases hc
  | @cons held held' held'' e events hstep hrun ih =>
    obtain ⟨rules, hw, hmem⟩ := hr
    rcases List.mem_append.mp hc with hc | hc
    · obtain ⟨rules', ht, hadmits⟩ := hstep.of_performed hc
      have hback : held' t ≠ none := hstep.exists_held (by rw [ht]; exact Option.some_ne_none _)
      rcases line_cons hstep hrun hline with hline | ⟨u, hu, -⟩
      · obtain rfl := hrun.eq_of_line hback hline
        obtain rfl := Option.some.inj (hw.symm.trans ht)
        exact hadmits r hmem
      · exact absurd hu (hstep.not_started_of_performed hc)
    · rcases line_cons hstep hrun hline with hline | ⟨u, hu, hline⟩
      · exact ih (hstep.keeps ⟨rules, hw, hmem⟩) hline hc
      · obtain ⟨-, heq, -⟩ := hstep.fresh_of_started hu
        exact ih ⟨rules, heq.trans hw, hmem⟩ hline hc

/-- What a thread holds was taken on in its line, or held there from the start. -/
theorem held_from (h : Run admits held events held') {rules : List Rule}
    (ht : held' t = some rules) (hr : r ∈ rules) :
    ∃ u, Line events u t ∧
      (.restricted u r ∈ events ∨ ∃ rules, held u = some rules ∧ r ∈ rules) := by
  induction h generalizing t rules with
  | nil => exact ⟨t, .self, .inr ⟨rules, ht, hr⟩⟩
  | @cons held held' held'' e events hstep _ ih =>
    obtain ⟨u, hline, hfrom⟩ := ih ht hr
    have hline' : Line (e ++ events) u t := hline.mono fun _ => List.mem_append_right e
    rcases hfrom with hmem | ⟨rules', hu, hr⟩
    · exact ⟨u, hline', .inl (List.mem_append_right e hmem)⟩
    · rcases hstep.held_from hu hr with hmem | hheld | ⟨v, rules'', hstart, hv, hr⟩
      · exact ⟨u, hline', .inl (List.mem_append_left events hmem)⟩
      · exact ⟨u, hline', .inr hheld⟩
      · refine ⟨v, ?_, .inr ⟨rules'', hv, hr⟩⟩
        exact .trans (.child .self (List.mem_append_left events hstart)) hline'

end Run

end Confined
