import GlycinNg.Concurrent.Prog

/-! # Pools of threads

Any number of threads run programs over one world. A step is an act of the environment,
a call that starts, one operation of one thread, or a call that returns; steps interleave
in any order. A `Discipline` gives each operation a specification over resources that the
threads hold between them; if the body of every call keeps to it, so does every pool that
can be reached (`Discipline.holds`). `once` is the rule for an event that happens at most
once. -/
namespace Concurrent
universe u v

/-- What runs: the operations and how the world answers them, the bodies of the calls, and
when a call may start, how it returns, and what the environment does between. -/
structure System (World : Type u) (Call : Type u) (Op : Type u) (Ans : Op → Type v)
    (α : Type v) where
  Exec : World → (o : Op) → Ans o → World → Prop
  body : Call → Prog Op Ans α
  Starts : World → Call → World → Prop
  Ends : World → Call → α → World → Prop
  Acts : World → World → Prop

variable {World Call Op : Type u} {Ans : Op → Type v} {α : Type v}

/-- A call, what it has done so far, and what is left of it. -/
structure Thread (Call : Type u) (Op : Type u) (Ans : Op → Type v) (α : Type v) where
  call : Call
  hist : List (Event Op Ans)
  rest : Prog Op Ans α
  returned : Bool

/-- The thread has performed an operation as in `E`. -/
def Thread.Did (t : Thread Call Op Ans α) (E : Event Op Ans → Prop) : Prop := ∃ e ∈ t.hist, E e

/-- The threads, with those whose call has returned, and the world they share. -/
structure Pool (World : Type u) (Call : Type u) (Op : Type u) (Ans : Op → Type v)
    (α : Type v) where
  world : World
  threads : List (Thread Call Op Ans α)

/-- Every call has returned. -/
def Pool.Idle (s : Pool World Call Op Ans α) : Prop := ∀ t ∈ s.threads, t.returned = true

namespace System
variable (sys : System World Call Op Ans α)

inductive Step : Pool World Call Op Ans α → Pool World Call Op Ans α → Prop where
  | act {w w' : World} (ts : List (Thread Call Op Ans α)) (hact : sys.Acts w w') :
      Step ⟨w, ts⟩ ⟨w', ts⟩
  | start {w w' : World} (ts : List (Thread Call Op Ans α)) {c : Call}
      (hstart : sys.Starts w c w') : Step ⟨w, ts⟩ ⟨w', ts ++ [⟨c, [], sys.body c, false⟩]⟩
  | op {w w' : World} (l r : List (Thread Call Op Ans α)) {c : Call} {h : List (Event Op Ans)}
      {o : Op} {k : Ans o → Prog Op Ans α} {a : Ans o} (hexec : sys.Exec w o a w') :
      Step ⟨w, l ++ ⟨c, h, .op o k, false⟩ :: r⟩ ⟨w', l ++ ⟨c, h ++ [⟨o, a⟩], k a, false⟩ :: r⟩
  | return {w w' : World} (l r : List (Thread Call Op Ans α)) {c : Call}
      {h : List (Event Op Ans)} {x : α} (hend : sys.Ends w c x w') :
      Step ⟨w, l ++ ⟨c, h, .ret x, false⟩ :: r⟩ ⟨w', l ++ ⟨c, h, .ret x, true⟩ :: r⟩

/-- The pools that can be reached from a world with no calls under way. -/
def Reachable (w : World) : Pool World Call Op Ans α → Prop :=
  Relation.ReflTransGen sys.Step ⟨w, []⟩

variable {sys} {w₀ : World} {s : Pool World Call Op Ans α}

/-! ## What all threads satisfy -/

section
variable {β : Type v} {l r : List β} {a b : β}

/-- One of a list is replaced by one that is as the others. -/
theorem forall_replace {P : β → Prop} (h : ∀ x ∈ l ++ a :: r, P x) (hb : P b) :
    ∀ x ∈ l ++ b :: r, P x := by
  intro x hx
  simp only [List.mem_append, List.mem_cons] at hx h
  rcases hx with hx | rfl | hx
  · exact h x (.inl hx)
  · exact hb
  · exact h x (.inr (.inr hx))

/-- One of a list is replaced by one that stands to the others as it did. -/
theorem pairwise_replace {R : β → β → Prop} (h : (l ++ a :: r).Pairwise R)
    (hl : ∀ x ∈ l, R x a → R x b) (hr : ∀ x ∈ r, R a x → R b x) :
    (l ++ b :: r).Pairwise R := by
  rw [List.pairwise_append, List.pairwise_cons] at h ⊢
  obtain ⟨hleft, ⟨har, hright⟩, hcross⟩ := h
  refine ⟨hleft, ⟨fun x hx => hr x hx (har x hx), hright⟩, fun x hx y hy => ?_⟩
  rcases List.mem_cons.mp hy with rfl | hy
  · exact hl x hx (hcross x hx a List.mem_cons_self)
  · exact hcross x hx y (List.mem_cons_of_mem a hy)

end

/-- What every history of every body satisfies, the history of every thread does. -/
theorem Reachable.along {I : Call → List (Event Op Ans) → Option α → Prop}
    (hbody : ∀ c, Along (sys.body c) (I c)) (h : sys.Reachable w₀ s) :
    ∀ t ∈ s.threads, I t.call t.hist t.rest.value := by
  suffices hall : ∀ t ∈ s.threads, Along t.rest fun e x => I t.call (t.hist ++ e) x by
    intro t ht
    simpa using (hall t ht).start
  induction h with
  | refl => simp
  | tail _ hstep ih =>
    cases hstep with
    | act ts hact => exact ih
    | start ts hstart =>
      intro t ht
      simp only [List.mem_append, List.mem_singleton] at ht
      rcases ht with ht | rfl
      · exact ih t ht
      · exact hbody _
    | op l r hexec =>
      have hold := ih _ (List.mem_append_right l List.mem_cons_self)
      refine forall_replace ih ((hold.2 _).mono fun e x hI => ?_)
      simpa using hI
    | «return» l r hend =>
      have hold := ih _ (List.mem_append_right l List.mem_cons_self)
      exact forall_replace ih hold

/-! ## Events that happen once -/

/-- As long as it is open nobody has done `E`, and no two threads have. -/
structure DoneOnce (Open : World → Prop) (E : Event Op Ans → Prop)
    (s : Pool World Call Op Ans α) : Prop where
  none_of_open : Open s.world → ∀ t ∈ s.threads, ¬ t.Did E
  not_both : s.threads.Pairwise fun t u => ¬ (t.Did E ∧ u.Did E)

section
variable {Open : World → Prop} {E : Event Op Ans → Prop}

theorem did_snoc {c : Call} {e : List (Event Op Ans)} {ev : Event Op Ans}
    {p q : Prog Op Ans α} :
    (⟨c, e ++ [ev], q, false⟩ : Thread Call Op Ans α).Did E ↔
      (⟨c, e, p, false⟩ : Thread Call Op Ans α).Did E ∨ E ev := by
  simp [Thread.Did, or_and_right, exists_or]

/-- One operation: it is not in `E`, or nobody has done one before. -/
theorem DoneOnce.op {w w' : World} {l r : List (Thread Call Op Ans α)} {c : Call}
    {e : List (Event Op Ans)} {o : Op} {k : Ans o → Prog Op Ans α} {a : Ans o}
    (h : DoneOnce Open E ⟨w, l ++ ⟨c, e, .op o k, false⟩ :: r⟩)
    (hclose : Open w' → Open w ∧ ¬ E ⟨o, a⟩) (hneed : E ⟨o, a⟩ → Open w) :
    DoneOnce Open E ⟨w', l ++ ⟨c, e ++ [⟨o, a⟩], k a, false⟩ :: r⟩ := by
  refine ⟨fun ho => ?_, pairwise_replace h.not_both (fun t ht hnot => ?_) fun u hu hnot => ?_⟩
  · have hold := h.none_of_open (hclose ho).1
    refine forall_replace hold ?_
    rw [did_snoc (p := .op o k)]
    exact not_or.mpr ⟨hold _ (List.mem_append_right l List.mem_cons_self), (hclose ho).2⟩
  · rw [did_snoc (p := .op o k)]
    rintro ⟨hdid, hd | hE⟩
    · exact hnot ⟨hdid, hd⟩
    · exact h.none_of_open (hneed hE) t (List.mem_append_left _ ht) hdid
  · rw [did_snoc (p := .op o k)]
    rintro ⟨hd | hE, hdid⟩
    · exact hnot ⟨hd, hdid⟩
    · refine h.none_of_open (hneed hE) u ?_ hdid
      exact List.mem_append_right l (List.mem_cons_of_mem _ hu)

/-- An event that needs `Open` and closes it, where nothing opens it again, happens in at
most one thread. -/
theorem Reachable.once (hexec : ∀ {w o a w'}, sys.Exec w o a w' →
      (Open w' → Open w ∧ ¬ E ⟨o, a⟩) ∧ (E ⟨o, a⟩ → Open w))
    (hstart : ∀ {w c w'}, sys.Starts w c w' → Open w' → Open w)
    (hend : ∀ {w c x w'}, sys.Ends w c x w' → Open w' → Open w)
    (hact : ∀ {w w'}, sys.Acts w w' → Open w' → Open w) (h : sys.Reachable w₀ s) :
    DoneOnce Open E s := by
  induction h with
  | refl => exact ⟨by simp, .nil⟩
  | tail _ hstep ih =>
    cases hstep with
    | act ts h => exact ⟨fun ho => ih.none_of_open (hact h ho), ih.not_both⟩
    | start ts h =>
      refine ⟨fun ho t ht => ?_, List.pairwise_append.mpr ⟨ih.not_both,
        List.pairwise_singleton _ _, fun t _ u hu => ?_⟩⟩
      · simp only [List.mem_append, List.mem_singleton] at ht
        rcases ht with ht | rfl
        · exact ih.none_of_open (hstart h ho) t ht
        · simp [Thread.Did]
      · obtain rfl := List.mem_singleton.mp hu
        simp [Thread.Did]
    | op l r h => exact ih.op (hexec h).1 (hexec h).2
    | «return» l r h =>
      refine ⟨fun ho => ?_, pairwise_replace ih.not_both (fun _ _ hnot => hnot)
        fun _ _ hnot => hnot⟩
      have hold := ih.none_of_open (hend h ho)
      have hthread := hold _ (List.mem_append_right l List.mem_cons_self)
      exact forall_replace hold hthread

end

end System

/-! ## Resources -/

/-- Resources `R` the threads of a system hold between them: `Owns w r` says that in the
world `w` they hold `r` altogether. Each operation turns what its thread holds into what
`Spec` says, whatever the others hold. -/
structure Discipline (sys : System World Call Op Ans α) (R : Type v) [AddCommMonoid R] where
  Owns : World → R → Prop
  Spec : (o : Op) → R → (Ans o → R) → Prop
  brings : Call → R
  Post : Call → α → R → Prop
  spec_keeps : ∀ {w o a w' r r' f}, Spec o r r' → Owns w (r + f) → sys.Exec w o a w' →
    Owns w' (r' a + f)
  starts_keeps : ∀ {w c w' f}, sys.Starts w c w' → Owns w f → Owns w' (brings c + f)
  ends_keeps : ∀ {w c x w' r f}, sys.Ends w c x w' → Post c x r → Owns w (r + f) → Owns w' f
  acts_keeps : ∀ {w w' r}, sys.Acts w w' → Owns w r → Owns w' r
  body_safe : ∀ {w c w'}, sys.Starts w c w' → Safe Spec (Post c) (sys.body c) (brings c)

namespace Discipline
variable {sys : System World Call Op Ans α} {R : Type v} [AddCommMonoid R]
  (d : Discipline sys R)

/-- The thread holds `r`, and can go on with it. -/
def Holds (t : Thread Call Op Ans α) (r : R) : Prop :=
  if t.returned then r = 0 else Safe d.Spec (d.Post t.call) t.rest r

/-- What the threads hold. -/
def Balanced (s : Pool World Call Op Ans α) : Prop :=
  ∃ held : List (Thread Call Op Ans α × R), held.map Prod.fst = s.threads ∧
    (∀ x ∈ held, d.Holds x.1 x.2) ∧ d.Owns s.world (held.map Prod.snd).sum

omit d in
/-- One thread's share, and the rest. -/
theorem sum_share (l r : List (Thread Call Op Ans α × R)) (x : Thread Call Op Ans α × R) :
    ((l ++ x :: r).map Prod.snd).sum =
      x.2 + ((l.map Prod.snd).sum + (r.map Prod.snd).sum) := by
  simp [add_left_comm]

variable {d}

/-- A pool with a thread in its middle: the shares on both sides, and that thread's. -/
theorem Balanced.split {w : World} {l r : List (Thread Call Op Ans α)}
    {t : Thread Call Op Ans α} (h : d.Balanced ⟨w, l ++ t :: r⟩) :
    ∃ r₀ f, d.Holds t r₀ ∧ d.Owns w (r₀ + f) ∧ ∀ w' t' r₀', d.Holds t' r₀' →
      d.Owns w' (r₀' + f) → d.Balanced ⟨w', l ++ t' :: r⟩ := by
  obtain ⟨held, hmap, hholds, howns⟩ := h
  obtain ⟨hl, hxr, rfl, rfl, hxr'⟩ := List.map_eq_append_iff.mp hmap
  obtain ⟨x, hr, rfl, rfl, rfl⟩ := List.map_eq_cons_iff.mp hxr'
  rw [sum_share] at howns
  refine ⟨x.2, _, hholds x (by simp), howns, fun w' t' r₀' ht' howns' => ?_⟩
  refine ⟨hl ++ (t', r₀') :: hr, by simp, fun y hy => ?_, by rwa [sum_share]⟩
  simp only [List.mem_append, List.mem_cons] at hy hholds
  rcases hy with hy | rfl | hy
  · exact hholds y (.inl hy)
  · exact ht'
  · exact hholds y (.inr (.inr hy))

/-- One step keeps the balance. -/
theorem Balanced.step {s s' : Pool World Call Op Ans α} (h : d.Balanced s)
    (hstep : sys.Step s s') : d.Balanced s' := by
  cases hstep with
  | act ts hact =>
    obtain ⟨held, hmap, hholds, howns⟩ := h
    exact ⟨held, hmap, hholds, d.acts_keeps hact howns⟩
  | @start w w' ts c hstart =>
    obtain ⟨held, rfl, hholds, howns⟩ := h
    refine ⟨held ++ [(⟨c, [], sys.body c, false⟩, d.brings c)], by simp, fun x hx => ?_, ?_⟩
    · rcases List.mem_append.mp hx with hx | hx
      · exact hholds x hx
      · obtain rfl := List.mem_singleton.mp hx
        exact d.body_safe hstart
    · rw [sum_share]
      simpa using d.starts_keeps hstart howns
  | op l r hexec =>
    obtain ⟨r₀, f, ⟨r', hspec, hsafe⟩, howns, hput⟩ := h.split
    exact hput _ _ _ (hsafe _) (d.spec_keeps hspec howns hexec)
  | «return» l r hend =>
    obtain ⟨r₀, f, hpost, howns, hput⟩ := h.split
    refine hput _ _ 0 rfl ?_
    rw [zero_add]
    exact d.ends_keeps hend hpost howns

variable {w₀ : World} {s : Pool World Call Op Ans α}

/-- Every pool that can be reached is in balance. -/
theorem holds (hinit : d.Owns w₀ 0) (h : sys.Reachable w₀ s) : d.Balanced s := by
  induction h with
  | refl => exact ⟨[], rfl, by simp, hinit⟩
  | tail _ hstep ih => exact ih.step hstep

/-- Whatever a thread is about to do is within the specification of the operation. -/
theorem next_spec (hinit : d.Owns w₀ 0) (h : sys.Reachable w₀ s)
    {t : Thread Call Op Ans α} (ht : t ∈ s.threads) (hrun : t.returned = false) {o : Op}
    {k : Ans o → Prog Op Ans α} (hnext : t.rest = .op o k) :
    ∃ r r' f, d.Spec o r r' ∧ d.Owns s.world (r + f) := by
  obtain ⟨l, r, hsplit⟩ := List.append_of_mem ht
  have hbal : d.Balanced ⟨s.world, l ++ t :: r⟩ := hsplit ▸ holds hinit h
  obtain ⟨r₀, f, hholds, howns, -⟩ := hbal.split
  rw [Holds, hrun, hnext] at hholds
  obtain ⟨r', hspec, -⟩ := hholds
  exact ⟨r₀, r', f, hspec, howns⟩

/-- When every call has returned, nothing is held. -/
theorem owns_zero (hinit : d.Owns w₀ 0) (h : sys.Reachable w₀ s) (hidle : s.Idle) :
    d.Owns s.world 0 := by
  obtain ⟨held, hmap, hholds, howns⟩ := holds hinit h
  have hzero : ∀ x ∈ held.map Prod.snd, x = 0 := by
    intro x hx
    obtain ⟨y, hy, rfl⟩ := List.mem_map.mp hx
    have hret : y.1.returned = true := hidle y.1 (hmap ▸ List.mem_map_of_mem hy)
    have hy := hholds y hy
    rwa [Holds, if_pos hret] at hy
  rwa [List.sum_eq_zero hzero] at howns

end Discipline

end Concurrent
