import GlycinNg.Concurrent.Pool

/-! # What threads know

A thread knows more with every answer it gets. The specification `Spec h o k Q` of an operation
`o`, for a thread with the history `h` that knows `k`, says what an answer tells: with the answer
`a` the thread knows some `k'` with `Q a k'`. A program is `Informed` if it comes to its end with
what it is to know then. `Knowledge` is what all threads know between them and why it is true of
the world they share; it may speak of a ghost, a record of the run that only grows. Unlike the
resources of a `Discipline`, what a thread knows is still known when its call has returned. -/
namespace Concurrent
universe u v
variable {World Call Op : Type u} {Ans : Op → Type v} {α β : Type v} {K G : Type v}

section
variable (Spec : List (Event Op Ans) → (o : Op) → K → (Ans o → K → Prop) → Prop)

/-- After the history `h`, knowing `k`, the program runs within the specifications to an end as
in `Post`. -/
def Informed (Post : List (Event Op Ans) → α → K → Prop) :
    Prog Op Ans α → List (Event Op Ans) → K → Prop
  | .ret a, h, k => Post h a k
  | .op o f, h, k =>
    ∃ Q, Spec h o k Q ∧ ∀ a k', Q a k' → Informed Post (f a) (h ++ [⟨o, a⟩]) k'

variable {Spec} {Post : List (Event Op Ans) → α → K → Prop} {h : List (Event Op Ans)} {k : K}

namespace Informed

/-- One operation, and what follows its answer. -/
theorem step {o : Op} {f : Ans o → Prog Op Ans α} {Q : Ans o → K → Prop} (hspec : Spec h o k Q)
    (hf : ∀ a k', Q a k' → Informed Spec Post (f a) (h ++ [⟨o, a⟩]) k') :
    Informed Spec Post (Prog.perform o >>= f) h k :=
  ⟨Q, hspec, hf⟩

/-- A program of one operation. -/
theorem last {o : Op} {Post : List (Event Op Ans) → Ans o → K → Prop} {Q : Ans o → K → Prop}
    (hspec : Spec h o k Q) (hPost : ∀ a k', Q a k' → Post (h ++ [⟨o, a⟩]) a k') :
    Informed Spec Post (Prog.perform o) h k :=
  ⟨Q, hspec, hPost⟩

/-- At its end the program has the history it has begun with, and more. -/
theorem mono {Post' : List (Event Op Ans) → α → K → Prop} {p : Prog Op Ans α}
    (hp : Informed Spec Post p h k)
    (hPost : ∀ h' a k', h <+: h' → Post h' a k' → Post' h' a k') :
    Informed Spec Post' p h k := by
  induction p generalizing h k with
  | ret a => exact hPost h a k (List.prefix_refl h) hp
  | op o f ih =>
    obtain ⟨Q, hspec, hf⟩ := hp
    refine ⟨Q, hspec, fun a k' hQ => ih a (hf a k' hQ) fun h' b k'' hh' => ?_⟩
    exact hPost h' b k'' ((List.prefix_append h _).trans hh')

/-- Sequencing: the second program knows what the first has found out. -/
theorem bind {Mid : List (Event Op Ans) → β → K → Prop} {p : Prog Op Ans β}
    {f : β → Prog Op Ans α} (hp : Informed Spec Mid p h k)
    (hf : ∀ h' b k', h <+: h' → Mid h' b k' → Informed Spec Post (f b) h' k') :
    Informed Spec Post (p >>= f) h k := by
  induction p generalizing h k with
  | ret b => exact hf h b k (List.prefix_refl h) hp
  | op o q ih =>
    obtain ⟨Q, hspec, hq⟩ := hp
    refine ⟨Q, hspec, fun a k' hQ => ih a (hq a k' hQ) fun h' b k'' hh' => ?_⟩
    exact hf h' b k'' ((List.prefix_append h _).trans hh')

end Informed

end

/-! ## Between all threads -/

/-- What threads know is right in every world they come to, in view of a ghost that grows.
`Sound` is known of every world that can be reached, `Inv` ties what one thread knows to its own
call and history, and `kept` is the part of what it knows that it does not forget. -/
structure Knowledge (sys : System World Call Op Ans α) (K G M : Type v) [AddCommMonoid K]
    [Preorder G] [Preorder M] where
  Sound : World → Prop
  Right : G → World → K → Prop
  Spec : List (Event Op Ans) → (o : Op) → K → (Ans o → K → Prop) → Prop
  Inv : Call → List (Event Op Ans) → K → Prop
  kept : K → M
  brings : Call → K
  Post : Call → List (Event Op Ans) → α → K → Prop
  spec_keeps : ∀ {g w h o k Q e a w'}, Sound w → Spec h o k Q → Right g w (k + e) →
    sys.Exec w o a w' → ∃ g' k', g ≤ g' ∧ Q a k' ∧ Right g' w' (k' + e)
  starts_keeps : ∀ {g w c w' e}, sys.Starts w c w' → Right g w e → Right g w' (brings c + e)
  ends_keeps : ∀ {g w c x w' e}, sys.Ends w c x w' → Right g w e → Right g w' e
  acts_keeps : ∀ {g w w' e}, sys.Acts w w' → Right g w e → Right g w' e
  inv_brings : ∀ c, Inv c [] (brings c)
  inv_spec : ∀ {c h o k Q a k'}, Inv c h k → Spec h o k Q → Q a k' → Inv c (h ++ [⟨o, a⟩]) k'
  kept_spec : ∀ {h o k Q a k'}, Spec h o k Q → Q a k' → kept k ≤ kept k'
  body_informed : ∀ {w c w'}, sys.Starts w c w' →
    Informed Spec (Post c) (sys.body c) [] (brings c)

namespace Knowledge
variable {M : Type v} {sys : System World Call Op Ans α} [AddCommMonoid K] [Preorder G]
  [Preorder M] (d : Knowledge sys K G M)

/-- The thread knows `k`, and can go on with it. -/
structure Holds (t : Thread Call Op Ans α) (k : K) : Prop where
  inv : d.Inv t.call t.hist k
  informed : Informed d.Spec (d.Post t.call) t.rest t.hist k

/-- The threads of the pool know this between them. -/
structure Shared (held : List (Thread Call Op Ans α × K)) (g : G)
    (s : Pool World Call Op Ans α) : Prop where
  threads_eq : held.map Prod.fst = s.threads
  holds : ∀ x ∈ held, d.Holds x.1 x.2
  right : d.Right g s.world (held.map Prod.snd).sum

omit [Preorder G] [Preorder M] in
/-- What one thread knows, and the rest. -/
theorem exists_sum_eq {l : List K} {i : Nat} {a : K} (h : l[i]? = some a) :
    ∃ e, l.sum = a + e := by
  induction l generalizing i with
  | nil => cases h
  | cons k l ih =>
    rw [List.sum_cons]
    cases i with
    | zero =>
      obtain rfl := Option.some.inj h
      exact ⟨l.sum, rfl⟩
    | succ i =>
      rw [List.getElem?_cons_succ] at h
      obtain ⟨e, he⟩ := ih h
      exact ⟨k + e, by rw [he, add_left_comm]⟩

omit [Preorder G] [Preorder M] in
/-- What two threads know, and the rest. -/
theorem exists_sum_eq_of_lt {l : List K} {i j : Nat} {a b : K} (hij : i < j)
    (hi : l[i]? = some a) (hj : l[j]? = some b) : ∃ e, l.sum = a + (b + e) := by
  induction l generalizing i j with
  | nil => cases hi
  | cons k l ih =>
    obtain ⟨m, rfl⟩ := Nat.exists_eq_add_of_lt hij
    rw [List.getElem?_cons_succ] at hj
    rw [List.sum_cons]
    cases i with
    | zero =>
      obtain rfl := Option.some.inj hi
      obtain ⟨e, he⟩ := exists_sum_eq hj
      exact ⟨e, by rw [he]⟩
    | succ i =>
      rw [List.getElem?_cons_succ] at hi
      obtain ⟨e, he⟩ := ih (by omega) hi hj
      exact ⟨k + e, by rw [he, add_left_comm k, add_left_comm k b]⟩

/-- No thread has forgotten what it is to keep; there may be more of them. -/
def Onward (held held' : List (Thread Call Op Ans α × K)) : Prop :=
  ∀ (i : Nat) x, held[i]? = some x → ∃ x', held'[i]? = some x' ∧ d.kept x.2 ≤ d.kept x'.2

variable {d} {held held' held'' : List (Thread Call Op Ans α × K)} {g : G}
  {s s' : Pool World Call Op Ans α}

theorem Onward.refl (held : List (Thread Call Op Ans α × K)) : d.Onward held held :=
  fun _ x hx => ⟨x, hx, le_refl _⟩

theorem Onward.trans (h : d.Onward held held')
    (h' : d.Onward held' held'') : d.Onward held held'' := by
  intro i x hx
  obtain ⟨x', hx', hle⟩ := h i x hx
  obtain ⟨x'', hx'', hle'⟩ := h' i x' hx'
  exact ⟨x'', hx'', hle.trans hle'⟩

/-- One thread has gone on. -/
theorem Onward.replace {l r : List (Thread Call Op Ans α × K)}
    {x x' : Thread Call Op Ans α × K} (h : d.kept x.2 ≤ d.kept x'.2) :
    d.Onward (l ++ x :: r) (l ++ x' :: r) := by
  intro i y hy
  rcases Nat.lt_trichotomy i l.length with hi | rfl | hi
  · rw [List.getElem?_append_left hi] at hy ⊢
    exact ⟨y, hy, le_refl _⟩
  · rw [List.getElem?_append_right (Nat.le_refl _), Nat.sub_self, List.getElem?_cons_zero] at hy ⊢
    cases hy
    exact ⟨x', rfl, h⟩
  · obtain ⟨n, rfl⟩ := Nat.exists_eq_add_of_lt hi
    have hsub : l.length + n + 1 - l.length = n + 1 := by omega
    rw [List.getElem?_append_right (Nat.le_of_lt hi), hsub, List.getElem?_cons_succ] at hy ⊢
    exact ⟨y, hy, le_refl _⟩

/-- One thread goes on from what it knows, and the others know what they knew. -/
theorem Shared.replace {w : World} {l r : List (Thread Call Op Ans α)} {t : Thread Call Op Ans α}
    (h : d.Shared held g ⟨w, l ++ t :: r⟩) :
    ∃ k e, d.Holds t k ∧ d.Right g w (k + e) ∧ ∀ g' w' t' k', d.Holds t' k' →
      d.kept k ≤ d.kept k' → d.Right g' w' (k' + e) →
      ∃ held', d.Onward held held' ∧ d.Shared held' g' ⟨w', l ++ t' :: r⟩ := by
  obtain ⟨hmap, hholds, hright⟩ := h
  obtain ⟨hl, hxr, rfl, rfl, hxr'⟩ := List.map_eq_append_iff.mp hmap
  obtain ⟨x, hr, rfl, rfl, rfl⟩ := List.map_eq_cons_iff.mp hxr'
  rw [Discipline.sum_share] at hright
  refine ⟨x.2, _, hholds x (by simp), hright, fun g' w' t' k' ht' hkept hright' => ?_⟩
  refine ⟨hl ++ (t', k') :: hr, .replace hkept, by simp, fun y hy => ?_,
    by rwa [Discipline.sum_share]⟩
  simp only [List.mem_append, List.mem_cons] at hy hholds
  rcases hy with hy | rfl | hy
  · exact hholds y (.inl hy)
  · exact ht'
  · exact hholds y (.inr (.inr hy))

theorem Shared.step (hsound : d.Sound s.world) (h : d.Shared held g s) (hstep : sys.Step s s') :
    ∃ held' g', d.Onward held held' ∧ g ≤ g' ∧ d.Shared held' g' s' := by
  cases hstep with
  | act ts hact =>
    exact ⟨held, g, .refl held, le_refl g, h.threads_eq, h.holds, d.acts_keeps hact h.right⟩
  | @start w w' ts c hstart =>
    obtain ⟨rfl, hholds, hright⟩ := h
    refine ⟨held ++ [(⟨c, [], sys.body c, false⟩, d.brings c)], g, fun i x hx => ?_, le_refl g,
      by simp, fun x hx => ?_, ?_⟩
    · obtain ⟨hi, -⟩ := List.getElem?_eq_some_iff.mp hx
      exact ⟨x, by rw [List.getElem?_append_left hi, hx], le_refl _⟩
    · rcases List.mem_append.mp hx with hx | hx
      · exact hholds x hx
      · obtain rfl := List.mem_singleton.mp hx
        exact ⟨d.inv_brings c, d.body_informed hstart⟩
    · rw [Discipline.sum_share]
      simpa using d.starts_keeps hstart hright
  | @op w w' l r c hist o f a hexec =>
    obtain ⟨k, e, ⟨hinv, Q, hspec, hgo⟩, hright, hput⟩ := h.replace
    obtain ⟨g', k', hle, hQ, hright'⟩ := d.spec_keeps hsound hspec hright hexec
    obtain ⟨held', honward, hshared⟩ := hput g' w' ⟨c, hist ++ [⟨o, a⟩], f a, false⟩ k'
      ⟨d.inv_spec hinv hspec hQ, hgo a k' hQ⟩ (d.kept_spec hspec hQ) hright'
    exact ⟨held', g', honward, hle, hshared⟩
  | @«return» w w' l r c hist x hend =>
    obtain ⟨k, e, hholds, hright, hput⟩ := h.replace
    obtain ⟨held', honward, hshared⟩ := hput g w' ⟨c, hist, .ret x, true⟩ k
      ⟨hholds.inv, hholds.informed⟩ (le_refl _) (d.ends_keeps hend hright)
    exact ⟨held', g, honward, le_refl g, hshared⟩

/-- Whatever happens next, the record of it begins with what has happened. -/
theorem Shared.steps (hsound : ∀ s', Relation.ReflTransGen sys.Step s s' → d.Sound s'.world)
    (h : d.Shared held g s) (hsteps : Relation.ReflTransGen sys.Step s s') :
    ∃ held' g', d.Onward held held' ∧ g ≤ g' ∧ d.Shared held' g' s' := by
  induction hsteps with
  | refl => exact ⟨held, g, .refl held, le_refl g, h⟩
  | tail hprev hstep ih =>
    obtain ⟨held₁, g₁, honward, hle, hshared⟩ := ih
    obtain ⟨held₂, g₂, honward', hle', hshared'⟩ := hshared.step (hsound _ hprev) hstep
    exact ⟨held₂, g₂, honward.trans honward', hle.trans hle', hshared'⟩

/-- Every pool that can be reached knows what it is to know. -/
theorem exists_shared {w₀ : World} (hsound : ∀ s, sys.Reachable w₀ s → d.Sound s.world)
    (hinit : d.Right g w₀ 0) (h : sys.Reachable w₀ s) : ∃ held g', d.Shared held g' s := by
  have hstart : d.Shared [] g ⟨w₀, []⟩ := ⟨rfl, by simp, hinit⟩
  obtain ⟨held, g', -, -, hshared⟩ := hstart.steps hsound h
  exact ⟨held, g', hshared⟩

end Knowledge

end Concurrent
