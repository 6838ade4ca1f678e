import GlycinNg.Concurrent.Pool
import Mathlib.Logic.Function.Basic

/-! # Threads that share an object and keep a slot each

Threads call into one shared object; each thread also has a slot of its own that its calls
leave something in, and makes one call at a time. Where only the first operation of a call
touches the object, the calls are atomic whatever the schedule: there is one order of them,
and every call returns what it returns when it is run alone at its place in that order
(`Reachable.linearizable`). -/
namespace Concurrent
variable {S L C Op : Type} {Ans : Op → Type} {α : Type}

/-- The operations of a program, done by a thread. -/
def Prog.tag (t : Nat) : Prog Op Ans α → Prog (Nat × Op) (fun o => Ans o.2) α
  | .ret a => .ret a
  | .op o k => .op (t, o) fun a => (k a).tag t

theorem Prog.tag_value (t : Nat) (p : Prog Op Ans α) : (p.tag t).value = p.value := by
  cases p <;> rfl

section
variable (step : S × L → (o : Op) → Ans o × (S × L))

/-- A program that runs alone: its value, and what it leaves. -/
def solo : Prog Op Ans α → S × L → α × (S × L)
  | .ret a, w => (a, w)
  | .op o k, w => solo (k (step w o).1) (step w o).2

/-- The operation is about the slot only. -/
structure Private (o : Op) : Prop where
  keeps : ∀ s l, (step (s, l) o).2.1 = s
  ans_eq : ∀ s s' l, (step (s, l) o).1 = (step (s', l) o).1
  slot_eq : ∀ s s' l, (step (s, l) o).2.2 = (step (s', l) o).2.2

def AllPrivate : Prog Op Ans α → Prop
  | .ret _ => True
  | .op o k => Private step o ∧ ∀ a, AllPrivate (k a)

/-- After its first operation the program is about its slot only. -/
def OneShared : Prog Op Ans α → Prop
  | .ret _ => True
  | .op _ k => ∀ a, AllPrivate step (k a)

variable {step}

theorem AllPrivate.pure (a : α) : AllPrivate step (Pure.pure a : Prog Op Ans α) := trivial

theorem AllPrivate.bind {β : Type} {p : Prog Op Ans β} {f : β → Prog Op Ans α}
    (h : AllPrivate step p) (hf : ∀ b, AllPrivate step (f b)) : AllPrivate step (p >>= f) := by
  induction p with
  | ret b => exact hf b
  | op o k ih => exact ⟨h.1, fun a => ih a (h.2 a)⟩

theorem AllPrivate.oneShared {p : Prog Op Ans α} (h : AllPrivate step p) : OneShared step p := by
  cases p with
  | ret a => trivial
  | op o k => exact h.2

/-- Only the first of two programs in sequence touches the object. -/
theorem OneShared.bind {β : Type} {p : Prog Op Ans β} {f : β → Prog Op Ans α}
    (h : OneShared step p) (hf : ∀ b, AllPrivate step (f b)) : OneShared step (p >>= f) := by
  cases p with
  | ret b => exact (hf b).oneShared
  | op o k => exact fun a => (h a).bind hf

theorem OneShared.perform (o : Op) : OneShared step (Prog.perform o) := fun _ => trivial

theorem AllPrivate.solo_object {p : Prog Op Ans α} (h : AllPrivate step p) (s : S) (l : L) :
    (solo step p (s, l)).2.1 = s := by
  induction p generalizing l with
  | ret a => rfl
  | op o k ih =>
    have hstep : step (s, l) o = ((step (s, l) o).1, (s, (step (s, l) o).2.2)) :=
      Prod.ext rfl (Prod.ext (h.1.keeps s l) rfl)
    rw [solo, hstep]
    exact ih _ (h.2 _) _

/-- The value of such a program does not depend on the object. -/
theorem AllPrivate.solo_value {p : Prog Op Ans α} (h : AllPrivate step p) (s s' : S) (l : L) :
    (solo step p (s, l)).1 = (solo step p (s', l)).1 := by
  induction p generalizing l s s' with
  | ret a => rfl
  | op o k ih =>
    have hstep : ∀ s, (step (s, l) o).2 = (s, (step (s, l) o).2.2) :=
      fun s => Prod.ext (h.1.keeps s l) rfl
    rw [solo, solo, hstep s, hstep s', h.1.slot_eq s s' l, h.1.ans_eq s s' l]
    exact ih _ (h.2 _) _ _ _

end

/-! ## The world -/

/-- The object, the slots of the threads, the call each thread is making and whether it has
begun, and the calls that have begun in their order, each with the slot it found. -/
structure World (S L C : Type) where
  object : S
  slots : Nat → L
  running : Nat → Option (C × Bool)
  order : List (L × C)

/-- Nobody is making a call. -/
def World.idle (s : S) (slots : Nat → L) : World S L C := ⟨s, slots, fun _ => none, []⟩

/-- A thread performs an operation; its first one puts its call in the order. -/
def World.perform (step : S × L → (o : Op) → Ans o × (S × L)) (w : World S L C) (t : Nat)
    (o : Op) : World S L C where
  object := (step (w.object, w.slots t) o).2.1
  slots := Function.update w.slots t (step (w.object, w.slots t) o).2.2
  running := Function.update w.running t ((w.running t).map fun r => (r.1, true))
  order := w.order ++ ((w.running t).bind fun r =>
    if r.2 then none else some (w.slots t, r.1)).toList

/-- Threads that make such calls, one at a time each. -/
def sharing (step : S × L → (o : Op) → Ans o × (S × L)) (code : C → Prog Op Ans α) :
    System (World S L C) (Nat × C) (Nat × Op) (fun o => Ans o.2) α where
  Exec w o a w' := a = (step (w.object, w.slots o.1) o.2).1 ∧ w' = w.perform step o.1 o.2
  body c := (code c.2).tag c.1
  Starts w c w' := w.running c.1 = none ∧
    w' = { w with running := Function.update w.running c.1 (some (c.2, false)) }
  Ends w c _ w' := w' = { w with running := Function.update w.running c.1 none }
  Acts _ _ := False

/-- The object after calls that run alone, one after the other. -/
def sequence (step : S × L → (o : Op) → Ans o × (S × L)) (code : C → Prog Op Ans α) (s : S)
    (order : List (L × C)) : S :=
  order.foldl (fun s x => (solo step (code x.2) (s, x.1)).2.1) s

/-! ## Linearizability -/

/-- The places of an order of `k` calls: each is that of one thread of a list, which is given by
its index. -/
structure Places (k : Nat) (place : Nat → Option Nat) : Prop where
  lt : ∀ i n, place i = some n → n < k
  filled : ∀ n < k, ∃ i, place i = some n
  one_call : ∀ i j n, place i = some n → place j = some n → i = j

theorem Places.none : Places 0 fun _ => none where
  lt _ _ h := nomatch h
  filled _ h := absurd h (Nat.not_lt_zero _)
  one_call _ _ _ h := nomatch h

/-- A thread without a place takes the next one. -/
theorem Places.take {k : Nat} {place : Nat → Option Nat} (h : Places k place) {t : Nat}
    (hfree : place t = Option.none) : Places (k + 1) (Function.update place t (some k)) where
  lt i n hi := by
    rw [Function.update_apply] at hi
    split at hi
    · cases hi
      exact Nat.lt_succ_self k
    · exact Nat.lt_succ_of_lt (h.lt i n hi)
  filled n hn := by
    rcases Nat.lt_succ_iff_lt_or_eq.mp hn with hn | rfl
    · obtain ⟨i, hi⟩ := h.filled n hn
      have hne : i ≠ t := by
        rintro rfl
        rw [hfree] at hi
        cases hi
      exact ⟨i, by rwa [Function.update_of_ne hne]⟩
    · exact ⟨t, Function.update_self ..⟩
  one_call i j n hi hj := by
    have hold := h.one_call i j n
    have hlt := h.lt i n
    have hlt' := h.lt j n
    grind [Function.update_apply]

/-- One of a list is replaced: the others are where they were. -/
theorem getElem?_replace {β : Type} {l r : List β} {a b x : β} {i : Nat}
    (h : (l ++ b :: r)[i]? = some x) :
    i = l.length ∧ x = b ∨ i ≠ l.length ∧ x ∈ l ++ r ∧ (l ++ a :: r)[i]? = some x := by
  rcases Nat.lt_trichotomy i l.length with hlt | rfl | hgt
  · rw [List.getElem?_append_left hlt] at h ⊢
    exact .inr ⟨Nat.ne_of_lt hlt, List.mem_append_left r (List.mem_of_getElem? h), h⟩
  · rw [List.getElem?_append_right (Nat.le_refl _), Nat.sub_self] at h
    exact .inl ⟨rfl, (Option.some.inj h).symm⟩
  · obtain ⟨k, rfl⟩ := Nat.exists_eq_add_of_lt hgt
    rw [List.getElem?_append_right (Nat.le_of_lt hgt),
      show l.length + k + 1 - l.length = k + 1 by omega, List.getElem?_cons_succ] at h ⊢
    exact .inr ⟨Nat.ne_of_gt hgt, List.mem_append_right l (List.mem_of_getElem? h), h⟩

theorem getElem?_snoc {β : Type} {l : List β} {a x : β} {i : Nat}
    (h : (l ++ [a])[i]? = some x) : i = l.length ∧ x = a ∨ l[i]? = some x := by
  rw [List.getElem?_append] at h
  split at h
  · exact .inr h
  · rename_i hge
    cases hk : i - l.length with
    | zero =>
      rw [hk] at h
      exact .inl ⟨by omega, (Option.some.inj h).symm⟩
    | succ k =>
      rw [hk] at h
      cases h

section
variable {step : S × L → (o : Op) → Ans o × (S × L)} {code : C → Prog Op Ans α}
  {s₀ : S} {slots₀ : Nat → L}

/-- A thread's call, so far: it has not begun; or it has its place in the order, and what it
will return is what it returns there when it runs alone. -/
inductive Placed (step : S × L → (o : Op) → Ans o × (S × L)) (code : C → Prog Op Ans α) (s₀ : S)
    (order : List (L × C)) (c : C) : Option Nat →
    List (Event (Nat × Op) fun o => Ans o.2) → Prog Op Ans α → L → Prop where
  | waiting {l : L} : Placed step code s₀ order c none [] (code c) l
  | begun {hist : List (Event (Nat × Op) fun o => Ans o.2)} {p : Prog Op Ans α} {l : L} (k : L)
    (n : Nat) (hhist : hist ≠ []) (hprivate : AllPrivate step p) (hplace : order[n]? = some (k, c))
    (hvalue : ∀ s, (solo step p (s, l)).1 =
      (solo step (code c) (sequence step code s₀ (order.take n), k)).1) :
    Placed step code s₀ order c (some n) hist p l

/-- More calls at the end of the order change no place. -/
theorem Placed.extend {order more : List (L × C)} {c : C} {place : Option Nat}
    {hist : List (Event (Nat × Op) fun o => Ans o.2)} {p : Prog Op Ans α} {l : L}
    (h : Placed step code s₀ order c place hist p l) :
    Placed step code s₀ (order ++ more) c place hist p l := by
  cases h with
  | waiting => exact .waiting
  | begun l₀ n hhist hprivate hplace hvalue =>
    obtain ⟨hn, -⟩ := List.getElem?_eq_some_iff.mp hplace
    refine .begun l₀ n hhist hprivate ?_ fun s => ?_
    · rw [List.getElem?_append_left hn, hplace]
    · rw [List.take_append_of_le_length (Nat.le_of_lt hn)]
      exact hvalue s

/-- What is known of one thread. -/
structure ThreadInv (step : S × L → (o : Op) → Ans o × (S × L)) (code : C → Prog Op Ans α) (s₀ : S)
    (w : World S L C) (place : Option Nat)
    (th : Thread (Nat × C) (Nat × Op) (fun o => Ans o.2) α) : Prop where
  placed : ∃ p l, th.rest = p.tag th.call.1 ∧
    Placed step code s₀ w.order th.call.2 place th.hist p l ∧
    (th.returned = false → w.slots th.call.1 = l)
  running : th.returned = false →
    w.running th.call.1 = some (th.call.2, !th.hist.isEmpty)

/-- The call of a thread, once it has begun. -/
def Thread.begun (th : Thread (Nat × C) (Nat × Op) (fun o => Ans o.2) α) : Option C :=
  if th.hist.isEmpty then none else some th.call.2

/-- What is known of a pool. -/
structure PoolInv (step : S × L → (o : Op) → Ans o × (S × L)) (code : C → Prog Op Ans α) (s₀ : S)
    (place : Nat → Option Nat)
    (pool : Pool (World S L C) (Nat × C) (Nat × Op) (fun o => Ans o.2) α) : Prop where
  object : pool.world.object = sequence step code s₀ pool.world.order
  threads : ∀ (i : Nat) th, pool.threads[i]? = some th →
    ThreadInv step code s₀ pool.world (place i) th
  apart : pool.threads.Pairwise fun th th' =>
    th.returned = false → th'.returned = false → th.call.1 ≠ th'.call.1
  begun : (pool.world.order.map Prod.snd).Perm (pool.threads.filterMap Thread.begun)
  places : Places pool.world.order.length place
  outside : ∀ i, pool.threads.length ≤ i → place i = none

abbrev Threads (C Op : Type) (Ans : Op → Type) (α : Type) :=
  List (Thread (Nat × C) (Nat × Op) (fun o => Ans o.2) α)

variable {w w' : World S L C} {l r : Threads C Op Ans α} {place place' : Nat → Option Nat}

theorem sequence_snoc (order : List (L × C)) (x : L × C) :
    sequence step code s₀ (order ++ [x]) =
      (solo step (code x.2) (sequence step code s₀ order, x.1)).2.1 := by
  rw [sequence, List.foldl_append]
  rfl

/-- What is known of a thread survives what happens to the others. -/
theorem ThreadInv.of_other {th : Thread (Nat × C) (Nat × Op) (fun o => Ans o.2) α} {t : Nat}
    {n : Option Nat} (h : ThreadInv step code s₀ w n th) (hne : th.returned = false → th.call.1 ≠ t)
    {more : List (L × C)} (horder : w'.order = w.order ++ more)
    (hslots : ∀ u ≠ t, w'.slots u = w.slots u) (hrunning : ∀ u ≠ t, w'.running u = w.running u) :
    ThreadInv step code s₀ w' n th := by
  obtain ⟨⟨p, slot, hrest, hplaced, hslot⟩, hrun⟩ := h
  refine ⟨⟨p, slot, hrest, ?_, fun hback => ?_⟩, fun hback => ?_⟩
  · rw [horder]
    exact hplaced.extend
  · rw [hslots _ (hne hback)]
    exact hslot hback
  · rw [hrunning _ (hne hback)]
    exact hrun hback

/-- A call starts on a thread that makes none. -/
theorem PoolInv.start {ts : Threads C Op Ans α} {t : Nat} {c : C}
    (h : PoolInv step code s₀ place ⟨w, ts⟩) (hfree : w.running t = none) :
    PoolInv step code s₀ place ⟨{ w with running := Function.update w.running t (some (c, false)) },
      ts ++ [⟨(t, c), [], (code c).tag t, false⟩]⟩ := by
  have hother : ∀ th ∈ ts, th.returned = false → th.call.1 ≠ t := by
    intro th hth hback heq
    obtain ⟨i, hi⟩ := List.mem_iff_getElem?.mp hth
    have hrun := (h.threads i th hi).running hback
    dsimp only at hrun
    rw [heq, hfree] at hrun
    cases hrun
  refine ⟨h.object, ?_, ?_, ?_, h.places, ?_⟩
  · intro i th hi
    rcases getElem?_snoc hi with ⟨rfl, rfl⟩ | hold
    · rw [h.outside _ (Nat.le_refl _)]
      exact ⟨⟨code c, _, rfl, .waiting, fun _ => rfl⟩, fun _ => Function.update_self ..⟩
    · exact (h.threads i th hold).of_other (hother th (List.mem_of_getElem? hold))
        (List.append_nil _).symm (fun _ _ => rfl) fun u hu => Function.update_of_ne hu ..
  · refine List.pairwise_append.mpr ⟨h.apart, List.pairwise_singleton _ _, ?_⟩
    intro th hth th' hth' hback _
    obtain rfl := List.mem_singleton.mp hth'
    exact hother th hth hback
  · have hbegun := h.begun
    rw [List.filterMap_append]
    simpa [Thread.begun] using hbegun
  · intro i hi
    rw [List.length_append] at hi
    exact h.outside i (Nat.le_of_succ_le hi)

/-- The other threads of a pool with a running thread in its middle run under other numbers. -/
theorem PoolInv.others {th : Thread (Nat × C) (Nat × Op) (fun o => Ans o.2) α}
    (h : PoolInv step code s₀ place ⟨w, l ++ th :: r⟩) (hback : th.returned = false) :
    ∀ th' ∈ l ++ r, th'.returned = false → th'.call.1 ≠ th.call.1 := by
  obtain ⟨-, hcons, hcross⟩ := List.pairwise_append.mp h.apart
  obtain ⟨hright, -⟩ := List.pairwise_cons.mp hcons
  intro th' hth' hback'
  rcases List.mem_append.mp hth' with hth' | hth'
  · exact hcross th' hth' th List.mem_cons_self hback' hback
  · exact (hright th' hth' hback hback').symm

/-- One thread does something to itself and to the end of the order. -/
theorem PoolInv.replace {th th' : Thread (Nat × C) (Nat × Op) (fun o => Ans o.2) α}
    (h : PoolInv step code s₀ place ⟨w, l ++ th :: r⟩) (hback : th.returned = false)
    (hcall : th'.call = th.call) {more : List (L × C)} (horder : w'.order = w.order ++ more)
    (hslots : ∀ u ≠ th.call.1, w'.slots u = w.slots u)
    (hrunning : ∀ u ≠ th.call.1, w'.running u = w.running u)
    (hobject : w'.object = sequence step code s₀ w'.order)
    (hplace : ∀ i ≠ l.length, place' i = place i) (hplaces : Places w'.order.length place')
    (hthread : ThreadInv step code s₀ w' (place' l.length) th')
    (hbegun : th'.begun.toList.Perm (more.map Prod.snd ++ th.begun.toList)) :
    PoolInv step code s₀ place' ⟨w', l ++ th' :: r⟩ := by
  have hothers := h.others hback
  refine ⟨hobject, ?_, ?_, ?_, hplaces, ?_⟩
  · intro i x hi
    rcases getElem?_replace (a := th) hi with ⟨rfl, rfl⟩ | ⟨hne, hmem, hold⟩
    · exact hthread
    · rw [hplace i hne]
      exact (h.threads i x hold).of_other (hothers x hmem) horder hslots hrunning
  · refine System.pairwise_replace h.apart ?_ ?_
    · intro x _ hrel hx _
      rw [hcall]
      exact hrel hx hback
    · intro x _ hrel _ hx
      rw [hcall]
      exact hrel hback hx
  · have hperm := h.begun
    dsimp only at hperm ⊢
    rw [List.filterMap_append] at hperm ⊢
    have hsplit : ∀ th : Thread (Nat × C) (Nat × Op) (fun o => Ans o.2) α,
        (th :: r).filterMap Thread.begun = th.begun.toList ++ r.filterMap Thread.begun := by
      intro th
      cases hth : th.begun <;> simp [hth]
    rw [hsplit] at hperm ⊢
    rw [horder, List.map_append]
    have hmoved : List.Perm ((l.filterMap Thread.begun ++
        (th.begun.toList ++ r.filterMap Thread.begun)) ++ more.map Prod.snd)
        (l.filterMap Thread.begun ++ ((more.map Prod.snd ++ th.begun.toList) ++
          r.filterMap Thread.begun)) := by
      rw [List.append_assoc, List.append_assoc (more.map Prod.snd)]
      exact List.perm_append_comm.append_left _
    exact ((hperm.append_right _).trans hmoved).trans
      ((hbegun.symm.append_right _).append_left _)
  · intro i hi
    rw [List.length_append, List.length_cons] at hi
    rw [hplace i (by omega)]
    exact h.outside i (by simpa using hi)

/-- The first operation of a call puts it in the order and does all it does to the object. -/
theorem PoolInv.first {t : Nat} {c : C} {o : Op} {k : Ans o → Prog Op Ans α}
    (h : PoolInv step code s₀ place
      ⟨w, l ++ ⟨(t, c), [], .op (t, o) fun a => (k a).tag t, false⟩ :: r⟩)
    (hcode : code c = .op o k) (hone : OneShared step (code c))
    (hrunning : w.running t = some (c, false)) (hfree : place l.length = none) :
    PoolInv step code s₀ (Function.update place l.length (some w.order.length))
      ⟨w.perform step t o, l ++ ⟨(t, c),
      [⟨(t, o), (step (w.object, w.slots t) o).1⟩],
      (k (step (w.object, w.slots t) o).1).tag t, false⟩ :: r⟩ := by
  have hprivate : AllPrivate step (k (step (w.object, w.slots t) o).1) := by
    rw [hcode] at hone
    exact hone _
  have horder : (w.perform step t o).order = w.order ++ [(w.slots t, c)] := by
    rw [World.perform, hrunning]
    rfl
  have hobject := h.object
  dsimp only at hobject
  refine h.replace rfl rfl horder (fun u hu => Function.update_of_ne hu ..)
    (fun u hu => Function.update_of_ne hu ..) ?_ (fun i hi => Function.update_of_ne hi ..) ?_
    ⟨⟨_, (step (w.object, w.slots t) o).2.2, rfl, ?_, ?_⟩, ?_⟩ (.refl _)
  · rw [horder, sequence_snoc, ← hobject, hcode, solo]
    exact (hprivate.solo_object _ _).symm
  · rw [horder, List.length_append]
    exact h.places.take hfree
  · rw [Function.update_self]
    refine .begun (w.slots t) w.order.length (by simp) hprivate ?_ fun s => ?_
    · rw [horder, List.getElem?_concat_length]
    · rw [horder, List.take_left, ← hobject, hcode, solo]
      exact hprivate.solo_value _ _ _
  · exact fun _ => Function.update_self ..
  · intro _
    exact (Function.update_self ..).trans (by rw [hrunning]; rfl)

/-- The operations after the first are about the slot of the thread. -/
theorem PoolInv.later {t : Nat} {c : C} {o : Op} {k : Ans o → Prog Op Ans α}
    {hist : List (Event (Nat × Op) fun o => Ans o.2)} {l₀ : L} {n : Nat}
    (h : PoolInv step code s₀ place
      ⟨w, l ++ ⟨(t, c), hist, .op (t, o) fun a => (k a).tag t, false⟩ :: r⟩)
    (hhist : hist ≠ []) (hprivate : AllPrivate step (.op o k))
    (hmine : place l.length = some n) (hplace : w.order[n]? = some (l₀, c))
    (hvalue : ∀ s, (solo step (.op o k) (s, w.slots t)).1 =
      (solo step (code c) (sequence step code s₀ (w.order.take n), l₀)).1)
    (hrunning : w.running t = some (c, !hist.isEmpty)) :
    PoolInv step code s₀ place ⟨w.perform step t o, l ++ ⟨(t, c),
      hist ++ [⟨(t, o), (step (w.object, w.slots t) o).1⟩],
      (k (step (w.object, w.slots t) o).1).tag t, false⟩ :: r⟩ := by
  have hbegun : (!hist.isEmpty) = true := by simpa using hhist
  rw [hbegun] at hrunning
  have horder : (w.perform step t o).order = w.order ++ [] := by
    rw [World.perform, hrunning]
    rfl
  have hobject := h.object
  dsimp only at hobject
  refine h.replace rfl rfl horder (fun u hu => Function.update_of_ne hu ..)
    (fun u hu => Function.update_of_ne hu ..) ?_ (fun _ _ => rfl) ?_
    ⟨⟨_, (step (w.object, w.slots t) o).2.2, rfl, ?_, ?_⟩, ?_⟩ ?_
  · rw [horder, List.append_nil, ← hobject]
    exact hprivate.1.keeps _ _
  · rw [horder, List.append_nil]
    exact h.places
  · rw [hmine]
    refine .begun l₀ n (by simp) (hprivate.2 _) ?_ fun s => ?_
    · rw [horder, List.append_nil, hplace]
    · have hsame : step (s, w.slots t) o = ((step (w.object, w.slots t) o).1,
          (s, (step (w.object, w.slots t) o).2.2)) :=
        Prod.ext (hprivate.1.ans_eq _ _ _)
          (Prod.ext (hprivate.1.keeps _ _) (hprivate.1.slot_eq _ _ _))
      rw [horder, List.append_nil, ← hvalue s, solo, hsame]
  · exact fun _ => Function.update_self ..
  · intro _
    refine (Function.update_self ..).trans ?_
    rw [hrunning]
    simp
  · have hnew : (hist ++ [(⟨(t, o), (step (w.object, w.slots t) o).1⟩ :
        Event (Nat × Op) fun o => Ans o.2)]).isEmpty = false := by simp
    have hold : hist.isEmpty = false := by simpa using hhist
    simp only [Thread.begun, hnew, hold]
    exact .refl _

/-- The thread in the middle of a pool. -/
theorem PoolInv.mine {th : Thread (Nat × C) (Nat × Op) (fun o => Ans o.2) α}
    (h : PoolInv step code s₀ place ⟨w, l ++ th :: r⟩) :
    ThreadInv step code s₀ w (place l.length) th :=
  h.threads l.length th (by simp)

/-- A call returns. -/
theorem PoolInv.return {t : Nat} {c : C} {hist : List (Event (Nat × Op) fun o => Ans o.2)} {x : α}
    (h : PoolInv step code s₀ place ⟨w, l ++ ⟨(t, c), hist, .ret x, false⟩ :: r⟩) :
    PoolInv step code s₀ place ⟨{ w with running := Function.update w.running t none },
      l ++ ⟨(t, c), hist, .ret x, true⟩ :: r⟩ := by
  obtain ⟨⟨p, slot, hrest, hplaced, -⟩, -⟩ := h.mine
  refine h.replace rfl rfl (List.append_nil _).symm (fun _ _ => rfl)
    (fun u hu => Function.update_of_ne hu ..) h.object (fun _ _ => rfl) h.places
    ⟨⟨p, slot, hrest, hplaced, ?_⟩, ?_⟩ (.refl _)
  · rintro ⟨⟩
  · rintro ⟨⟩

/-- The program of a running thread. -/
theorem ThreadInv.op_cases {t u : Nat} {c : C} {hist : List (Event (Nat × Op) fun o => Ans o.2)}
    {o : Op} {k : Ans o → Prog (Nat × Op) (fun o => Ans o.2) α} {n : Option Nat}
    (h : ThreadInv step code s₀ w n ⟨(t, c), hist, .op (u, o) k, false⟩) :
    ∃ k' : Ans o → Prog Op Ans α, u = t ∧ (k = fun a => (k' a).tag t) ∧
      Placed step code s₀ w.order c n hist (.op o k') (w.slots t) ∧
      w.running t = some (c, !hist.isEmpty) := by
  obtain ⟨⟨p, slot, hrest, hplaced, hslot⟩, hrunning⟩ := h
  cases p with
  | ret a => cases hrest
  | op o' k' =>
    change Prog.op (u, o) k = .op (t, o') fun a => (k' a).tag t at hrest
    cases hrest
    obtain rfl := hslot rfl
    exact ⟨k', rfl, rfl, hplaced, hrunning rfl⟩

/-- The threads of one list have their places in the other, and maybe more of them. -/
def Extends (place place' : Nat → Option Nat) : Prop := ∀ i n, place i = some n → place' i = some n

/-- One step of a pool. -/
theorem PoolInv.next {pool pool' : Pool (World S L C) (Nat × C) (Nat × Op) (fun o => Ans o.2) α}
    (hone : ∀ c, OneShared step (code c)) (h : PoolInv step code s₀ place pool)
    (hstep : (sharing step code).Step pool pool') :
    ∃ place', PoolInv step code s₀ place' pool' ∧ Extends place place' := by
  cases hstep with
  | act ts hact => exact hact.elim
  | start ts hstart =>
    obtain ⟨hfree, rfl⟩ := hstart
    exact ⟨place, h.start hfree, fun _ _ => id⟩
  | @op w w' l r c hist o k a hexec =>
    obtain ⟨rfl, rfl⟩ := hexec
    obtain ⟨t, c⟩ := c
    obtain ⟨u, o⟩ := o
    obtain ⟨k', rfl, rfl, hplaced, hrunning⟩ := h.mine.op_cases
    generalize hp : Prog.op o k' = p at hplaced
    generalize hslot : w.slots u = slot at hplaced
    generalize hmine : place l.length = mine at hplaced
    cases hplaced with
    | waiting =>
      subst hslot
      refine ⟨_, h.first hp.symm (hone c) hrunning hmine, fun i n hi => ?_⟩
      have hne : i ≠ l.length := by
        rintro rfl
        rw [hmine] at hi
        cases hi
      rwa [Function.update_of_ne hne]
    | begun l₀ n hhist hprivate hplace hvalue =>
      subst hp
      subst hslot
      exact ⟨place, h.later hhist hprivate hmine hplace hvalue hrunning, fun _ _ => id⟩
  | «return» l r hend =>
    subst hend
    exact ⟨place, h.return, fun _ _ => id⟩

theorem PoolInv.steps {pool pool' : Pool (World S L C) (Nat × C) (Nat × Op) (fun o => Ans o.2) α}
    (hone : ∀ c, OneShared step (code c)) (h : PoolInv step code s₀ place pool)
    (hsteps : Relation.ReflTransGen (sharing step code).Step pool pool') :
    ∃ place', PoolInv step code s₀ place' pool' ∧ Extends place place' := by
  induction hsteps with
  | refl => exact ⟨place, h, fun _ _ => id⟩
  | tail _ hstep ih =>
    obtain ⟨place₁, h₁, hextends⟩ := ih
    obtain ⟨place₂, h₂, hextends'⟩ := h₁.next hone hstep
    exact ⟨place₂, h₂, fun i n hi => hextends' i n (hextends i n hi)⟩

theorem PoolInv.idle : PoolInv step code s₀ (fun _ => none) ⟨.idle s₀ slots₀, []⟩ where
  object := rfl
  threads := by simp
  apart := .nil
  begun := .refl _
  places := .none
  outside _ _ := rfl

/-- Once a call has its place, it keeps it: a call that begins later comes later. -/
theorem order_grows {pool pool' : Pool (World S L C) (Nat × C) (Nat × Op) (fun o => Ans o.2) α}
    (h : Relation.ReflTransGen (sharing step code).Step pool pool') :
    pool.world.order <+: pool'.world.order := by
  induction h with
  | refl => exact List.prefix_rfl
  | tail _ hstep ih =>
    refine ih.trans ?_
    cases hstep with
    | act ts hact => exact hact.elim
    | start ts hstart =>
      obtain ⟨-, rfl⟩ := hstart
      exact List.prefix_rfl
    | op l r hexec =>
      obtain ⟨-, rfl⟩ := hexec
      exact List.prefix_append _ _
    | «return» l r hend =>
      subst hend
      exact List.prefix_rfl

/-- The calls of a pool in an order: the object is what these calls make of it one after the
other, each call that has begun has one place, which no other has, and one that has come to its
end returns what it returns when it runs alone at its place. -/
structure Linear (step : S × L → (o : Op) → Ans o × (S × L)) (code : C → Prog Op Ans α) (s₀ : S)
    (place : Nat → Option Nat)
    (pool : Pool (World S L C) (Nat × C) (Nat × Op) (fun o => Ans o.2) α) : Prop where
  object : pool.world.object = sequence step code s₀ pool.world.order
  begun : (pool.world.order.map Prod.snd).Perm (pool.threads.filterMap Thread.begun)
  places : Places pool.world.order.length place
  fills : ∀ i n, place i = some n → ∃ th l, pool.threads[i]? = some th ∧ th.hist ≠ [] ∧
    pool.world.order[n]? = some (l, th.call.2)
  complete : ∀ (i : Nat) th, pool.threads[i]? = some th → th.hist ≠ [] → ∃ n, place i = some n
  values : ∀ (i : Nat) th x, pool.threads[i]? = some th → th.rest.value = some x → ∃ n l,
    (th.hist ≠ [] → place i = some n ∧ pool.world.order[n]? = some (l, th.call.2)) ∧
    x = (solo step (code th.call.2)
      (sequence step code s₀ (pool.world.order.take n), l)).1

theorem PoolInv.linear {pool : Pool (World S L C) (Nat × C) (Nat × Op) (fun o => Ans o.2) α}
    (h : PoolInv step code s₀ place pool) : Linear step code s₀ place pool where
  object := h.object
  begun := h.begun
  places := h.places
  fills i n hi := by
    have hlt : i < pool.threads.length := by
      by_contra hge
      rw [h.outside i (Nat.not_lt.mp hge)] at hi
      cases hi
    obtain ⟨⟨p, slot, -, hplaced, -⟩, -⟩ := h.threads i _ (List.getElem?_eq_getElem hlt)
    rw [hi] at hplaced
    cases hplaced with
    | begun l₀ n hhist _ hplace _ =>
      exact ⟨_, l₀, List.getElem?_eq_getElem hlt, hhist, hplace⟩
  complete i th hi hbegun := by
    obtain ⟨⟨p, slot, -, hplaced, -⟩, -⟩ := h.threads i th hi
    generalize hempty : th.hist = hist at hplaced
    generalize place i = mine at hplaced
    cases hplaced with
    | waiting => exact absurd hempty hbegun
    | begun l₀ n => exact ⟨n, rfl⟩
  values i th x hi hx := by
    obtain ⟨⟨p, slot, hrest, hplaced, -⟩, -⟩ := h.threads i th hi
    rw [hrest, Prog.tag_value] at hx
    cases p with
    | op o k => cases hx
    | ret y =>
      obtain rfl := Option.some.inj hx
      generalize hcode : Prog.ret y = p at hplaced
      generalize hempty : th.hist = hist at hplaced
      generalize place i = mine at hplaced
      cases hplaced with
      | waiting =>
        refine ⟨0, slot, fun hne => absurd rfl hne, ?_⟩
        rw [← hcode]
        rfl
      | begun l₀ n hhist hprivate hplace hvalue =>
        subst hcode
        exact ⟨n, l₀, fun _ => ⟨rfl, hplace⟩, hvalue s₀⟩

/-- A call that is started when others have their places comes after them. -/
theorem Linear.later {pool pool' : Pool (World S L C) (Nat × C) (Nat × Op) (fun o => Ans o.2) α}
    (h : Linear step code s₀ place pool) (h' : Linear step code s₀ place' pool')
    (hextends : Extends place place') {i n : Nat} (hi : pool.threads.length ≤ i)
    (hplace : place' i = some n) : pool.world.order.length ≤ n := by
  by_contra hn
  obtain ⟨j, hj⟩ := h.places.filled n (Nat.lt_of_not_le hn)
  obtain rfl := h'.places.one_call i j n hplace (hextends j n hj)
  obtain ⟨th, l, hth, -⟩ := h.fills i n hj
  obtain ⟨hlt, -⟩ := List.getElem?_eq_some_iff.mp hth
  exact absurd hlt (Nat.not_lt.mpr hi)

/-- Whatever the threads call and however they are scheduled, the calls that have begun have
one order, and whatever happens next they keep their places in it. -/
theorem Reachable.linearizable (hone : ∀ c, OneShared step (code c))
    {pool : Pool (World S L C) (Nat × C) (Nat × Op) (fun o => Ans o.2) α}
    (h : (sharing step code).Reachable (.idle s₀ slots₀) pool) :
    ∃ place, Linear step code s₀ place pool ∧
      ∀ pool', Relation.ReflTransGen (sharing step code).Step pool pool' →
        pool.world.order <+: pool'.world.order ∧
        ∃ place', Linear step code s₀ place' pool' ∧ Extends place place' := by
  obtain ⟨place, hinv, -⟩ := PoolInv.idle.steps hone h
  refine ⟨place, hinv.linear, fun pool' hsteps => ⟨order_grows hsteps, ?_⟩⟩
  obtain ⟨place', hinv', hextends⟩ := hinv.steps hone hsteps
  exact ⟨place', hinv'.linear, hextends⟩

end

end Concurrent
