import GlycinNg.Shim.Ownership

/-! # One load reaches the engine

What a call of `gly_loader_load` or of its asynchronous variant can have done: it reaches
the engine only with the inner loader it has taken, and it answers that the loader is
already consumed exactly when it does not reach the engine. -/
namespace GlycinNg.Shim.Threads
open Rust Concurrent

/-- A load of the engine. -/
def ReachesEngine (e : Event Op Op.Ans) : Prop := ∃ p, e.1 = .loaderLoad p

/-- The inner loader of `o` is taken. -/
def Takes (o : Obj) (e : Event Op Op.Ans) : Prop := ∃ p, e = ⟨.takeInner o, some p⟩

/-- What a load of `o` has done, and answered if it has ended. -/
def LoadHistory (o : Obj) (e : List (Event Op Op.Ans)) (x : Option Result) : Prop :=
  ((∃ ev ∈ e, ReachesEngine ev) → ∃ ev ∈ e, Takes o ev) ∧
    ∀ r ∈ x, r = alreadyConsumed ↔ ¬ ∃ ev ∈ e, ReachesEngine ev

/-- A load that has ended has reached the engine, and does not answer that it has not. -/
def EndsInEngine (e : List (Event Op Op.Ans)) (x : Option Result) : Prop :=
  ∀ r ∈ x, r ≠ alreadyConsumed ∧ ∃ ev ∈ e, ReachesEngine ev

theorem EndsInEngine.none (e : List (Event Op Op.Ans)) : EndsInEngine e none := by
  intro r hr
  cases hr

theorem EndsInEngine.append {e' : List (Event Op Op.Ans)} {x : Option Result}
    (h : EndsInEngine e' x) (e : List (Event Op Op.Ans)) : EndsInEngine (e ++ e') x := by
  intro r hr
  obtain ⟨hne, ev, hev, hreach⟩ := h r hr
  exact ⟨hne, ev, List.mem_append_right e hev, hreach⟩

/-- Nothing but a load of the engine changes whether the engine is reached. -/
theorem EndsInEngine.after {β : Type} {p : Code β} {f : β → Code Result}
    (h : ∀ b, Along (f b) EndsInEngine) : Along (p >>= f) EndsInEngine :=
  .after (fun e _ _ h => h.append e) .none h

/-- No text of the engine reads as if the loader were already consumed. -/
theorem loadFailed_ne_alreadyConsumed (message : String) :
    Result.null (some (.new 0 ("gly_loader_load: " ++ message))) ≠ alreadyConsumed := by
  intro heq
  simp only [alreadyConsumed, GError.new, Result.null.injEq, Option.some.injEq,
    GError.mk.injEq, true_and] at heq
  have hright : CApi.cstring "loader already consumed" = "loader already consumed" := by
    decide +kernel
  rw [hright, CApi.cstring] at heq
  split at heq
  · exact absurd heq (by decide)
  · have hhead := congrArg (·.toList.head?) heq
    simp at hhead

theorem ofPtr_ne_alreadyConsumed (a : Option Obj) : Result.ofPtr a ≠ alreadyConsumed := by
  cases a <;> simp [Result.ofPtr, alreadyConsumed]

/-- The state around the decoded image: the answer is an object, or NULL without an error. -/
theorem attachImage_along (o : Obj) (image : Addr) (limits : LoaderLimits) (apply : Bool)
    (accepted : UInt32) :
    Along (attachImage o image limits apply accepted) fun _ x => ∀ r ∈ x, r ≠ alreadyConsumed := by
  unfold attachImage
  refine .step (by simp) fun frameCount => ?_
  refine .step (by simp) fun formatName => ?_
  refine .step (by simp) fun sourceBytes => ?_
  refine .after (fun _ _ _ h => h) (by simp) fun a => ?_
  show ∀ r ∈ some (Result.ofPtr a), r ≠ alreadyConsumed
  intro r hr
  obtain rfl := Option.some.inj hr
  exact ofPtr_ne_alreadyConsumed a

/-- Who has taken the inner loader goes on to the engine with it. -/
theorem loadInner_along (o : Obj) (inner : Addr) : Along (loadInner o inner) EndsInEngine := by
  unfold loadInner
  refine EndsInEngine.after fun apply => ?_
  refine EndsInEngine.after fun limits => ?_
  refine EndsInEngine.after fun accepted => ?_
  refine EndsInEngine.after fun _ => ?_
  refine EndsInEngine.after fun _ => ?_
  refine .step (.none _) fun answer => ?_
  cases answer with
  | ok image =>
    refine (attachImage_along o image limits apply accepted).mono fun e x hx r hr => ?_
    exact ⟨hx r hr, _, List.mem_cons_self, inner, rfl⟩
  | error message =>
    intro r hr
    obtain rfl := Option.some.inj hr
    exact ⟨loadFailed_ne_alreadyConsumed message, _, List.mem_cons_self, inner, rfl⟩

/-- `gly_loader_load`: without the inner loader it answers at once. -/
theorem glyLoaderLoad_along (o : Obj) : Along (glyLoaderLoad (some o)) (LoadHistory o) := by
  refine .step ⟨by simp, by simp⟩ fun inner => ?_
  cases inner with
  | none =>
    have hnot : ¬ ∃ ev ∈ [(⟨.takeInner o, none⟩ : Event Op Op.Ans)], ReachesEngine ev := by
      rintro ⟨ev, hev, p, hp⟩
      obtain rfl := List.mem_singleton.mp hev
      cases hp
    refine ⟨fun h => absurd h hnot, fun r hr => ?_⟩
    obtain rfl := Option.some.inj hr
    exact iff_of_true rfl hnot
  | some p =>
    refine (loadInner_along o p).mono fun e x hx => ⟨fun _ => ?_, fun r hr => ?_⟩
    · exact ⟨_, List.mem_cons_self, p, rfl⟩
    · obtain ⟨hne, ev, hev, hreach⟩ := hx r hr
      exact iff_of_false hne (not_not.mpr ⟨ev, List.mem_cons_of_mem _ hev, hreach⟩)

/-! ## The task around it -/

theorem dropState_along (st : State) :
    Along (dropState st) (Avoids ReachesEngine fun _ => True) := by
  cases st with
  | loader s =>
    simp only [dropState]
    cases s.inner with
    | none => exact .ret trivial
    | some p => exact .avoids_step (f := pure) (by simp [ReachesEngine]) fun _ => .ret trivial
  | image s => exact .avoids_step (f := pure) (by simp [ReachesEngine]) fun _ => .ret trivial
  | frame s => exact .ret trivial
  | request s => exact .ret trivial

theorem unrefObject_along (o : Obj) :
    Along (unrefObject o) (Avoids ReachesEngine fun _ => True) := by
  refine .avoids_step (by simp [ReachesEngine]) fun a => ?_
  cases a with
  | none => exact .ret trivial
  | some st => exact dropState_along st

theorem unrefAll_along (os : List Obj) :
    Along (unrefAll os) (Avoids ReachesEngine fun _ => True) := by
  induction os with
  | nil => exact .ret trivial
  | cons o os ih => exact .avoids_bind (unrefObject_along o) fun _ _ => ih

theorem destroyResult_along (r : Result) :
    Along (destroyResult r) (Avoids ReachesEngine fun _ => True) := by
  cases r with
  | object o => exact unrefObject_along o
  | null e => exact .ret trivial
  | void => exact .ret trivial

theorem returnHandle_eq_alreadyConsumed (r : Result) :
    returnHandle r = alreadyConsumed ↔ r = alreadyConsumed := by
  unfold returnHandle
  split
  · refine iff_of_false ?_ (by simp [alreadyConsumed])
    simp only [alreadyConsumed, GError.new, Result.null.injEq, Option.some.injEq,
      GError.mk.injEq, true_and]
    decide +kernel
  · rfl

/-- What the task does around its worker has no part in it, and the error of the worker is
that of the task. -/
theorem runTask_along {o : Obj} {worker : Code Result} (h : Along worker (LoadHistory o))
    (taken : List Obj) : Along (runTask worker taken) (LoadHistory o) := by
  refine .bind (h.mono fun e x hx => ?_)
  cases x with
  | none => exact hx
  | some b =>
    have hrest : Along (do
        let propagated ← perform (.propagate (returnHandle b))
        unrefAll taken
        if propagated then return returnHandle b
        else
          destroyResult (returnHandle b)
          return returnHandle b)
        (Avoids ReachesEngine fun r => r = returnHandle b) := by
      refine .avoids_step (by simp [ReachesEngine]) fun propagated => ?_
      refine .avoids_bind (unrefAll_along taken) fun _ _ => ?_
      cases propagated with
      | true => exact .ret rfl
      | false => exact .avoids_bind (destroyResult_along _) fun _ _ => .ret rfl
    refine hrest.mono fun e' x' hquiet => ?_
    obtain ⟨havoid, hvalue⟩ := hquiet
    have hsame : (∃ ev ∈ e ++ e', ReachesEngine ev) ↔ ∃ ev ∈ e, ReachesEngine ev := by
      constructor
      · rintro ⟨ev, hev, hreach⟩
        rcases List.mem_append.mp hev with hev | hev
        · exact ⟨ev, hev, hreach⟩
        · exact absurd hreach (havoid ev hev)
      · rintro ⟨ev, hev, hreach⟩
        exact ⟨ev, List.mem_append_left _ hev, hreach⟩
    refine ⟨fun hreach => ?_, fun r hr => ?_⟩
    · obtain ⟨ev, hev, htakes⟩ := hx.1 (hsame.mp hreach)
      exact ⟨ev, List.mem_append_left _ hev, htakes⟩
    · rw [hvalue r hr, returnHandle_eq_alreadyConsumed, hsame]
      exact hx.2 b rfl

/-! ## Over all calls -/

/-- A load of the loader `o`, blocking or not. -/
def Call.LoadOf (o : Obj) : Call → Prop
  | .load loader | .loadAsync loader => loader = some o
  | _ => False

theorem body_along (o : Obj) (c : Call) :
    Along c.body fun e x => c.LoadOf o → LoadHistory o e x := by
  by_cases hload : c.LoadOf o
  · cases c with
    | load loader =>
      obtain rfl : loader = some o := hload
      exact (glyLoaderLoad_along o).mono fun _ _ h _ => h
    | loadAsync loader =>
      obtain rfl : loader = some o := hload
      exact (runTask_along (glyLoaderLoad_along o) [o]).mono fun _ _ h _ => h
    | newLoader bytes => exact hload.elim
    | newRequest => exact hload.elim
    | set o s => exact hload.elim
    | specificFrame image request => exact hload.elim
    | specificFrameAsync image request => exact hload.elim
    | unref o => exact hload.elim
  · exact .of_forall _ fun _ _ h => absurd h hload

/-! ## The inner loader is taken once -/

/-- The inner loader may still be taken. -/
def Slot.Open : Slot → Prop
  | .fresh => True
  | .live n st => ∃ p, (Slot.live n st).handle = some (.loader p)
  | .gone => False

theorem not_open_taken (n : Nat) (s : LoaderState) :
    ¬ (Slot.live n (.loader { s with inner := none })).Open := by
  rintro ⟨p, hp⟩
  cases hp

section
variable {w w' : World} {o x : Obj}

/-- A slot that is open after a change was open before, if the change has not opened it. -/
theorem open_of_setObject {slot : Slot} (hslot : slot.Open → (w.objects x).Open)
    (h : ((w.setObject x slot).objects o).Open) : (w.objects o).Open := by
  simp only [World.setObject, Function.update_apply] at h
  split at h
  · rename_i heq
    rw [heq]
    exact hslot h
  · exact h

/-- No operation puts an inner loader back. -/
theorem open_of_exec {op : Op} {a : op.Ans} (hexec : w.Exec op a w')
    (h : (w'.objects o).Open) : (w.objects o).Open := by
  cases op with
  | loaderNewBytes bytes =>
    cases a with
    | none =>
      obtain rfl := hexec
      exact h
    | some p =>
      obtain ⟨-, rfl⟩ := hexec
      exact h
  | loaderSet p s =>
    obtain rfl := hexec
    exact h
  | loaderLoad p =>
    cases a with
    | error message =>
      obtain ⟨-, rfl⟩ := hexec
      exact h
    | ok q =>
      obtain ⟨host, loader, image, -, -, -, rfl⟩ := hexec
      exact h
  | loaderFree p =>
    obtain rfl := hexec
    exact h
  | imageRead p q =>
    obtain ⟨-, rfl⟩ := hexec
    exact h
  | imageFree p =>
    obtain rfl := hexec
    exact h
  | attach st =>
    cases a with
    | none =>
      obtain rfl := hexec
      exact h
    | some x =>
      obtain ⟨-, hfresh, rfl⟩ := hexec
      exact open_of_setObject (fun _ => by rw [hfresh]; trivial) h
  | unref x =>
    cases a with
    | some st =>
      obtain ⟨-, rfl⟩ := hexec
      exact open_of_setObject False.elim h
    | none =>
      obtain ⟨n, st, hslot, rfl⟩ := hexec
      exact open_of_setObject (fun ho => by rw [hslot]; exact ho) h
  | takeInner x =>
    obtain ⟨n, s, hslot, rfl, rfl⟩ := hexec
    exact open_of_setObject (fun ho => absurd ho (not_open_taken n s)) h
  | read x f =>
    obtain ⟨-, rfl⟩ := hexec
    exact h
  | write x s =>
    obtain ⟨n, st, hslot, rfl⟩ := hexec
    refine open_of_setObject ?_ h
    rintro ⟨p, hp⟩
    rw [hslot]
    exact ⟨p, (Setting.handle_write s st).symm.trans hp⟩
  | advance x l =>
    obtain ⟨n, s, hslot, rfl, rfl⟩ := hexec
    refine open_of_setObject ?_ h
    rintro ⟨p, hp⟩
    cases hp
  | propagate r =>
    cases r with
    | object y => cases a <;> obtain rfl := hexec <;> exact h
    | null e => cases a <;> obtain rfl := hexec <;> exact h
    | void => cases a <;> obtain rfl := hexec <;> exact h
  | abort => exact a.elim

/-- Taking the inner loader needs it to be there, and leaves none. -/
theorem open_of_takes {op : Op} {a : op.Ans} (hexec : w.Exec op a w') (h : Takes o ⟨op, a⟩) :
    (w.objects o).Open ∧ ¬ (w'.objects o).Open := by
  obtain ⟨p, heq⟩ := h
  obtain ⟨rfl, heq⟩ := Sigma.mk.inj heq
  obtain rfl := eq_of_heq heq
  obtain ⟨n, s, hslot, hinner, rfl⟩ := hexec
  refine ⟨?_, ?_⟩
  · rw [hslot]
    exact ⟨p, by simp [Slot.handle, State.handle, ← hinner]⟩
  · simpa [World.setObject] using not_open_taken n s

theorem exec_open {op : Op} {a : op.Ans} (hexec : w.Exec op a w') :
    ((w'.objects o).Open → (w.objects o).Open ∧ ¬ Takes o ⟨op, a⟩) ∧
      (Takes o ⟨op, a⟩ → (w.objects o).Open) :=
  ⟨fun h => ⟨open_of_exec hexec h, fun htakes => (open_of_takes hexec htakes).2 h⟩,
    fun htakes => (open_of_takes hexec htakes).1⟩

theorem ref_open (h : ((w.ref x).objects o).Open) : (w.objects o).Open := by
  unfold World.ref at h
  split at h
  · rename_i n st hslot
    exact open_of_setObject (fun ho => by rw [hslot]; exact ho) h
  · exact h

theorem retain_open {os : List Obj} (h : ((os.foldl World.ref w).objects o).Open) :
    (w.objects o).Open := by
  induction os generalizing w with
  | nil => exact h
  | cons x os ih => exact ref_open (ih h)

theorem starts_open {c : Call} (hstart : w.Starts c w') (h : (w'.objects o).Open) :
    (w.objects o).Open := by
  obtain ⟨x, -, -, rfl⟩ | ⟨-, -, rfl⟩ := hstart.cases
  · exact h
  · exact retain_open h

theorem ends_open {c : Call} {r : Result} (hend : w.Ends c r w') (h : (w'.objects o).Open) :
    (w.objects o).Open := by
  obtain rfl := hend
  cases hret : c.returns r with
  | none => simpa [hret] using h
  | some y => simpa [hret, World.setOwned] using h

theorem acts_open (hact : w.Acts w') (h : (w'.objects o).Open) : (w.objects o).Open := by
  obtain ⟨x, -, rfl⟩ := hact
  exact ref_open h

end

/-- The thread is a load of `o` that has reached the engine. -/
def InEngine (o : Obj) (t : Thread Call Op Op.Ans Result) : Prop :=
  t.call.LoadOf o ∧ t.Did ReachesEngine

/-- In every run at most one load of `o` reaches the engine, and of those that have ended
the others have answered that the loader is already consumed. -/
theorem load_once {s : Process} (h : Reachable s) (o : Obj) :
    s.threads.Pairwise (fun t u => ¬ (InEngine o t ∧ InEngine o u)) ∧
      ∀ t ∈ s.threads, t.call.LoadOf o → ∀ r ∈ t.rest.value,
        (r = alreadyConsumed ↔ ¬ t.Did ReachesEngine) := by
  have halong := h.along fun c => body_along o c
  have htakes := (h.once (E := Takes o) exec_open starts_open ends_open acts_open).not_both
  refine ⟨htakes.imp_of_mem fun {t u} ht hu hnot => ?_, fun t ht hload r hr => ?_⟩
  · rintro ⟨⟨hloadT, hreachT⟩, hloadU, hreachU⟩
    exact hnot ⟨(halong t ht hloadT).1 hreachT, (halong u hu hloadU).1 hreachU⟩
  · exact (halong t ht hload).2 r hr

end GlycinNg.Shim.Threads
