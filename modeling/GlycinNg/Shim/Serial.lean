import GlycinNg.Shim.Answers

/-! # Calls on many threads, one after the other

The calls of any number of threads, in any interleaving, are calls of the model of `State` and
`Frames`: a load gives what a load of the model gives, and the frame calls on an image are those
of its chronicle, each at one place (`frames_linearizable`). -/
namespace GlycinNg.Shim.Threads
open Rust CApi Concurrent

/-! ## Calls -/

/-- A frame call on the image `o`, with the request `req`. -/
def Call.Asks (c : Call) (o : Obj) (req : Option Obj) : Prop :=
  match c with
  | .specificFrame image request => image = some o ∧ request = req
  | .specificFrameAsync image request => image = some o ∧ request = req
  | _ => False

/-- What a call knows when it starts: that it is to be served. -/
def Call.turn : Call → Knowns
  | .specificFrame (some o) request => {.turn o request}
  | .specificFrameAsync (some o) request => {.turn o request}
  | _ => 0

/-- What a call reports of the result of its code. -/
def Call.reports : Call → Result → Result
  | .loadAsync _, r => returnHandle r
  | .specificFrameAsync _ _, r => returnHandle r
  | _, r => r

/-- What a thread knows of its own call: it is to be served once, or it has been. -/
structure Own (c : Call) (h : List (Event Op Op.Ans)) (k : Knowns) : Prop where
  turn : ∀ o req, .turn o req ∈ k → c.Asks o req
  served : ∀ o n e, .served o n e ∈ k → ∃ req, c.Asks o req ∧ Saw h req e.call.request
  once : k.countP (fun x => x.isOwn) ≤ 1

namespace Own
variable {c : Call} {h : List (Event Op Op.Ans)} {k k' : Knowns}

/-- The history goes on. -/
theorem same (hown : Own c h k) (ev : Event Op Op.Ans) : Own c (h ++ [ev]) k where
  turn := hown.turn
  served o n e hx := by
    obtain ⟨req, hasks, hsaw⟩ := hown.served o n e hx
    exact ⟨req, hasks, hsaw.snoc ev⟩
  once := hown.once

theorem learn (hown : Own c h k) {x : Known} (hx : x.isOwn = false) : Own c h (x ::ₘ k) where
  turn o req hy := by
    rcases Multiset.mem_cons.mp hy with rfl | hy
    · cases hx
    · exact hown.turn o req hy
  served o n e hy := by
    rcases Multiset.mem_cons.mp hy with rfl | hy
    · cases hx
    · exact hown.served o n e hy
  once := by simpa [Multiset.countP_cons, hx] using hown.once

theorem forget {x : Known} (hown : Own c h (x ::ₘ k)) : Own c h k where
  turn o req hy := hown.turn o req (Multiset.mem_cons_of_mem hy)
  served o n e hy := hown.served o n e (Multiset.mem_cons_of_mem hy)
  once := (Multiset.countP_le_of_le _ (Multiset.le_cons_self k x)).trans hown.once

/-- The call is served. -/
theorem serve {o : Obj} {req : Option Obj} (hown : Own c h (.turn o req ::ₘ k)) (n : Nat)
    {e : Entry} (hsaw : Saw h req e.call.request) : Own c h (.served o n e ::ₘ k) where
  turn x r hx := by
    refine hown.turn x r (Multiset.mem_cons_of_mem ?_)
    simpa using hx
  served x m e' hx := by
    rcases Multiset.mem_cons.mp hx with heq | hx
    · cases heq
      exact ⟨req, hown.turn o req (Multiset.mem_cons_self _ _), hsaw⟩
    · exact hown.served x m e' (Multiset.mem_cons_of_mem hx)
  once := by simpa [Multiset.countP_cons] using hown.once

/-- No operation changes what the call is. -/
theorem tells (hown : Own c h k) {op : Op} {Q : op.Ans → Knowns → Prop} {a : op.Ans}
    (htells : Tells h op k Q) (hQ : Q a k') : Own c (h ++ [⟨op, a⟩]) k' := by
  have hnext := hown.same ⟨op, a⟩
  cases htells with
  | quiet hquiet k => exact hQ ▸ hnext
  | loaderNewBytes bytes k =>
    obtain rfl := hQ
    cases a with
    | none => exact hnext
    | some p => exact hnext.learn rfl
  | loaderSet p s l k =>
    obtain rfl := hQ
    exact hnext.forget.learn rfl
  | loaderLoad p l k =>
    cases a with
    | error message =>
      obtain ⟨-, rfl⟩ := hQ
      exact hnext.forget
    | ok q =>
      obtain ⟨-, -, -, rfl⟩ := hQ
      exact hnext.forget.learn rfl
  | imageRead hi => exact hQ.2 ▸ hnext
  | attachLoader p bytes k =>
    obtain rfl := hQ
    exact hnext.forget
  | attachImage hi hl =>
    obtain rfl := hQ
    cases a with
    | none => exact hnext
    | some o => exact hnext.learn rfl
  | takeInner o k =>
    cases a with
    | none => exact hQ ▸ hnext
    | some p =>
      obtain ⟨bytes, rfl⟩ := hQ
      exact (hnext.learn rfl).learn rfl
  | readSource hs => exact hQ.2 ▸ hnext
  | readLimits hs => exact hQ.2 ▸ hnext
  | readInner o k =>
    obtain ⟨bytes, start, rfl⟩ := hQ
    exact (hnext.learn rfl).learn rfl
  | readRerender hv => exact hQ.2 ▸ hnext
  | advance hv hsaw hcached =>
    obtain ⟨n, answer, -, rfl⟩ := hQ
    exact hnext.serve n (hsaw.snoc _)
  | redrawn hv hsaw hdrawn =>
    obtain ⟨n, rfl⟩ := hQ
    exact hnext.serve n (hsaw.snoc _)

end Own

/-- The calls that have been served, as the thread knows. -/
def Knowns.served (k : Knowns) (o : Obj) (n : Nat) : Prop := ∃ e, .served o n e ∈ k

/-- A call that has been served stays so. -/
theorem Tells.served_le {h : List (Event Op Op.Ans)} {k k' : Knowns} {op : Op}
    {Q : op.Ans → Knowns → Prop} {a : op.Ans} (htells : Tells h op k Q) (hQ : Q a k') :
    Knowns.served k ≤ Knowns.served k' := by
  intro o n ⟨e, he⟩
  refine ⟨e, ?_⟩
  cases htells with
  | quiet hquiet k => exact hQ ▸ he
  | loaderNewBytes bytes k =>
    obtain rfl := hQ
    cases a with
    | none => exact he
    | some p => exact Multiset.mem_cons_of_mem he
  | loaderSet p s l k =>
    obtain rfl := hQ
    simpa using he
  | loaderLoad p l k =>
    cases a with
    | error message =>
      obtain ⟨-, rfl⟩ := hQ
      simpa using he
    | ok q =>
      obtain ⟨-, -, -, rfl⟩ := hQ
      simpa using he
  | imageRead hi => exact hQ.2 ▸ he
  | attachLoader p bytes k =>
    obtain rfl := hQ
    simpa using he
  | attachImage hi hl =>
    obtain rfl := hQ
    cases a with
    | none => exact he
    | some o => exact Multiset.mem_cons_of_mem he
  | takeInner o k =>
    cases a with
    | none => exact hQ ▸ he
    | some p =>
      obtain ⟨bytes, rfl⟩ := hQ
      exact Multiset.mem_cons_of_mem (Multiset.mem_cons_of_mem he)
  | readSource hs => exact hQ.2 ▸ he
  | readLimits hs => exact hQ.2 ▸ he
  | readInner o k =>
    obtain ⟨bytes, start, rfl⟩ := hQ
    exact Multiset.mem_cons_of_mem (Multiset.mem_cons_of_mem he)
  | readRerender hv => exact hQ.2 ▸ he
  | advance hv hsaw hcached =>
    obtain ⟨m, answer, -, rfl⟩ := hQ
    exact Multiset.mem_cons_of_mem (by simpa using he)
  | redrawn hv hsaw hdrawn =>
    obtain ⟨m, rfl⟩ := hQ
    exact Multiset.mem_cons_of_mem (by simpa using he)

/-! ## Every call comes to its end with its answer -/

theorem Hands.mono {h h' : List (Event Op Op.Ans)} {answer : Except GError FrameState} {r : Result}
    (hhands : Hands h answer r) (hh : h <+: h') : Hands h' answer r := by
  cases answer with
  | error e => exact hhands
  | ok f =>
    obtain ⟨a, hmem, hr⟩ := hhands
    exact ⟨a, hh.subset hmem, hr⟩

theorem Answered.mono {o : Obj} {h h' : List (Event Op Op.Ans)} {r : Result} {k : Knowns}
    (hanswered : Answered o h r k) (hh : h <+: h') : Answered o h' r k := by
  obtain ⟨n, e, hserved, hhands⟩ := hanswered
  exact ⟨n, e, hserved, hhands.mono hh⟩

theorem LoadAnswered.mono {Source Source' : Bytes → Prop}
    {Views Views' : Obj → Bytes → Shim.ImageState → Prop} {o : Obj}
    {h h' : List (Event Op Op.Ans)} {r : Result} (hload : LoadAnswered Source Views o h r)
    (hSource : ∀ bytes, Source bytes → Source' bytes)
    (hViews : ∀ x bytes img, Views x bytes img → Views' x bytes img) (hh : h <+: h') :
    LoadAnswered Source' Views' o h' r := by
  refine hload.imp_right ?_
  rintro ⟨bytes, apply, accepted, host, s, answer, hsource, happly, haccepted, hmodel, hhands⟩
  refine ⟨bytes, apply, accepted, host, s, answer, hSource bytes hsource, hh.subset happly,
    hh.subset haccepted, hmodel, ?_⟩
  cases answer with
  | error e => exact hhands
  | ok img =>
    obtain ⟨st, a, hmem, hr, hall⟩ := hhands
    exact ⟨st, a, hh.subset hmem, hr, fun x hx => hViews x bytes img (hall x hx)⟩

/-- What is known of a call at its end. -/
structure Call.Done (c : Call) (h : List (Event Op Op.Ans)) (r : Result) (k : Knowns) : Prop where
  frame : ∀ o req, c.Asks o req → ∃ r₀, Answered o h r₀ k ∧ r = c.reports r₀
  load : ∀ o, c.LoadOf o → ∃ r₀, LoadKnown o h r₀ k ∧ r = c.reports r₀

section
variable {c : Call} {h : List (Event Op Op.Ans)} {r : Result} {k : Knowns}

/-- Nothing is to be known of a call that neither loads nor asks for a frame. -/
theorem Call.Done.of_other (hframe : ∀ o req, ¬ c.Asks o req) (hload : ∀ o, ¬ c.LoadOf o) :
    c.Done h r k :=
  ⟨fun o req hasks => absurd hasks (hframe o req), fun o hof => absurd hof (hload o)⟩

theorem newLoaderFromBytes_informed (bytes : Bytes) :
    Informed Tells (fun _ _ _ => True) (newLoaderFromBytes bytes) h k := by
  refine .step (.loaderNewBytes bytes k) fun a k' hk => ?_
  obtain rfl := hk
  cases a with
  | none => trivial
  | some p => exact (attachState_informed (.attachLoader p bytes k)).mono fun _ _ _ _ _ => trivial

end

theorem body_informed (c : Call) : Informed Tells c.Done c.body [] c.turn := by
  cases c with
  | newLoader bytes =>
    refine (newLoaderFromBytes_informed bytes).bind fun h a k _ _ => ?_
    exact .of_other (fun _ _ => id) fun _ => id
  | newRequest =>
    refine (attachState_informed (.quiet (o := .attach (.request .new)) trivial _)).bind
      fun h a k _ _ => ?_
    exact .of_other (fun _ _ => id) fun _ => id
  | set o s =>
    refine .step (.quiet (o := .write o s) trivial _) fun _ k _ => ?_
    exact .of_other (fun _ _ => id) fun _ => id
  | load loader =>
    cases loader with
    | none => exact .of_other (fun _ _ => id) fun o => by simp [Call.LoadOf]
    | some o =>
      refine glyLoaderLoad_informed.mono
        fun h r k _ hload => ⟨fun _ _ => False.elim, fun x hx => ?_⟩
      obtain rfl := Option.some.inj hx
      exact ⟨r, hload, rfl⟩
  | loadAsync loader =>
    cases loader with
    | none =>
      have hworker : Informed Tells (fun _ _ _ => True) (glyLoaderLoad none) [] 0 := trivial
      refine (runTask_informed hworker).mono fun h r k _ _ => ?_
      exact .of_other (fun _ _ => id) fun o => by simp [Call.LoadOf]
    | some o =>
      refine (runTask_informed glyLoaderLoad_informed).mono
        fun h r k _ hdone => ⟨fun _ _ => False.elim, fun x hx => ?_⟩
      obtain ⟨h₀, r₀, hh, hload, hr⟩ := hdone
      obtain rfl := Option.some.inj hx
      exact ⟨r₀, hload.mono (fun _ => id) (fun _ _ _ => id) hh, hr⟩
  | specificFrame image request =>
    cases image with
    | none => exact .of_other (fun o req hasks => nomatch hasks.1) fun _ => id
    | some o =>
      refine glyImageGetSpecificFrame_informed.mono
        fun h r k _ hanswered => ⟨?_, fun _ => False.elim⟩
      rintro x req ⟨hx, -⟩
      obtain rfl := Option.some.inj hx
      exact ⟨r, hanswered, rfl⟩
  | specificFrameAsync image request =>
    cases image with
    | none =>
      have hworker : Informed Tells (fun _ _ _ => True) (glyImageGetSpecificFrame none request)
        [] 0 := trivial
      refine (runTask_informed hworker).mono fun h r k _ _ => ?_
      exact .of_other (fun o req hasks => nomatch hasks.1) fun _ => id
    | some o =>
      refine (runTask_informed glyImageGetSpecificFrame_informed).mono
        fun h r k _ hdone => ⟨?_, fun _ => False.elim⟩
      obtain ⟨h₀, r₀, hh, hanswered, hr⟩ := hdone
      rintro x req ⟨hx, -⟩
      obtain rfl := Option.some.inj hx
      exact ⟨r₀, hanswered.mono hh, hr⟩
  | unref o =>
    refine unrefObject_informed.bind fun h _ k _ _ => ?_
    exact .of_other (fun _ _ => id) fun _ => id

/-! ## What all threads know -/

section
variable {g : Annals} {w w' : World} {k : Knowns} {o : Obj}

/-- What is behind the handles and in the objects is as it was. -/
theorem Right.same (h : Right g w k) (hobjects : w'.objects = w.objects)
    (hloaders : w'.loaders = w.loaders) (himages : w'.images = w.images)
    (hhandles : w'.handles = w.handles) : Right g w' k := by
  refine h.world hobjects (fun p l hl => .inl ?_) (fun p i hi => ?_) ?_ ?_
  · rwa [hloaders]
  · rwa [himages]
  · rw [hloaders, hhandles]
    exact h.loaders_made
  · rw [himages, hhandles]
    exact h.images_made

theorem Right.ref (h : Right g w k) (o : Obj) : Right g (w.ref o) k := by
  unfold World.ref
  cases hslot : w.objects o with
  | live n st =>
    refine h.setSlot (fun bytes hb => ?_) (fun p hp => ?_) fun hagrees => ?_
    · rw [hslot] at hb
      cases st <;> exact hb
    · rw [hslot]
      exact hp
    · rw [hslot] at hagrees
      cases st <;> exact hagrees
  | fresh => exact h
  | gone => exact h

theorem Right.retain (h : Right g w k) (os : List Obj) : Right g (os.foldl World.ref w) k := by
  induction os generalizing w with
  | nil => exact h
  | cons o os ih => exact ih (h.ref o)

/-- A call starts, and knows that it is to be served. -/
theorem Right.starts {c : Call} (h : Right g w k) (hstart : w.Starts c w') :
    Right g w' (c.turn + k) := by
  have hworld : Right g w' k := by
    obtain ⟨o, rfl, -, rfl⟩ | ⟨-, -, rfl⟩ := hstart.cases
    · exact h.same rfl rfl rfl rfl
    · exact (h.retain c.retains).same rfl rfl rfl rfl
  unfold Call.turn
  split
  · rw [Multiset.singleton_add]
    exact hworld.learn trivial (fun _ => rfl) fun _ _ => rfl
  · rw [Multiset.singleton_add]
    exact hworld.learn trivial (fun _ => rfl) fun _ _ => rfl
  · rwa [zero_add]

theorem Right.ends {c : Call} {r : Result} (h : Right g w k) (hend : w.Ends c r w') :
    Right g w' k := by
  obtain rfl := hend
  cases c.returns r with
  | none => exact h.same rfl rfl rfl rfl
  | some o => exact h.same rfl rfl rfl rfl

theorem Right.acts (h : Right g w k) (hact : w.Acts w') : Right g w' k := by
  obtain ⟨o, -, rfl⟩ := hact
  exact (h.ref o).same rfl rfl rfl rfl

end

theorem Own.brings (c : Call) : Own c [] c.turn := by
  unfold Call.turn
  split
  · refine ⟨fun x req hx => ?_, fun x n e hx => by simp at hx, Multiset.countP_le_card _ _⟩
    cases Multiset.mem_singleton.mp hx
    exact ⟨rfl, rfl⟩
  · refine ⟨fun x req hx => ?_, fun x n e hx => by simp at hx, Multiset.countP_le_card _ _⟩
    cases Multiset.mem_singleton.mp hx
    exact ⟨rfl, rfl⟩
  · exact ⟨fun _ _ hx => absurd hx (Multiset.notMem_zero _),
      fun _ _ _ hx => absurd hx (Multiset.notMem_zero _), Nat.zero_le 1⟩

/-- What the threads of the shim know. -/
def knowledge : Knowledge shim Knowns Annals (Obj → Nat → Prop) where
  Sound w := ∃ T, Owns w T
  Right := Right
  Spec := Tells
  Inv := Own
  kept := Knowns.served
  brings := Call.turn
  Post := Call.Done
  spec_keeps howns htells hright hexec := htells.keeps howns hright hexec
  starts_keeps hstart h := h.starts hstart
  ends_keeps hend h := h.ends hend
  acts_keeps hact h := h.acts hact
  inv_brings := Own.brings
  inv_spec hown htells hQ := hown.tells htells hQ
  kept_spec htells hQ := htells.served_le hQ
  body_informed _ := body_informed _

/-! ## The order of the calls -/

/-- The thread makes the `n`-th call of the chronicle of `o`, with the request as it has read it,
and gives its answer, once it has come to its end. -/
def Fills (g : Annals) (t : Thread Call Op Op.Ans Result) (o : Obj) (n : Nat) : Prop :=
  ∃ req c e, t.call.Asks o req ∧ g.of o = some c ∧ c.entries[n]? = some e ∧
    Saw t.hist req e.call.request ∧
    ∀ r, t.rest.value = some r → ∃ r₀, Hands t.hist e.answer r₀ ∧ r = t.call.reports r₀

/-- The calls on all threads are calls of the model one after the other: every image object is in
the state its chronicle has come to, each call of a chronicle is made by one thread, which makes
no other, and every load gives what a load of the model gives. `place i o n` says that the thread
`i` makes the `n`-th call of `o`. -/
structure Serial (g : Annals) (place : Nat → Obj → Nat → Prop) (s : Process) : Prop where
  shows : ∀ o n st, s.world.objects o = .live n (.image st) →
    ∃ c, g.of o = some c ∧ st.Shows s.world.images c.now
  filled : ∀ o n, n < (g.entries o).length → ∃ i, place i o n
  fills : ∀ i o n, place i o n → ∃ t, s.threads[i]? = some t ∧ Fills g t o n
  one_place : ∀ i o n o' n', place i o n → place i o' n' → o = o' ∧ n = n'
  one_call : ∀ i j o n, place i o n → place j o n → i = j
  complete : ∀ (i : Nat) t o req r, s.threads[i]? = some t → t.call.Asks o req →
    t.rest.value = some r → ∃ n, place i o n
  loads : ∀ t ∈ s.threads, ∀ o r, t.call.LoadOf o → t.rest.value = some r → ∃ r₀,
    LoadAnswered (fun bytes => (s.world.objects o).Source bytes)
      (fun x bytes img => ∃ c, g.of x = some c ∧ c.bytes = bytes ∧ c.start = img) o t.hist r₀ ∧
    r = t.call.reports r₀
  never_aborts : ∀ t ∈ s.threads, ∀ k, t.rest ≠ .op .abort k

section
variable {held : List (Thread Call Op Op.Ans Result × Knowns)} {g : Annals} {s s' : Process}

/-- The thread at `i` knows that it has been served. -/
def placeOf (held : List (Thread Call Op Op.Ans Result × Knowns)) (i : Nat) (o : Obj) (n : Nat) :
    Prop :=
  ∃ x, held[i]? = some x ∧ Knowns.served x.2 o n

/-- Nobody knows twice what only one call can be. -/
theorem eq_of_countP_le_one {P : Known → Prop} [DecidablePred P] {k : Knowns} {x y : Known}
    (h : k.countP P ≤ 1) (hx : x ∈ k) (hy : y ∈ k) (hPx : P x) (hPy : P y) : x = y := by
  obtain ⟨k, rfl⟩ := Multiset.exists_cons_of_mem hx
  rw [Multiset.countP_cons_of_pos _ hPx] at h
  rcases Multiset.mem_cons.mp hy with heq | hy
  · exact heq.symm
  · have hpos := Multiset.countP_pos.mpr ⟨y, hy, hPy⟩
    omega

theorem mem_knowns_sum {l : List Knowns} {x : Known} : x ∈ l.sum ↔ ∃ k ∈ l, x ∈ k := by
  induction l with
  | nil => simp
  | cons k l ih => simp [ih]

/-- A call is served on one thread. -/
theorem Right.one_thread {w : World} {l : List Knowns} (h : Right g w l.sum) {i j : Nat}
    {a b : Knowns} {o : Obj} {n : Nat} (hi : l[i]? = some a) (hj : l[j]? = some b)
    (ha : a.served o n) (hb : b.served o n) : ¬ i < j := by
  intro hij
  obtain ⟨e, he⟩ := Knowledge.exists_sum_eq_of_lt hij hi hj
  obtain ⟨x, hx⟩ := ha
  obtain ⟨y, hy⟩ := hb
  have ha := Multiset.countP_pos.mpr
    (⟨_, hx, by simp [Known.isServed]⟩ : ∃ z ∈ a, z.isServed o n = true)
  have hb := Multiset.countP_pos.mpr
    (⟨_, hy, by simp [Known.isServed]⟩ : ∃ z ∈ b, z.isServed o n = true)
  have hcount := h.served_once o n
  rw [he, Multiset.countP_add, Multiset.countP_add] at hcount
  split at hcount <;> omega

namespace Shared
variable (hshared : knowledge.Shared held g s)
include hshared

theorem shows {o : Obj} {n : Nat} {st : ImageState}
    (hslot : s.world.objects o = .live n (.image st)) :
    ∃ c, g.of o = some c ∧ st.Shows s.world.images c.now := by
  have hagrees := hshared.right.agrees o
  rwa [hslot] at hagrees

theorem filled {o : Obj} {n : Nat} (hn : n < (g.entries o).length) : ∃ i, placeOf held i o n := by
  have hcount := hshared.right.served_once o n
  rw [if_pos hn] at hcount
  obtain ⟨x, hx, hserved⟩ := Multiset.countP_pos.mp (hcount ▸ Nat.one_pos)
  obtain ⟨k, hk, hx⟩ := mem_knowns_sum.mp hx
  obtain ⟨y, hy, rfl⟩ := List.mem_map.mp hk
  obtain ⟨i, hi⟩ := List.mem_iff_getElem?.mp hy
  refine ⟨i, y, hi, ?_⟩
  cases x with
  | served o' n' e =>
    obtain ⟨rfl, rfl⟩ : o' = o ∧ n' = n := by simpa [Known.isServed] using hserved
    exact ⟨e, hx⟩
  | loader p l => cases hserved
  | image p i => cases hserved
  | source o b => cases hserved
  | view o b s => cases hserved
  | turn o r => cases hserved

theorem fills {i : Nat} {o : Obj} {n : Nat} (hplace : placeOf held i o n) :
    ∃ t, s.threads[i]? = some t ∧ Fills g t o n := by
  obtain ⟨⟨⟨c, h, rest, returned⟩, k⟩, hx, e, he⟩ := hplace
  have hmem := List.mem_of_getElem? hx
  obtain ⟨hinv, hinformed⟩ := hshared.holds _ hmem
  have hsum : .served o n e ∈ (held.map Prod.snd).sum :=
    mem_knowns_sum.mpr ⟨k, List.mem_map_of_mem hmem, he⟩
  obtain ⟨c', hc, hentry⟩ := hshared.right.known _ hsum
  obtain ⟨req, hasks, hsaw⟩ := hinv.served o n e he
  refine ⟨_, ?_, req, c', e, hasks, hc, hentry, hsaw, fun r hr => ?_⟩
  · rw [← hshared.threads_eq, List.getElem?_map, hx]
    rfl
  · cases rest with
    | op o f => cases hr
    | ret a =>
      cases hr
      obtain ⟨r₀, ⟨n', e', he', hhands⟩, hr⟩ := hinformed.frame o req hasks
      have heq := eq_of_countP_le_one hinv.once he he' rfl rfl
      cases heq
      exact ⟨r₀, hhands, hr⟩

theorem one_place {i : Nat} {o o' : Obj} {n n' : Nat} (h : placeOf held i o n)
    (h' : placeOf held i o' n') : o = o' ∧ n = n' := by
  obtain ⟨x, hx, e, he⟩ := h
  obtain ⟨x', hx', e', he'⟩ := h'
  obtain rfl := Option.some.inj (hx.symm.trans hx')
  have hinv := (hshared.holds x (List.mem_of_getElem? hx)).inv
  have heq := eq_of_countP_le_one hinv.once he he' rfl rfl
  cases heq
  exact ⟨rfl, rfl⟩

theorem one_call {i j : Nat} {o : Obj} {n : Nat} (h : placeOf held i o n)
    (h' : placeOf held j o n) : i = j := by
  obtain ⟨x, hx, hserved⟩ := h
  obtain ⟨y, hy, hserved'⟩ := h'
  have hx : (held.map Prod.snd)[i]? = some x.2 := by rw [List.getElem?_map, hx]; rfl
  have hy : (held.map Prod.snd)[j]? = some y.2 := by rw [List.getElem?_map, hy]; rfl
  have hij := hshared.right.one_thread hx hy hserved hserved'
  have hji := hshared.right.one_thread hy hx hserved' hserved
  omega

/-- A thread that has come to its end knows what its call has come to. -/
theorem done {i : Nat} {t : Thread Call Op Op.Ans Result} {r : Result}
    (ht : s.threads[i]? = some t) (hr : t.rest.value = some r) :
    ∃ k, held[i]? = some (t, k) ∧ t.call.Done t.hist r k := by
  rw [← hshared.threads_eq, List.getElem?_map] at ht
  obtain ⟨⟨t', k⟩, hx, rfl⟩ := Option.map_eq_some_iff.mp ht
  obtain ⟨-, hinformed⟩ := hshared.holds _ (List.mem_of_getElem? hx)
  obtain ⟨c, h, rest, returned⟩ := t'
  cases rest with
  | op o f => cases hr
  | ret a =>
    cases hr
    exact ⟨k, hx, hinformed⟩

theorem complete {i : Nat} {t : Thread Call Op Op.Ans Result} {o : Obj} {req : Option Obj}
    {r : Result} (ht : s.threads[i]? = some t) (hasks : t.call.Asks o req)
    (hr : t.rest.value = some r) : ∃ n, placeOf held i o n := by
  obtain ⟨k, hx, hdone⟩ := done hshared ht hr
  obtain ⟨r₀, ⟨n, e, he, -⟩, -⟩ := hdone.frame o req hasks
  exact ⟨n, _, hx, e, he⟩

theorem loads {t : Thread Call Op Op.Ans Result} (ht : t ∈ s.threads) {o : Obj} {r : Result}
    (hof : t.call.LoadOf o) (hr : t.rest.value = some r) : ∃ r₀,
    LoadAnswered (fun bytes => (s.world.objects o).Source bytes)
      (fun x bytes img => ∃ c, g.of x = some c ∧ c.bytes = bytes ∧ c.start = img) o t.hist r₀ ∧
    r = t.call.reports r₀ := by
  obtain ⟨i, hi⟩ := List.mem_iff_getElem?.mp ht
  obtain ⟨k, hx, hdone⟩ := done hshared hi hr
  obtain ⟨r₀, hload, hr⟩ := hdone.load o hof
  have hknown : ∀ x ∈ k, x.Holds g s.world := fun x hx' => by
    refine hshared.right.known x (mem_knowns_sum.mpr ⟨k, ?_, hx'⟩)
    exact List.mem_map_of_mem (f := Prod.snd) (List.mem_of_getElem? hx)
  refine ⟨r₀, hload.mono (fun bytes hs => ?_) (fun x bytes img hv => ?_) (List.prefix_refl _), hr⟩
  · exact hknown _ hs
  · exact hknown _ hv

/-- No operation a thread goes on with is a panic. -/
theorem never_aborts {t : Thread Call Op Op.Ans Result} (ht : t ∈ s.threads)
    (f : Op.abort.Ans → Code Result) : t.rest ≠ .op .abort f := by
  intro hrest
  rw [← hshared.threads_eq] at ht
  obtain ⟨⟨t', k⟩, hx, rfl⟩ := List.mem_map.mp ht
  obtain ⟨-, hinformed⟩ := hshared.holds _ hx
  rw [hrest] at hinformed
  obtain ⟨Q, hspec, -⟩ := hinformed
  cases hspec with
  | quiet hquiet => exact hquiet

theorem serial : Serial g (placeOf held) s where
  shows _ _ _ := shows hshared
  filled _ _ := filled hshared
  fills _ _ _ := fills hshared
  one_place _ _ _ _ _ := one_place hshared
  one_call _ _ _ _ := one_call hshared
  complete _ _ _ _ _ := complete hshared
  loads _ ht _ _ := loads hshared ht
  never_aborts _ := never_aborts hshared

end Shared

end

/-- A grey image has been loaded from a PNG file. -/
theorem exists_greyImage : ∃ (w : World) (o : Obj) (t u : Thread Call Op Op.Ans Result)
    (st : ImageState) (image : Image), Reachable ⟨w, [t, u]⟩ ∧
      (t.rest.value ≠ none ∧ u.rest.value ≠ none) ∧ o.kind = .image ∧
      w.objects o = .live 1 (.image st) ∧ w.owned o = 1 ∧ st.rerender = none ∧
      w.images st.inner = some image := by
  let bytes : Bytes := [0x89, 0x50, 0x4e, 0x47, 0x0d, 0x0a, 0x1a, 0x0a]
  let l : Obj := ⟨.loader, 0⟩
  let o : Obj := ⟨.image, 0⟩
  let loader : Loader := loaderApplyTransformations (loaderNewBytes bytes) true
  obtain ⟨image, hload, hformat⟩ : ∃ image,
      loaderLoad (.plain greyPixel) loader = .ok (.ok image) ∧
      isRescalableFormat ((imageFormatName image).getD "") = false := ⟨_, rfl, rfl⟩
  -- the loader is made
  let w₁ : World := { World.start with calls := fun _ => 0 }
  let w₂ := w₁.addLoader 0 (loaderNewBytes bytes)
  let w₃ := w₂.setObject l (.live 1 (.loader (.new 0 (some bytes))))
  let w₄ := w₃.setOwned l 1
  have hstart : World.start.Starts (.newLoader bytes) w₁ :=
    ⟨trivial, by simp [Call.borrows, Call.retains], rfl⟩
  have hnew : shim.Exec w₁ (.loaderNewBytes bytes) (some 0) w₂ := ⟨rfl, rfl⟩
  have hattach : shim.Exec w₂ (.attach (.loader (.new 0 (some bytes)))) (some l) w₃ :=
    ⟨rfl, rfl, rfl⟩
  have hend : w₃.Ends (.newLoader bytes) (.object l) w₄ := rfl
  have h₁ : Reachable ⟨w₁, _⟩ := .tail .refl (.start [] hstart)
  have h₂ : Reachable ⟨w₂, _⟩ := h₁.tail (.op [] [] hnew)
  have h₃ : Reachable ⟨w₃, _⟩ := h₂.tail (.op [] [] hattach)
  have h₄ : Reachable ⟨w₄, [_]⟩ := h₃.tail (.return [] [] hend)
  -- and is loaded
  let w₅ : World := { w₄ with calls := fun x => w₄.calls x + [l].count x }
  let empty : LoaderState := { LoaderState.new 0 (some bytes) with inner := none }
  let w₆ := w₅.setObject l (.live 1 (.loader empty))
  let w₇ : World := { w₆ with loaders := Function.update w₆.loaders 0 (some loader) }
  let w₈ := (w₇.release (.loader 0) .load).addImage 0 image
  let rerender : Option Rerender :=
    if isRescalableFormat ((imageFormatName image).getD "") then some ⟨bytes, .default, true, 0⟩
    else none
  let st : ImageState := .new 0 (imageFrameCount image) rerender
  let w₉ := w₈.setObject o (.live 1 (.image st))
  have hslot : w₆.objects l = .live 1 (.loader empty) := by simp [w₆, World.setObject]
  have hstart : w₄.Starts (.load (some l)) w₅ :=
    ⟨by simp [Call.WellTyped, l], by simp [Call.borrows, Call.retains, w₄, World.setOwned], rfl⟩
  have htake : shim.Exec w₅ (.takeInner l) (some 0) w₆ := ⟨1, _, rfl, rfl, rfl⟩
  have hread₁ : shim.Exec w₆ (.read l .applyTransformations) true w₆ := ⟨⟨1, _, hslot, rfl⟩, rfl⟩
  have hread₂ : shim.Exec w₆ (.read l .limits) .default w₆ := ⟨⟨1, _, hslot, rfl⟩, rfl⟩
  have hread₃ : shim.Exec w₆ (.read l .acceptedMemoryFormats) 0 w₆ := ⟨⟨1, _, hslot, rfl⟩, rfl⟩
  have hset : shim.Exec w₆ (.loaderSet 0 (.applyTransformations true)) () w₇ := rfl
  have hloads : shim.Exec w₇ (.loaderLoad 0) (.ok 0) w₈ :=
    ⟨.plain greyPixel, loader, image, rfl, hload, rfl, rfl⟩
  have hread : ∀ q : ImageQuery, shim.Exec w₈ (.imageRead 0 q) (q.ask image) w₈ :=
    fun q => ⟨⟨image, rfl, rfl⟩, rfl⟩
  have hsource : shim.Exec w₈ (.read l .sourceBytes) (some bytes) w₈ := ⟨⟨1, _, hslot, rfl⟩, rfl⟩
  have himage : shim.Exec w₈ (.attach (.image st)) (some o) w₉ := ⟨rfl, rfl, rfl⟩
  have h₅ : Reachable ⟨w₅, _⟩ := h₄.tail (.start _ hstart)
  have h₆ : Reachable ⟨w₆, _⟩ := h₅.tail (.op [_] [] htake)
  have h₆ : Reachable ⟨w₆, _⟩ := h₆.tail (.op [_] [] hread₁)
  have h₆ : Reachable ⟨w₆, _⟩ := h₆.tail (.op [_] [] hread₂)
  have h₆ : Reachable ⟨w₆, _⟩ := h₆.tail (.op [_] [] hread₃)
  have h₇ : Reachable ⟨w₇, _⟩ := h₆.tail (.op [_] [] hset)
  have h₈ : Reachable ⟨w₈, _⟩ := h₇.tail (.op [_] [] hloads)
  have h₈ : Reachable ⟨w₈, _⟩ := h₈.tail (.op [_] [] (hread .frameCount))
  have h₈ : Reachable ⟨w₈, _⟩ := h₈.tail (.op [_] [] (hread .formatName))
  have h₈ : Reachable ⟨w₈, _⟩ := h₈.tail (.op [_] [] hsource)
  have h₉ : Reachable ⟨w₉, _⟩ := h₈.tail (.op [_] [] himage)
  let w₁₀ : World := { w₉ with
    calls := fun x => w₉.calls x - [l].count x
    owned := Function.update w₉.owned o 1 }
  have hend : w₉.Ends (.load (some l)) (.object o) w₁₀ := rfl
  have h₁₀ : Reachable ⟨w₁₀, [_, _]⟩ := h₉.tail (.return [_] [] hend)
  exact ⟨w₁₀, o, _, _, st, image, h₁₀, by simp [Prog.value], rfl, rfl, rfl,
    if_neg (by simp [hformat]), rfl⟩

/-- The code runs alone from the world `w` to its end, with the result `x`. -/
inductive Alone {α : Type} : World → Code α → World → α → Prop
  | ret (w : World) (x : α) : Alone w (.ret x) w x
  | op {w w₁ w' : World} {o : Op} {f : o.Ans → Code α} {a : o.Ans} {x : α}
      (hexec : shim.Exec w o a w₁) (h : Alone w₁ (f a) w' x) : Alone w (.op o f) w' x

theorem Alone.steps {w w' : World} {p : Code Result} {x : Result} (halone : Alone w p w' x)
    (c : Call) (h : List (Event Op Op.Ans)) (l r : List (Thread Call Op Op.Ans Result)) :
    ∃ h', Relation.ReflTransGen shim.Step ⟨w, l ++ ⟨c, h, p, false⟩ :: r⟩
      ⟨w', l ++ ⟨c, h', .ret x, false⟩ :: r⟩ := by
  induction halone generalizing h with
  | ret w x => exact ⟨h, .refl⟩
  | op hexec _ ih =>
    obtain ⟨h', hsteps⟩ := ih (h ++ [⟨_, _⟩])
    exact ⟨h', .head (.op l r hexec) hsteps⟩

theorem Alone.bind {α β : Type} {w w₁ w' : World} {p : Code α} {f : α → Code β} {a : α} {b : β}
    (hp : Alone w p w₁ a) (hf : Alone w₁ (f a) w' b) : Alone w (p >>= f) w' b := by
  induction hp with
  | ret w x => exact hf
  | op hexec _ ih => exact .op hexec (ih hf)

theorem extractFrame_alone {w : World} {p : Addr} {image : Image} (himage : w.images p = some image)
    (index : Nat) (accepted : UInt32) : ∃ raw, Alone w (extractFrame p index accepted) w raw := by
  have hread : ∀ q : ImageQuery, shim.Exec w (.imageRead p q) (q.ask image) w :=
    fun q => ⟨⟨image, himage, rfl⟩, rfl⟩
  cases htexture : (imageTexture image index).isSome with
  | false =>
    refine ⟨none, .op (hread (.hasTexture index)) ?_⟩
    simp only [ImageQuery.ask, htexture]
    exact .ret w none
  | true =>
    obtain ⟨out, hout⟩ := maybeConvert_returns ⟨ImageQuery.ask image (.textureWidth index),
      ImageQuery.ask image (.textureHeight index), ImageQuery.ask image (.textureStride index),
      ImageQuery.ask image (.textureFormat index), ImageQuery.ask image (.textureData index),
      ImageQuery.ask image (.frameDelayMs index)⟩ accepted
    refine ⟨some out, .op (hread (.hasTexture index)) ?_⟩
    simp only [ImageQuery.ask, htexture]
    refine .op (hread (.textureWidth index)) (.op (hread (.textureHeight index)) ?_)
    refine .op (hread (.textureStride index)) (.op (hread (.textureFormat index)) ?_)
    refine .op (hread (.textureData index)) (.op (hread (.frameDelayMs index)) ?_)
    refine Alone.bind (a := out) ?_ (.ret w (some out))
    rw [hout]
    exact .ret w out

/-- The cached path, alone, where no object can be made for a frame. -/
theorem cachedFrame_alone {w : World} {o : Obj} {p : Addr} {n : Nat} {st : ImageState}
    {image : Image} (hslot : w.objects o = .live n (.image st)) (himage : w.images p = some image)
    (loop : Bool) (accepted : UInt32) : ∃ x, Alone w (cachedFrame o p loop accepted)
      (w.setObject o (.live n (.image (st.advance loop).2))) x := by
  have hadvance : shim.Exec w (.advance o loop) (st.advance loop).1
    (w.setObject o (.live n (.image (st.advance loop).2))) := ⟨n, st, hslot, rfl, rfl⟩
  unfold cachedFrame
  cases hnext : (st.advance loop).1 with
  | none =>
    rw [hnext] at hadvance
    exact ⟨_, .op hadvance (.ret _ _)⟩
  | some index =>
    rw [hnext] at hadvance
    obtain ⟨raw, hraw⟩ := extractFrame_alone
      (w := w.setObject o (.live n (.image (st.advance loop).2))) himage index accepted
    cases raw with
    | none => exact ⟨_, .op hadvance (hraw.bind (.ret _ _))⟩
    | some raw =>
      have hcicp : shim.Exec (w.setObject o (.live n (.image (st.advance loop).2)))
        (.imageRead p .cicp) image.cicp _ := ⟨⟨image, himage, rfl⟩, rfl⟩
      have hattach : shim.Exec (w.setObject o (.live n (.image (st.advance loop).2)))
        (.attach (.frame ⟨raw, image.cicp⟩)) none _ := rfl
      exact ⟨.null none, .op hadvance (hraw.bind (.op hcicp (.op hattach (.ret _ _))))⟩

end GlycinNg.Shim.Threads
