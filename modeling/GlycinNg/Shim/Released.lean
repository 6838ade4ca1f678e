import GlycinNg.Shim.LoadOnce

/-! # Every handle is released once

The code of the shim runs within the specifications of its operations (`body_safe`), so no
run comes to a fault, and what is left when all calls have returned and the users own
nothing more are handles that have each been released once. -/
namespace GlycinNg.Shim.Threads
open Rust Concurrent

section
variable {T : Tokens} {o : Obj} {p : Addr} {t : Token}

theorem Keeps.cons (h : Keeps T o) : Keeps (t ::ₘ T) o :=
  h.imp Multiset.mem_cons_of_mem Multiset.mem_cons_of_mem

theorem Reads.own : Reads (.handle (.image p) ::ₘ T) p := .inl (Multiset.mem_cons_self _ _)

/-! ## The code, function by function -/

/-- The program gives back what its thread holds. -/
abbrev Leaves {α : Type} (T : Tokens) (_ : α) (T' : Tokens) : Prop := T' = T

/-- The program adds its result to what its thread holds, and knowledge. -/
def Gives (T : Tokens) (r : Result) (T' : Tokens) : Prop :=
  ∃ K, Facts K ∧ T' = K + (r.tokens + T)

theorem Gives.of_eq {r : Result} {T' : Tokens} (h : T' = r.tokens + T) : Gives T r T' :=
  ⟨0, Facts.zero, by rw [h, zero_add]⟩

theorem run_safe {α : Type} (x : Checked α) : Safe Spec (Leaves T) (run x) T := by
  cases x with
  | ok a => exact rfl
  | error e => exact .op (.abort T) fun a => a.elim

theorem dropState_safe (st : State) : Safe Spec (Leaves T) (dropState st) (st.tokens + T) := by
  cases st with
  | loader s =>
    simp only [dropState, State.tokens, State.handle]
    cases s.inner with
    | none => exact Multiset.zero_add T
    | some p =>
      simp only [Option.map_some, Option.elim_some, Multiset.singleton_add]
      exact .last (.loaderFree p T) fun _ => rfl
  | image s =>
    simp only [dropState, State.tokens, State.handle, Option.elim_some, Multiset.singleton_add]
    exact .last (.imageFree s.inner T) fun _ => rfl
  | frame s => exact Multiset.zero_add T
  | request s => exact Multiset.zero_add T

theorem attachState_safe (st : State) :
    Safe Spec (fun a => Gives T (.ofPtr a)) (attachState st) (st.tokens + T) := by
  refine .step (.attach st T) fun a => ?_
  cases a with
  | some obj => exact .of_eq (Multiset.singleton_add _ T).symm
  | none => exact (dropState_safe st).seq fun _ => .of_eq (Multiset.zero_add T).symm

/-- A frame comes with no handle. -/
theorem attachFrame_safe (s : FrameState) :
    Safe Spec (fun a => Gives T (.ofPtr a)) (attachState (.frame s)) T := by
  have h := attachState_safe (T := T) (.frame s)
  rwa [show (State.frame s).tokens = 0 from rfl, zero_add] at h

theorem unrefObject_safe : Safe Spec (Leaves T) (unrefObject o) (.ref o ::ₘ T) := by
  refine .step (.unref o T) fun a => ?_
  cases a with
  | some st => exact dropState_safe st
  | none => exact rfl

theorem newLoaderFromBytes_safe (bytes : Bytes) :
    Safe Spec (fun a => Gives T (.ofPtr a)) (newLoaderFromBytes bytes) T := by
  refine .step (.loaderNewBytes bytes T) fun a => ?_
  cases a with
  | none => exact .of_eq (Multiset.zero_add T).symm
  | some loader =>
    have h := attachState_safe (T := T) (.loader (.new loader (some bytes)))
    exact h

theorem setSome_safe (h : .handle (.loader p) ∈ T) (v : Option LoaderSetting) :
    Safe Spec (Leaves T) (setSome p v) T := by
  cases v with
  | none => exact rfl
  | some s => exact .last (.loaderSet h) fun _ => rfl

theorem applyLimits_safe (h : .handle (.loader p) ∈ T) (l : LoaderLimits) :
    Safe Spec (Leaves T) (applyLimits l p) T := by
  unfold applyLimits
  refine (setSome_safe h _).seq fun _ => ?_
  refine (setSome_safe h _).seq fun _ => ?_
  refine (setSome_safe h _).seq fun _ => ?_
  refine (setSome_safe h _).seq fun _ => ?_
  refine (setSome_safe h _).seq fun _ => ?_
  refine (setSome_safe h _).seq fun _ => ?_
  exact setSome_safe h _

/-- The decoded image goes into the new object, or is freed with the state around it. -/
theorem attachImage_safe (hkind : o.kind = .loader) (hkeeps : Keeps T o) (limits : LoaderLimits)
    (apply : Bool) (accepted : UInt32) :
    Safe Spec (Gives T) (attachImage o p limits apply accepted) (.handle (.image p) ::ₘ T) := by
  unfold attachImage
  refine .step (.imageRead .own) fun frameCount => ?_
  refine .step (.imageRead .own) fun formatName => ?_
  refine .step (.read hkind hkeeps.cons) fun sourceBytes => ?_
  have h := fun rerender => attachState_safe (T := T) (.image (.new p frameCount rerender))
  exact (h _).bind fun a T' hT' => hT'

theorem loadInner_safe (hkind : o.kind = .loader) (hkeeps : Keeps T o) :
    Safe Spec (Gives T) (loadInner o p) (.handle (.loader p) ::ₘ T) := by
  have hmem : .handle (.loader p) ∈ (.handle (.loader p) ::ₘ T : Tokens) :=
    Multiset.mem_cons_self _ _
  unfold loadInner
  refine .step (.read hkind hkeeps.cons) fun apply => ?_
  refine .step (.read hkind hkeeps.cons) fun limits => ?_
  refine .step (.read hkind hkeeps.cons) fun accepted => ?_
  refine .step (.loaderSet hmem) fun _ => ?_
  refine (applyLimits_safe hmem limits).seq fun _ => ?_
  refine .step (.loaderLoad p T) fun answer => ?_
  cases answer with
  | error message => exact .of_eq (Multiset.zero_add T).symm
  | ok image => exact attachImage_safe hkind hkeeps limits apply accepted

theorem glyLoaderLoad_safe {loader : Option Obj}
    (h : ∀ o ∈ loader, o.kind = .loader ∧ Keeps T o) :
    Safe Spec (Gives T) (glyLoaderLoad loader) T := by
  cases loader with
  | none => exact .of_eq (Multiset.zero_add T).symm
  | some o =>
    obtain ⟨hkind, hkeeps⟩ := h o rfl
    refine .step (.takeInner hkind hkeeps) fun inner => ?_
    cases inner with
    | none => exact .of_eq (Multiset.zero_add T).symm
    | some p => exact loadInner_safe hkind hkeeps

theorem extractFrame_safe (h : Reads T p) (index : Nat) (accepted : UInt32) :
    Safe Spec (Leaves T) (extractFrame p index accepted) T := by
  unfold extractFrame
  refine .step (.imageRead h) fun present => ?_
  cases present with
  | false => exact rfl
  | true =>
    refine .step (.imageRead h) fun width => ?_
    refine .step (.imageRead h) fun height => ?_
    refine .step (.imageRead h) fun stride => ?_
    refine .step (.imageRead h) fun format => ?_
    refine .step (.imageRead h) fun data => ?_
    refine .step (.imageRead h) fun delayMs => ?_
    exact (run_safe _).seq fun _ => rfl

theorem differs_safe (h : Reads T p) (sw sh : UInt32) :
    Safe Spec (Leaves T) (differs p sw sh) T := by
  unfold differs
  split
  · refine .step (.imageRead h) fun width => ?_
    split
    · exact rfl
    · exact .step (.imageRead h) fun height => rfl
  · exact rfl

/-- A result that may be missing: the new decode falls through to the cached frame. -/
def GivesSome (T : Tokens) : Option Result → Tokens → Prop
  | some r, T' => Gives T r T'
  | none, T' => T' = T

/-- The new image is freed on both ways out. -/
theorem frameOfNew_safe (accepted : UInt32) :
    Safe Spec (GivesSome T) (frameOfNew p accepted) (.handle (.image p) ::ₘ T) := by
  unfold frameOfNew
  refine (extractFrame_safe .own 0 accepted).seq fun raw => ?_
  cases raw with
  | none => exact .step (.imageFree p T) fun _ => rfl
  | some raw =>
    refine .step (.imageRead .own) fun cicp => ?_
    refine .step (.imageFree p T) fun _ => ?_
    exact (attachFrame_safe ⟨raw, cicp⟩).bind fun a T' hT' => hT'

theorem rerenderFrame_safe (h : Reads T p) (rerender : Option Rerender)
    (scale : Option (UInt32 × UInt32)) :
    Safe Spec (GivesSome T) (rerenderFrame p rerender scale) T := by
  cases rerender with
  | none => exact rfl
  | some rerender =>
    cases scale with
    | none => exact rfl
    | some size =>
      refine (differs_safe h size.1 size.2).seq fun other => ?_
      cases other with
      | false => exact rfl
      | true =>
        refine .step (.loaderNewBytes _ T) fun newLoader => ?_
        cases newLoader with
        | none => exact rfl
        | some q =>
          have hmem : .handle (.loader q) ∈ (.handle (.loader q) ::ₘ T : Tokens) :=
            Multiset.mem_cons_self _ _
          refine .step (.loaderSet hmem) fun _ => ?_
          refine .step (.loaderSet hmem) fun _ => ?_
          refine (applyLimits_safe hmem rerender.limits).seq fun _ => ?_
          refine .step (.loaderLoad q T) fun answer => ?_
          cases answer with
          | error message => exact rfl
          | ok newImage => exact frameOfNew_safe rerender.acceptedMemoryFormats

theorem cachedFrame_safe (hkind : o.kind = .image) (hkeeps : Keeps T o) (h : Reads T p)
    (loopAnimation : Bool) (accepted : UInt32) :
    Safe Spec (Gives T) (cachedFrame o p loopAnimation accepted) T := by
  refine .step (.advance hkind hkeeps) fun idx => ?_
  cases idx with
  | none => exact .of_eq (Multiset.zero_add T).symm
  | some idx =>
    refine (extractFrame_safe h idx accepted).seq fun raw => ?_
    cases raw with
    | none => exact .of_eq (Multiset.zero_add T).symm
    | some raw =>
      refine .step (.imageRead h) fun cicp => ?_
      exact (attachFrame_safe ⟨raw, cicp⟩).bind fun a T' hT' => hT'

theorem requestField_safe {request : Option Obj} (f : Field) (default : f.Ans)
    (h : ∀ o ∈ request, o.kind = f.kind ∧ Keeps T o) :
    Safe Spec (Leaves T) (requestField request f default) T := by
  cases request with
  | none => exact rfl
  | some req =>
    obtain ⟨hkind, hkeeps⟩ := h req rfl
    exact .last (.read hkind hkeeps) fun _ => rfl

theorem glyImageGetSpecificFrame_safe {image request : Option Obj}
    (himage : ∀ o ∈ image, o.kind = .image ∧ Keeps T o)
    (hrequest : ∀ o ∈ request, o.kind = .request ∧ Keeps T o) :
    Safe Spec (Gives T) (glyImageGetSpecificFrame image request) T := by
  cases image with
  | none => exact .of_eq (Multiset.zero_add T).symm
  | some img =>
    obtain ⟨hkind, hkeeps⟩ := himage img rfl
    have hreq : ∀ p, ∀ o ∈ request, o.kind = .request ∧ Keeps (.knows img p ::ₘ T) o :=
      fun p o ho => ⟨(hrequest o ho).1, (hrequest o ho).2.cons⟩
    -- the image may be read from here on, as long as the object is kept
    have hreads : ∀ p, Reads (.knows img p ::ₘ T) p :=
      fun p => .inr ⟨img, hkind, hkeeps.cons, Multiset.mem_cons_self _ _⟩
    have hforget : ∀ p r T', Gives (.knows img p ::ₘ T) r T' → Gives T r T' := by
      rintro p r T' ⟨K, hK, rfl⟩
      refine ⟨.knows img p ::ₘ K, fun t ht => ?_, by simp [Multiset.add_cons]⟩
      rcases Multiset.mem_cons.mp ht with rfl | ht
      · exact ⟨img, p, rfl⟩
      · exact hK t ht
    refine .step (.readInner hkind hkeeps) fun inner => ?_
    refine (requestField_safe .loopAnimation true (hreq inner)).seq fun loopAnimation => ?_
    refine (requestField_safe .scale none (hreq inner)).seq fun scale => ?_
    refine .step (.read hkind hkeeps.cons) fun rerender => ?_
    refine (rerenderFrame_safe (hreads inner) rerender scale).bind fun result T' hT' => ?_
    cases result with
    | some r => exact hforget inner r T' hT'
    | none =>
      obtain rfl := hT'
      exact (cachedFrame_safe hkind hkeeps.cons (hreads inner) loopAnimation _).mono (hforget inner)

theorem unrefAll_safe (os : List Obj) : Safe Spec (Leaves T) (unrefAll os) (taken os + T) := by
  induction os with
  | nil => exact Multiset.zero_add T
  | cons o os ih =>
    rw [taken_cons, Multiset.cons_add]
    exact unrefObject_safe.seq fun _ => ih

theorem destroyResult_safe (r : Result) :
    Safe Spec (Leaves T) (destroyResult r) (r.tokens + T) := by
  cases r with
  | object o =>
    show Safe Spec _ (unrefObject o) ({.ref o} + T)
    rw [Multiset.singleton_add]
    exact unrefObject_safe
  | null e => exact Multiset.zero_add T
  | void => exact Multiset.zero_add T

theorem tokens_returnHandle (r : Result) : (returnHandle r).tokens = r.tokens := by
  unfold returnHandle
  split <;> rfl

/-- A task gives back all it has taken, whether its result is picked up or not. -/
theorem runTask_safe {worker : Code Result} {os : List Obj}
    (h : Safe Spec (Gives (taken os)) worker (taken os)) :
    Safe Spec (fun _ T' => Facts T') (runTask worker os) (taken os) := by
  refine h.bind fun r T' hT' => ?_
  obtain ⟨K, hK, rfl⟩ := hT'
  rw [← tokens_returnHandle r]
  generalize returnHandle r = result
  rw [show K + (result.tokens + taken os) = result.tokens + (taken os + K) by
    rw [add_comm, add_assoc]]
  refine .step (.propagate result _) fun propagated => ?_
  cases propagated with
  | true =>
    show Safe Spec _ _ (taken os + K)
    refine (unrefAll_safe os).seq fun _ => ?_
    exact hK
  | false =>
    show Safe Spec _ _ (result.tokens + (taken os + K))
    rw [← add_assoc, add_comm result.tokens, add_assoc]
    refine (unrefAll_safe os).seq fun _ => ?_
    exact (destroyResult_safe result).seq fun _ => hK

end

/-! ## Calls -/

theorem keeps_lent {os : List Obj} {T : Tokens} {o : Obj} (h : o ∈ os) : Keeps (lent os + T) o :=
  .inr (Multiset.mem_add.mpr (.inl (Multiset.mem_coe.mpr (List.mem_map_of_mem h))))

theorem keeps_taken {os : List Obj} {T : Tokens} {o : Obj} (h : o ∈ os) :
    Keeps (T + taken os) o :=
  .inl (Multiset.mem_add.mpr (.inr (Multiset.mem_coe.mpr (List.mem_map_of_mem h))))

/-- A blocking call whose code adds its result to what it was lent. -/
theorem post_of_gives {c : Call} {r : Result} {T : Tokens} (hretains : c.retains = [])
    (hreturns : r.tokens = (c.returns r).elim 0 fun o => {.ref o})
    (h : Gives (lent c.borrows + taken c.retains) r T) : c.Post r T := by
  obtain ⟨K, hK, rfl⟩ := h
  refine ⟨K, hK, ?_⟩
  rw [hretains, hreturns, taken_nil, add_zero, add_comm (lent c.borrows)]

/-- A task that gives back what it has taken. -/
theorem post_of_facts {c : Call} {r : Result} {T : Tokens} (hborrows : c.borrows = [])
    (hreturns : c.returns r = none) (h : Facts T) : c.Post r T :=
  ⟨T, h, by rw [hborrows, hreturns]; exact (add_zero T).symm⟩

/-- The body of a call that may start runs to its end within the specifications. -/
theorem body_safe {w w' : World} {c : Call} (hstart : w.Starts c w') :
    Safe Spec c.Post c.body c.brings := by
  obtain ⟨htyped, -⟩ := hstart
  cases c with
  | newLoader bytes =>
    refine (newLoaderFromBytes_safe bytes).bind fun a T' hT' => ?_
    exact post_of_gives rfl (by cases a <;> rfl) hT'
  | newRequest =>
    have h := attachState_safe (T := lent [] + taken []) (.request .new)
    rw [show (State.request .new).tokens = 0 from rfl, zero_add] at h
    refine h.bind fun a T' hT' => ?_
    exact post_of_gives rfl (by cases a <;> rfl) hT'
  | set o s =>
    refine .step (.write htyped (keeps_lent (List.mem_singleton_self o))) fun _ => ?_
    exact post_of_gives rfl rfl (.of_eq (zero_add _).symm)
  | load loader =>
    refine (glyLoaderLoad_safe fun o ho => ?_).mono fun r T' hT' => ?_
    · exact ⟨htyped o ho, keeps_lent (Option.mem_toList.mpr ho)⟩
    exact post_of_gives rfl (by cases r <;> rfl) hT'
  | loadAsync loader =>
    rw [show (Call.loadAsync loader).brings = taken loader.toList from zero_add _]
    refine (runTask_safe (glyLoaderLoad_safe fun o ho => ⟨htyped o ho, ?_⟩)).mono
      fun r T' hT' => post_of_facts rfl rfl hT'
    simpa using keeps_taken (T := 0) (Option.mem_toList.mpr ho)
  | specificFrame image request =>
    refine (glyImageGetSpecificFrame_safe (fun o ho => ⟨htyped.1 o ho, keeps_lent ?_⟩)
      fun o ho => ⟨htyped.2 o ho, keeps_lent ?_⟩).mono fun r T' hT' => ?_
    · exact List.mem_append_left _ (Option.mem_toList.mpr ho)
    · exact List.mem_append_right _ (Option.mem_toList.mpr ho)
    · exact post_of_gives rfl (by cases r <;> rfl) hT'
  | specificFrameAsync image request =>
    rw [show (Call.specificFrameAsync image request).brings =
      taken (image.toList ++ request.toList) from zero_add _]
    refine (runTask_safe (glyImageGetSpecificFrame_safe (fun o ho => ⟨htyped.1 o ho, ?_⟩)
      fun o ho => ⟨htyped.2 o ho, ?_⟩)).mono fun r T' hT' => post_of_facts rfl rfl hT'
    · simpa using keeps_taken (T := 0) (List.mem_append_left _ (Option.mem_toList.mpr ho))
    · simpa using keeps_taken (T := 0) (List.mem_append_right _ (Option.mem_toList.mpr ho))
  | unref o =>
    refine (unrefObject_safe (T := 0)).seq fun _ => ?_
    exact ⟨0, Facts.zero, rfl⟩

/-- The threads of the shim own their resources. -/
def discipline : Discipline shim Tokens where
  Owns := Owns
  Spec := Spec
  brings := Call.brings
  Post := Call.Post
  spec_keeps hspec h hexec := h.exec hspec hexec
  starts_keeps hstart h := h.starts hstart
  ends_keeps hend hpost h := h.ends hpost hend
  acts_keeps hact h := h.acts hact
  body_safe := body_safe

/-! ## Runs -/

section
variable {s : Process}

/-- The threads and the world are in balance. -/
theorem exists_owns (h : Reachable s) : ∃ T, Owns s.world T := by
  obtain ⟨held, -, -, howns⟩ := discipline.holds Owns.start h
  exact ⟨_, howns⟩

/-- No thread is about to use a handle that has been released, or an object that is gone. -/
theorem no_fault (h : Reachable s) {t : Thread Call Op Op.Ans Result} (ht : t ∈ s.threads)
    (hrun : t.returned = false) {op : Op} {k : op.Ans → Code Result} (hnext : t.rest = .op op k) :
    ¬ s.world.Fault op := by
  obtain ⟨T, T', F, hspec, howns⟩ := discipline.next_spec Owns.start h ht hrun hnext
  exact Owns.not_fault howns hspec

/-- When no call is under way, a handle that has not been released is that of an object
some user still owns. -/
theorem owned_of_live (h : Reachable s) (hidle : s.Idle) {x : Handle}
    (hlive : s.world.handles x = some []) :
    ∃ o, 0 < s.world.owned o ∧ (s.world.objects o).handle = some x := by
  have howns : Owns s.world 0 := discipline.owns_zero Owns.start h hidle
  rcases howns.custody.in_custody x hlive with hpos | ⟨o, ho⟩
  · simp at hpos
  · refine ⟨o, ?_, ho⟩
    have hrefs := howns.refs o
    cases hslot : s.world.objects o with
    | live n st =>
      have hpos := (howns.typed o n st hslot).2
      simp only [hslot, Slot.refs, Multiset.count_zero] at hrefs
      omega
    | fresh => simp [hslot, Slot.handle] at ho
    | gone => simp [hslot, Slot.handle] at ho

/-- At most one call has ended a handle, and no image is given to a load. -/
theorem releases_ok (h : Reachable s) {x : Handle} {rs : List Release}
    (hx : s.world.handles x = some rs) : ReleasesOk x rs := by
  obtain ⟨T, howns⟩ := exists_owns h
  exact howns.releases x rs hx

theorem ReleasesOk.eq_singleton {x : Handle} {rs : List Release} (h : ReleasesOk x rs)
    (hne : rs ≠ []) : ∃ r, rs = [r] := by
  cases x with
  | loader p => exact List.length_eq_one_iff.mp (Nat.le_antisymm h (List.length_pos_iff.mpr hne))
  | image p => exact h.elim (absurd · hne) fun h => ⟨.free, h⟩

/-- In every run of any number of calls on any number of threads: no handle is used after
it has been released, and no object after its last reference is dropped; no handle is
released twice; once no call is under way and the users own no more objects, every loader
has been given to exactly one of `glycin_ng_loader_load` and `glycin_ng_loader_free`, and
every image to `glycin_ng_image_free`; and at most one load of each loader reaches the
engine, while the others answer that it is already consumed. -/
theorem handles_released_once (h : Reachable s) :
    (∀ t ∈ s.threads, t.returned = false → ∀ op k, t.rest = .op op k → ¬ s.world.Fault op) ∧
    (∀ x rs, s.world.handles x = some rs → ReleasesOk x rs) ∧
    (s.Idle → ∀ x, s.world.handles x = some [] →
      ∃ o, 0 < s.world.owned o ∧ (s.world.objects o).handle = some x) ∧
    (s.Idle → (∀ o, s.world.owned o = 0) →
      ∀ x rs, s.world.handles x = some rs → ∃ r, rs = [r]) ∧
    ∀ o, s.threads.Pairwise (fun t u => ¬ (InEngine o t ∧ InEngine o u)) ∧
      ∀ t ∈ s.threads, t.call.LoadOf o → ∀ r ∈ t.rest.value,
        (r = alreadyConsumed ↔ ¬ t.Did ReachesEngine) := by
  refine ⟨fun t ht hrun op k hnext => no_fault h ht hrun hnext, fun x rs hx => releases_ok h hx,
    fun hidle x hlive => owned_of_live h hidle hlive, fun hidle hnone x rs hx => ?_,
    fun o => load_once h o⟩
  refine (releases_ok h hx).eq_singleton fun hnil => ?_
  obtain ⟨o, hpos, -⟩ := owned_of_live h hidle (hnil ▸ hx)
  rw [hnone o] at hpos
  exact absurd hpos (Nat.lt_irrefl 0)

end

/-! ## Two runs -/

/-- A loader is made, and one user owns it. -/
theorem exists_loader : ∃ (w : World) (o : Obj) (t : Thread Call Op Op.Ans Result)
    (s : LoaderState), Reachable ⟨w, [t]⟩ ∧ o.kind = .loader ∧
      w.objects o = .live 1 (.loader s) ∧ s.inner = some 0 ∧ w.owned o = 1 := by
  let o : Obj := ⟨.loader, 0⟩
  let st : LoaderState := .new 0 (some [])
  let w₁ : World := { World.start with calls := fun _ => 0 }
  let w₂ := w₁.addLoader 0 (CApi.loaderNewBytes [])
  let w₃ := w₂.setObject o (.live 1 (.loader st))
  let w₄ := w₃.setOwned o 1
  have hstart : World.start.Starts (.newLoader []) w₁ :=
    ⟨trivial, by simp [Call.borrows, Call.retains], rfl⟩
  have hnew : shim.Exec w₁ (.loaderNewBytes []) (some 0) w₂ := ⟨rfl, rfl⟩
  have hattach : shim.Exec w₂ (.attach (.loader st)) (some o) w₃ := ⟨rfl, rfl, rfl⟩
  have hend : w₃.Ends (.newLoader []) (.object o) w₄ := rfl
  have h₁ : Reachable ⟨w₁, _⟩ := .tail .refl (.start [] hstart)
  have h₂ : Reachable ⟨w₂, _⟩ := h₁.tail (.op [] [] hnew)
  have h₃ : Reachable ⟨w₃, _⟩ := h₂.tail (.op [] [] hattach)
  have h₄ : Reachable ⟨w₄, _⟩ := h₃.tail (.return [] [] hend)
  exact ⟨w₄, o, _, st, h₄, rfl, rfl, rfl, rfl⟩

/-- No object can be made for a loader, and the call returns NULL. -/
theorem exists_noObject : ∃ s : Process, Reachable s ∧ s.Idle ∧
    (∀ o, s.world.owned o = 0) ∧ s.world.handles (.loader 0) ≠ none := by
  let st : LoaderState := .new 0 (some [])
  let w₁ : World := { World.start with calls := fun _ => 0 }
  let w₂ := w₁.addLoader 0 (CApi.loaderNewBytes [])
  let w₃ := w₂.release (.loader 0) .free
  have hstart : World.start.Starts (.newLoader []) w₁ :=
    ⟨trivial, by simp [Call.borrows, Call.retains], rfl⟩
  have hnew : shim.Exec w₁ (.loaderNewBytes []) (some 0) w₂ := ⟨rfl, rfl⟩
  have hattach : shim.Exec w₂ (.attach (.loader st)) none w₂ := rfl
  have hfree : shim.Exec w₂ (.loaderFree 0) () w₃ := rfl
  have hend : w₃.Ends (.newLoader []) (.null none) w₃ := rfl
  have h₁ : Reachable ⟨w₁, _⟩ := .tail .refl (.start [] hstart)
  have h₂ : Reachable ⟨w₂, _⟩ := h₁.tail (.op [] [] hnew)
  have h₃ : Reachable ⟨w₂, _⟩ := h₂.tail (.op [] [] hattach)
  have h₄ : Reachable ⟨w₃, _⟩ := h₃.tail (.op [] [] hfree)
  have h₅ : Reachable ⟨w₃, _⟩ := h₄.tail (.return [] [] hend)
  refine ⟨_, h₅, fun t ht => ?_, fun _ => rfl, nofun⟩
  obtain rfl := List.mem_singleton.mp ht
  rfl

/-- Two threads load the same loader, and the second comes too late; where no object can be
made for a loader, it is freed. -/
theorem handles_released_once_race :
    (∃ (s : Process) (o : Obj), Reachable s ∧
      (∃ t ∈ s.threads, t.Did (Takes o) ∧
        (∃ k, t.rest = .op (.read o .applyTransformations) k) ∧
        ¬ s.world.Fault (.read o .applyTransformations)) ∧
      ∃ u ∈ s.threads, u.call.LoadOf o ∧ u.rest.value = some alreadyConsumed ∧
        ¬ u.Did ReachesEngine) ∧
    ∃ s : Process, Reachable s ∧ s.Idle ∧ ∃ r, s.world.handles (.loader 0) = some [r] := by
  constructor
  · obtain ⟨w, o, t, s, h₀, hkind, hslot, hinner, howned⟩ := exists_loader
    let w₁ : World := { w with calls := fun x => w.calls x + [o].count x }
    let w₂ : World := { w₁ with calls := fun x => w₁.calls x + [o].count x }
    let w₃ := w₂.setObject o (.live 1 (.loader { s with inner := none }))
    let w₄ := w₃.setObject o (.live 1 (.loader { s with inner := none }))
    have htyped : (Call.load (some o)).WellTyped := by simpa [Call.WellTyped] using hkind
    have hpos : ∀ x ∈ (Call.load (some o)).borrows ++ (Call.load (some o)).retains,
        0 < w.owned x := by
      simp [Call.borrows, Call.retains, howned]
    have hslot₃ : w₃.objects o = .live 1 (.loader { s with inner := none }) := by
      simp [w₃, World.setObject]
    have hA : w.Starts (.load (some o)) w₁ := ⟨htyped, hpos, rfl⟩
    have hB : w₁.Starts (.load (some o)) w₂ := ⟨htyped, hpos, rfl⟩
    have htake : shim.Exec w₂ (.takeInner o) (some 0) w₃ := ⟨1, s, hslot, hinner.symm, rfl⟩
    have hnone : shim.Exec w₃ (.takeInner o) none w₄ := ⟨1, _, hslot₃, rfl, rfl⟩
    have h₁ : Reachable ⟨w₁, _⟩ := h₀.tail (.start [t] hA)
    have h₂ : Reachable ⟨w₂, _⟩ := h₁.tail (.start _ hB)
    have h₃ : Reachable ⟨w₃, _⟩ := h₂.tail (.op [t] [_] htake)
    have h₄ : Reachable ⟨w₄, _⟩ := h₃.tail (.op [t, _] [] hnone)
    obtain ⟨hfault, -, -, -, hloads⟩ := handles_released_once h₄
    have hmem := fun (a b c : Thread Call Op Op.Ans Result) =>
      (List.mem_cons_of_mem a (List.mem_cons_self (a := b) (l := [c])))
    have hlast := fun (a b c : Thread Call Op Op.Ans Result) =>
      List.mem_cons_of_mem a (List.mem_cons_of_mem b (List.mem_singleton_self c))
    refine ⟨_, o, h₄, ⟨_, hmem _ _ _, ?_, ⟨_, rfl⟩, ?_⟩, _, hlast _ _ _, rfl, rfl, ?_⟩
    · exact ⟨_, List.mem_singleton_self _, 0, rfl⟩
    · exact hfault _ (hmem _ _ _) rfl _ _ rfl
    · exact ((hloads o).2 _ (hlast _ _ _) rfl _ rfl).mp rfl
  · obtain ⟨s, hreach, hidle, howned, hne⟩ := exists_noObject
    obtain ⟨rs, hrs⟩ := Option.ne_none_iff_exists'.mp hne
    obtain ⟨-, -, -, honce, -⟩ := handles_released_once hreach
    obtain ⟨r, rfl⟩ := honce hidle howned _ rs hrs
    exact ⟨s, hreach, hidle, r, hrs⟩

end GlycinNg.Shim.Threads
