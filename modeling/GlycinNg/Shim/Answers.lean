import GlycinNg.Shim.Chronicle

/-! # What the answers tell

What every operation of the shim tells the thread that performs it (`Tells`), and what the code
makes of it, function by function: a load and a frame call come to their end with the answer that
the model of `State` and `Frames` gives, a frame call at its place in the chronicle of its
image. -/
namespace GlycinNg.Shim.Threads
open Rust CApi Concurrent

/-! ## What an answer tells -/

/-- The thread has read this of the request. -/
def Saw (h : List (Event Op Op.Ans)) : Option Obj → Option FrameRequest → Prop
  | none, request => request = none
  | some r, request => ∃ loopAnimation scale, ⟨.read r .loopAnimation, loopAnimation⟩ ∈ h ∧
      ⟨.read r .scale, scale⟩ ∈ h ∧ request = some ⟨scale, loopAnimation⟩

theorem Saw.mono {h h' : List (Event Op Op.Ans)} {req : Option Obj}
    {request : Option FrameRequest} (hsaw : Saw h req request) (hh : h <+: h') :
    Saw h' req request := by
  cases req with
  | none => exact hsaw
  | some r =>
    obtain ⟨loopAnimation, scale, hloop, hscale, heq⟩ := hsaw
    exact ⟨loopAnimation, scale, hh.subset hloop, hh.subset hscale, heq⟩

theorem Saw.snoc {h : List (Event Op Op.Ans)} {req : Option Obj}
    {request : Option FrameRequest} (hsaw : Saw h req request) (ev : Event Op Op.Ans) :
    Saw (h ++ [ev]) req request :=
  hsaw.mono (List.prefix_append h [ev])

/-- Operations that need no knowledge and bring none. -/
def Op.Quiet : Op → Prop
  | .loaderFree _ | .imageFree _ | .attach (.frame _) | .attach (.request _) => True
  | .unref _ | .read _ _ | .write _ _ | .propagate _ => True
  | _ => False

/-- What a load of the engine tells about the image. -/
def Loads (l : Loader) (k : Knowns) : Except String Addr → Knowns → Prop
  | .error message, k' => (∃ host, loaderLoad host l = .ok (.error message)) ∧ k' = k
  | .ok q, k' => ∃ host i, loaderLoad host l = .ok (.ok i) ∧ k' = .image q i ::ₘ k

/-- What taking the inner loader of an object tells about it. -/
def TakesKnown (o : Obj) (k : Knowns) : Option Addr → Knowns → Prop
  | none, k' => k' = k
  | some p, k' => ∃ bytes, k' = .loader p (loaderNewBytes bytes) ::ₘ .source o bytes ::ₘ k

/-- What each operation needs a thread to know that has done `h` and knows `k`, and what it knows
after the answer. A frame call is served when it moves the cursor, or when it frees the image it
has drawn anew. -/
inductive Tells (h : List (Event Op Op.Ans)) : (o : Op) → Knowns → (o.Ans → Knowns → Prop) → Prop
  | quiet {o} (ho : o.Quiet) (k) : Tells h o k fun _ k' => k' = k
  | loaderNewBytes (bytes k) : Tells h (.loaderNewBytes bytes) k
      fun a k' => k' = a.elim k fun p => .loader p (loaderNewBytes bytes) ::ₘ k
  | loaderSet (p s l k) : Tells h (.loaderSet p s) (.loader p l ::ₘ k)
      fun _ k' => k' = .loader p (s.apply l) ::ₘ k
  | loaderLoad (p l k) : Tells h (.loaderLoad p) (.loader p l ::ₘ k) (Loads l k)
  | imageRead {p q i k} (hi : .image p i ∈ k) :
      Tells h (.imageRead p q) k fun a k' => a = q.ask i ∧ k' = k
  | attachLoader (p bytes k) : Tells h (.attach (.loader (.new p (some bytes))))
      (.loader p (loaderNewBytes bytes) ::ₘ k) fun _ k' => k' = k
  | attachImage {p bytes start k} (hi : .image p start.inner ∈ k) (hl : LoadedFrom bytes start) :
      Tells h (.attach (.image (.new p start.frameCount start.rerender))) k
        fun a k' => k' = a.elim k fun o => .view o bytes start ::ₘ k
  | takeInner (o k) : Tells h (.takeInner o) k (TakesKnown o k)
  | readSource {o bytes k} (hs : .source o bytes ∈ k) :
      Tells h (.read o .sourceBytes) k fun a k' => a = some bytes ∧ k' = k
  | readLimits {o bytes k} (hs : .source o bytes ∈ k) :
      Tells h (.read o .limits) k fun a k' => a = .default ∧ k' = k
  | readInner (o k) : Tells h (.read o .inner) k
      fun p k' => ∃ bytes start, k' = .image p start.inner ::ₘ .view o bytes start ::ₘ k
  | readRerender {o bytes start k} (hv : .view o bytes start ∈ k) :
      Tells h (.read o .rerender) k fun a k' => a = start.rerender ∧ k' = k
  | advance {o l bytes start req k host request} (hv : .view o bytes start ∈ k)
      (hsaw : Saw h req request) (hcached : ∀ img, Alike img start →
        img.specificFrame host request = img.cachedFrame l) :
      Tells h (.advance o l) (.turn o req ::ₘ k) fun next k' => ∃ n answer,
        start.answerAt next = .ok answer ∧ k' = .served o n ⟨⟨host, request⟩, answer⟩ ::ₘ k
  | redrawn {o p bytes start req k host request answer} (hv : .view o bytes start ∈ k)
      (hsaw : Saw h req request) (hdrawn : ∀ img, Alike img start →
        img.specificFrame host request = .ok (img, answer)) :
      Tells h (.imageFree p) (.turn o req ::ₘ k) fun _ k' =>
        ∃ n, k' = .served o n ⟨⟨host, request⟩, answer⟩ ::ₘ k

/-! ## Every operation keeps what is known -/

theorem World.setObject_self (w : World) (o : Obj) : w.setObject o (w.objects o) = w := by
  unfold World.setObject
  rw [Function.update_eq_self]

theorem Slot.Source.exists_loader {bytes : Bytes} {n : Nat} {st : State}
    (h : (Slot.live n st).Source bytes) :
    ∃ s, st = .loader s ∧ s.limits = .default ∧ s.sourceBytes = some bytes := by
  cases st with
  | loader s => exact ⟨s, rfl, h⟩
  | image s => exact h.elim
  | frame s => exact h.elim
  | request s => exact h.elim

namespace ImageState
variable {images : Addr → Option Image} {s : ImageState} {img : Shim.ImageState}

theorem Shows.advance_fst (h : s.Shows images img) (loopAnimation : Bool) :
    (s.advance loopAnimation).1 = (img.advance loopAnimation).1 := by
  obtain ⟨-, hcursor, hcount, -⟩ := h
  unfold ImageState.advance Shim.ImageState.advance
  rw [hcursor, hcount]
  split_ifs <;> rfl

theorem Shows.advance (h : s.Shows images img) (loopAnimation : Bool) :
    (s.advance loopAnimation).2.Shows images (img.advance loopAnimation).2 := by
  obtain ⟨himage, hcursor, hcount, hrerender⟩ := h
  unfold ImageState.advance Shim.ImageState.advance
  rw [hcursor, hcount]
  split_ifs
  · exact ⟨himage, hcursor, hcount, hrerender⟩
  · exact ⟨himage, rfl, rfl, hrerender⟩
  · exact ⟨himage, hcursor, hcount, hrerender⟩
  · exact ⟨himage, rfl, rfl, hrerender⟩

end ImageState

theorem Alike.answerAt_eq {img img' : Shim.ImageState} (h : Alike img img') (next : Option Nat) :
    img.answerAt next = img'.answerAt next := by
  obtain ⟨hinner, hrerender, -⟩ := h
  cases next with
  | none => rfl
  | some idx =>
    unfold Shim.ImageState.answerAt Shim.ImageState.accepted
    rw [hinner, hrerender]

section
variable {g : Annals} {w w' : World} {k e : Knowns} {h : List (Event Op Op.Ans)}

theorem Right.quiet (hr : Right g w k) {op : Op} {a : op.Ans} (hquiet : op.Quiet)
    (hexec : w.Exec op a w') : Right g w' k := by
  cases op with
  | loaderFree p =>
    obtain rfl := hexec
    exact hr.release _ _
  | imageFree p =>
    obtain rfl := hexec
    exact hr.release _ _
  | attach st =>
    cases a with
    | none =>
      obtain rfl := hexec
      exact hr
    | some o =>
      obtain ⟨-, hfresh, rfl⟩ := hexec
      have hsource : ∀ bytes, (w.objects o).Source bytes → (Slot.live 1 st).Source bytes := by
        intro bytes hb
        rw [hfresh] at hb
        exact hb.elim
      cases st with
      | frame s => exact hr.setSlot hsource nofun fun _ => trivial
      | request s => exact hr.setSlot hsource nofun fun _ => trivial
      | loader s => exact hquiet.elim
      | image s => exact hquiet.elim
  | unref o =>
    cases a with
    | some st =>
      obtain ⟨-, rfl⟩ := hexec
      exact hr.setSlot (fun _ _ => trivial) nofun fun _ => trivial
    | none =>
      obtain ⟨n, st, hslot, rfl⟩ := hexec
      refine hr.setSlot (fun bytes hb => ?_) (fun p hp => ?_) fun hagrees => ?_
      · rw [hslot] at hb
        cases st <;> exact hb
      · rw [hslot]
        exact hp
      · rw [hslot] at hagrees
        cases st <;> exact hagrees
  | read o f =>
    obtain ⟨-, rfl⟩ := hexec
    exact hr
  | write o s =>
    obtain ⟨n, st, hslot, rfl⟩ := hexec
    refine hr.setSlot (fun bytes hb => ?_) (fun p hp => ?_) fun hagrees => ?_
    · rw [hslot] at hb
      cases s <;> cases st <;> exact hb
    · rw [hslot]
      exact (Setting.handle_write s st).symm.trans hp
    · rw [hslot] at hagrees
      cases s <;> cases st <;> exact hagrees
  | propagate r =>
    cases r with
    | object o =>
      cases a with
      | true =>
        obtain rfl := hexec
        exact hr.world rfl (fun _ _ hl => .inl hl) (fun _ _ hi => hi) hr.loaders_made hr.images_made
      | false =>
        obtain rfl := hexec
        exact hr
    | null error => cases a <;> obtain rfl := hexec <;> exact hr
    | void => cases a <;> obtain rfl := hexec <;> exact hr
  | loaderNewBytes bytes => exact hquiet.elim
  | loaderSet p s => exact hquiet.elim
  | loaderLoad p => exact hquiet.elim
  | imageRead p q => exact hquiet.elim
  | takeInner o => exact hquiet.elim
  | advance o l => exact hquiet.elim
  | abort => exact hquiet.elim

/-- What a thread knows with an answer is so. -/
theorem Tells.keeps {op : Op} {Q : op.Ans → Knowns → Prop} {a : op.Ans} (howns : ∃ T, Owns w T)
    (htells : Tells h op k Q) (hr : Right g w (k + e)) (hexec : w.Exec op a w') :
    ∃ g' k', g ≤ g' ∧ Q a k' ∧ Right g' w' (k' + e) := by
  cases htells with
  | quiet hquiet k => exact ⟨g, k, le_refl g, rfl, hr.quiet hquiet hexec⟩
  | loaderNewBytes bytes k =>
    cases a with
    | none =>
      obtain rfl := hexec
      exact ⟨g, k, le_refl g, rfl, hr⟩
    | some p =>
      obtain ⟨hnew, rfl⟩ := hexec
      refine ⟨g, _, le_refl g, rfl, ?_⟩
      rw [Option.elim_some, Multiset.cons_add]
      exact hr.newLoader hnew
  | loaderSet p s l k =>
    obtain rfl := hexec
    rw [Multiset.cons_add] at hr
    refine ⟨g, _, le_refl g, rfl, ?_⟩
    rw [Multiset.cons_add]
    exact hr.configure s
  | loaderLoad p l k =>
    rw [Multiset.cons_add] at hr
    have hl : w.loaders p = some l := hr.known _ (Multiset.mem_cons_self _ _)
    have hrest := (hr.forget fun _ _ => rfl).release (.loader p) .load
    cases a with
    | error message =>
      obtain ⟨⟨host, loader, hloader, hload⟩, rfl⟩ := hexec
      obtain rfl := Option.some.inj (hl.symm.trans hloader)
      exact ⟨g, k, le_refl g, ⟨⟨host, hload⟩, rfl⟩, hrest⟩
    | ok q =>
      obtain ⟨host, loader, image, hloader, hload, hnew, rfl⟩ := hexec
      obtain rfl := Option.some.inj (hl.symm.trans hloader)
      refine ⟨g, _, le_refl g, ⟨host, image, hload, rfl⟩, ?_⟩
      rw [Multiset.cons_add]
      exact hrest.newImage (by simpa [World.release] using hnew)
  | @imageRead p q i k hi =>
    obtain ⟨⟨image, himage, rfl⟩, rfl⟩ := hexec
    have himage' : w'.images p = some i := hr.known _ (Multiset.mem_add.mpr (.inl hi))
    obtain rfl := Option.some.inj (himage.symm.trans himage')
    exact ⟨g, k, le_refl g, ⟨rfl, rfl⟩, hr⟩
  | attachLoader p bytes k =>
    rw [Multiset.cons_add] at hr
    cases a with
    | none =>
      obtain rfl := hexec
      exact ⟨g, k, le_refl g, rfl, hr.forget fun _ _ => rfl⟩
    | some o =>
      obtain ⟨-, hfresh, rfl⟩ := hexec
      exact ⟨g, k, le_refl g, rfl, hr.attachLoader hfresh⟩
  | @attachImage p bytes start k hi hl =>
    cases a with
    | none =>
      obtain rfl := hexec
      exact ⟨g, k, le_refl g, rfl, hr⟩
    | some o =>
      obtain ⟨-, hfresh, rfl⟩ := hexec
      obtain ⟨g', hle, hr'⟩ := hr.attachImage (Multiset.mem_add.mpr (.inl hi)) hl hfresh
      refine ⟨g', _, hle, rfl, ?_⟩
      rw [Option.elim_some, Multiset.cons_add]
      exact hr'
  | takeInner o k =>
    obtain ⟨n, s, hslot, rfl, rfl⟩ := hexec
    cases hinner : s.inner with
    | none => exact ⟨g, k, le_refl g, rfl, hr.emptied hslot⟩
    | some p =>
      obtain ⟨bytes, hr'⟩ := hr.takeInner howns hslot hinner
      refine ⟨g, _, le_refl g, ⟨bytes, rfl⟩, ?_⟩
      rw [Multiset.cons_add, Multiset.cons_add]
      exact hr'
  | @readSource o bytes k hs =>
    obtain ⟨⟨n, st, hslot, hread⟩, rfl⟩ := hexec
    have hsource : (w'.objects o).Source bytes := hr.known _ (Multiset.mem_add.mpr (.inl hs))
    rw [hslot] at hsource
    obtain ⟨s, rfl, -, hbytes⟩ := hsource.exists_loader
    exact ⟨g, k, le_refl g, ⟨(Option.some.inj hread).symm.trans hbytes, rfl⟩, hr⟩
  | @readLimits o bytes k hs =>
    obtain ⟨⟨n, st, hslot, hread⟩, rfl⟩ := hexec
    have hsource : (w'.objects o).Source bytes := hr.known _ (Multiset.mem_add.mpr (.inl hs))
    rw [hslot] at hsource
    obtain ⟨s, rfl, hlimits, -⟩ := hsource.exists_loader
    exact ⟨g, k, le_refl g, ⟨(Option.some.inj hread).symm.trans hlimits, rfl⟩, hr⟩
  | readInner o k =>
    obtain ⟨⟨n, st, hslot, hread⟩, rfl⟩ := hexec
    have hagrees := hr.agrees o
    rw [hslot] at hagrees
    cases st with
    | image s =>
      obtain ⟨c, hc, himage, -⟩ := hagrees
      obtain rfl : s.inner = a := Option.some.inj hread
      rw [c.alike.1] at himage
      refine ⟨g, _, le_refl g, ⟨c.bytes, c.start, rfl⟩, ?_⟩
      rw [Multiset.cons_add, Multiset.cons_add]
      have hview := hr.learn (x := .view o c.bytes c.start) ⟨c, hc, rfl, rfl⟩ (fun _ => rfl)
        fun _ _ => rfl
      exact hview.learn himage (fun _ => rfl) fun _ _ => rfl
    | loader s => cases hread
    | frame s => cases hread
    | request s => cases hread
  | @readRerender o bytes start k hv =>
    obtain ⟨⟨n, st, hslot, hread⟩, rfl⟩ := hexec
    obtain ⟨c, hc, -, rfl⟩ := hr.known _ (Multiset.mem_add.mpr (.inl hv))
    have hagrees := hr.agrees o
    rw [hslot] at hagrees
    cases st with
    | image s =>
      obtain ⟨c', hc', -, -, -, hrerender⟩ := hagrees
      obtain rfl := Option.some.inj (hc.symm.trans hc')
      refine ⟨g, k, le_refl g, ⟨?_, rfl⟩, hr⟩
      exact (Option.some.inj hread).symm.trans (hrerender.trans c.alike.2.1)
    | loader s => cases hread
    | frame s => cases hread
    | request s => cases hread
  | @advance o l bytes start req k host request hv hsaw hcached =>
    obtain ⟨n, s, hslot, rfl, rfl⟩ := hexec
    have hmem : .view o bytes start ∈ .turn o req ::ₘ k + e :=
      Multiset.mem_add.mpr (.inl (Multiset.mem_cons_of_mem hv))
    obtain ⟨c, hc, -, rfl⟩ := hr.known _ hmem
    have hagrees := hr.agrees o
    rw [hslot] at hagrees
    obtain ⟨c', hc', hshows⟩ := hagrees
    obtain rfl := Option.some.inj (hc.symm.trans hc')
    obtain ⟨answer, hanswer⟩ := c.start.exists_answerAt (s.advance l).1
    have hcall : c.now.specificFrame host request = .ok ((c.now.advance l).2, answer) := by
      rw [hcached _ c.alike, ImageState.cachedFrame_eq_answerAt, ← hshows.advance_fst,
        c.alike.answerAt_eq, hanswer]
      rfl
    have hsource : ∀ bytes, (w.objects o).Source bytes →
        (Slot.live n (.image (s.advance l).2)).Source bytes := by
      intro bytes hb
      rw [hslot] at hb
      exact hb.elim
    have hhandle : ∀ p, (Slot.live n (.image (s.advance l).2)).handle = some (.loader p) →
        (w.objects o).handle = some (.loader p) := by
      intro p hp
      cases hp
    rw [Multiset.cons_add] at hr
    obtain ⟨g', m, hle, hr'⟩ := hr.serve hc ⟨⟨host, request⟩, answer⟩ hcall hsource hhandle
      ⟨_, rfl, hshows.advance l⟩
    refine ⟨g', _, hle, ⟨m, answer, hanswer, rfl⟩, ?_⟩
    rw [Multiset.cons_add]
    exact hr'
  | @redrawn o p bytes start req k host request answer hv hsaw hdrawn =>
    obtain rfl := hexec
    have hmem : .view o bytes start ∈ .turn o req ::ₘ k + e :=
      Multiset.mem_add.mpr (.inl (Multiset.mem_cons_of_mem hv))
    obtain ⟨c, hc, -, rfl⟩ := hr.known _ hmem
    have hagrees := hr.agrees o
    rw [hc] at hagrees
    rw [Multiset.cons_add] at hr
    -- the image has been freed, and its object stays as it is
    obtain ⟨g', m, hle, hr'⟩ := (hr.release (.image p) .free).serve hc
      ⟨⟨host, request⟩, answer⟩ (hdrawn _ c.alike) (fun _ hb => hb) (fun _ hp => hp)
      (hagrees.of_now rfl)
    rw [World.setObject_self] at hr'
    refine ⟨g', _, hle, ⟨m, rfl⟩, ?_⟩
    rw [Multiset.cons_add]
    exact hr'

end

/-! ## The functions of the model -/

/-- The engine may be in no condition to decode anything. -/
theorem exists_refusing : ∃ host, ∀ loader, ∃ message,
    loaderLoad host loader = .ok (.error message) := by
  let host : Host :=
    { Host.plain .failing with kernel := { Sandbox.Kernel.plain with spawnError := some "" } }
  refine ⟨host, fun loader => ?_⟩
  cases hdecoded : loader.decoded host with
  | error e =>
    rw [loaderLoad, Loader.load, hdecoded]
    exact ⟨_, rfl⟩
  | ok answer =>
    obtain ⟨bytes, -, h⟩ := bind_eq_ok.mp hdecoded
    obtain ⟨format, -, h⟩ := bind_eq_ok.mp h
    cases h

section
variable {img start : Shim.ImageState} {host : Host} {request : Option FrameRequest}
  {r : Rerender} {sw sh : UInt32} {newImage : Image}

theorem Alike.rerenderSize_eq (h : Alike img start) (request : Option FrameRequest) :
    img.rerenderSize request = start.rerenderSize request := by
  unfold ImageState.rerenderSize
  rw [h.1, h.2.1]

/-- The call is answered by the cached path, wherever the cursor is. -/
def FallsThrough (start : Shim.ImageState) (host : Host) (request : Option FrameRequest) : Prop :=
  ∀ img, Alike img start → img.specificFrame host request =
    img.cachedFrame ((request.map FrameRequest.loopAnimation).getD true)

theorem fallsThrough_of_size (h : start.rerenderSize request = none) :
    FallsThrough start host request := by
  intro img halike
  rw [ImageState.specificFrame, ImageState.rerendered, halike.rerenderSize_eq, h]
  rfl

theorem fallsThrough_of_error {message : String}
    (h : start.rerenderSize request = some (r, sw, sh))
    (hload : loaderLoad host (r.loader sw sh) = .ok (.error message)) :
    FallsThrough start host request := by
  intro img halike
  rw [ImageState.specificFrame, ImageState.rerendered, halike.rerenderSize_eq, h]
  dsimp only
  rw [hload]
  rfl

theorem Alike.accepted_eq (h : Alike img start) : img.accepted = start.accepted := by
  unfold ImageState.accepted
  rw [h.2.1]

theorem fallsThrough_of_frameless (h : start.rerenderSize request = some (r, sw, sh))
    (hload : loaderLoad host (r.loader sw sh) = .ok (.ok newImage))
    (hraw : Shim.extractFrame newImage 0 start.accepted = .ok none) :
    FallsThrough start host request := by
  intro img halike
  rw [ImageState.specificFrame, ImageState.rerendered, halike.rerenderSize_eq, h]
  dsimp only
  rw [hload, ok_bind]
  simp only [pure_bind, halike.accepted_eq, hraw]
  rfl

/-- The frame is that of a new decode, and the cursor stays where it is. -/
theorem specificFrame_of_redrawn {raw : RawFrame}
    (h : start.rerenderSize request = some (r, sw, sh))
    (hload : loaderLoad host (r.loader sw sh) = .ok (.ok newImage))
    (hraw : Shim.extractFrame newImage 0 start.accepted = .ok (some raw))
    (halike : Alike img start) :
    img.specificFrame host request = .ok (img, .ok ⟨raw, newImage.cicp⟩) := by
  rw [ImageState.specificFrame, ImageState.rerendered, halike.rerenderSize_eq, h]
  dsimp only
  rw [hload, ok_bind]
  simp only [pure_bind, halike.accepted_eq, hraw]
  rfl

end

/-! ## The code, function by function -/

section
variable {h : List (Event Op Op.Ans)} {k : Knowns} {p : Addr} {o : Obj}

/-- The program leaves the thread as wise as it was. -/
abbrev Unmoved {α : Type} (k : Knowns) (_ : List (Event Op Op.Ans)) (_ : α) (k' : Knowns) : Prop :=
  k' = k

theorem quiet_informed {op : Op} (hquiet : op.Quiet) :
    Informed Tells (Unmoved k) (perform op) h k :=
  .last (.quiet hquiet k) fun _ _ hk => hk

theorem dropState_informed (st : State) : Informed Tells (Unmoved k) (dropState st) h k := by
  cases st with
  | loader s =>
    simp only [dropState]
    cases s.inner with
    | none => rfl
    | some p => exact quiet_informed trivial
  | image s => exact quiet_informed trivial
  | frame s => rfl
  | request s => rfl

/-- The object is the one in the history, or there is none. -/
theorem attachState_informed {st : State} {Q : Option Obj → Knowns → Prop}
    (hspec : Tells h (.attach st) k Q) :
    Informed Tells (fun h' a k' => Q a k' ∧ ⟨.attach st, a⟩ ∈ h') (attachState st) h k := by
  refine .step hspec fun a k' hQ => ?_
  have hmem : ∀ h', h ++ [(⟨.attach st, a⟩ : Event Op Op.Ans)] <+: h' → ⟨.attach st, a⟩ ∈ h' :=
    fun h' hh' => hh'.subset (List.mem_append_right h (List.mem_singleton_self _))
  cases a with
  | some obj => exact ⟨hQ, hmem _ (List.prefix_refl _)⟩
  | none =>
    refine (dropState_informed st).bind fun h' _ k'' hh' hk => ?_
    obtain rfl := hk
    exact ⟨hQ, hmem h' hh'⟩

theorem unrefObject_informed : Informed Tells (Unmoved k) (unrefObject o) h k := by
  refine .step (.quiet (o := .unref o) trivial k) fun a k' hk => ?_
  obtain rfl := hk
  cases a with
  | some st => exact dropState_informed st
  | none => rfl

theorem unrefAll_informed (os : List Obj) : Informed Tells (Unmoved k) (unrefAll os) h k := by
  induction os generalizing h with
  | nil => rfl
  | cons o os ih =>
    refine unrefObject_informed.bind fun h' _ k' _ hk => ?_
    obtain rfl := hk
    exact ih

theorem destroyResult_informed (r : Result) :
    Informed Tells (Unmoved k) (destroyResult r) h k := by
  cases r with
  | object o => exact unrefObject_informed
  | null e => rfl
  | void => rfl

/-- What a task knows at its end is what its worker has found out. -/
theorem runTask_informed {worker : Code Result} {taken : List Obj}
    {Post : List (Event Op Op.Ans) → Result → Knowns → Prop}
    (hworker : Informed Tells Post worker h k) :
    Informed Tells (fun h' r k' => ∃ h₀ r₀, h₀ <+: h' ∧ Post h₀ r₀ k' ∧ r = returnHandle r₀)
      (runTask worker taken) h k := by
  refine hworker.bind fun h₀ r₀ k₀ _ hPost => ?_
  refine .step (.quiet (o := .propagate _) trivial k₀) fun propagated k₁ hk => ?_
  obtain rfl := hk
  have hle := List.prefix_append h₀ [(⟨.propagate (returnHandle r₀), propagated⟩ : Event Op Op.Ans)]
  refine (unrefAll_informed taken).bind fun h₁ _ k₂ hh₁ hk => ?_
  obtain rfl := hk
  cases propagated with
  | true => exact ⟨h₀, r₀, hle.trans hh₁, hPost, rfl⟩
  | false =>
    refine (destroyResult_informed (returnHandle r₀)).bind fun h₂ _ k₃ hh₂ hk => ?_
    obtain rfl := hk
    exact ⟨h₀, r₀, (hle.trans hh₁).trans hh₂, hPost, rfl⟩

/-! ### Loaders -/

theorem setSome_informed (l : Loader) (v : Option LoaderSetting) :
    Informed Tells (Unmoved (.loader p (v.elim l fun s => s.apply l) ::ₘ k)) (setSome p v) h
      (.loader p l ::ₘ k) := by
  cases v with
  | none => rfl
  | some s => exact .last (.loaderSet p s l k) fun _ _ hk => hk

/-- The limits go onto the loader one by one. -/
theorem applyLimits_informed (limits : LoaderLimits) (l : Loader) :
    Informed Tells (Unmoved (.loader p (limits.apply l) ::ₘ k)) (applyLimits limits p) h
      (.loader p l ::ₘ k) := by
  obtain ⟨maxWidth, maxHeight, maxPixels, maxFrames, maxAnimationSeconds, decodeMemoryMib,
    decodeCpuSeconds⟩ := limits
  unfold applyLimits
  refine (setSome_informed l _).bind fun _ _ _ _ hk => hk ▸ ?_
  refine (setSome_informed _ _).bind fun _ _ _ _ hk => hk ▸ ?_
  refine (setSome_informed _ _).bind fun _ _ _ _ hk => hk ▸ ?_
  refine (setSome_informed _ _).bind fun _ _ _ _ hk => hk ▸ ?_
  refine (setSome_informed _ _).bind fun _ _ _ _ hk => hk ▸ ?_
  refine (setSome_informed _ _).bind fun _ _ _ _ hk => hk ▸ ?_
  refine (setSome_informed _ _).mono fun _ _ _ _ hk => hk.trans ?_
  simp only [LoaderLimits.apply, Option.elim_map]
  rfl

/-- A loader from `bytes`, with what has been set on it. -/
def configured (bytes : Bytes) (apply : Bool) (accepted : UInt32) : Shim.LoaderState :=
  ((Shim.LoaderState.newFromBytes bytes).setApplyTransformations apply).setAcceptedMemoryFormats
    accepted

/-- The call hands the answer of a load to its caller; an image goes into an object as in `Views`,
if one can be made. -/
def HandsImage (Views : Obj → Shim.ImageState → Prop) (h : List (Event Op Op.Ans)) :
    Except GError Shim.ImageState → Result → Prop
  | .error e, r => r = .null (some e)
  | .ok img, r => ∃ st a, ⟨.attach (.image st), a⟩ ∈ h ∧ r = .ofPtr a ∧ ∀ x ∈ a, Views x img

/-- A load of `o` that reaches the engine gives what the model's does, with the source of `o`
and as `o` was configured when the call has read it. -/
def LoadAnswered (Source : Bytes → Prop) (Views : Obj → Bytes → Shim.ImageState → Prop) (o : Obj)
    (h : List (Event Op Op.Ans)) (r : Result) : Prop :=
  r = alreadyConsumed ∨ ∃ bytes apply accepted host s answer, Source bytes ∧
    ⟨.read o .applyTransformations, apply⟩ ∈ h ∧ ⟨.read o .acceptedMemoryFormats, accepted⟩ ∈ h ∧
    (configured bytes apply accepted).load host = .ok (s, answer) ∧
    HandsImage (Views · bytes) h answer r

/-- So does the thread know. -/
abbrev LoadKnown (o : Obj) (h : List (Event Op Op.Ans)) (r : Result) (k : Knowns) : Prop :=
  LoadAnswered (fun bytes => .source o bytes ∈ k) (fun x bytes img => .view x bytes img ∈ k) o h r

theorem attachImage_informed {bytes : Bytes} {apply : Bool} {accepted : UInt32} {host : Host}
    {s : Shim.LoaderState} {i : Image} (hsource : .source o bytes ∈ k) (hi : .image p i ∈ k)
    (hload : (configured bytes apply accepted).load host =
      .ok (s, .ok (.new (configured bytes apply accepted) i))) :
    Informed Tells (fun h' r k' => .source o bytes ∈ k' ∧
        HandsImage (fun x img => .view x bytes img ∈ k') h'
          (.ok (.new (configured bytes apply accepted) i)) r)
      (attachImage o p .default apply accepted) h k := by
  have hfrom : LoadedFrom bytes (.new (configured bytes apply accepted) i) := by
    refine ⟨_, s, host, ?_, hload⟩
    exact (Loading.new.setApplyTransformations apply).setAcceptedMemoryFormats accepted
  unfold attachImage
  refine .step (.imageRead hi) fun frameCount k' hk => ?_
  obtain ⟨rfl, rfl⟩ := hk
  refine .step (.imageRead hi) fun formatName k' hk => ?_
  obtain ⟨rfl, rfl⟩ := hk
  refine .step (.readSource hsource) fun sourceBytes k' hk => ?_
  obtain ⟨rfl, rfl⟩ := hk
  refine (attachState_informed (.attachImage hi hfrom)).bind fun h' a k' _ hk => ?_
  obtain ⟨rfl, hmem⟩ := hk
  cases a with
  | none => exact ⟨hsource, _, none, hmem, rfl, nofun⟩
  | some x =>
    refine ⟨Multiset.mem_cons_of_mem hsource, _, some x, hmem, rfl, fun y hy => ?_⟩
    cases hy
    exact Multiset.mem_cons_self _ _

theorem loadInner_informed {bytes : Bytes} (hsource : .source o bytes ∈ k) :
    Informed Tells (LoadKnown o) (loadInner o p) h (.loader p (loaderNewBytes bytes) ::ₘ k) := by
  unfold loadInner
  refine .step (.quiet (o := .read o .applyTransformations) trivial _) fun apply k' hk => ?_
  obtain rfl := hk
  refine .step (.readLimits (Multiset.mem_cons_of_mem hsource)) fun limits k' hk => ?_
  obtain ⟨rfl, rfl⟩ := hk
  refine .step (.quiet (o := .read o .acceptedMemoryFormats) trivial _) fun accepted k' hk => ?_
  obtain rfl := hk
  refine .step (.loaderSet p _ _ k) fun _ k' hk => ?_
  obtain rfl := hk
  refine (applyLimits_informed .default _).bind fun h₁ _ k' hh₁ hk => ?_
  obtain rfl := hk
  -- what has been read of the object stays in the history
  have hread : ∀ h', h₁ <+: h' → ⟨.read o .applyTransformations, apply⟩ ∈ h' ∧
      ⟨.read o .acceptedMemoryFormats, accepted⟩ ∈ h' := by
    intro h' hh'
    have hle := hh₁.trans hh'
    exact ⟨hle.subset (by simp), hle.subset (by simp)⟩
  refine .step (.loaderLoad p _ k) fun answer k' hk => ?_
  have hsnoc := List.prefix_append h₁ [(⟨.loaderLoad p, answer⟩ : Event Op Op.Ans)]
  cases answer with
  | error message =>
    obtain ⟨⟨host, hload⟩, rfl⟩ := hk
    obtain ⟨happly, haccepted⟩ := hread _ hsnoc
    refine .inr ⟨bytes, apply, accepted, host,
      { configured bytes apply accepted with inner := none },
      .error (.new 0 ("gly_loader_load: " ++ message)), hsource, happly, haccepted, ?_, rfl⟩
    rw [Shim.LoaderState.load]
    exact bind_eq_ok.mpr ⟨_, hload, rfl⟩
  | ok image =>
    obtain ⟨host, i, hload, rfl⟩ := hk
    have hmodel : (configured bytes apply accepted).load host =
        .ok ({ configured bytes apply accepted with inner := none },
          .ok (.new (configured bytes apply accepted) i)) := by
      rw [Shim.LoaderState.load]
      exact bind_eq_ok.mpr ⟨_, hload, rfl⟩
    refine (attachImage_informed (Multiset.mem_cons_of_mem hsource) (Multiset.mem_cons_self _ _)
      hmodel).mono fun h' r k' hh' hpost => ?_
    obtain ⟨hsource', hhands⟩ := hpost
    obtain ⟨happly, haccepted⟩ := hread h' (hsnoc.trans hh')
    exact .inr ⟨bytes, apply, accepted, host, _, _, hsource', happly, haccepted, hmodel, hhands⟩

theorem glyLoaderLoad_informed :
    Informed Tells (LoadKnown o) (glyLoaderLoad (some o)) h k := by
  refine .step (.takeInner o k) fun inner k' hk => ?_
  cases inner with
  | none => exact .inl rfl
  | some p =>
    obtain ⟨bytes, rfl⟩ := hk
    exact loadInner_informed (Multiset.mem_cons_self _ _)

/-! ### Frames -/

theorem extractFrame_informed {i : Image} (hi : .image p i ∈ k) (index : Nat) (accepted : UInt32) :
    Informed Tells (fun _ raw k' => Shim.extractFrame i index accepted = .ok raw ∧ k' = k)
      (extractFrame p index accepted) h k := by
  unfold extractFrame
  refine .step (.imageRead hi) fun present k' hk => ?_
  obtain ⟨rfl, rfl⟩ := hk
  cases htexture : imageTexture i index with
  | none =>
    have hraw : rawFrame i index = none := by rw [rawFrame, htexture]; rfl
    simp only [ImageQuery.ask, htexture]
    exact ⟨extractFrame_none hraw accepted, rfl⟩
  | some texture =>
    simp only [ImageQuery.ask, htexture]
    refine .step (.imageRead hi) fun width k' hk => ?_
    obtain ⟨rfl, rfl⟩ := hk
    refine .step (.imageRead hi) fun height k' hk => ?_
    obtain ⟨rfl, rfl⟩ := hk
    refine .step (.imageRead hi) fun stride k' hk => ?_
    obtain ⟨rfl, rfl⟩ := hk
    refine .step (.imageRead hi) fun format k' hk => ?_
    obtain ⟨rfl, rfl⟩ := hk
    refine .step (.imageRead hi) fun data k' hk => ?_
    obtain ⟨rfl, rfl⟩ := hk
    refine .step (.imageRead hi) fun delayMs k' hk => ?_
    obtain ⟨rfl, rfl⟩ := hk
    simp only [ImageQuery.ask, htexture, Option.elim_some]
    -- the conversion does not panic
    have hraw : rawFrame i index = some ⟨texture.width, texture.height, texture.stride,
        CApi.textureFormat texture, texture.data, imageFrameDelayMs i index⟩ := by
      rw [rawFrame, htexture]
      rfl
    obtain ⟨out, hout⟩ := maybeConvert_returns ⟨texture.width, texture.height, texture.stride,
      CApi.textureFormat texture, texture.data, imageFrameDelayMs i index⟩ accepted
    rw [hout]
    refine ⟨?_, rfl⟩
    rw [extractFrame_some hraw, hout]
    rfl

theorem differs_informed {i : Image} (hi : .image p i ∈ k) (sw sh : UInt32) :
    Informed Tells (fun _ b k' => (b = true ↔ sw > 0 ∧ sh > 0 ∧ (sw ≠ i.width ∨ sh ≠ i.height)) ∧
      k' = k) (differs p sw sh) h k := by
  unfold differs
  split
  · rename_i hsize
    refine .step (.imageRead hi) fun width k' hk => ?_
    obtain ⟨rfl, rfl⟩ := hk
    split
    · rename_i hwidth
      exact ⟨iff_of_true rfl ⟨hsize.1, hsize.2, .inl hwidth⟩, rfl⟩
    · rename_i hwidth
      refine .step (.imageRead hi) fun height k' hk => ?_
      obtain ⟨rfl, rfl⟩ := hk
      refine ⟨?_, rfl⟩
      rw [decide_eq_true_iff]
      exact ⟨fun hheight => ⟨hsize.1, hsize.2, .inr hheight⟩,
        fun hall => hall.2.2.resolve_left hwidth⟩
  · rename_i hsize
    exact ⟨iff_of_false (by simp) fun hall => hsize ⟨hall.1, hall.2.1⟩, rfl⟩

/-- The call hands its answer to its caller; a frame goes into an object, if one can be made. -/
def Hands (h : List (Event Op Op.Ans)) : Except GError FrameState → Result → Prop
  | .error e, r => r = .null (some e)
  | .ok f, r => ∃ a, ⟨.attach (.frame f), a⟩ ∈ h ∧ r = .ofPtr a

/-- The call has been served, and hands that answer to its caller. -/
def Answered (o : Obj) (h : List (Event Op Op.Ans)) (r : Result) (k : Knowns) : Prop :=
  ∃ n e, .served o n e ∈ k ∧ Hands h e.answer r

theorem attachFrame_informed (f : FrameState) :
    Informed Tells (fun h' a k' => k' = k ∧ ⟨.attach (.frame f), a⟩ ∈ h')
      (attachState (.frame f)) h k :=
  attachState_informed (.quiet (o := .attach (.frame f)) trivial k)

/-- The new decode answers for the call, or leaves it to the cached path. -/
def Redrawn (o : Obj) (req : Option Obj) (start : Shim.ImageState) (request : Option FrameRequest)
    (k : Knowns) (h : List (Event Op Op.Ans)) : Option Result → Knowns → Prop
  | some r, k' => Answered o h r k'
  | none, k' => ∃ k₁ host, k ≤ k₁ ∧ k' = .turn o req ::ₘ k₁ ∧ FallsThrough start host request

theorem frameOfNew_informed {bytes : Bytes} {start : Shim.ImageState} {req : Option Obj}
    {host : Host} {request : Option FrameRequest} {r : Rerender} {sw sh : UInt32} {i : Image}
    (hi : .image p i ∈ k) (hv : .view o bytes start ∈ k) (hsaw : Saw h req request)
    (hsize : start.rerenderSize request = some (r, sw, sh))
    (hload : loaderLoad host (r.loader sw sh) = .ok (.ok i)) :
    Informed Tells (Redrawn o req start request k) (frameOfNew p start.accepted) h
      (.turn o req ::ₘ k) := by
  unfold frameOfNew
  refine (extractFrame_informed (Multiset.mem_cons_of_mem hi) 0 _).bind fun h₁ raw k' hh₁ hk => ?_
  obtain ⟨hraw, rfl⟩ := hk
  cases raw with
  | none =>
    refine .step (.quiet (o := .imageFree p) trivial _) fun _ k' hk => ?_
    exact ⟨k, host, le_refl k, hk, fallsThrough_of_frameless hsize hload hraw⟩
  | some raw =>
    refine .step (.imageRead (Multiset.mem_cons_of_mem hi)) fun cicp k' hk => ?_
    obtain ⟨rfl, rfl⟩ := hk
    refine .step (.redrawn (p := p) hv ((hsaw.mono hh₁).snoc _) fun img halike =>
      specificFrame_of_redrawn hsize hload hraw halike) fun _ k' hk => ?_
    obtain ⟨n, rfl⟩ := hk
    refine (attachFrame_informed ⟨raw, i.cicp⟩).bind fun h₂ a k' _ hk => ?_
    obtain ⟨rfl, hmem⟩ := hk
    exact ⟨n, _, Multiset.mem_cons_self _ _, a, hmem, rfl⟩

section
variable {bytes : Bytes} {start : Shim.ImageState} {req : Option Obj}
  {request : Option FrameRequest}

theorem rerenderFrame_informed (hi : .image p start.inner ∈ k) (hv : .view o bytes start ∈ k)
    (hsaw : Saw h req request) :
    Informed Tells (Redrawn o req start request k)
      (rerenderFrame p start.rerender (request.bind FrameRequest.scale)) h (.turn o req ::ₘ k) := by
  obtain ⟨refusing, hrefusing⟩ := exists_refusing
  have hthrough : start.rerenderSize request = none → ∀ h,
      Redrawn o req start request k h none (.turn o req ::ₘ k) :=
    fun hsize _ => ⟨k, refusing, le_refl k, rfl, fallsThrough_of_size hsize⟩
  cases hrerender : start.rerender with
  | none => exact hthrough (by rw [ImageState.rerenderSize, hrerender]) h
  | some r =>
    cases hscale : request.bind FrameRequest.scale with
    | none => exact hthrough (by rw [ImageState.rerenderSize, hrerender, hscale]) h
    | some size =>
      obtain ⟨sw, sh⟩ := size
      refine (differs_informed (Multiset.mem_cons_of_mem hi) sw sh).bind fun h₁ b k' hh₁ hk => ?_
      obtain ⟨hb, rfl⟩ := hk
      have hsize : start.rerenderSize request = if b then some (r, sw, sh) else none := by
        rw [ImageState.rerenderSize, hrerender, hscale]
        exact if_congr hb.symm rfl rfl
      cases b with
      | false => exact hthrough hsize h₁
      | true =>
        rw [if_pos rfl] at hsize
        refine .step (.loaderNewBytes r.sourceBytes _) fun newLoader k' hk => ?_
        obtain rfl := hk
        cases newLoader with
        | none =>
          obtain ⟨message, hload⟩ := hrefusing (r.loader sw sh)
          exact ⟨k, refusing, le_refl k, rfl, fallsThrough_of_error hsize hload⟩
        | some q =>
          refine .step (.loaderSet q _ _ _) fun _ k' hk => ?_
          obtain rfl := hk
          refine .step (.loaderSet q _ _ _) fun _ k' hk => ?_
          obtain rfl := hk
          refine (applyLimits_informed r.limits _).bind fun h₂ _ k' hh₂ hk => ?_
          obtain rfl := hk
          refine .step (.loaderLoad q _ _) fun answer k' hk => ?_
          cases answer with
          | error message =>
            obtain ⟨⟨host, hload⟩, rfl⟩ := hk
            exact ⟨k, host, le_refl k, rfl, fallsThrough_of_error hsize hload⟩
          | ok newImage =>
            obtain ⟨host, i, hload, rfl⟩ := hk
            have haccepted : r.acceptedMemoryFormats = start.accepted := by
              rw [ImageState.accepted, hrerender]
              rfl
            rw [haccepted]
            have hsaw₂ := ((((hsaw.mono hh₁).snoc _).snoc _).snoc _).mono hh₂
            rw [Multiset.cons_swap]
            refine (frameOfNew_informed (Multiset.mem_cons_self _ _) (Multiset.mem_cons_of_mem hv)
              (hsaw₂.snoc _) hsize hload).mono fun h₃ result k' _ hk => ?_
            cases result with
            | some r => exact hk
            | none =>
              obtain ⟨k₁, host, hle, hk⟩ := hk
              exact ⟨k₁, host, (Multiset.le_cons_self _ _).trans hle, hk⟩

theorem cachedFrame_informed {host : Host} (hi : .image p start.inner ∈ k)
    (hv : .view o bytes start ∈ k) (hsaw : Saw h req request)
    (hthrough : FallsThrough start host request) :
    Informed Tells (Answered o)
      (cachedFrame o p ((request.map FrameRequest.loopAnimation).getD true) start.accepted) h
      (.turn o req ::ₘ k) := by
  refine .step (.advance hv hsaw hthrough) fun next k' hk => ?_
  obtain ⟨n, answer, hanswer, rfl⟩ := hk
  cases next with
  | none =>
    cases hanswer
    exact ⟨n, _, Multiset.mem_cons_self _ _, rfl⟩
  | some idx =>
    refine (extractFrame_informed (Multiset.mem_cons_of_mem hi) idx _).bind fun h₁ raw k' _ hk => ?_
    obtain ⟨hraw, rfl⟩ := hk
    rw [Shim.ImageState.answerAt, hraw] at hanswer
    cases raw with
    | none =>
      cases hanswer
      exact ⟨n, _, Multiset.mem_cons_self _ _, rfl⟩
    | some raw =>
      cases hanswer
      refine .step (.imageRead (Multiset.mem_cons_of_mem hi)) fun cicp k' hk => ?_
      obtain ⟨rfl, rfl⟩ := hk
      refine (attachFrame_informed _).bind fun h₂ a k' _ hk => ?_
      obtain ⟨rfl, hmem⟩ := hk
      exact ⟨n, _, Multiset.mem_cons_self _ _, a, hmem, rfl⟩

theorem requestField_informed (f : Field) (default : f.Ans) :
    Informed Tells (fun h' a k' => k' = k ∧ match req with
      | none => a = default
      | some r => ⟨.read r f, a⟩ ∈ h') (requestField req f default) h k := by
  cases req with
  | none => exact ⟨rfl, rfl⟩
  | some r =>
    refine .last (.quiet (o := .read r f) trivial k) fun a k' hk => ⟨hk, ?_⟩
    exact List.mem_append_right h (List.mem_singleton_self _)

/-- A frame call on `o` is served once, and answers what it is served with. -/
theorem glyImageGetSpecificFrame_informed :
    Informed Tells (Answered o) (glyImageGetSpecificFrame (some o) req) h {.turn o req} := by
  refine .step (.readInner o _) fun p k' hk => ?_
  obtain ⟨bytes, start, rfl⟩ := hk
  refine (requestField_informed .loopAnimation true).bind fun h₁ loopAnimation k' _ hk => ?_
  obtain ⟨rfl, hloop⟩ := hk
  refine (requestField_informed .scale none).bind fun h₂ scale k' hh₂ hk => ?_
  obtain ⟨rfl, hscale⟩ := hk
  -- the request, as it has been read
  obtain ⟨request, hsaw, rfl, rfl⟩ : ∃ request, Saw h₂ req request ∧
      loopAnimation = (request.map FrameRequest.loopAnimation).getD true ∧
      scale = request.bind FrameRequest.scale := by
    cases req with
    | none => exact ⟨none, rfl, hloop, hscale⟩
    | some r =>
      exact ⟨some ⟨scale, loopAnimation⟩, ⟨_, _, hh₂.subset hloop, hscale, rfl⟩, rfl, rfl⟩
  have hv : .view o bytes start ∈ (.image p start.inner ::ₘ {.view o bytes start} : Knowns) := by
    simp
  have hk : (.image p start.inner ::ₘ .view o bytes start ::ₘ {.turn o req} : Knowns) =
      .turn o req ::ₘ .image p start.inner ::ₘ {.view o bytes start} :=
    (congrArg (Multiset.cons _) (Multiset.cons_swap _ _ 0)).trans (Multiset.cons_swap _ _ _)
  rw [hk]
  refine .step (.readRerender (Multiset.mem_cons_of_mem hv)) fun rerender k' hk => ?_
  obtain ⟨rfl, rfl⟩ := hk
  refine (rerenderFrame_informed (Multiset.mem_cons_self _ _) hv (hsaw.snoc _)).bind
    fun h₃ result k' hh₃ hk => ?_
  cases result with
  | some r => exact hk
  | none =>
    obtain ⟨k₁, host, hle, rfl, hthrough⟩ := hk
    exact cachedFrame_informed (Multiset.mem_of_le hle (Multiset.mem_cons_self _ _))
      (Multiset.mem_of_le hle hv) ((hsaw.snoc _).mono hh₃) hthrough

end

end

end GlycinNg.Shim.Threads
