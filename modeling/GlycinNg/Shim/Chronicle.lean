import GlycinNg.Concurrent.Knowledge
import GlycinNg.Shim.Client
import GlycinNg.Shim.Released

/-! # The chronicle of an image

Beside an image object on which threads make calls stands a chronicle: the load its state has
come from, and the frame calls it has served in their order, each with the answer the model of
`Frames` gives when they are made one after the other. A thread knows what is behind the handles
it works with, and where in the chronicle its own call stands (`Known`); every operation keeps
this true of the world (`Right`). -/
namespace GlycinNg.Shim
open Rust CApi Concurrent

/-! ## The cached path, apart from the cursor -/

namespace ImageState
variable (img : ImageState)

/-- What the cached path answers once the cursor has moved. -/
def answerAt : Option Nat → Checked (Except GError FrameState)
  | none => return .error (.new 2 "no more frames")
  | some idx => do
    match ← extractFrame img.inner idx img.accepted with
    | none => return .error (.new 0 "frame extraction failed")
    | some raw => return .ok ⟨raw, img.inner.cicp⟩

theorem cachedFrame_eq_answerAt (loopAnimation : Bool) :
    img.cachedFrame loopAnimation = do
      return ((img.advance loopAnimation).2, ← img.answerAt (img.advance loopAnimation).1) := by
  rw [cachedFrame]
  rcases img.advance loopAnimation with ⟨next, img'⟩
  cases next with
  | none => rfl
  | some idx =>
    simp only [answerAt, bind_assoc]
    refine bind_congr fun raw => ?_
    cases raw <;> rfl

theorem exists_extractFrame (image : Image) (index : Nat) (accepted : UInt32) :
    ∃ raw, extractFrame image index accepted = .ok raw := by
  cases hraw : rawFrame image index with
  | none => exact ⟨none, extractFrame_none hraw accepted⟩
  | some raw =>
    obtain ⟨out, hout⟩ := maybeConvert_returns raw accepted
    refine ⟨some out, ?_⟩
    rw [extractFrame_some hraw, hout]
    rfl

theorem exists_answerAt (next : Option Nat) : ∃ answer, img.answerAt next = .ok answer := by
  cases next with
  | none => exact ⟨_, rfl⟩
  | some idx =>
    obtain ⟨raw, hraw⟩ := exists_extractFrame img.inner idx img.accepted
    rw [answerAt, hraw]
    cases raw with
    | none => exact ⟨_, rfl⟩
    | some raw => exact ⟨_, rfl⟩

end ImageState

namespace Threads

/-! ## Chronicles -/

/-- A load of a loader made from `bytes` has given this image state. -/
def LoadedFrom (bytes : Bytes) (img : Shim.ImageState) : Prop :=
  ∃ s s' host, Loading (fun _ => True) bytes s ∧ s.load host = .ok (s', .ok img)

/-- A frame call and its answer. -/
structure Entry where
  call : Shim.Call
  answer : Except GError FrameState

/-- Frame calls made one after the other on an image that has been loaded, and the state they
have left it in. -/
structure Chronicle where
  bytes : Bytes
  start : Shim.ImageState
  loaded : LoadedFrom bytes start
  entries : List Entry
  now : Shim.ImageState
  replays : start.frames (entries.map Entry.call) = .ok (now, entries.map Entry.answer)

/-- The two are states of one image, up to the cursor. -/
def Alike (img img' : Shim.ImageState) : Prop :=
  img.inner = img'.inner ∧ img.rerender = img'.rerender ∧ img.frameCount = img'.frameCount

theorem alike_of_call {img img' : Shim.ImageState} {host : Host} {request : Option FrameRequest}
    {answer : Except GError FrameState} (h : img.specificFrame host request = .ok (img', answer)) :
    Alike img' img := by
  obtain ⟨engine, hengine, -⟩ := ImageState.specificFrame_ok h
  exact ImageState.engineFrame_rerender hengine

namespace Chronicle

/-- No call has been made. -/
def new {bytes : Bytes} {start : Shim.ImageState} (h : LoadedFrom bytes start) : Chronicle :=
  ⟨bytes, start, h, [], start, rfl⟩

/-- One more call has been served. -/
def append (c : Chronicle) (e : Entry) (next : Shim.ImageState)
    (h : c.now.specificFrame e.call.host e.call.request = .ok (next, e.answer)) : Chronicle where
  bytes := c.bytes
  start := c.start
  loaded := c.loaded
  entries := c.entries ++ [e]
  now := next
  replays := by
    rw [List.map_append, List.map_append]
    exact replay_concat c.replays h

/-- The calls have moved the cursor and nothing else. -/
theorem alike (c : Chronicle) : Alike c.now c.start := by
  have hreplays := c.replays
  generalize c.entries.map Entry.call = calls at hreplays
  generalize c.entries.map Entry.answer = answers at hreplays
  generalize c.start = img at hreplays ⊢
  induction calls generalizing img answers with
  | nil =>
    obtain ⟨hnow, -⟩ := replay_nil_eq_ok.mp hreplays
    rw [hnow]
    exact ⟨rfl, rfl, rfl⟩
  | cons call calls ih =>
    obtain ⟨img', answer, rest, hcall, hrest, -⟩ := replay_cons_eq_ok.mp hreplays
    obtain ⟨hinner, hrerender, hcount⟩ := ih rest img' hrest
    obtain ⟨hinner', hrerender', hcount'⟩ := alike_of_call hcall
    exact ⟨hinner.trans hinner', hrerender.trans hrerender', hcount.trans hcount'⟩

/-- The chronicle goes on as this one. -/
structure Continues (c c' : Chronicle) : Prop where
  bytes_eq : c'.bytes = c.bytes
  start_eq : c'.start = c.start
  entries_le : c.entries <+: c'.entries

theorem Continues.refl (c : Chronicle) : Continues c c := ⟨rfl, rfl, List.prefix_refl _⟩

theorem Continues.trans {c c' c'' : Chronicle} (h : Continues c c') (h' : Continues c' c'') :
    Continues c c'' :=
  ⟨h'.bytes_eq.trans h.bytes_eq, h'.start_eq.trans h.start_eq, h.entries_le.trans h'.entries_le⟩

end Chronicle

/-- The chronicles of all images. -/
structure Annals where
  of : Obj → Option Chronicle

namespace Annals

instance : Preorder Annals where
  le g g' := ∀ o c, g.of o = some c → ∃ c', g'.of o = some c' ∧ c.Continues c'
  le_refl g o c h := ⟨c, h, .refl c⟩
  le_trans g g' g'' h h' o c hc := by
    obtain ⟨c', hc', hle⟩ := h o c hc
    obtain ⟨c'', hc'', hle'⟩ := h' o c' hc'
    exact ⟨c'', hc'', hle.trans hle'⟩

/-- No image has been loaded. -/
def start : Annals := ⟨fun _ => none⟩

def entries (g : Annals) (o : Obj) : List Entry := (g.of o).elim [] Chronicle.entries

/-- The chronicle of one image is begun, or goes on. -/
def put (g : Annals) (o : Obj) (c : Chronicle) : Annals :=
  ⟨Function.update g.of o (some c)⟩

theorem put_of (g : Annals) (o : Obj) (c : Chronicle) : (g.put o c).of o = some c :=
  Function.update_self ..

theorem put_of_ne (g : Annals) {o x : Obj} (c : Chronicle) (h : x ≠ o) :
    (g.put o c).of x = g.of x :=
  Function.update_of_ne h ..

theorem le_put {g : Annals} {o : Obj} {c : Chronicle}
    (h : ∀ old, g.of o = some old → old.Continues c) : g ≤ g.put o c := by
  intro x old hold
  by_cases hx : x = o
  · subst hx
    exact ⟨c, g.put_of x c, h old hold⟩
  · exact ⟨old, (g.put_of_ne c hx).trans hold, .refl old⟩

end Annals

/-! ## What a thread knows -/

/-- One thing a thread may know: the loader behind a handle of its own, the image behind a
handle, the source of a loader object, what an image object was loaded as, that its own call is
to be served, and that it has been, as the `n`-th of its image. -/
inductive Known where
  | loader (p : Addr) (l : Loader)
  | image (p : Addr) (i : Image)
  | source (o : Obj) (bytes : Bytes)
  | view (o : Obj) (bytes : Bytes) (start : Shim.ImageState)
  | turn (o : Obj) (request : Option Obj)
  | served (o : Obj) (n : Nat) (e : Entry)

/-- The source of the loader object, unless it has been finalized. -/
def Slot.Source (bytes : Bytes) : Slot → Prop
  | .live _ (.loader s) => s.limits = .default ∧ s.sourceBytes = some bytes
  | .gone => True
  | _ => False

namespace Known

/-- It is so. -/
def Holds (g : Annals) (w : World) : Known → Prop
  | .loader p l => w.loaders p = some l
  | .image p i => w.images p = some i
  | .source o bytes => (w.objects o).Source bytes
  | .view o bytes start => ∃ c, g.of o = some c ∧ c.bytes = bytes ∧ c.start = start
  | .turn _ _ => True
  | .served o n e => ∃ c, g.of o = some c ∧ c.entries[n]? = some e

/-- It is about the loader at `p`. -/
def isLoader (p : Addr) : Known → Bool
  | .loader q _ => q == p
  | _ => false

/-- It is about the `n`-th call of `o`. -/
def isServed (o : Obj) (n : Nat) : Known → Bool
  | .served x m _ => x == o && m == n
  | _ => false

/-- It is about the thread's own call. -/
def isOwn : Known → Bool
  | .turn _ _ => true
  | .served _ _ _ => true
  | _ => false

section
variable (p : Addr) (o : Obj)

@[simp] theorem isOwn_loader (l : Loader) : (loader p l).isOwn = false := rfl

@[simp] theorem isOwn_image (i : Image) : (image p i).isOwn = false := rfl

@[simp] theorem isOwn_source (bytes : Bytes) : (source o bytes).isOwn = false := rfl

@[simp] theorem isOwn_view (bytes : Bytes) (start : Shim.ImageState) :
    (view o bytes start).isOwn = false := rfl

@[simp] theorem isOwn_turn (request : Option Obj) : (turn o request).isOwn = true := rfl

@[simp] theorem isOwn_served (n : Nat) (e : Entry) : (served o n e).isOwn = true := rfl

end

end Known

abbrev Knowns := Multiset Known

/-! ## What is true of the world -/

/-- The state of the object is that of the model, with the image at the address. -/
def ImageState.Shows (images : Addr → Option Image) (s : ImageState) (img : Shim.ImageState) :
    Prop :=
  images s.inner = some img.inner ∧ s.cursor = img.cursor ∧ s.frameCount = img.frameCount ∧
    s.rerender = img.rerender

/-- The object is as its chronicle says; a loader object that has its loader has it as new. -/
def Slot.Agrees (loaders : Addr → Option Loader) (images : Addr → Option Image)
    (c : Option Chronicle) : Slot → Prop
  | .fresh => c = none
  | .live _ (.loader s) => s.limits = .default ∧ ∃ bytes, s.sourceBytes = some bytes ∧
      ∀ p, s.inner = some p → loaders p = some (loaderNewBytes bytes)
  | .live _ (.image s) => ∃ c', c = some c' ∧ s.Shows images c'.now
  | _ => True

/-- The threads know `k` between them, and it is so. -/
structure Right (g : Annals) (w : World) (k : Knowns) : Prop where
  loaders_made : ∀ p, w.loaders p ≠ none → w.handles (.loader p) ≠ none
  images_made : ∀ p, w.images p ≠ none → w.handles (.image p) ≠ none
  known : ∀ x ∈ k, x.Holds g w
  loader_once : ∀ p, k.countP (fun x => x.isLoader p) ≤ 1
  loader_loose : ∀ o p, (w.objects o).handle = some (.loader p) →
    k.countP (fun x => x.isLoader p) = 0
  served_once : ∀ o n, k.countP (fun x => x.isServed o n) =
    if n < (g.entries o).length then 1 else 0
  agrees : ∀ o, (w.objects o).Agrees w.loaders w.images (g.of o)

theorem Right.start : Right .start .start 0 where
  loaders_made _ h := absurd rfl h
  images_made _ h := absurd rfl h
  known _ h := absurd h (Multiset.notMem_zero _)
  loader_once _ := Nat.zero_le 1
  loader_loose _ _ _ := rfl
  served_once _ _ := rfl
  agrees _ := rfl

section
variable {loaders loaders' : Addr → Option Loader} {images images' : Addr → Option Image}
  {slot : Slot} {c : Option Chronicle}

/-- A loader object that has its loader knows where it is. -/
theorem Slot.Agrees.loader_ne_none (h : slot.Agrees loaders images c) {p : Addr}
    (hp : slot.handle = some (.loader p)) : loaders p ≠ none := by
  cases slot with
  | fresh => cases hp
  | gone => cases hp
  | live n st =>
    cases st with
    | loader s =>
      obtain ⟨-, bytes, -, hinner⟩ := h
      have hs : s.inner = some p := by simpa [Slot.handle, State.handle] using hp
      rw [hinner p hs]
      exact Option.some_ne_none _
    | image s => cases hp
    | frame s => cases hp
    | request s => cases hp

/-- More images, and other loaders, but not the one the object has. -/
theorem Slot.Agrees.keep (h : slot.Agrees loaders images c)
    (hloaders : ∀ p l, slot.handle = some (.loader p) → loaders p = some l → loaders' p = some l)
    (himages : ∀ p i, images p = some i → images' p = some i) :
    slot.Agrees loaders' images' c := by
  cases slot with
  | fresh => exact h
  | gone => trivial
  | live n st =>
    cases st with
    | loader s =>
      obtain ⟨hlimits, bytes, hbytes, hinner⟩ := h
      refine ⟨hlimits, bytes, hbytes, fun p hp => hloaders p _ ?_ (hinner p hp)⟩
      simp [Slot.handle, State.handle, hp]
    | image s =>
      obtain ⟨c', hc, himage, hrest⟩ := h
      exact ⟨c', hc, himages _ _ himage, hrest⟩
    | frame s => trivial
    | request s => trivial

/-- Another chronicle that has come to the same state. -/
theorem Slot.Agrees.of_now {c c' : Chronicle} (h : slot.Agrees loaders images (some c))
    (hnow : c'.now = c.now) : slot.Agrees loaders images (some c') := by
  cases slot with
  | fresh => cases h
  | gone => trivial
  | live n st =>
    cases st with
    | loader s => exact h
    | image s =>
      obtain ⟨c₀, hc, hshows⟩ := h
      obtain rfl := Option.some.inj hc
      exact ⟨c', rfl, hnow ▸ hshows⟩
    | frame s => trivial
    | request s => trivial

end

/-- What is known stays so while the record goes on: images stay, and a source is that of its
object; a loader must be left alone. -/
theorem Known.Holds.keep {g g' : Annals} {w w' : World} {x : Known} (h : x.Holds g w)
    (hg : g ≤ g')
    (hloaders : ∀ p l, x = .loader p l → w.loaders p = some l → w'.loaders p = some l)
    (himages : ∀ p i, w.images p = some i → w'.images p = some i)
    (hsources : ∀ o bytes, (w.objects o).Source bytes → (w'.objects o).Source bytes) :
    x.Holds g' w' := by
  cases x with
  | loader p l => exact hloaders p l rfl h
  | image p i => exact himages p i h
  | source o bytes => exact hsources o bytes h
  | view o bytes start =>
    obtain ⟨c, hc, hbytes, hstart⟩ := h
    obtain ⟨c', hc', hle⟩ := hg o c hc
    exact ⟨c', hc', hle.bytes_eq.trans hbytes, hle.start_eq.trans hstart⟩
  | turn o request => trivial
  | served o n e =>
    obtain ⟨c, hc, he⟩ := h
    obtain ⟨c', hc', hle⟩ := hg o c hc
    obtain ⟨more, hmore⟩ := hle.entries_le
    refine ⟨c', hc', ?_⟩
    obtain ⟨hn, -⟩ := List.getElem?_eq_some_iff.mp he
    rw [← hmore, List.getElem?_append_left hn]
    exact he

/-! ## What the changes of the world do -/

namespace Right
variable {g : Annals} {w w' : World} {k k' : Knowns} {o : Obj} {x : Known} {p q : Addr}
  {l : Loader} {req : Option Obj}

/-- Nobody has the loader at `p`. -/
def Free (w : World) (k : Knowns) (p : Addr) : Prop :=
  k.countP (fun x => x.isLoader p) = 0 ∧ ∀ o, (w.objects o).handle ≠ some (.loader p)

/-- What is behind the handles changes, the objects stay as they are. -/
theorem world (h : Right g w k) (hobjects : w'.objects = w.objects)
    (hloaders : ∀ p l, w.loaders p = some l → w'.loaders p = some l ∨ Free w k p)
    (himages : ∀ p i, w.images p = some i → w'.images p = some i)
    (hloadersMade : ∀ p, w'.loaders p ≠ none → w'.handles (.loader p) ≠ none)
    (himagesMade : ∀ p, w'.images p ≠ none → w'.handles (.image p) ≠ none) : Right g w' k where
  loaders_made := hloadersMade
  images_made := himagesMade
  known x hx := by
    refine (h.known x hx).keep (le_refl g) (fun p l heq hl => ?_) himages ?_
    · refine (hloaders p l hl).resolve_right fun hfree => ?_
      refine absurd ?_ (Multiset.countP_eq_zero.mp hfree.1 x hx)
      simp [heq, Known.isLoader]
    · rw [hobjects]
      exact fun _ _ hs => hs
  loader_once := h.loader_once
  loader_loose := by
    rw [hobjects]
    exact h.loader_loose
  served_once := h.served_once
  agrees y := by
    rw [hobjects]
    refine (h.agrees y).keep (fun p l hp hl => ?_) himages
    exact (hloaders p l hl).resolve_right fun hfree => hfree.2 y hp

/-- A handle is released. -/
theorem release (h : Right g w k) (y : Handle) (r : Release) : Right g (w.release y r) k := by
  have hmade : ∀ z, w.handles z ≠ none → (w.release y r).handles z ≠ none := by
    intro z hz
    simp only [World.release, Function.update_apply]
    split
    · rename_i heq
      subst heq
      simpa using hz
    · exact hz
  exact h.world rfl (fun _ _ hl => .inl hl) (fun _ _ hi => hi)
    (fun p hp => hmade _ (h.loaders_made p hp)) fun p hp => hmade _ (h.images_made p hp)

/-- One thing more is known, and not of a loader or of a call that has been served. -/
theorem learn (h : Right g w k) (htrue : x.Holds g w) (hloader : ∀ p, x.isLoader p = false)
    (hserved : ∀ o n, x.isServed o n = false) : Right g w (x ::ₘ k) where
  loaders_made := h.loaders_made
  images_made := h.images_made
  known y hy := by
    rcases Multiset.mem_cons.mp hy with rfl | hy
    · exact htrue
    · exact h.known y hy
  loader_once p := by simpa [Multiset.countP_cons, hloader] using h.loader_once p
  loader_loose y p hp := by simpa [Multiset.countP_cons, hloader] using h.loader_loose y p hp
  served_once y n := by simpa [Multiset.countP_cons, hserved] using h.served_once y n
  agrees := h.agrees

/-- What is not of a call that has been served may be forgotten. -/
theorem forget (h : Right g w (x ::ₘ k)) (hserved : ∀ o n, x.isServed o n = false) :
    Right g w k where
  loaders_made := h.loaders_made
  images_made := h.images_made
  known y hy := h.known y (Multiset.mem_cons_of_mem hy)
  loader_once p := (Multiset.countP_le_of_le _ (Multiset.le_cons_self k x)).trans (h.loader_once p)
  loader_loose y p hp := Nat.le_zero.mp
    ((Multiset.countP_le_of_le _ (Multiset.le_cons_self k x)).trans (h.loader_loose y p hp).le)
  served_once y n := by simpa [Multiset.countP_cons, hserved] using h.served_once y n
  agrees := h.agrees

/-- A loader nobody has comes to one thread. -/
theorem gain (h : Right g w k) (hl : w.loaders p = some l)
    (hfree : Free w k p) : Right g w (.loader p l ::ₘ k) where
  loaders_made := h.loaders_made
  images_made := h.images_made
  known y hy := by
    rcases Multiset.mem_cons.mp hy with rfl | hy
    · exact hl
    · exact h.known y hy
  loader_once q := by
    rw [Multiset.countP_cons]
    by_cases hq : p = q
    · subst hq
      rw [hfree.1]
      split <;> omega
    · rw [if_neg (by simpa [Known.isLoader] using hq)]
      exact h.loader_once q
  loader_loose y q hy := by
    have hq : p ≠ q := by
      rintro rfl
      exact hfree.2 y hy
    rw [Multiset.countP_cons_of_neg _ (by simpa [Known.isLoader] using hq)]
    exact h.loader_loose y q hy
  served_once y n := by
    rw [Multiset.countP_cons_of_neg _ (by simp [Known.isServed])]
    exact h.served_once y n
  agrees := h.agrees

/-- The loader a thread has is nobody else's. -/
theorem free (h : Right g w (.loader p l ::ₘ k)) : Free w k p := by
  have hone := h.loader_once p
  rw [Multiset.countP_cons_of_pos _ (by simp [Known.isLoader])] at hone
  refine ⟨by omega, fun o ho => ?_⟩
  have hnone := h.loader_loose o p ho
  rw [Multiset.countP_cons_of_pos _ (by simp [Known.isLoader])] at hnone
  cases hnone

/-- The slot of one object changes. -/
theorem setObject (h : Right g w k) {slot : Slot}
    (hsource : ∀ bytes, (w.objects o).Source bytes → slot.Source bytes)
    (hloose : ∀ p, slot.handle = some (.loader p) → k.countP (fun x => x.isLoader p) = 0)
    (hagrees : slot.Agrees w.loaders w.images (g.of o)) : Right g (w.setObject o slot) k where
  loaders_made := h.loaders_made
  images_made := h.images_made
  known x hx := by
    refine (h.known x hx).keep (le_refl g) (fun _ _ _ hl => hl) (fun _ _ hi => hi) ?_
    intro y bytes hy
    simp only [World.setObject, Function.update_apply]
    split
    · rename_i heq
      subst heq
      exact hsource bytes hy
    · exact hy
  loader_once := h.loader_once
  loader_loose y p hy := by
    simp only [World.setObject, Function.update_apply] at hy
    split at hy
    · exact hloose p hy
    · exact h.loader_loose y p hy
  served_once := h.served_once
  agrees y := by
    simp only [World.setObject, Function.update_apply]
    split
    · rename_i heq
      subst heq
      exact hagrees
    · exact h.agrees y

/-- A new loader comes to the thread that has made it. -/
theorem newLoader (h : Right g w k) (hnew : w.handles (.loader p) = none) :
    Right g (w.addLoader p l) (.loader p l ::ₘ k) := by
  have hnone : w.loaders p = none := not_not.mp fun hp => h.loaders_made p hp hnew
  have hmade : ∀ y, w.handles y ≠ none → (w.addLoader p l).handles y ≠ none := by
    intro y hy
    simp only [World.addLoader, Function.update_apply]
    split
    · exact Option.some_ne_none _
    · exact hy
  have hworld : Right g (w.addLoader p l) k := by
    refine h.world rfl (fun q l' hq => .inl ?_) (fun _ _ hi => hi) (fun q hq => ?_)
      fun q hq => hmade _ (h.images_made q hq)
    · have hne : q ≠ p := by
        rintro rfl
        rw [hnone] at hq
        cases hq
      simpa [World.addLoader, Function.update_of_ne hne] using hq
    · simp only [World.addLoader, Function.update_apply] at hq
      split at hq
      · rename_i heq
        simp [World.addLoader, heq]
      · exact hmade _ (h.loaders_made q hq)
  refine hworld.gain (by simp [World.addLoader]) ⟨?_, fun o ho => ?_⟩
  · rw [Multiset.countP_eq_zero]
    intro x hx hp
    cases x with
    | loader q l' =>
      obtain rfl : q = p := by simpa [Known.isLoader] using hp
      have hq : w.loaders q = some l' := h.known _ hx
      rw [hnone] at hq
      cases hq
    | image q i => cases hp
    | source o b => cases hp
    | view o b s => cases hp
    | turn o r => cases hp
    | served o n e => cases hp
  · exact (h.agrees o).loader_ne_none ho hnone

/-- Who has a loader may change it. -/
theorem configure (h : Right g w (.loader p l ::ₘ k)) (s : LoaderSetting) :
    Right g { w with loaders := Function.update w.loaders p ((w.loaders p).map s.apply) }
      (.loader p (s.apply l) ::ₘ k) := by
  have hl : w.loaders p = some l := h.known _ (Multiset.mem_cons_self _ _)
  have hfree := h.free
  refine Right.gain (h.forget (fun _ _ => rfl) |>.world rfl (fun q l' hq => ?_) (fun _ _ hi => hi)
    (fun q hq => ?_) h.images_made) (by simp [hl]) hfree
  · by_cases heq : q = p
    · subst heq
      exact .inr hfree
    · left
      simpa [Function.update_of_ne heq] using hq
  · refine h.loaders_made q fun hnone => hq ?_
    have hne : q ≠ p := by
      rintro rfl
      rw [hl] at hnone
      cases hnone
    simpa [Function.update_of_ne hne] using hnone

/-- A new image is known to the thread that has decoded it. -/
theorem newImage (h : Right g w k) {i : Image} (hnew : w.handles (.image q) = none) :
    Right g (w.addImage q i) (.image q i ::ₘ k) := by
  have hmade : ∀ y, w.handles y ≠ none → (w.addImage q i).handles y ≠ none := by
    intro y hy
    simp only [World.addImage, Function.update_apply]
    split
    · exact Option.some_ne_none _
    · exact hy
  have hworld : Right g (w.addImage q i) k := by
    refine h.world rfl (fun _ _ hl => .inl hl) (fun p i' hp => ?_)
      (fun p hp => hmade _ (h.loaders_made p hp)) fun p hp => ?_
    · have hne : p ≠ q := by
        rintro rfl
        exact h.images_made p (by rw [hp]; exact Option.some_ne_none _) hnew
      simpa [World.addImage, Function.update_of_ne hne] using hp
    · simp only [World.addImage, Function.update_apply] at hp
      split at hp
      · rename_i heq
        simp [World.addImage, heq]
      · exact hmade _ (h.images_made p hp)
  exact hworld.learn (by simp [Known.Holds, World.addImage]) (fun _ => rfl) fun _ _ => rfl

/-- The chronicle of one object is begun or goes on, with its slot and what is known of it. -/
theorem put (h : Right g w k) {c : Chronicle} {slot : Slot} (hle : g ≤ g.put o c)
    (hsource : ∀ bytes, (w.objects o).Source bytes → slot.Source bytes)
    (hloose : ∀ p, slot.handle = some (.loader p) → k.countP (fun x => x.isLoader p) = 0)
    (hagrees : slot.Agrees w.loaders w.images (some c))
    (hknown : ∀ x ∈ k', x ∈ k ∨ x.Holds (g.put o c) (w.setObject o slot))
    (hloaders : ∀ p, k'.countP (fun x => x.isLoader p) = k.countP (fun x => x.isLoader p))
    (hserved : ∀ n, k'.countP (fun x => x.isServed o n) = if n < c.entries.length then 1 else 0)
    (hothers : ∀ y n, y ≠ o →
      k'.countP (fun x => x.isServed y n) = k.countP (fun x => x.isServed y n)) :
    Right (g.put o c) (w.setObject o slot) k' where
  loaders_made := h.loaders_made
  images_made := h.images_made
  known x hx := by
    rcases hknown x hx with hx | hx
    · refine (h.known x hx).keep hle (fun _ _ _ hl => hl) (fun _ _ hi => hi) ?_
      intro y bytes hy
      simp only [World.setObject, Function.update_apply]
      split
      · rename_i heq
        subst heq
        exact hsource bytes hy
      · exact hy
    · exact hx
  loader_once p := by
    rw [hloaders]
    exact h.loader_once p
  loader_loose y p hy := by
    rw [hloaders]
    simp only [World.setObject, Function.update_apply] at hy
    split at hy
    · exact hloose p hy
    · exact h.loader_loose y p hy
  served_once y n := by
    by_cases hy : y = o
    · subst hy
      rw [hserved, Annals.entries, g.put_of y c, Option.elim_some]
    · rw [hothers y n hy, h.served_once, Annals.entries, Annals.entries, g.put_of_ne c hy]
  agrees y := by
    by_cases hy : y = o
    · subst hy
      simpa [World.setObject, g.put_of y c] using hagrees
    · simpa [World.setObject, Function.update_of_ne hy, g.put_of_ne c hy] using h.agrees y

/-- A loader goes into its object. -/
theorem attachLoader {bytes : Bytes} (h : Right g w (.loader p (loaderNewBytes bytes) ::ₘ k))
    (hfresh : w.objects o = .fresh) :
    Right g (w.setObject o (.live 1 (.loader (.new p (some bytes))))) k := by
  have hl : w.loaders p = some (loaderNewBytes bytes) := h.known _ (Multiset.mem_cons_self _ _)
  refine (h.forget fun _ _ => rfl).setObject (fun b hb => ?_) (fun q hq => ?_)
    ⟨rfl, bytes, rfl, fun q hq => ?_⟩
  · rw [hfresh] at hb
    exact hb.elim
  · cases hq
    exact h.free.1
  · cases hq
    exact hl

/-- An image goes into its object, and its chronicle begins. -/
theorem attachImage {bytes : Bytes} {start : Shim.ImageState} (h : Right g w k)
    (hi : .image p start.inner ∈ k) (hl : LoadedFrom bytes start)
    (hfresh : w.objects o = .fresh) :
    ∃ g', g ≤ g' ∧ Right g'
      (w.setObject o (.live 1 (.image (.new p start.frameCount start.rerender))))
      (.view o bytes start ::ₘ k) := by
  have hnone : g.of o = none := by
    have hagrees := h.agrees o
    rwa [hfresh] at hagrees
  have hcursor : start.cursor = 0 := by
    obtain ⟨s, s', host, -, hload⟩ := hl
    obtain ⟨image, rfl⟩ := LoaderState.load_ok hload
    rfl
  have hle : g ≤ g.put o (.new hl) := Annals.le_put fun old hold => by
    rw [hnone] at hold
    cases hold
  have hput : Right (g.put o (.new hl))
      (w.setObject o (.live 1 (.image (.new p start.frameCount start.rerender)))) k := by
    refine h.put hle (fun b hb => ?_) nofun ⟨_, rfl, h.known _ hi, hcursor.symm, rfl, rfl⟩
      (fun x hx => .inl hx) (fun _ => rfl) (fun n => ?_) fun _ _ _ => rfl
    · rw [hfresh] at hb
      exact hb.elim
    · rw [h.served_once, Annals.entries, hnone]
      rfl
  refine ⟨g.put o (.new hl), hle, ?_⟩
  exact hput.learn ⟨_, g.put_of o _, rfl, rfl⟩ (fun _ => rfl) fun _ _ => rfl

/-- The slot of an object changes, but not what it has. -/
theorem setSlot (h : Right g w k) {slot : Slot}
    (hsource : ∀ bytes, (w.objects o).Source bytes → slot.Source bytes)
    (hhandle : ∀ p, slot.handle = some (.loader p) → (w.objects o).handle = some (.loader p))
    (hagrees : (w.objects o).Agrees w.loaders w.images (g.of o) →
      slot.Agrees w.loaders w.images (g.of o)) : Right g (w.setObject o slot) k :=
  h.setObject hsource (fun p hp => h.loader_loose o p (hhandle p hp)) (hagrees (h.agrees o))

/-- An object without its loader. -/
theorem emptied (h : Right g w k) {n : Nat} {s : LoaderState}
    (hslot : w.objects o = .live n (.loader s)) :
    Right g (w.setObject o (.live n (.loader { s with inner := none }))) k := by
  refine h.setSlot (fun bytes hb => ?_) (fun p hp => ?_) fun hagrees => ?_
  · rw [hslot] at hb
    exact hb
  · cases hp
  · rw [hslot] at hagrees
    obtain ⟨hlimits, bytes, hbytes, -⟩ := hagrees
    exact ⟨hlimits, bytes, hbytes, nofun⟩

/-- The inner loader of an object comes to the thread that takes it. -/
theorem takeInner (h : Right g w k) (howns : ∃ T, Owns w T) {n : Nat} {s : LoaderState}
    (hslot : w.objects o = .live n (.loader s)) (hp : s.inner = some p) :
    ∃ bytes, Right g (w.setObject o (.live n (.loader { s with inner := none })))
      (.loader p (loaderNewBytes bytes) ::ₘ .source o bytes ::ₘ k) := by
  obtain ⟨T, howns⟩ := howns
  have hheld : (w.objects o).handle = some (.loader p) := by
    simp [hslot, Slot.handle, State.handle, hp]
  have hagrees := h.agrees o
  rw [hslot] at hagrees
  obtain ⟨hlimits, bytes, hbytes, hinner⟩ := hagrees
  have hsource := (h.emptied hslot).learn (x := .source o bytes)
    (by simpa [Known.Holds, World.setObject] using ⟨hlimits, hbytes⟩) (fun _ => rfl) fun _ _ => rfl
  refine ⟨bytes, hsource.gain (hinner p hp) ⟨?_, fun y hy => ?_⟩⟩
  · rw [Multiset.countP_cons_of_neg _ (by simp [Known.isLoader])]
    exact h.loader_loose o p hheld
  · -- no other object has the same loader
    simp only [World.setObject, Function.update_apply] at hy
    split at hy
    · cases hy
    · rename_i hne
      exact hne (howns.custody.holder_unique y o _ hy hheld)

/-- A call is served: its entry is the last one of the chronicle. -/
theorem serve (h : Right g w (.turn o req ::ₘ k)) {c : Chronicle} (hc : g.of o = some c)
    (e : Entry) {next : Shim.ImageState}
    (hcall : c.now.specificFrame e.call.host e.call.request = .ok (next, e.answer)) {slot : Slot}
    (hsource : ∀ bytes, (w.objects o).Source bytes → slot.Source bytes)
    (hhandle : ∀ p, slot.handle = some (.loader p) → (w.objects o).handle = some (.loader p))
    (hagrees : slot.Agrees w.loaders w.images (some (c.append e next hcall))) :
    ∃ g' n, g ≤ g' ∧ Right g' (w.setObject o slot) (.served o n e ::ₘ k) := by
  have hentries : g.entries o = c.entries := by
    rw [Annals.entries, hc]
    rfl
  have hle : g ≤ g.put o (c.append e next hcall) := Annals.le_put fun old hold => by
    obtain rfl := Option.some.inj (hc.symm.trans hold)
    exact ⟨rfl, rfl, List.prefix_append _ _⟩
  refine ⟨g.put o (c.append e next hcall), c.entries.length, hle, h.put hle hsource
    (fun p hp => h.loader_loose o p (hhandle p hp)) hagrees (fun x hx => ?_) (fun p => ?_)
    (fun n => ?_) fun y n hy => ?_⟩
  · rcases Multiset.mem_cons.mp hx with rfl | hx
    · refine .inr ⟨_, g.put_of o _, ?_⟩
      exact List.getElem?_concat_length ..
    · exact .inl (Multiset.mem_cons_of_mem hx)
  · rw [Multiset.countP_cons_of_neg _ (by simp [Known.isLoader]),
      Multiset.countP_cons_of_neg _ (by simp [Known.isLoader])]
  · have hold := h.served_once o n
    rw [Multiset.countP_cons_of_neg _ (by simp [Known.isServed]), hentries] at hold
    have hlength : (c.append e next hcall).entries.length = c.entries.length + 1 :=
      List.length_append
    rw [hlength]
    by_cases hn : c.entries.length = n
    · rw [Multiset.countP_cons_of_pos _ (by simp [Known.isServed, hn]), hold, hn,
        if_neg (Nat.lt_irrefl n), if_pos (Nat.lt_succ_self n)]
    · rw [Multiset.countP_cons_of_neg _ (by simpa [Known.isServed] using hn), hold]
      split <;> split <;> omega
  · have hy : o ≠ y := fun heq => hy heq.symm
    rw [Multiset.countP_cons_of_neg _ (by simp [Known.isServed, hy]),
      Multiset.countP_cons_of_neg _ (by simp [Known.isServed])]

end Right

end Threads

end GlycinNg.Shim
