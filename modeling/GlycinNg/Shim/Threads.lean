import GlycinNg.Concurrent.Pool
import GlycinNg.Shim.Frames
import Mathlib.Data.List.Count

/-! # Calls on many threads

`types.rs`, `lib.rs` and `asyncops.rs` as programs that run side by side. Here a handle of
the engine is an address, and the world keeps what is behind it and the calls that have
released it; the shim's own state hangs off a reference-counted `GObject`. Each C ABI call,
each access under a mutex and each change of a reference count is one atomic operation,
and the thread that drops the last reference runs the destructor. -/
namespace GlycinNg.Shim.Threads
open Rust CApi Concurrent

/-! ## Handles and objects -/

abbrev Addr := Nat

/-- A handle of the engine: a `GlycinNgLoader` or a `GlycinNgImage`. -/
inductive Handle where
  | loader (p : Addr)
  | image (p : Addr)
  deriving DecidableEq

/-- The calls that end a handle: `glycin_ng_loader_load`, and `glycin_ng_loader_free` or
`glycin_ng_image_free`. -/
inductive Release where
  | load
  | free
  deriving DecidableEq

/-- The types of state the shim attaches to an object. -/
inductive Kind where
  | loader
  | image
  | frame
  | request
  deriving DecidableEq

/-- A pointer to a `GObject`, with the type of the state attached to it. -/
structure Obj where
  kind : Kind
  addr : Addr
  deriving DecidableEq

/-- `types::LoaderState`, with the address of the engine's loader. -/
structure LoaderState where
  inner : Option Addr
  applyTransformations : Bool
  acceptedMemoryFormats : UInt32
  limits : LoaderLimits
  sourceBytes : Option Bytes

def LoaderState.new (loader : Addr) (sourceBytes : Option Bytes) : LoaderState :=
  ⟨some loader, true, 0, .default, sourceBytes⟩

/-- `types::ImageState`, with the address of the engine's image. -/
structure ImageState where
  inner : Addr
  cursor : Nat
  frameCount : Nat
  rerender : Option Rerender

def ImageState.new (image : Addr) (frameCount : Nat) (rerender : Option Rerender) : ImageState :=
  ⟨image, 0, frameCount, rerender⟩

/-- `ImageState::advance`: the index of the next frame, and the state after it. -/
def ImageState.advance (s : ImageState) (loopAnimation : Bool) : Option Nat × ImageState :=
  if s.frameCount = 0 then (none, s)
  else if s.cursor ≥ s.frameCount then
    if loopAnimation then (some 0, { s with cursor := 1 }) else (none, s)
  else (some s.cursor, { s with cursor := s.cursor + 1 })

theorem ImageState.advance_inner (s : ImageState) (loopAnimation : Bool) :
    (s.advance loopAnimation).2.inner = s.inner := by
  unfold advance
  split_ifs <;> rfl

/-- The state attached to an object. -/
inductive State where
  | loader (s : LoaderState)
  | image (s : ImageState)
  | frame (s : FrameState)
  | request (s : FrameRequest)

namespace State

def kind : State → Kind
  | .loader _ => .loader
  | .image _ => .image
  | .frame _ => .frame
  | .request _ => .request

/-- The handle the state owns. -/
def handle : State → Option Handle
  | .loader s => s.inner.map .loader
  | .image s => some (.image s.inner)
  | .frame _ => none
  | .request _ => none

end State

/-! ## What the operations read and write -/

/-- What the shim sets on a loader of the engine. -/
inductive LoaderSetting where
  | applyTransformations (apply : Bool)
  | renderSizeHint (width height : UInt32)
  | maxWidth (v : UInt32)
  | maxHeight (v : UInt32)
  | maxPixels (v : UInt64)
  | maxFrames (v : UInt32)
  | maxAnimationSeconds (v : UInt64)
  | decodeMemoryMib (v : UInt64)
  | decodeCpuSeconds (v : UInt64)

def LoaderSetting.apply (loader : Loader) : LoaderSetting → Loader
  | .applyTransformations apply => loaderApplyTransformations loader apply
  | .renderSizeHint width height => loaderRenderSizeHint loader width height
  | .maxWidth v => loaderSetMaxWidth loader v
  | .maxHeight v => loaderSetMaxHeight loader v
  | .maxPixels v => loaderSetMaxPixels loader v
  | .maxFrames v => loaderSetMaxFrames loader v
  | .maxAnimationSeconds v => loaderSetMaxAnimationSeconds loader v
  | .decodeMemoryMib v => loaderSetDecodeMemoryMib loader v
  | .decodeCpuSeconds v => loaderSetDecodeCpuSeconds loader v

/-- What the shim reads of an image of the engine, the textures of its frames included. -/
inductive ImageQuery where
  | width
  | height
  | frameCount
  | formatName
  | cicp
  | hasTexture (index : Nat)
  | textureWidth (index : Nat)
  | textureHeight (index : Nat)
  | textureStride (index : Nat)
  | textureFormat (index : Nat)
  | textureData (index : Nat)
  | frameDelayMs (index : Nat)

namespace ImageQuery

@[reducible] def Ans : ImageQuery → Type
  | .width | .height => UInt32
  | .frameCount => Nat
  | .formatName => Option String
  | .cicp => Option Cicp
  | .hasTexture _ => Bool
  | .textureWidth _ | .textureHeight _ | .textureStride _ | .textureFormat _ => UInt32
  | .textureData _ => Bytes
  | .frameDelayMs _ => UInt64

/-- A texture that is NULL reads as 0. -/
def ask (image : Image) : (q : ImageQuery) → q.Ans
  | .width => image.width
  | .height => image.height
  | .frameCount => imageFrameCount image
  | .formatName => imageFormatName image
  | .cicp => image.cicp
  | .hasTexture index => (imageTexture image index).isSome
  | .textureWidth index => (imageTexture image index).elim 0 Texture.width
  | .textureHeight index => (imageTexture image index).elim 0 Texture.height
  | .textureStride index => (imageTexture image index).elim 0 Texture.stride
  | .textureFormat index => (imageTexture image index).elim formatUnknown CApi.textureFormat
  | .textureData index => (imageTexture image index).elim [] Texture.data
  | .frameDelayMs index => imageFrameDelayMs image index

end ImageQuery

/-- What the shim reads of the state attached to an object. -/
inductive Field where
  | applyTransformations
  | acceptedMemoryFormats
  | limits
  | sourceBytes
  | inner
  | rerender
  | scale
  | loopAnimation

namespace Field

@[reducible] def Ans : Field → Type
  | .applyTransformations | .loopAnimation => Bool
  | .acceptedMemoryFormats => UInt32
  | .limits => LoaderLimits
  | .sourceBytes => Option Bytes
  | .inner => Addr
  | .rerender => Option Rerender
  | .scale => Option (UInt32 × UInt32)

/-- The type of state the field belongs to. -/
def kind : Field → Kind
  | .applyTransformations | .acceptedMemoryFormats | .limits | .sourceBytes => .loader
  | .inner | .rerender => .image
  | .scale | .loopAnimation => .request

def read : (f : Field) → State → Option f.Ans
  | .applyTransformations, .loader s => some s.applyTransformations
  | .acceptedMemoryFormats, .loader s => some s.acceptedMemoryFormats
  | .limits, .loader s => some s.limits
  | .sourceBytes, .loader s => some s.sourceBytes
  | .inner, .image s => some s.inner
  | .rerender, .image s => some s.rerender
  | .scale, .request s => some s.scale
  | .loopAnimation, .request s => some s.loopAnimation
  | _, _ => none

end Field

/-- What the setters of the shim change in the state of an object. -/
inductive Setting where
  | applyTransformations (apply : Bool)
  | acceptedMemoryFormats (selection : UInt32)
  | scale (width height : UInt32)
  | loopAnimation (loop : Bool)

namespace Setting

def kind : Setting → Kind
  | .applyTransformations _ | .acceptedMemoryFormats _ => .loader
  | .scale _ _ | .loopAnimation _ => .request

def write : Setting → State → State
  | .applyTransformations apply, .loader s => .loader { s with applyTransformations := apply }
  | .acceptedMemoryFormats selection, .loader s =>
    .loader { s with acceptedMemoryFormats := selection }
  | .scale width height, .request s => .request { s with scale := some (width, height) }
  | .loopAnimation loop, .request s => .request { s with loopAnimation := loop }
  | _, st => st

end Setting

/-! ## Operations -/

/-- What a call hands to its caller: an object, NULL with the error it has set, if any, or
nothing at all. -/
inductive Result where
  | object (o : Obj)
  | null (error : Option GError)
  | void

def Result.ofPtr : Option Obj → Result
  | some o => .object o
  | none => .null none

/-- The atomic operations. `attach` is `g_object_new` and the state set on it, `propagate`
the caller that picks up the result of a task or does not, and `abort` a panic. -/
inductive Op where
  | loaderNewBytes (bytes : Bytes)
  | loaderSet (p : Addr) (s : LoaderSetting)
  | loaderLoad (p : Addr)
  | loaderFree (p : Addr)
  | imageRead (p : Addr) (q : ImageQuery)
  | imageFree (p : Addr)
  | attach (st : State)
  | unref (o : Obj)
  | takeInner (o : Obj)
  | read (o : Obj) (f : Field)
  | write (o : Obj) (s : Setting)
  | advance (o : Obj) (loopAnimation : Bool)
  | propagate (r : Result)
  | abort

/-- The answers; that of `unref` is the state if the reference was the last one. -/
@[reducible] def Op.Ans : Op → Type
  | .loaderNewBytes _ => Option Addr
  | .loaderLoad _ => Except String Addr
  | .imageRead _ q => q.Ans
  | .attach _ => Option Obj
  | .unref _ => Option State
  | .takeInner _ => Option Addr
  | .read _ f => f.Ans
  | .advance _ _ => Option Nat
  | .propagate _ => Bool
  | .abort => Empty
  | .loaderSet _ _ | .loaderFree _ | .imageFree _ | .write _ _ => Unit

/-- Code of the shim. -/
abbrev Code (α : Type) := Prog Op Op.Ans α

/-- An operation of the shim. -/
abbrev perform (o : Op) : Code o.Ans := Prog.perform o

/-! ## The code -/

/-- A computation that may panic. -/
def run {α : Type} : Checked α → Code α
  | .ok a => pure a
  | .error _ => .op .abort Empty.elim

/-- The drop glue of a state: `LoaderState::drop` and `ImageState::drop`. -/
def dropState : State → Code Unit
  | .loader s =>
    match s.inner with
    | some p => perform (.loaderFree p)
    | none => pure ()
  | .image s => perform (.imageFree s.inner)
  | .frame _ => pure ()
  | .request _ => pure ()

/-- `attach_state`; without an object the state is still the caller's, and is dropped. -/
def attachState (st : State) : Code (Option Obj) := do
  match ← perform (.attach st) with
  | some obj => return some obj
  | none => do
    dropState st
    return none

/-- `g_object_unref`, with `state_drop` behind the last one. -/
def unrefObject (o : Obj) : Code Unit := do
  match ← perform (.unref o) with
  | some st => dropState st
  | none => return ()

/-- `new_loader_from_bytes`. -/
def newLoaderFromBytes (bytes : Bytes) : Code (Option Obj) := do
  match ← perform (.loaderNewBytes bytes) with
  | none => return none
  | some loader => attachState (.loader (.new loader (some bytes)))

/-- Push one value onto a loader of the engine if it is set. -/
def setSome (loader : Addr) : Option LoaderSetting → Code Unit
  | some s => perform (.loaderSet loader s)
  | none => pure ()

/-- `LoaderLimits::apply`. -/
def applyLimits (l : LoaderLimits) (loader : Addr) : Code Unit := do
  setSome loader (l.maxWidth.map .maxWidth)
  setSome loader (l.maxHeight.map .maxHeight)
  setSome loader (l.maxPixels.map .maxPixels)
  setSome loader (l.maxFrames.map .maxFrames)
  setSome loader (l.maxAnimationSeconds.map .maxAnimationSeconds)
  setSome loader (l.decodeMemoryMib.map .decodeMemoryMib)
  setSome loader (l.decodeCpuSeconds.map .decodeCpuSeconds)

/-- What `gly_loader_load` reports when the engine's loader is gone. -/
def alreadyConsumed : Result := .null (some (.new 0 "loader already consumed"))

/-- The end of `gly_loader_load`: the state around the decoded image. -/
def attachImage (o : Obj) (image : Addr) (limits : LoaderLimits) (apply : Bool)
    (accepted : UInt32) : Code Result := do
  let frameCount ← perform (.imageRead image .frameCount)
  let formatName ← perform (.imageRead image .formatName)
  let sourceBytes ← perform (.read o .sourceBytes)
  let rerender := sourceBytes.bind fun bytes =>
    if isRescalableFormat (formatName.getD "") then some ⟨bytes, limits, apply, accepted⟩
    else none
  return .ofPtr (← attachState (.image (.new image frameCount rerender)))

/-- The middle of `gly_loader_load`: the engine's loader is configured and loaded. -/
def loadInner (o : Obj) (inner : Addr) : Code Result := do
  let apply ← perform (.read o .applyTransformations)
  let limits ← perform (.read o .limits)
  let accepted ← perform (.read o .acceptedMemoryFormats)
  perform (.loaderSet inner (.applyTransformations apply))
  applyLimits limits inner
  match ← perform (.loaderLoad inner) with
  | .error message => return .null (some (.new 0 ("gly_loader_load: " ++ message)))
  | .ok image => attachImage o image limits apply accepted

/-- `gly_loader_load`. -/
def glyLoaderLoad : Option Obj → Code Result
  | none => return .null (some (.new 0 "null loader"))
  | some o => do
    match ← perform (.takeInner o) with
    | none => return alreadyConsumed
    | some inner => loadInner o inner

/-- `extract_frame`. -/
def extractFrame (image : Addr) (index : Nat) (accepted : UInt32) : Code (Option RawFrame) := do
  if ← perform (.imageRead image (.hasTexture index)) then
    let width ← perform (.imageRead image (.textureWidth index))
    let height ← perform (.imageRead image (.textureHeight index))
    let stride ← perform (.imageRead image (.textureStride index))
    let format ← perform (.imageRead image (.textureFormat index))
    let data ← perform (.imageRead image (.textureData index))
    let delayMs ← perform (.imageRead image (.frameDelayMs index))
    return some (← run (maybeConvert { width, height, stride, format, data, delayMs } accepted))
  else return none

/-- Whether the size asked for is a size, and another one than the image has. -/
def differs (image : Addr) (sw sh : UInt32) : Code Bool := do
  if sw > 0 ∧ sh > 0 then
    if sw ≠ (← perform (.imageRead image .width)) then return true
    return decide (sh ≠ (← perform (.imageRead image .height)))
  else return false

/-- The frame of a new decode; the new image is freed whether there is a frame or not. -/
def frameOfNew (newImage : Addr) (accepted : UInt32) : Code (Option Result) := do
  match ← extractFrame newImage 0 accepted with
  | some raw => do
    let cicp ← perform (.imageRead newImage .cicp)
    perform (.imageFree newImage)
    return some (.ofPtr (← attachState (.frame ⟨raw, cicp⟩)))
  | none => do
    perform (.imageFree newImage)
    return none

/-- The new decode of `gly_image_get_specific_frame`: its result, or nothing where it
falls through to the cached frame. -/
def rerenderFrame (inner : Addr) :
    Option Rerender → Option (UInt32 × UInt32) → Code (Option Result)
  | some rerender, some (sw, sh) => do
    if ← differs inner sw sh then
      match ← perform (.loaderNewBytes rerender.sourceBytes) with
      | none => return none
      | some newLoader => do
        perform (.loaderSet newLoader (.applyTransformations rerender.applyTransformations))
        perform (.loaderSet newLoader (.renderSizeHint sw sh))
        applyLimits rerender.limits newLoader
        match ← perform (.loaderLoad newLoader) with
        | .error _ => return none
        | .ok newImage => frameOfNew newImage rerender.acceptedMemoryFormats
    else return none
  | _, _ => return none

/-- The cached path of `gly_image_get_specific_frame`. -/
def cachedFrame (img : Obj) (inner : Addr) (loopAnimation : Bool) (accepted : UInt32) :
    Code Result := do
  match ← perform (.advance img loopAnimation) with
  | none => return .null (some (.new 2 "no more frames"))
  | some idx => do
    match ← extractFrame inner idx accepted with
    | none => return .null (some (.new 0 "frame extraction failed"))
    | some raw => do
      let cicp ← perform (.imageRead inner .cicp)
      return .ofPtr (← attachState (.frame ⟨raw, cicp⟩))

/-- A field of a frame request, or its default where the request is NULL. -/
def requestField (request : Option Obj) (f : Field) (default : f.Ans) : Code f.Ans :=
  match request with
  | some req => perform (.read req f)
  | none => pure default

/-- `gly_image_get_specific_frame`; `gly_image_next_frame` is the request of NULL. -/
def glyImageGetSpecificFrame (image request : Option Obj) : Code Result :=
  match image with
  | none => return .null (some (.new 0 "null image"))
  | some img => do
    let inner ← perform (.read img .inner)
    let loopAnimation ← requestField request .loopAnimation true
    let scale ← requestField request .scale none
    let rerender ← perform (.read img .rerender)
    match ← rerenderFrame inner rerender scale with
    | some result => return result
    | none =>
      cachedFrame img inner loopAnimation (rerender.elim 0 Rerender.acceptedMemoryFormats)

/-- `return_handle`. -/
def returnHandle : Result → Result
  | .null none => .null (some (.new 0 "async operation failed"))
  | r => r

/-- The references a task has taken are dropped with it. -/
def unrefAll : List Obj → Code Unit
  | [] => pure ()
  | o :: os => do
    unrefObject o
    unrefAll os

/-- The destroy notify of a result nobody picks up. -/
def destroyResult : Result → Code Unit
  | .object o => unrefObject o
  | .null _ => pure ()
  | .void => pure ()

/-- A `GTask` on a thread of the pool: the worker runs, the caller picks its result up or
does not, and the end of the task drops its source, its data and such a result. -/
def runTask (worker : Code Result) (taken : List Obj) : Code Result := do
  let result := returnHandle (← worker)
  let propagated ← perform (.propagate result)
  unrefAll taken
  if propagated then return result
  else
    destroyResult result
    return result

/-! ## Calls -/

/-- The calls a user of the shim makes. -/
inductive Call where
  | newLoader (bytes : Bytes)
  | newRequest
  | set (o : Obj) (s : Setting)
  | load (loader : Option Obj)
  | loadAsync (loader : Option Obj)
  | specificFrame (image request : Option Obj)
  | specificFrameAsync (image request : Option Obj)
  | unref (o : Obj)

namespace Call

def body : Call → Code Result
  | .newLoader bytes => return .ofPtr (← newLoaderFromBytes bytes)
  | .newRequest => return .ofPtr (← attachState (.request .new))
  | .set o s => do
    perform (.write o s)
    return .void
  | .load loader => glyLoaderLoad loader
  | .loadAsync loader => runTask (glyLoaderLoad loader) loader.toList
  | .specificFrame image request => glyImageGetSpecificFrame image request
  | .specificFrameAsync image request =>
    runTask (glyImageGetSpecificFrame image request) (image.toList ++ request.toList)
  | .unref o => do
    unrefObject o
    return .void

/-- The objects a blocking call works on, while its caller owns a reference. -/
def borrows : Call → List Obj
  | .set o _ => [o]
  | .load loader => loader.toList
  | .specificFrame image request => image.toList ++ request.toList
  | _ => []

/-- The objects a task takes a reference to. -/
def retains : Call → List Obj
  | .loadAsync loader => loader.toList
  | .specificFrameAsync image request => image.toList ++ request.toList
  | _ => []

/-- A pointer argument is NULL or points to an object of the right type. -/
def WellTyped : Call → Prop
  | .set o s => o.kind = s.kind
  | .load loader | .loadAsync loader => ∀ o ∈ loader, o.kind = .loader
  | .specificFrame image request | .specificFrameAsync image request =>
    (∀ o ∈ image, o.kind = .image) ∧ ∀ o ∈ request, o.kind = .request
  | _ => True

/-- The object a blocking call returns to its caller; a task's goes through `propagate`. -/
def returns : Call → Result → Option Obj
  | .loadAsync _, _ | .specificFrameAsync _ _, _ => none
  | _, .object o => some o
  | _, _ => none

end Call

/-! ## The world -/

/-- An address objects are allocated at: not used yet, an object with its reference count
and state, or one that has been finalized. -/
inductive Slot where
  | fresh
  | live (refs : Nat) (st : State)
  | gone

/-- The handles the engine has created and how each has been released; what is behind them;
the objects; for each object the references that users of the shim own, and the calls that
work on it by such a reference. -/
structure World where
  handles : Handle → Option (List Release)
  loaders : Addr → Option Loader
  images : Addr → Option Image
  objects : Obj → Slot
  owned : Obj → Nat
  calls : Obj → Nat

namespace World

/-- Nothing has been created. -/
def start : World where
  handles _ := none
  loaders _ := none
  images _ := none
  objects _ := .fresh
  owned _ := 0
  calls _ := 0

variable (w : World)

def setObject (o : Obj) (slot : Slot) : World :=
  { w with objects := Function.update w.objects o slot }

def setOwned (o : Obj) (n : Nat) : World := { w with owned := Function.update w.owned o n }

/-- The handle has been given to one of the calls that end it. -/
def release (h : Handle) (r : Release) : World :=
  { w with handles := Function.update w.handles h ((w.handles h).map (· ++ [r])) }

def addLoader (p : Addr) (loader : Loader) : World :=
  { w with
    handles := Function.update w.handles (.loader p) (some [])
    loaders := Function.update w.loaders p (some loader) }

def addImage (p : Addr) (image : Image) : World :=
  { w with
    handles := Function.update w.handles (.image p) (some [])
    images := Function.update w.images p (some image) }

/-- `g_object_ref`. -/
def ref (o : Obj) : World :=
  match w.objects o with
  | .live n st => w.setObject o (.live (n + 1) st)
  | _ => w

/-- One operation, its answer, and the world after it. -/
def Exec : (o : Op) → o.Ans → World → Prop
  | .loaderNewBytes _, none, w' => w' = w
  | .loaderNewBytes bytes, some p, w' =>
    w.handles (.loader p) = none ∧ w' = w.addLoader p (loaderNewBytes bytes)
  | .loaderSet p s, (), w' =>
    w' = { w with loaders := Function.update w.loaders p ((w.loaders p).map s.apply) }
  | .loaderLoad p, .error message, w' =>
    (∃ host loader, w.loaders p = some loader ∧
      loaderLoad host loader = .ok (.error message)) ∧ w' = w.release (.loader p) .load
  | .loaderLoad p, .ok q, w' =>
    ∃ host loader image, w.loaders p = some loader ∧
      loaderLoad host loader = .ok (.ok image) ∧ w.handles (.image q) = none ∧
      w' = (w.release (.loader p) .load).addImage q image
  | .loaderFree p, (), w' => w' = w.release (.loader p) .free
  | .imageRead p q, a, w' => (∃ image, w.images p = some image ∧ a = q.ask image) ∧ w' = w
  | .imageFree p, (), w' => w' = w.release (.image p) .free
  | .attach _, none, w' => w' = w
  | .attach st, some o, w' =>
    o.kind = st.kind ∧ w.objects o = .fresh ∧ w' = w.setObject o (.live 1 st)
  | .unref o, some st, w' => w.objects o = .live 1 st ∧ w' = w.setObject o .gone
  | .unref o, none, w' =>
    ∃ n st, w.objects o = .live (n + 2) st ∧ w' = w.setObject o (.live (n + 1) st)
  | .takeInner o, a, w' =>
    ∃ n s, w.objects o = .live n (.loader s) ∧ a = s.inner ∧
      w' = w.setObject o (.live n (.loader { s with inner := none }))
  | .read o f, a, w' => (∃ n st, w.objects o = .live n st ∧ f.read st = some a) ∧ w' = w
  | .write o s, (), w' =>
    ∃ n st, w.objects o = .live n st ∧ w' = w.setObject o (.live n (s.write st))
  | .advance o loopAnimation, a, w' =>
    ∃ n s, w.objects o = .live n (.image s) ∧ a = (s.advance loopAnimation).1 ∧
      w' = w.setObject o (.live n (.image (s.advance loopAnimation).2))
  | .propagate (.object o), true, w' => w' = w.setOwned o (w.owned o + 1)
  | .propagate _, _, w' => w' = w
  | .abort, a, _ => a.elim

/-- The object is there, and has a state of the given type. -/
def Alive (o : Obj) (k : Kind) : Prop := ∃ n st, w.objects o = .live n st ∧ st.kind = k

/-- What must not happen: a handle used that is not live, or an object that is not there. -/
def Fault : Op → Prop
  | .loaderSet p _ | .loaderLoad p | .loaderFree p => w.handles (.loader p) ≠ some []
  | .imageRead p _ | .imageFree p => w.handles (.image p) ≠ some []
  | .unref o => ¬ w.Alive o o.kind
  | .takeInner o => ¬ w.Alive o .loader
  | .read o f => ¬ w.Alive o f.kind
  | .write o s => ¬ w.Alive o s.kind
  | .advance o _ => ¬ w.Alive o .image
  | .loaderNewBytes _ | .attach _ | .propagate _ | .abort => False

/-- A call may start where its caller owns a reference to each of its arguments. The caller
of `g_object_unref` gives one up, and keeps another while its calls need it. -/
def Starts (c : Call) (w' : World) : Prop :=
  c.WellTyped ∧
    match c with
    | .unref o =>
      (1 < w.owned o ∨ w.owned o = 1 ∧ w.calls o = 0) ∧ w' = w.setOwned o (w.owned o - 1)
    | c =>
      (∀ o ∈ c.borrows ++ c.retains, 0 < w.owned o) ∧
        w' = { c.retains.foldl World.ref w with
          calls := fun o => w.calls o + c.borrows.count o }

/-- A call to `g_object_unref`, or one whose arguments its caller owns. -/
theorem Starts.cases {w w' : World} {c : Call} (h : w.Starts c w') :
    (∃ o, c = .unref o ∧ (1 < w.owned o ∨ w.owned o = 1 ∧ w.calls o = 0) ∧
        w' = w.setOwned o (w.owned o - 1)) ∨
      (∀ o, c ≠ .unref o) ∧ (∀ o ∈ c.borrows ++ c.retains, 0 < w.owned o) ∧
        w' = { c.retains.foldl World.ref w with
          calls := fun o => w.calls o + c.borrows.count o } := by
  obtain ⟨-, h⟩ := h
  split at h
  · exact .inl ⟨_, rfl, h⟩
  · rename_i hne
    exact .inr ⟨hne, h⟩

/-- A call that returns is done with its arguments, and its caller owns the result. -/
def Ends (c : Call) (r : Result) (w' : World) : Prop :=
  let w₁ := { w with calls := fun o => w.calls o - c.borrows.count o }
  w' = match c.returns r with
    | some o => w₁.setOwned o (w.owned o + 1)
    | none => w₁

/-- Between calls, `g_object_ref` by the owner of a reference. -/
def Acts (w' : World) : Prop :=
  ∃ o, 0 < w.owned o ∧ w' = (w.ref o).setOwned o (w.owned o + 1)

end World

/-- The shim and its users. -/
def shim : System World Call Op Op.Ans Result where
  Exec := World.Exec
  body := Call.body
  Starts := World.Starts
  Ends := World.Ends
  Acts := World.Acts

/-- Threads of the shim, and the world they share. -/
abbrev Process := Pool World Call Op Op.Ans Result

/-- A run from the start has led here. -/
abbrev Reachable (s : Process) : Prop := shim.Reachable .start s

end GlycinNg.Shim.Threads
