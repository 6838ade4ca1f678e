import GlycinNg.CApi.Contract
import GlycinNg.Encoder.Flatten
import GlycinNg.Encoder.Rgba
import GlycinNg.Store.Journal

/-! # What an encoder encodes

An encoder handle is changed call by call, between calls on other handles and calls that
fail. `Call.edit` reads off the arguments of a call what it changes on which encoder; the
encoders of a thread are what the journal of these changes makes (`Run.encoders`). Encoding
never panics, consumes nothing, and depends on three things only: the frames in their order,
the last quality and the last colour profile (`encode_tells_history`). -/
namespace GlycinNg.CApi
open Rust Store

/-! ## Edits -/

/-- A change of an encoder. -/
inductive Edit where
  | frame (frame : EncodeFrame)
  | quality (quality : UInt8)
  | compression (compression : UInt8)
  | iccProfile (icc : Option Bytes)
  | metadata (key value : String)

namespace Edit

def change (handle : EncoderHandle) : Edit → EncoderHandle
  | .frame f => ⟨handle.inner.addFrame f⟩
  | .quality q => ⟨handle.inner.setQuality q⟩
  | .compression c => ⟨handle.inner.setCompression c⟩
  | .iccProfile icc => ⟨handle.inner.setIccProfile icc⟩
  | .metadata key value => ⟨handle.inner.addMetadata key value⟩

def frame? : Edit → Option EncodeFrame
  | .frame f => some f
  | _ => none

def quality? : Edit → Option UInt8
  | .quality q => some q
  | _ => none

def iccProfile? : Edit → Option (Option Bytes)
  | .iccProfile icc => some icc
  | _ => none

end Edit

namespace Call

/-- The edit a call asks for, and of which encoder. -/
def edit : Call → Option (Nat × Edit)
  | .encoderSetQuality (some p) q => some (p, .quality q)
  | .encoderSetCompression (some p) c => some (p, .compression c)
  | .encoderSetIccProfile (some p) data =>
    if data.missing then none
    else some (p, .iccProfile (if data.copied = [] then none else some data.copied))
  | .encoderAddMetadata (some p) (some key) (some value) =>
    (toStr key).bind fun k => (toStr value).map fun v => (p, .metadata k v)
  | .encoderAddFrame (some p) width height stride format data =>
    (cUintToMemoryFormat format).bind fun mf =>
      if data.missing then none
      else some (p, .frame ⟨width, height, stride, mf, data.copied⟩)
  | _ => none

/-- The encoder a constructor call makes. -/
def encoderMade : Call → Option Encoder
  | .encoderNew format => (cUintToFormat format).bind fun target => (Encoder.new target).toOption
  | _ => none

/-- What a call that was answered has done to the encoders. -/
def event (c : Call) (a : Answer) : Option (Event Nat EncoderHandle Edit) :=
  match c, a with
  | .encoderNew _, .handle (some p) => c.encoderMade.map fun e => .made p ⟨e⟩
  | .encoderFree (some p), _ => some (.dropped p)
  | _, _ => c.edit.map fun (p, e) => .changed p e

end Call

/-- The journal of the encoders. -/
def Trace.journal (trace : Trace) : List (Event Nat EncoderHandle Edit) :=
  trace.filterMap fun x => x.1.event x.2

/-! ## Calls that leave the encoders alone -/

/-- Whatever the computation does, it does to something else. -/
def KeepsEncoders {α : Type} (x : Abi α) : Prop :=
  ∀ s a s', x.run s = .ok (a, s') → s'.encoders = s.encoders

namespace KeepsEncoders
variable {α β : Type}

theorem pure (a : α) : KeepsEncoders (Pure.pure a : Abi α) := by
  intro s a' s' h
  cases h
  rfl

theorem bind {x : Abi α} {f : α → Abi β} (hx : KeepsEncoders x) (hf : ∀ a, KeepsEncoders (f a)) :
    KeepsEncoders (x >>= f) := by
  intro s b s' h
  obtain ⟨⟨a, s₁⟩, h₁, h₂⟩ := bind_eq_ok.mp h
  exact (hf a _ _ _ h₂).trans (hx _ _ _ h₁)

theorem of_modify {f : Session → Session} (h : ∀ s, (f s).encoders = s.encoders) :
    KeepsEncoders (modify f) := by
  intro s a s' hrun
  cases hrun
  exact h s

theorem setError (m : String) : KeepsEncoders (Abi.setError m) := .of_modify fun _ => rfl

theorem clearError : KeepsEncoders Abi.clearError := .of_modify fun _ => rfl

theorem dropLoader (p : Nat) : KeepsEncoders (Abi.dropLoader p) := .of_modify fun _ => rfl

theorem putInner (p : Nat) (l : Loader) : KeepsEncoders (Abi.putInner p l) :=
  .of_modify fun _ => rfl

theorem takeInner (p : Nat) : KeepsEncoders (Abi.takeInner p) := by
  intro s a s' h
  cases h
  rfl

theorem boxLoader (l : Loader) : KeepsEncoders (Abi.boxLoader l) := by
  intro s a s' h
  cases h
  rfl

theorem lastError : KeepsEncoders Abi.lastError := by
  intro s a s' h
  cases h
  rfl

theorem state : KeepsEncoders (get : Abi Session) := by
  intro s a s' h
  cases h
  rfl

/-- A panic aside, what is computed outside the thread's state does not change it. -/
theorem lift (x : Checked α) : KeepsEncoders (liftM x : Abi α) := by
  intro s a s' h
  obtain ⟨a', -, h⟩ := bind_eq_ok.mp h
  cases h
  rfl

/-- A refused call leaves a message. -/
theorem refuse (m : String) (a : α) : KeepsEncoders (do Abi.setError m; return a) :=
  (setError m).bind fun _ => .pure a

theorem modifyLoader (loader : Ptr) (mutate : Loader → Loader) :
    KeepsEncoders (Abi.modifyLoader loader mutate) := by
  refine clearError.bind fun _ => ?_
  cases loader with
  | none => exact .refuse _ _
  | some p =>
    refine (takeInner p).bind fun inner => ?_
    cases inner with
    | none => exact .refuse _ _
    | some l => exact (putInner p _).bind fun _ => .pure 0

theorem loaderSandbox (loader : Ptr) (landlock seccomp rlimit strict : Int32) :
    KeepsEncoders (Abi.loaderSandbox loader landlock seccomp rlimit strict) := by
  refine clearError.bind fun _ => ?_
  cases loader with
  | none => exact .refuse _ _
  | some p =>
    refine (takeInner p).bind fun inner => ?_
    cases inner with
    | none => exact .refuse _ _
    | some l => exact (putInner p _).bind fun _ => .pure 0

theorem loaderFormatHint (loader : Ptr) (format : UInt32) :
    KeepsEncoders (Abi.loaderFormatHint loader format) := by
  refine clearError.bind fun _ => ?_
  cases loader with
  | none => exact .refuse _ _
  | some p =>
    refine (takeInner p).bind fun inner => ?_
    cases inner with
    | none => exact .refuse _ _
    | some l =>
      cases cUintToFormat format with
      | none => exact (putInner p l).bind fun _ => .refuse _ _
      | some f => exact (putInner p _).bind fun _ => .pure 0

theorem loaderNewPath (path : Option Bytes) : KeepsEncoders (Abi.loaderNewPath path) := by
  refine clearError.bind fun _ => ?_
  cases path with
  | none => exact .refuse _ _
  | some path => exact .boxLoader _

theorem loaderNewBytes (data : Data) : KeepsEncoders (Abi.loaderNewBytes data) := by
  refine clearError.bind fun _ => ?_
  split
  · exact .refuse _ _
  · exact .boxLoader _

theorem loaderFree (loader : Ptr) : KeepsEncoders (Abi.loaderFree loader) := by
  cases loader with
  | none => exact .pure ()
  | some p => exact .dropLoader p

theorem loaderLoad (loader : Ptr) (host : Host) : KeepsEncoders (Abi.loaderLoad loader host) := by
  refine clearError.bind fun _ => ?_
  cases loader with
  | none => exact .refuse _ _
  | some p =>
    refine (takeInner p).bind fun inner => (dropLoader p).bind fun _ => ?_
    cases inner with
    | none => exact .refuse _ _
    | some l =>
      refine (lift _).bind fun answer => ?_
      cases answer with
      | ok image => exact .pure _
      | error e => exact .refuse _ _

theorem encoderEncode (encoder : Ptr) (codecs : ImageEncoders) :
    KeepsEncoders (Abi.encoderEncode encoder codecs) := by
  refine clearError.bind fun _ => ?_
  cases encoder with
  | none => exact .refuse _ _
  | some p =>
    refine KeepsEncoders.state.bind fun s => ?_
    cases s.encoders p with
    | none => exact .pure none
    | some handle =>
      refine (lift (handle.inner.encode codecs)).bind fun answer => ?_
      cases answer with
      | ok bytes => exact .pure _
      | error e => exact .refuse _ _

end KeepsEncoders

/-! ## Calls on encoders -/

section
variable {s s' : Session} {a : Answer}

/-- What an event leaves of the encoders of a thread. -/
def Session.after (s : Session) (event : Option (Event Nat EncoderHandle Edit)) :
    Nat → Option EncoderHandle :=
  event.elim s.encoders fun e => e.apply Edit.change s.encoders

/-- A setter that reports does its edit, or there is none to do. -/
theorem edited_of_keeps {c : Call} (hevent : c.event a = none) {x : Abi Answer}
    (hx : KeepsEncoders x) (h : x.run s = .ok (a, s')) : s'.encoders = s.after (c.event a) := by
  rw [hevent]
  exact hx _ _ _ h

theorem encoderNew_event {format : UInt32} (h : step s (.encoderNew format) = .ok (a, s')) :
    s'.encoders = s.after ((Call.encoderNew format).event a) := by
  cases htarget : cUintToFormat format with
  | none =>
    simp only [step, Call.exec, Abi.encoderNew, htarget] at h
    cases h
    rfl
  | some target =>
    cases hnew : Encoder.new target with
    | error e =>
      simp only [step, Call.exec, Abi.encoderNew, htarget, hnew] at h
      cases h
      rfl
    | ok e =>
      simp only [step, Call.exec, Abi.encoderNew, htarget, hnew] at h
      cases h
      have hmade : (Call.encoderNew format).encoderMade = some e := by
        rw [Call.encoderMade, htarget, Option.bind_some, hnew]
        rfl
      simp only [Call.event, hmade]
      rfl

theorem encoderSetIccProfile_event {encoder : Ptr} {data : Data}
    (h : step s (.encoderSetIccProfile encoder data) = .ok (a, s')) :
    s'.encoders = s.after ((Call.encoderSetIccProfile encoder data).event a) := by
  cases encoder with
  | none =>
    cases h
    rfl
  | some p =>
    cases hmissing : data.missing with
    | true =>
      simp only [step, Call.exec, Abi.encoderSetIccProfile, hmissing, if_true] at h
      cases h
      simp only [Call.event, Call.edit, hmissing, if_true]
      rfl
    | false =>
      simp only [step, Call.exec, Abi.encoderSetIccProfile, hmissing, Bool.false_eq_true,
        if_false] at h
      cases h
      simp only [Call.event, Call.edit, hmissing, Bool.false_eq_true, if_false]
      rfl

theorem encoderAddMetadata_event {encoder : Ptr} {key value : Option Bytes}
    (h : step s (.encoderAddMetadata encoder key value) = .ok (a, s')) :
    s'.encoders = s.after ((Call.encoderAddMetadata encoder key value).event a) := by
  cases encoder with
  | none =>
    cases h
    rfl
  | some p =>
    cases key with
    | none =>
      cases h
      rfl
    | some key =>
      cases value with
      | none =>
        cases h
        rfl
      | some value =>
        cases hkey : toStr key with
        | none =>
          simp only [step, Call.exec, Abi.encoderAddMetadata, hkey] at h
          cases h
          simp only [Call.event, Call.edit, hkey]
          rfl
        | some k =>
          cases hvalue : toStr value with
          | none =>
            simp only [step, Call.exec, Abi.encoderAddMetadata, hkey, hvalue] at h
            cases h
            simp only [Call.event, Call.edit, hkey, hvalue]
            rfl
          | some v =>
            simp only [step, Call.exec, Abi.encoderAddMetadata, hkey, hvalue] at h
            cases h
            simp only [Call.event, Call.edit, hkey, hvalue]
            rfl

theorem encoderAddFrame_event {encoder : Ptr} {width height stride format : UInt32} {data : Data}
    (h : step s (.encoderAddFrame encoder width height stride format data) = .ok (a, s')) :
    s'.encoders =
      s.after ((Call.encoderAddFrame encoder width height stride format data).event a) := by
  cases encoder with
  | none =>
    cases h
    rfl
  | some p =>
    cases hformat : cUintToMemoryFormat format with
    | none =>
      simp only [step, Call.exec, Abi.encoderAddFrame, hformat] at h
      cases h
      simp only [Call.event, Call.edit, hformat]
      rfl
    | some mf =>
      cases hmissing : data.missing with
      | true =>
        simp only [step, Call.exec, Abi.encoderAddFrame, hformat, hmissing, if_true] at h
        cases h
        simp only [Call.event, Call.edit, hformat, hmissing, if_true]
        rfl
      | false =>
        simp only [step, Call.exec, Abi.encoderAddFrame, hformat, hmissing, Bool.false_eq_true,
          if_false] at h
        cases h
        simp only [Call.event, Call.edit, hformat, hmissing, Bool.false_eq_true, if_false]
        rfl

/-- One call does to the encoders what its event says. -/
theorem step_event {c : Call} (h : step s c = .ok (a, s')) :
    s'.encoders = s.after (c.event a) := by
  have answer : ∀ {α : Type} {x : Abi α} (f : α → Answer), KeepsEncoders x →
      KeepsEncoders (do return f (← x)) := fun f hx => hx.bind fun _ => .pure _
  cases c with
  | lastError => exact edited_of_keeps rfl (answer _ .lastError) h
  | clearLastError => exact edited_of_keeps rfl (answer _ .clearError) h
  | loaderFree loader => exact edited_of_keeps rfl (answer _ (.loaderFree loader)) h
  | loaderNewPath path => exact edited_of_keeps rfl (answer _ (.loaderNewPath path)) h
  | loaderNewBytes data => exact edited_of_keeps rfl (answer _ (.loaderNewBytes data)) h
  | loaderSandbox loader l c r t =>
    exact edited_of_keeps rfl (answer _ (.loaderSandbox loader l c r t)) h
  | loaderFormatHint loader format =>
    exact edited_of_keeps rfl (answer _ (.loaderFormatHint loader format)) h
  | loaderLoad loader host => exact edited_of_keeps rfl (answer _ (.loaderLoad loader host)) h
  | encoderNew format => exact encoderNew_event h
  | encoderFree encoder =>
    cases encoder <;> cases h <;> rfl
  | encoderSetQuality encoder quality =>
    cases encoder <;> cases h <;> rfl
  | encoderSetCompression encoder compression =>
    cases encoder <;> cases h <;> rfl
  | encoderSetIccProfile encoder data => exact encoderSetIccProfile_event h
  | encoderAddMetadata encoder key value => exact encoderAddMetadata_event h
  | encoderAddFrame encoder width height stride format data => exact encoderAddFrame_event h
  | encoderEncode encoder codecs =>
    exact edited_of_keeps rfl (answer _ (.encoderEncode encoder codecs)) h
  | _ => exact edited_of_keeps rfl (answer _ (.modifyLoader _ _)) h

end

/-- After every run the encoders are what the journal of the run makes. -/
theorem Run.encoders {trace : Trace} {s : Session} (h : Run trace s) :
    s.encoders = replay Edit.change trace.journal := by
  induction h with
  | start => rfl
  | @call trace s s' c a _ _ hstep ih =>
    have hsnoc : Trace.journal (trace ++ [(c, a)]) = trace.journal ++ (c.event a).toList := by
      rw [Trace.journal, List.filterMap_append]
      cases hevent : c.event a <;> simp [Trace.journal, hevent]
    rw [step_event hstep, Session.after, hsnoc]
    cases c.event a with
    | none => rw [Option.toList_none, List.append_nil, ← ih, Option.elim_none]
    | some event => rw [Option.toList_some, replay_snoc, ← ih, Option.elim_some]

/-! ## What is encoded -/

/-- Encoders that encode alike, whatever their compression and metadata. -/
structure Alike (e e' : Encoder) : Prop where
  target : e.target = e'.target
  frames : e.frames = e'.frames
  quality : e.quality = e'.quality
  iccProfile : e.iccProfile = e'.iccProfile

theorem Alike.encode {e e' : Encoder} (h : Alike e e') (codecs : ImageEncoders) :
    e.encode codecs = e'.encode codecs := by
  have hdispatch : ∀ rgba w h, e.encodeDispatch codecs rgba w h =
      e'.encodeDispatch codecs rgba w h := by
    intro rgba width height
    rw [Encoder.encodeDispatch, Encoder.encodeDispatch, h.target, h.quality, h.iccProfile]
  rw [Encoder.encode, Encoder.encode, h.frames]
  simp only [hdispatch]

/-- What counts of the edits of an encoder: its frames in order, the last quality and the last
colour profile. -/
def job (target : KnownFormat) (edits : List Edit) : Encoder where
  target := target
  frames := edits.filterMap Edit.frame?
  quality := (edits.filterMap Edit.quality?).getLast?.getD 75
  compression := 6
  iccProfile := (edits.filterMap Edit.iccProfile?).getLast?.getD none
  metadata := []

theorem new_eq_job {target : KnownFormat} {e : Encoder} (h : Encoder.new target = .ok e) :
    e = job target [] := by
  rw [Encoder.new] at h
  split at h <;> cases h
  rfl

/-- An edit without what does not count. -/
def Edit.amend (e : Encoder) : Edit → Encoder
  | .frame f => e.addFrame f
  | .quality q => e.setQuality q
  | .iccProfile icc => e.setIccProfile icc
  | .compression _ | .metadata _ _ => e

theorem job_snoc (target : KnownFormat) (edits : List Edit) (edit : Edit) :
    job target (edits ++ [edit]) = edit.amend (job target edits) := by
  cases edit <;>
    simp [job, Edit.amend, Edit.frame?, Edit.quality?, Edit.iccProfile?, Encoder.addFrame,
      Encoder.setQuality, Encoder.setIccProfile]

theorem Alike.change {target : KnownFormat} {edits : List Edit} {handle : EncoderHandle}
    (h : Alike handle.inner (job target edits)) (edit : Edit) :
    Alike (edit.change handle).inner (job target (edits ++ [edit])) := by
  obtain ⟨htarget, hframes, hquality, hicc⟩ := h
  rw [job_snoc]
  cases edit with
  | frame f => exact ⟨htarget, congrArg (· ++ [f]) hframes, hquality, hicc⟩
  | quality q => exact ⟨htarget, hframes, rfl, hicc⟩
  | compression c => exact ⟨htarget, hframes, hquality, hicc⟩
  | iccProfile icc => exact ⟨htarget, hframes, hquality, rfl⟩
  | metadata key value => exact ⟨htarget, hframes, hquality, hicc⟩

theorem alike_object {target : KnownFormat} {e : Encoder} (h : Encoder.new target = .ok e)
    (edits : List Edit) :
    Alike (object Edit.change (⟨e⟩, edits)).inner (job target edits) := by
  induction edits using List.reverseRecOn with
  | nil =>
    obtain rfl := new_eq_job h
    exact ⟨rfl, rfl, rfl, rfl⟩
  | append_singleton edits edit ih =>
    rw [object_snoc]
    exact ih.change edit

/-! ## Encoding returns -/

theorem toRgba8_returns (data : Bytes) (width height stride : UInt32) (format : MemoryFormat) :
    ∃ r, Encoder.toRgba8 data width height stride format = .ok r := by
  by_cases haccepts : Encoder.Accepts data.length width height stride format
  · by_cases hread : width.toNat * height.toNat = 0 ∨ format ∈ Encoder.eightBit
    · exact ⟨_, Encoder.toRgba8_eq_remap haccepts hread⟩
    · obtain ⟨harea, hformat⟩ := not_or.mp hread
      have hw : 0 < width.toNat := Nat.pos_of_ne_zero fun h => harea (by rw [h, Nat.zero_mul])
      have hh : 0 < height.toNat := Nat.pos_of_ne_zero fun h => harea (by rw [h, Nat.mul_zero])
      exact ⟨_, Encoder.toRgba8_unreadable haccepts hw hh hformat⟩
  · obtain ⟨e, he⟩ := Encoder.toRgba8_refused haccepts
    exact ⟨_, he⟩

theorem encodeDispatch_returns (encoder : Encoder) (codecs : ImageEncoders) (rgba : Bytes)
    (width height : UInt32) : ∃ r, encoder.encodeDispatch codecs rgba width height = .ok r := by
  rw [Encoder.encodeDispatch]
  cases encoder.target with
  | jpeg => exact ⟨_, by rw [Encoder.flattenOverWhite_eq]; rfl⟩
  | _ => exact ⟨_, rfl⟩

/-- No queue of frames, whatever its sizes and bytes, makes `encode` panic. -/
theorem encode_returns (encoder : Encoder) (codecs : ImageEncoders) :
    ∃ r, encoder.encode codecs = .ok r := by
  rw [Encoder.encode]
  cases encoder.frames with
  | nil => exact ⟨_, rfl⟩
  | cons f fs =>
    cases fs with
    | cons _ _ => exact ⟨_, rfl⟩
    | nil =>
      obtain ⟨rgba, hrgba⟩ := toRgba8_returns f.data f.width f.height f.stride f.format
      dsimp only
      rw [hrgba]
      cases rgba with
      | error e => exact ⟨_, rfl⟩
      | ok rgba => exact encodeDispatch_returns encoder codecs rgba f.width f.height

/-! ## Encoding in a run -/

/-- The message an encoding leaves. -/
def messageOf : Except Error Bytes → Option String
  | .ok _ => none
  | .error e => some (cstring (display e))

theorem step_encode {s : Session} {p : Nat} {handle : EncoderHandle} {codecs : ImageEncoders}
    {r : Except Error Bytes} (hp : s.encoders p = some handle)
    (hr : handle.inner.encode codecs = .ok r) :
    step s (.encoderEncode (some p) codecs) =
      .ok (.encoded r.toOption, { s with lastError := messageOf r }) := by
  simp only [step, Call.exec, Abi.encoderEncode, bind_assoc, StateT.run_bind, Abi.run_clearError,
    ok_bind, StateT.run_get, pure_bind, hp]
  rw [hr]
  cases r <;> rfl

/-- A live encoder has been made by a constructor call, and is what its own edits make. -/
theorem Run.encoder {trace : Trace} {s : Session} (h : Run trace s) {p : Nat}
    {handle : EncoderHandle} (hp : s.encoders p = some handle) :
    ∃ format target edits e, (Call.encoderNew format, Answer.handle (some p)) ∈ trace ∧
      cUintToFormat format = some target ∧ Encoder.new target = .ok e ∧
      history p trace.journal = some (⟨e⟩, edits) ∧ handle = object Edit.change (⟨e⟩, edits) := by
  rw [h.encoders, replay_eq] at hp
  obtain ⟨⟨base, edits⟩, hhistory, hobject⟩ := Option.map_eq_some_iff.mp hp
  obtain ⟨⟨c, a⟩, hmem, hevent⟩ := List.mem_filterMap.mp (made_mem hhistory)
  obtain ⟨format, e, rfl, rfl, hmade, rfl⟩ : ∃ format e, c = .encoderNew format ∧
      a = .handle (some p) ∧ c.encoderMade = some e ∧ base = ⟨e⟩ := by
    revert hevent
    simp only [Call.event]
    split
    · intro hevent
      obtain ⟨e, hmade, hevent⟩ := Option.map_eq_some_iff.mp hevent
      cases hevent
      exact ⟨_, e, rfl, rfl, hmade, rfl⟩
    · nofun
    · intro hevent
      obtain ⟨_, -, hevent⟩ := Option.map_eq_some_iff.mp hevent
      cases hevent
  obtain ⟨target, htarget, hmade⟩ := Option.bind_eq_some_iff.mp hmade
  have hnew : Encoder.new target = .ok e := by
    cases hnew : Encoder.new target with
    | error message =>
      rw [hnew] at hmade
      cases hmade
    | ok e' =>
      rw [hnew] at hmade
      cases hmade
      rfl
  exact ⟨format, target, edits, e, hmem, htarget, hnew, hhistory, hobject.symm⟩

/-- In every run, encoding on a live handle returns; it answers with what the codec of the
handle's format makes of the frames that were added to this handle, in order, under its last
quality and its last colour profile, and leaves every handle as it was. No call on another
handle, no failed call, no compression, no metadata and no earlier encoding has a part in it. -/
theorem encode_tells_history {trace : Trace} {s : Session} (h : Run trace s) {p : Nat}
    {codecs : ImageEncoders} (hlive : s.Live (.encoderEncode (some p) codecs)) :
    ∃ format target edits e r, (Call.encoderNew format, Answer.handle (some p)) ∈ trace ∧
      cUintToFormat format = some target ∧ Encoder.new target = .ok e ∧
      history p (trace.journal.filter (·.key = p)) = some (⟨e⟩, edits) ∧
      (job target edits).encode codecs = .ok r ∧
      step s (.encoderEncode (some p) codecs) =
        .ok (.encoded r.toOption, { s with lastError := messageOf r }) := by
  obtain ⟨handle, hp⟩ := Option.isSome_iff_exists.mp (hlive.encoder p rfl)
  obtain ⟨format, target, edits, e, hmem, htarget, hnew, hhistory, rfl⟩ := h.encoder hp
  obtain ⟨r, hr⟩ := encode_returns (job target edits) codecs
  refine ⟨format, target, edits, e, r, hmem, htarget, hnew, ?_, hr, ?_⟩
  · rw [history_filter, hhistory]
  · exact step_encode hp (((alike_object hnew edits).encode codecs).trans hr)

/-- Two encoders; the first gets a frame, a quality and a frame of an unknown format. -/
def greyRun : Trace :=
  [(.encoderNew kfmtJpeg, .handle (some 0)), (.encoderNew kfmtPng, .handle (some 1)),
    (.encoderAddFrame (some 0) 1 1 1 formatG8 (.bytes [7]), .code 0),
    (.encoderAddFrame (some 1) 1 1 1 formatG8 (.bytes [9]), .code 0),
    (.encoderSetQuality (some 0) 90, .none),
    (.encoderAddFrame (some 0) 1 1 1 99 (.bytes [8]), .code (-1))]

theorem encode_tells_history_greyRun :
    ∃ s, Run greyRun s ∧ ∀ codecs, ∃ r,
      (job .jpeg [.frame ⟨1, 1, 1, .g8, [7]⟩, .quality 90]).encode codecs = .ok r ∧
      step s (.encoderEncode (some 0) codecs) =
        .ok (.encoded r.toOption, { s with lastError := messageOf r }) := by
  have live : ∀ {s : Session} {c : Call}, c.loaderArg = none →
      (∀ p, c.encoderArg = some p → (s.encoders p).isSome = true) → s.Live c := by
    intro s c hloader hencoder
    constructor
    · intro p hp
      rw [hloader] at hp
      cases hp
    · exact hencoder
  obtain ⟨s, hrun, hlive⟩ : ∃ s, Run greyRun s ∧ (s.encoders 0).isSome = true :=
    ⟨_, .call (.call (.call (.call (.call (.call .start
      (live rfl (by rintro _ ⟨⟩)) rfl) (live rfl (by rintro _ ⟨⟩)) rfl)
      (live rfl (by rintro _ ⟨⟩; rfl)) rfl) (live rfl (by rintro _ ⟨⟩; rfl)) rfl)
      (live rfl (by rintro _ ⟨⟩; rfl)) rfl) (live rfl (by rintro _ ⟨⟩; rfl)) rfl, rfl⟩
  refine ⟨s, hrun, fun codecs => ?_⟩
  obtain ⟨format, target, edits, e, r, -, -, hnew, hhistory, hr, hstep⟩ :=
    encode_tells_history hrun (live (c := .encoderEncode (some 0) codecs) rfl
      (by rintro _ ⟨⟩; exact hlive))
  obtain rfl := new_eq_job hnew
  cases hhistory
  exact ⟨r, hr, hstep⟩

end GlycinNg.CApi
