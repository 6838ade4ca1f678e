import GlycinNg.CApi.Encoders
import GlycinNg.Concurrent.Sharing
import GlycinNg.Shim.Creator

/-! # Creators on many threads

A creator can be used from several threads, and `gly_creator_create_async` uses it from one
of its own. A call reaches the encoder once, under the mutex of the creator, and reads the
last error of its own thread afterwards. Here the calls are programs over these operations;
run alone they are the calls of `Creator` (`Call.abi_run`), and together they have one order
in which each answers as it does alone (`creators_linearizable`). -/
namespace GlycinNg.Shim.Creators
open Rust CApi Concurrent

/-! ## Operations -/

/-- The calls into the engine; `lastError` reads the slot of the calling thread. -/
inductive Op where
  | encoderNew (format : UInt32)
  | encoderSetQuality (encoder : Ptr) (quality : UInt8)
  | encoderSetCompression (encoder : Ptr) (compression : UInt8)
  | encoderSetIccProfile (encoder : Ptr) (data : Data)
  | encoderAddMetadata (encoder : Ptr) (key value : Option Bytes)
  | encoderAddFrame (encoder : Ptr) (width height stride format : UInt32) (data : Data)
  | encoderEncode (encoder : Ptr) (codecs : ImageEncoders)
  | lastError

namespace Op

@[reducible] def Ans : Op → Type
  | .encoderNew _ => Ptr
  | .encoderSetQuality .. | .encoderSetCompression .. => Unit
  | .encoderSetIccProfile .. | .encoderAddMetadata .. | .encoderAddFrame .. => Int32
  | .encoderEncode .. => Option Bytes
  | .lastError => Option String

instance instInhabitedAns (o : Op) : Inhabited o.Ans := by
  cases o <;> exact ⟨default⟩

def exec : (o : Op) → Abi o.Ans
  | .encoderNew format => Abi.encoderNew format
  | .encoderSetQuality p q => Abi.encoderSetQuality p q
  | .encoderSetCompression p c => Abi.encoderSetCompression p c
  | .encoderSetIccProfile p data => Abi.encoderSetIccProfile p data
  | .encoderAddMetadata p key value => Abi.encoderAddMetadata p key value
  | .encoderAddFrame p width height stride format data =>
    Abi.encoderAddFrame p width height stride format data
  | .encoderEncode p codecs => Abi.encoderEncode p codecs
  | .lastError => Abi.lastError

end Op

/-- The encoders of the process. -/
structure Encoders where
  encoders : Nat → Option EncoderHandle
  next : Nat

/-- What a thread sees: the encoders, and its own last error. -/
def session (w : Encoders × Option String) : Session := ⟨fun _ => none, w.1.encoders, w.1.next, w.2⟩

/-- The two parts of what a thread leaves. -/
def parts (s : Session) : Encoders × Option String := (⟨s.encoders, s.next⟩, s.lastError)

/-- One operation of a thread; a panic would end the process. -/
def Op.run (w : Encoders × Option String) (o : Op) : o.Ans × (Encoders × Option String) :=
  match o.exec.run (session w) with
  | .ok (a, s) => (a, parts s)
  | .error _ => (default, w)

/-- Code of the shim. -/
abbrev Code (α : Type) := Prog Op Op.Ans α

/-! The bindings of `ngapi`. -/

def encoderNew (format : UInt32) : Code Ptr := Prog.perform (Op.encoderNew format)

def encoderSetQuality (encoder : Ptr) (quality : UInt8) : Code Unit :=
  Prog.perform (Op.encoderSetQuality encoder quality)

def encoderSetCompression (encoder : Ptr) (compression : UInt8) : Code Unit :=
  Prog.perform (Op.encoderSetCompression encoder compression)

def encoderSetIccProfile (encoder : Ptr) (data : Data) : Code Int32 :=
  Prog.perform (Op.encoderSetIccProfile encoder data)

def encoderAddMetadata (encoder : Ptr) (key value : Option Bytes) : Code Int32 :=
  Prog.perform (Op.encoderAddMetadata encoder key value)

def encoderAddFrame (encoder : Ptr) (width height stride format : UInt32) (data : Data) :
    Code Int32 :=
  Prog.perform (Op.encoderAddFrame encoder width height stride format data)

def encoderEncode (encoder : Ptr) (codecs : ImageEncoders) : Code (Option Bytes) :=
  Prog.perform (Op.encoderEncode encoder codecs)

def lastError : Code (Option String) := Prog.perform Op.lastError

/-! ## The code -/

/-- `ngapi::last_error_message`. -/
def lastErrorMessage : Code String := return (← lastError).getD "glycin-ng reported failure"

/-- `set_error_from_ng`. -/
def errorFromNg (origin : String) : Code GError :=
  return .new 0 (origin ++ ": " ++ (← lastErrorMessage))

/-- `with_encoder`; the one operation of `f` runs under the mutex. -/
def withEncoder {α : Type} (creator : CreatorPtr) (fname : String) (f : Ptr → Code α) :
    Code (Except GError α) :=
  match creator with
  | none => return .error (.new 0 (fname ++ ": invalid creator"))
  | some state =>
    if state.encoder.isNone then
      return .error (.new 0 (fname ++ ": encoder already consumed"))
    else return .ok (← f state.encoder)

/-- `gly_creator_new`. -/
def new (mimeType : Option Bytes) : Code (Except GError CreatorPtr) :=
  match mimeType with
  | none => return .error (.new 0 "gly_creator_new: mime_type is NULL")
  | some mime => do
    let kfmt := knownFormatFromMime mimeType
    if kfmt = 0 then
      return .error (.new 0
        ("gly_creator_new: unsupported MIME type \"" ++ toStringLossy mime ++ "\""))
    else
      let encoder ← encoderNew kfmt
      if encoder.isNone then return .error (← errorFromNg "gly_creator_new")
      else return .ok (some ⟨encoder⟩)

/-- `gly_creator_add_frame_with_stride`. -/
def addFrameWithStride (creator : CreatorPtr) (width height stride : UInt32)
    (memoryFormat : Int32) (textureBytes : Option Bytes) : Code (Except GError CreatorPtr) :=
  match textureBytes with
  | none => return .error (.new 0 "gly_creator_add_frame: texture_bytes is NULL")
  | some data =>
    if data = [] then return .error (.new 0 "gly_creator_add_frame: empty texture data")
    else
      match glyToNg memoryFormat with
      | none => return .error (.new 0 "gly_creator_add_frame: unsupported memory format")
      | some ngFormat => do
        let rc ← withEncoder creator "gly_creator_add_frame" fun enc =>
          encoderAddFrame enc width height (Creator.actualStride width stride ngFormat)
            ngFormat (.bytes data)
        match rc with
        | .error e => return .error e
        | .ok rc =>
          if rc != 0 then return .error (← errorFromNg "gly_creator_add_frame")
          else return .ok creator

/-- `gly_creator_set_encoding_quality`. -/
def setEncodingQuality (creator : CreatorPtr) (quality : UInt8) : Code Bool :=
  return (← withEncoder creator "gly_creator_set_encoding_quality" fun enc =>
    encoderSetQuality enc quality).isOk

/-- `gly_creator_set_encoding_compression`. -/
def setEncodingCompression (creator : CreatorPtr) (compression : UInt8) : Code Bool :=
  return (← withEncoder creator "gly_creator_set_encoding_compression" fun enc =>
    encoderSetCompression enc compression).isOk

/-- `gly_creator_add_metadata_key_value`. -/
def addMetadataKeyValue (creator : CreatorPtr) (key value : Option Bytes) : Code Bool :=
  if key.isNone || value.isNone then return false
  else do
    let rc ← withEncoder creator "gly_creator_add_metadata_key_value" fun enc =>
      encoderAddMetadata enc key value
    return rc.toOption == some 0

/-- `gly_new_frame_set_color_icc_profile`. -/
def setColorIccProfile (newFrame : CreatorPtr) (iccProfile : Option Bytes) : Code Bool := do
  let data : Data := if iccProfile.getD [] = [] then .null 0 else .bytes (iccProfile.getD [])
  let rc ← withEncoder newFrame "gly_new_frame_set_color_icc_profile" fun enc =>
    encoderSetIccProfile enc data
  return rc.toOption == some 0

/-- `gly_creator_create`, which `gly_creator_create_async` runs on a thread of its own. -/
def create (creator : CreatorPtr) (codecs : ImageEncoders) : Code (Except GError Bytes) := do
  let encoded ← withEncoder creator "gly_creator_create" fun enc =>
    encoderEncode enc codecs
  match encoded with
  | .error e => return .error e
  | .ok none => return .error (← errorFromNg "gly_creator_create")
  | .ok (some bytes) => return .ok bytes

/-! ## Calls -/

/-- A call of a client. -/
inductive Call where
  | new (mimeType : Option Bytes)
  | addFrameWithStride (creator : CreatorPtr) (width height stride : UInt32)
    (memoryFormat : Int32) (textureBytes : Option Bytes)
  | tune (creator : CreatorPtr) (t : Creator.Tuning)
  | create (creator : CreatorPtr) (codecs : ImageEncoders)

/-- What it gets. -/
inductive Reply where
  | creator (r : Except GError CreatorPtr)
  | frame (r : Except GError CreatorPtr)
  | tuned (done : Bool)
  | image (r : Except GError Bytes)

namespace Call

def tuning (creator : CreatorPtr) : Creator.Tuning → Code Bool
  | .quality q => setEncodingQuality creator q
  | .compression c => setEncodingCompression creator c
  | .metadata key value => addMetadataKeyValue creator key value
  | .iccProfile icc => setColorIccProfile creator icc

def code : Call → Code Reply
  | .new mimeType => return .creator (← Creators.new mimeType)
  | .addFrameWithStride creator width height stride memoryFormat textureBytes =>
    return .frame (← Creators.addFrameWithStride creator width height stride memoryFormat
      textureBytes)
  | .tune creator t => return .tuned (← tuning creator t)
  | .create creator codecs => return .image (← Creators.create creator codecs)

/-- The call as the shim's own code makes it. -/
def abi : Call → Abi Reply
  | .new mimeType => return .creator (← Creator.new mimeType)
  | .addFrameWithStride creator width height stride memoryFormat textureBytes =>
    return .frame (← Creator.addFrameWithStride creator width height stride memoryFormat
      textureBytes)
  | .tune creator t => return .tuned (← t.exec creator)
  | .create creator codecs => return .image (← Creator.create creator codecs)

end Call

/-- `gly_creator_add_frame` is the call that leaves the stride to the shim. -/
theorem Call.abi_addFrame (creator : CreatorPtr) (width height : UInt32) (memoryFormat : Int32)
    (textureBytes : Option Bytes) :
    (Call.addFrameWithStride creator width height 0 memoryFormat textureBytes).abi =
      (do return .frame (← Creator.addFrame creator width height memoryFormat textureBytes)) :=
  rfl

/-! ## A call that runs alone -/

/-- The operations of a program, one after the other, on the state of a thread. -/
def toAbi {α : Type} : Code α → Abi α
  | .ret a => pure a
  | .op o k => o.exec >>= fun a => toAbi (k a)

section
variable {α β : Type}

@[simp] theorem toAbi_pure (a : α) : toAbi (pure a) = pure a := rfl

theorem toAbi_perform (o : Op) : toAbi (Prog.perform o) = o.exec := by
  show (o.exec >>= fun a => pure a) = _
  rw [bind_pure]

@[simp] theorem toAbi_bind (p : Code α) (f : α → Code β) :
    toAbi (p >>= f) = toAbi p >>= fun a => toAbi (f a) := by
  induction p with
  | ret a => exact (pure_bind (m := Abi) a fun a => toAbi (f a)).symm
  | op o k ih =>
    show (o.exec >>= fun a => toAbi (k a >>= f)) = (o.exec >>= fun a => toAbi (k a)) >>= _
    rw [bind_assoc]
    exact bind_congr ih

end

@[simp] theorem toAbi_encoderNew (format : UInt32) :
    toAbi (encoderNew format) = Abi.encoderNew format := toAbi_perform (.encoderNew format)

@[simp] theorem toAbi_encoderSetQuality (p : Ptr) (q : UInt8) :
    toAbi (encoderSetQuality p q) = Abi.encoderSetQuality p q :=
  toAbi_perform (.encoderSetQuality p q)

@[simp] theorem toAbi_encoderSetCompression (p : Ptr) (c : UInt8) :
    toAbi (encoderSetCompression p c) = Abi.encoderSetCompression p c :=
  toAbi_perform (.encoderSetCompression p c)

@[simp] theorem toAbi_encoderSetIccProfile (p : Ptr) (data : Data) :
    toAbi (encoderSetIccProfile p data) = Abi.encoderSetIccProfile p data :=
  toAbi_perform (.encoderSetIccProfile p data)

@[simp] theorem toAbi_encoderAddMetadata (p : Ptr) (key value : Option Bytes) :
    toAbi (encoderAddMetadata p key value) = Abi.encoderAddMetadata p key value :=
  toAbi_perform (.encoderAddMetadata p key value)

@[simp] theorem toAbi_encoderAddFrame (p : Ptr) (width height stride format : UInt32)
    (data : Data) : toAbi (encoderAddFrame p width height stride format data) =
      Abi.encoderAddFrame p width height stride format data :=
  toAbi_perform (.encoderAddFrame p width height stride format data)

@[simp] theorem toAbi_encoderEncode (p : Ptr) (codecs : ImageEncoders) :
    toAbi (encoderEncode p codecs) = Abi.encoderEncode p codecs :=
  toAbi_perform (.encoderEncode p codecs)

@[simp] theorem toAbi_lastError : toAbi lastError = Abi.lastError := toAbi_perform .lastError

@[simp] theorem toAbi_errorFromNg (origin : String) :
    toAbi (errorFromNg origin) = Creator.errorFromNg origin := by
  simp [errorFromNg, lastErrorMessage, Creator.errorFromNg, Creator.lastErrorMessage]

@[simp] theorem toAbi_withEncoder {α : Type} (creator : CreatorPtr) (fname : String)
    (f : Ptr → Code α) : toAbi (withEncoder creator fname f) =
      Creator.withEncoder creator fname fun p => toAbi (f p) := by
  cases creator with
  | none => rfl
  | some state =>
    rw [withEncoder, Creator.withEncoder]
    split
    · rfl
    · simp

theorem toAbi_new (mimeType : Option Bytes) :
    toAbi (Creators.new mimeType) = Creator.new mimeType := by
  cases mimeType with
  | none => rfl
  | some mime =>
    simp only [Creators.new, Creator.new]
    split
    · rfl
    · rw [toAbi_bind, toAbi_encoderNew]
      refine bind_congr fun encoder => ?_
      split
      · simp
      · rfl

theorem toAbi_addFrameWithStride (creator : CreatorPtr) (width height stride : UInt32)
    (memoryFormat : Int32) (textureBytes : Option Bytes) :
    toAbi (Creators.addFrameWithStride creator width height stride memoryFormat textureBytes) =
      Creator.addFrameWithStride creator width height stride memoryFormat textureBytes := by
  cases textureBytes with
  | none => rfl
  | some data =>
    simp only [Creators.addFrameWithStride, Creator.addFrameWithStride]
    split
    · rfl
    · cases glyToNg memoryFormat with
      | none => rfl
      | some ngFormat =>
        simp only [toAbi_bind, toAbi_withEncoder, toAbi_encoderAddFrame]
        refine bind_congr fun rc => ?_
        cases rc with
        | error e => rfl
        | ok rc =>
          dsimp only
          split
          · simp
          · rfl

theorem toAbi_tuning (creator : CreatorPtr) (t : Creator.Tuning) :
    toAbi (Call.tuning creator t) = t.exec creator := by
  cases t with
  | quality q =>
    simp [Call.tuning, Creator.Tuning.exec, setEncodingQuality, Creator.setEncodingQuality]
  | compression c =>
    simp [Call.tuning, Creator.Tuning.exec, setEncodingCompression,
      Creator.setEncodingCompression]
  | metadata key value =>
    simp only [Call.tuning, Creator.Tuning.exec, addMetadataKeyValue, Creator.addMetadataKeyValue]
    split
    · rfl
    · simp
  | iccProfile icc =>
    simp [Call.tuning, Creator.Tuning.exec, setColorIccProfile, Creator.setColorIccProfile]

theorem toAbi_create (creator : CreatorPtr) (codecs : ImageEncoders) :
    toAbi (Creators.create creator codecs) = Creator.create creator codecs := by
  simp only [Creators.create, Creator.create, toAbi_bind, toAbi_withEncoder, toAbi_encoderEncode]
  refine bind_congr fun encoded => ?_
  cases encoded with
  | error e => rfl
  | ok bytes =>
    cases bytes with
    | none => simp
    | some bytes => rfl

/-- The programs are the shim's code, operation by operation. -/
theorem Call.toAbi_code (c : Call) : toAbi c.code = c.abi := by
  cases c <;>
    simp [Call.code, Call.abi, toAbi_new, toAbi_addFrameWithStride, toAbi_tuning, toAbi_create]

/-- The computation does not panic and has nothing to do with loaders. -/
def Steady {α : Type} (x : Abi α) : Prop :=
  ∀ s, ∃ a s', x.run s = .ok (a, s') ∧ s'.loaders = s.loaders

namespace Steady
variable {α β : Type}

theorem pure (a : α) : Steady (Pure.pure a : Abi α) := fun s => ⟨a, s, rfl, rfl⟩

theorem bind {x : Abi α} {f : α → Abi β} (hx : Steady x) (hf : ∀ a, Steady (f a)) :
    Steady (x >>= f) := by
  intro s
  obtain ⟨a, s₁, hrun, hkeeps⟩ := hx s
  obtain ⟨b, s₂, hrun', hkeeps'⟩ := hf a s₁
  refine ⟨b, s₂, ?_, hkeeps'.trans hkeeps⟩
  rw [StateT.run_bind, hrun, ok_bind]
  exact hrun'

theorem clearError : Steady Abi.clearError := fun _ => ⟨_, _, rfl, rfl⟩

theorem refuse (m : String) (a : α) : Steady (do Abi.setError m; return a) :=
  fun _ => ⟨_, _, rfl, rfl⟩

theorem modifyEncoder (p : Nat) (mutate : Encoder → Encoder) :
    Steady (Abi.modifyEncoder p mutate) := fun _ => ⟨_, _, rfl, rfl⟩

theorem boxEncoder (e : Encoder) : Steady (Abi.boxEncoder e) := fun _ => ⟨_, _, rfl, rfl⟩

theorem encoderNew (format : UInt32) : Steady (Abi.encoderNew format) := by
  refine clearError.bind fun _ => ?_
  cases cUintToFormat format with
  | none => exact .refuse _ _
  | some target =>
    dsimp only
    cases Encoder.new target with
    | error e => exact .refuse _ _
    | ok e => exact .boxEncoder e

theorem encoderSetIccProfile (p : Ptr) (data : Data) :
    Steady (Abi.encoderSetIccProfile p data) := by
  refine clearError.bind fun _ => ?_
  cases p with
  | none => exact .refuse _ _
  | some p =>
    dsimp only
    split
    · exact .refuse _ _
    · exact (modifyEncoder p _).bind fun _ => .pure 0

theorem encoderAddMetadata (p : Ptr) (key value : Option Bytes) :
    Steady (Abi.encoderAddMetadata p key value) := by
  refine clearError.bind fun _ => ?_
  cases p with
  | none => exact .refuse _ _
  | some p =>
    cases key with
    | none => exact .refuse _ _
    | some key =>
      cases value with
      | none => exact .refuse _ _
      | some value =>
        dsimp only
        cases toStr key with
        | none => exact .refuse _ _
        | some k =>
          dsimp only
          cases toStr value with
          | none => exact .refuse _ _
          | some v => exact (modifyEncoder p _).bind fun _ => .pure 0

theorem encoderAddFrame (p : Ptr) (width height stride format : UInt32) (data : Data) :
    Steady (Abi.encoderAddFrame p width height stride format data) := by
  refine clearError.bind fun _ => ?_
  cases p with
  | none => exact .refuse _ _
  | some p =>
    dsimp only
    cases cUintToMemoryFormat format with
    | none => exact .refuse _ _
    | some mf =>
      dsimp only
      split
      · exact .refuse _ _
      · exact (modifyEncoder p _).bind fun _ => .pure 0

theorem encoderEncode (p : Ptr) (codecs : ImageEncoders) :
    Steady (Abi.encoderEncode p codecs) := by
  refine clearError.bind fun _ => ?_
  cases p with
  | none => exact .refuse _ _
  | some p =>
    have hget : Steady (get : Abi Session) := fun _ => ⟨_, _, rfl, rfl⟩
    refine hget.bind fun s => ?_
    cases s.encoders p with
    | none => exact .pure none
    | some handle =>
      obtain ⟨r, hr⟩ := encode_returns handle.inner codecs
      dsimp only
      rw [hr]
      cases r with
      | ok bytes => exact .pure _
      | error e => exact .refuse _ _

end Steady

/-- No operation panics. -/
theorem Op.steady (o : Op) : Steady o.exec := by
  cases o with
  | encoderNew format => exact .encoderNew format
  | encoderSetQuality p q => cases p <;> exact fun _ => ⟨_, _, rfl, rfl⟩
  | encoderSetCompression p c => cases p <;> exact fun _ => ⟨_, _, rfl, rfl⟩
  | encoderSetIccProfile p data => exact .encoderSetIccProfile p data
  | encoderAddMetadata p key value => exact .encoderAddMetadata p key value
  | encoderAddFrame p width height stride format data =>
    exact .encoderAddFrame p width height stride format data
  | encoderEncode p codecs => exact .encoderEncode p codecs
  | lastError => exact fun _ => ⟨_, _, rfl, rfl⟩

theorem Op.run_eq (o : Op) (w : Encoders × Option String) :
    o.exec.run (session w) = .ok ((o.run w).1, session (o.run w).2) := by
  obtain ⟨a, s', hrun, hloaders⟩ := o.steady (session w)
  rw [Op.run, hrun, Except.ok.injEq, Prod.mk.injEq]
  refine ⟨rfl, ?_⟩
  show s' = ⟨(session w).loaders, s'.encoders, s'.next, s'.lastError⟩
  rw [← hloaders]

/-- A program alone does what its operations do. -/
theorem solo_run {α : Type} (p : Code α) (w : Encoders × Option String) :
    (toAbi p).run (session w) = .ok ((solo Op.run p w).1, session (solo Op.run p w).2) := by
  induction p generalizing w with
  | ret a => rfl
  | op o k ih =>
    show (o.exec.run (session w) >>= fun x => (toAbi (k x.1)).run x.2) = _
    rw [Op.run_eq, ok_bind]
    exact ih _ _

/-- Run alone, a program of a call answers as the shim's code does. -/
theorem Call.abi_run (c : Call) (w : Encoders × Option String) :
    c.abi.run (session w) =
      .ok ((solo Op.run c.code w).1, session (solo Op.run c.code w).2) := by
  rw [← c.toAbi_code]
  exact solo_run c.code w

/-! ## One access to the encoder -/

theorem private_lastError : Private Op.run .lastError where
  keeps _ _ := rfl
  ans_eq _ _ _ := rfl
  slot_eq _ _ _ := rfl

theorem private_errorFromNg (origin : String) : AllPrivate Op.run (errorFromNg origin) :=
  ⟨private_lastError, fun _ => trivial⟩

theorem oneShared_withEncoder {α : Type} (creator : CreatorPtr) (fname : String)
    {f : Ptr → Code α} (hf : ∀ p, OneShared Op.run (f p)) :
    OneShared Op.run (withEncoder creator fname f) := by
  cases creator with
  | none => trivial
  | some state =>
    rw [withEncoder]
    split
    · trivial
    · exact (hf _).bind fun _ => .pure _

/-- The answer of the encoder, or the message it has left. -/
theorem oneShared_reported {α β : Type} {p : Code α} {f : α → Code β} (hp : OneShared Op.run p)
    (hf : ∀ a, (∃ b, f a = pure b) ∨
      ∃ origin, ∃ g : GError → β, f a = errorFromNg origin >>= fun e => pure (g e)) :
    OneShared Op.run (p >>= f) := by
  refine hp.bind fun a => ?_
  rcases hf a with ⟨b, hb⟩ | ⟨origin, g, hg⟩
  · rw [hb]
    exact .pure b
  · rw [hg]
    exact (private_errorFromNg origin).bind fun _ => .pure _

theorem oneShared_new (mimeType : Option Bytes) : OneShared Op.run (Creators.new mimeType) := by
  cases mimeType with
  | none => trivial
  | some mime =>
    rw [Creators.new]
    split
    · trivial
    · refine oneShared_reported (OneShared.perform _) fun encoder => ?_
      split
      · exact .inr ⟨_, _, rfl⟩
      · exact .inl ⟨_, rfl⟩

theorem oneShared_addFrameWithStride (creator : CreatorPtr) (width height stride : UInt32)
    (memoryFormat : Int32) (textureBytes : Option Bytes) : OneShared Op.run
      (Creators.addFrameWithStride creator width height stride memoryFormat textureBytes) := by
  cases textureBytes with
  | none => trivial
  | some data =>
    rw [Creators.addFrameWithStride]
    split
    · trivial
    · cases glyToNg memoryFormat with
      | none => trivial
      | some ngFormat =>
        dsimp only
        refine oneShared_reported (oneShared_withEncoder _ _ fun _ => OneShared.perform _)
          fun rc => ?_
        cases rc with
        | error e => exact .inl ⟨_, rfl⟩
        | ok rc =>
          dsimp only
          split
          · exact .inr ⟨_, _, rfl⟩
          · exact .inl ⟨_, rfl⟩

theorem oneShared_tuning (creator : CreatorPtr) (t : Creator.Tuning) :
    OneShared Op.run (Call.tuning creator t) := by
  have hop : ∀ {α : Type} {fname : String} {f : Ptr → Code α} {g : Except GError α → Bool},
      (∀ p, OneShared Op.run (f p)) →
        OneShared Op.run (do return g (← withEncoder creator fname f)) := by
    intro α fname f g hf
    exact (oneShared_withEncoder creator fname hf).bind fun _ => .pure _
  cases t with
  | quality q => exact hop fun _ => OneShared.perform _
  | compression c => exact hop fun _ => OneShared.perform _
  | metadata key value =>
    rw [Call.tuning, addMetadataKeyValue]
    split
    · trivial
    · exact hop fun _ => OneShared.perform _
  | iccProfile icc => exact hop fun _ => OneShared.perform _

theorem oneShared_create (creator : CreatorPtr) (codecs : ImageEncoders) :
    OneShared Op.run (Creators.create creator codecs) := by
  rw [Creators.create]
  refine oneShared_reported (oneShared_withEncoder _ _ fun _ => OneShared.perform _)
    fun encoded => ?_
  cases encoded with
  | error e => exact .inl ⟨_, rfl⟩
  | ok bytes =>
    cases bytes with
    | none => exact .inr ⟨_, _, rfl⟩
    | some bytes => exact .inl ⟨_, rfl⟩

/-- A call reaches the encoders once, before it looks at its last error. -/
theorem Call.oneShared (c : Call) : OneShared Op.run c.code := by
  cases c with
  | new mimeType => exact (oneShared_new mimeType).bind fun _ => .pure _
  | addFrameWithStride => exact (oneShared_addFrameWithStride ..).bind fun _ => .pure _
  | tune creator t => exact (oneShared_tuning creator t).bind fun _ => .pure _
  | create creator codecs => exact (oneShared_create creator codecs).bind fun _ => .pure _

/-! ## All calls together -/

/-- Calls of the shim's code, one after the other, each on a thread whose last error was `l`. -/
inductive OneByOne (s₀ : Encoders) : List (Option String × Call) → Encoders → Prop where
  | nil : OneByOne s₀ [] s₀
  | snoc {calls : List (Option String × Call)} {s s' : Encoders} {l l' : Option String} {c : Call}
    {reply : Reply} (h : OneByOne s₀ calls s)
    (hrun : c.abi.run (session (s, l)) = .ok (reply, session (s', l'))) :
    OneByOne s₀ (calls ++ [(l, c)]) s'

theorem oneByOne_sequence (s₀ : Encoders) (calls : List (Option String × Call)) :
    OneByOne s₀ calls (sequence Op.run Call.code s₀ calls) := by
  induction calls using List.reverseRecOn with
  | nil => exact .nil
  | append_singleton calls x ih =>
    rw [sequence_snoc]
    exact .snoc ih (x.2.abi_run _)

/-- The threads of a process that use creators. -/
abbrev system : System (World Encoders (Option String) Call) (Nat × Call) (Nat × Op)
    (fun o => o.2.Ans) Reply := sharing Op.run Call.code

/-- The calls of a process in an order, that of their accesses to the encoders: the encoders are
what the shim's code makes of these calls one by one, each call has one place, which no other
has, and one that has come to its end, with the message of its error, gives what the shim's code
gives at its place. -/
structure OneOrder (s₀ : Encoders) (place : Nat → Option Nat)
    (pool : Pool (World Encoders (Option String) Call) (Nat × Call) (Nat × Op)
      (fun o => o.2.Ans) Reply) : Prop where
  encoders : OneByOne s₀ pool.world.order pool.world.object
  begun : (pool.world.order.map Prod.snd).Perm (pool.threads.filterMap Thread.begun)
  filled : ∀ n < pool.world.order.length, ∃ i, place i = some n
  fills : ∀ i n, place i = some n → ∃ th l, pool.threads[i]? = some th ∧ th.hist ≠ [] ∧
    pool.world.order[n]? = some (l, th.call.2)
  one_call : ∀ i j n, place i = some n → place j = some n → i = j
  complete : ∀ (i : Nat) th, pool.threads[i]? = some th → th.hist ≠ [] → ∃ n, place i = some n
  replies : ∀ (i : Nat) th reply, pool.threads[i]? = some th → th.rest.value = some reply →
    ∃ n l s w', (th.hist ≠ [] → place i = some n ∧ pool.world.order[n]? = some (l, th.call.2)) ∧
      OneByOne s₀ (pool.world.order.take n) s ∧
      th.call.2.abi.run (session (s, l)) = .ok (reply, session w')

theorem oneOrder_of_linear {s₀ : Encoders} {place : Nat → Option Nat}
    {pool : Pool (World Encoders (Option String) Call) (Nat × Call) (Nat × Op)
      (fun o => o.2.Ans) Reply} (h : Linear Op.run Call.code s₀ place pool) :
    OneOrder s₀ place pool where
  encoders := by
    rw [h.object]
    exact oneByOne_sequence _ _
  begun := h.begun
  filled := h.places.filled
  fills := h.fills
  one_call := h.places.one_call
  complete := h.complete
  replies i th reply hth hreply := by
    obtain ⟨n, l, hplace, rfl⟩ := h.values i th reply hth hreply
    exact ⟨n, l, _, _, hplace, oneByOne_sequence _ _, th.call.2.abi_run _⟩

/-- However the calls of any number of threads interleave, those that have reached their encoder
have one order. It only grows: whatever happens next, the calls keep their places, and those that
are started later come later. -/
theorem creators_linearizable (s₀ : Encoders) (slots : Nat → Option String)
    (pool : Pool (World Encoders (Option String) Call) (Nat × Call) (Nat × Op)
      (fun o => o.2.Ans) Reply)
    (h : system.Reachable (.idle s₀ slots) pool) :
    ∃ place, OneOrder s₀ place pool ∧
      ∀ pool', Relation.ReflTransGen system.Step pool pool' →
        pool.world.order <+: pool'.world.order ∧
        ∃ place', OneOrder s₀ place' pool' ∧ (∀ i n, place i = some n → place' i = some n) ∧
          ∀ i n, pool.threads.length ≤ i → place' i = some n → pool.world.order.length ≤ n := by
  obtain ⟨place, hlinear, hnext⟩ := Reachable.linearizable Call.oneShared h
  refine ⟨place, oneOrder_of_linear hlinear, fun pool' hsteps => ?_⟩
  obtain ⟨hgrows, place', hlinear', hextends⟩ := hnext pool' hsteps
  refine ⟨hgrows, place', oneOrder_of_linear hlinear', hextends, fun i n hi hplace => ?_⟩
  exact hlinear.later hlinear' hextends hi hplace

/-- Codecs that refuse everything. -/
def refusing : ImageEncoders where
  png _ _ _ _ := .error ""
  jpeg _ _ _ _ _ := .error ""
  gif _ _ _ := .error ""
  webP _ _ _ _ := .error ""
  tiff _ _ _ := .error ""
  bmp _ _ _ := .error ""

/-- One creator, for PNG. -/
def onePng : Encoders := ⟨Creator.pngSession.encoders, 1⟩

/-- A frame of one pixel. -/
def addPixel : Call := .addFrameWithStride (some ⟨some 0⟩) 1 1 0 7 (some [1, 2, 3])

/-- Two threads; the second has looked for frames before the first adds one, and reads its error
after that. -/
theorem creators_linearizable_onePng :
    ∃ pool : Pool (World Encoders (Option String) Call) (Nat × Call) (Nat × Op)
        (fun o => o.2.Ans) Reply,
      system.Reachable (.idle onePng fun _ => none) pool ∧
      pool.threads.map (fun th => th.rest.value) =
        [some (.frame (.ok (some ⟨some 0⟩))), some (.image (.error (.new 0
          "gly_creator_create: internal error: no frames queued for encode")))] ∧
      ∃ place, OneOrder onePng place pool := by
  obtain ⟨pool, h, hvalues⟩ : ∃ pool, system.Reachable (.idle onePng fun _ => none) pool ∧
      pool.threads.map (fun th => th.rest.value) =
        [some (.frame (.ok (some ⟨some 0⟩))), some (.image (.error (.new 0
          "gly_creator_create: internal error: no frames queued for encode")))] := by
    have h₁ : system.Reachable (.idle onePng fun _ => none)
        ⟨_, [⟨(0, addPixel), [], addPixel.code.tag 0, false⟩]⟩ :=
      .tail .refl (System.Step.start [] ⟨rfl, rfl⟩)
    have h₂ := h₁.tail (System.Step.start _
      (c := (1, .create (some ⟨some 0⟩) refusing)) ⟨rfl, rfl⟩)
    have h₃ := h₂.tail (System.Step.op [_] [] ⟨rfl, rfl⟩)
    have h₄ := h₃.tail (System.Step.op [] [_] ⟨rfl, rfl⟩)
    have h₅ := h₄.tail (System.Step.op [_] [] ⟨rfl, rfl⟩)
    refine ⟨_, h₅, ?_⟩
    rfl
  obtain ⟨place, horder, -⟩ := creators_linearizable _ _ pool h
  exact ⟨pool, h, hvalues, place, horder⟩

end GlycinNg.Shim.Creators
