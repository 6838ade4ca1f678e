import GlycinNg.CApi.Session
import GlycinNg.Store.Fields

/-! # What the C ABI promises its callers

A run is a sequence of calls on live handles. `Effect` says once what a call can do to
the handles and the last-error slot; from it follow that a refused call changes no
handle, that a loader is configured field by field by its last successful setters, and
that the last-error slot tells how the last reporting call ended (`calls_truthful`). -/
namespace GlycinNg.CApi
open Rust Store

/-! ## The configuration of a loader -/

inductive LoaderField where
  | sandbox | formatHint | applyTransformations | renderSizeHint
  | maxWidth | maxHeight | maxPixels | maxFrames | maxAnimationDuration
  | decodeMemoryMib | decodeCpuSeconds
  deriving DecidableEq, Repr

namespace LoaderField

def Value : LoaderField → Type
  | .sandbox => SandboxSelector
  | .formatHint => Option KnownFormat
  | .applyTransformations => Bool
  | .renderSizeHint => Option (UInt32 × UInt32)
  | .maxWidth | .maxHeight | .maxFrames => UInt32
  | .maxPixels | .decodeMemoryMib | .decodeCpuSeconds => UInt64
  | .maxAnimationDuration => Duration

/-- The value of a field that no call has set. -/
def default : (f : LoaderField) → f.Value
  | .sandbox => SandboxSelector.default
  | .formatHint => none
  | .applyTransformations => true
  | .renderSizeHint => none
  | .maxWidth => Limits.default.maxWidth
  | .maxHeight => Limits.default.maxHeight
  | .maxPixels => Limits.default.maxPixels
  | .maxFrames => Limits.default.maxFrames
  | .maxAnimationDuration => Limits.default.maxAnimationDuration
  | .decodeMemoryMib => Limits.default.decodeMemoryMib
  | .decodeCpuSeconds => Limits.default.decodeCpuSeconds

def get (l : Loader) : (f : LoaderField) → f.Value
  | .sandbox => l.sandbox
  | .formatHint => l.formatHint
  | .applyTransformations => l.applyTransformations
  | .renderSizeHint => l.renderSizeHint
  | .maxWidth => l.limits.maxWidth
  | .maxHeight => l.limits.maxHeight
  | .maxPixels => l.limits.maxPixels
  | .maxFrames => l.limits.maxFrames
  | .maxAnimationDuration => l.limits.maxAnimationDuration
  | .decodeMemoryMib => l.limits.decodeMemoryMib
  | .decodeCpuSeconds => l.limits.decodeCpuSeconds

def set (l : Loader) : (f : LoaderField) → f.Value → Loader
  | .sandbox, v => { l with sandbox := v }
  | .formatHint, v => { l with formatHint := v }
  | .applyTransformations, v => { l with applyTransformations := v }
  | .renderSizeHint, v => { l with renderSizeHint := v }
  | .maxWidth, v => { l with limits := { l.limits with maxWidth := v } }
  | .maxHeight, v => { l with limits := { l.limits with maxHeight := v } }
  | .maxPixels, v => { l with limits := { l.limits with maxPixels := v } }
  | .maxFrames, v => { l with limits := { l.limits with maxFrames := v } }
  | .maxAnimationDuration, v => { l with limits := { l.limits with maxAnimationDuration := v } }
  | .decodeMemoryMib, v => { l with limits := { l.limits with decodeMemoryMib := v } }
  | .decodeCpuSeconds, v => { l with limits := { l.limits with decodeCpuSeconds := v } }

/-- No field is part of another one. -/
theorem get_set_ne (l : Loader) (f : LoaderField) (v : f.Value) (g : LoaderField) (h : g ≠ f) :
    get (set l f v) g = get l g := by
  cases f <;> cases g <;> first | rfl | exact absurd rfl h

end LoaderField

/-- A loader as its configuration fields. -/
def loaderFields : Fields Loader LoaderField.Value where
  get := LoaderField.get
  set := LoaderField.set
  get_set_self := by
    intro l f v
    cases f <;> rfl
  get_set_ne := LoaderField.get_set_ne

/-- One setting: a field and its new value. -/
abbrev Setting := Σ f : LoaderField, f.Value

/-- What a loader reads from is no field. -/
theorem source_set (l : Loader) (f : LoaderField) (v : f.Value) :
    ((LoaderField.set l f v).source, (LoaderField.set l f v).extensionHint) =
      (l.source, l.extensionHint) := by
  cases f <;> rfl

namespace Call

/-- The setting a call asks for, and of which loader. -/
def setting : Call → Option (Nat × Setting)
  | .loaderSandbox (some p) landlock seccomp rlimit strict =>
    some (p, ⟨.sandbox, (⟨landlock != 0, seccomp != 0, rlimit != 0, strict != 0⟩ :
      SandboxSelector)⟩)
  | .loaderFormatHint (some p) format =>
    (cUintToFormat format).map fun f => (p, ⟨.formatHint, some f⟩)
  | .loaderApplyTransformations (some p) apply => some (p, ⟨.applyTransformations, apply != 0⟩)
  | .loaderRenderSizeHint (some p) width height =>
    some (p, ⟨.renderSizeHint, some (width, height)⟩)
  | .loaderSetMaxWidth (some p) v => some (p, ⟨.maxWidth, v⟩)
  | .loaderSetMaxHeight (some p) v => some (p, ⟨.maxHeight, v⟩)
  | .loaderSetMaxPixels (some p) v => some (p, ⟨.maxPixels, v⟩)
  | .loaderSetMaxFrames (some p) v => some (p, ⟨.maxFrames, v⟩)
  | .loaderSetMaxAnimationSeconds (some p) v =>
    some (p, ⟨.maxAnimationDuration, Duration.fromSecs v⟩)
  | .loaderSetDecodeMemoryMib (some p) v => some (p, ⟨.decodeMemoryMib, v⟩)
  | .loaderSetDecodeCpuSeconds (some p) v => some (p, ⟨.decodeCpuSeconds, v⟩)
  | _ => none

/-- The loader a constructor call makes. -/
def constructs : Call → Option Loader
  | .loaderNewPath path => path.map fun path => Loader.newPath (toStringLossy path)
  | .loaderNewBytes data => if data.missing then none else some (Loader.newBytes data.copied)
  | _ => none

/-- The calls that report errors. -/
def reports : Call → Bool
  | .lastError | .loaderFree _ | .encoderFree _ | .encoderSetQuality .. |
    .encoderSetCompression .. => false
  | _ => true

def loaderArg : Call → Ptr
  | .loaderFree p | .loaderSandbox p .. | .loaderFormatHint p _ |
    .loaderApplyTransformations p _ | .loaderRenderSizeHint p .. | .loaderSetMaxWidth p _ |
    .loaderSetMaxHeight p _ | .loaderSetMaxPixels p _ | .loaderSetMaxFrames p _ |
    .loaderSetMaxAnimationSeconds p _ | .loaderSetDecodeMemoryMib p _ |
    .loaderSetDecodeCpuSeconds p _ | .loaderLoad p _ => p
  | _ => none

def encoderArg : Call → Ptr
  | .encoderFree p | .encoderSetQuality p _ | .encoderSetCompression p _ |
    .encoderSetIccProfile p _ | .encoderAddMetadata p .. | .encoderAddFrame p .. |
    .encoderEncode p _ => p
  | _ => none

end Call

/-- An answer that tells of an error. -/
def Answer.failed : Answer → Bool
  | .code k => k != 0
  | .handle p => p.isNone
  | .image img => img.isNone
  | .encoded bytes => bytes.isNone
  | .none | .message _ => false

/-- An `int` answer. -/
def Answer.isCode : Answer → Bool
  | .code _ => true
  | _ => false

/-- The handles a call is given are NULL or live. -/
structure Session.Live (s : Session) (c : Call) : Prop where
  loader : ∀ p, c.loaderArg = some p → (s.loaders p).isSome = true
  encoder : ∀ p, c.encoderArg = some p → (s.encoders p).isSome = true

/-! ## What a call can do -/

/-- The effect of a call on the thread, with its answer. -/
inductive Effect (s : Session) : Call → Answer → Session → Prop
  | refused {c : Call} {a : Answer} (m : String) (hc : c.reports = true) (ha : a.failed = true) :
    Effect s c a { s with lastError := some m }
  | configured {c : Call} {p : Nat} {w : Setting} {l : Loader} (hc : c.setting = some (p, w))
    (hl : s.loaders p = some ⟨some l⟩) :
    Effect s c (.code 0) { s with
      loaders := Function.update s.loaders p (some ⟨some (loaderFields.write l w)⟩)
      lastError := none }
  | constructed {c : Call} {base : Loader} (hc : c.constructs = some base) :
    Effect s c (.handle (some s.next)) { s with
      loaders := Function.update s.loaders s.next (some ⟨some base⟩)
      next := s.next + 1
      lastError := none }
  | consumed {p : Nat} {host : Host} {l : Loader} {r : Except Error Image} {e : Option String}
    (hl : s.loaders p = some ⟨some l⟩) (hr : l.load host = .ok r)
    (he : e.isSome = r.toOption.isNone) :
    Effect s (.loaderLoad (some p) host) (.image r.toOption) { s with
      loaders := Function.update s.loaders p none
      lastError := e }
  | freed {p : Nat} :
    Effect s (.loaderFree (some p)) .none { s with loaders := Function.update s.loaders p none }
  | reported {c : Call} {a : Answer} {encoders : Nat → Option EncoderHandle} {next : Nat}
    (hc : c.reports = true) (ha : a.failed = false) (hset : c.setting = none)
    (hnew : c.constructs = none) (hnext : s.next ≤ next) :
    Effect s c a { s with encoders := encoders, next := next, lastError := none }
  | quiet {c : Call} {a : Answer} {encoders : Nat → Option EncoderHandle}
    (hc : c.reports = false) (ha : a.isCode = false) :
    Effect s c a { s with encoders := encoders }

/-- One call of a run. -/
def step (s : Session) (c : Call) : Checked (Answer × Session) := c.exec.run s

namespace Abi
variable {s : Session}

@[simp] theorem run_setError (m : String) :
    (setError m).run s = .ok ((), { s with lastError := some (cstring m) }) := rfl

@[simp] theorem run_clearError : clearError.run s = .ok ((), { s with lastError := none }) := rfl

@[simp] theorem run_putInner (p : Nat) (l : Loader) :
    (putInner p l).run s = .ok ((), { s with
      loaders := Function.update s.loaders p (some ⟨some l⟩) }) := rfl

@[simp] theorem run_dropLoader (p : Nat) :
    (dropLoader p).run s =
      .ok ((), { s with loaders := Function.update s.loaders p none }) := rfl

@[simp] theorem run_boxLoader (l : Loader) :
    (boxLoader l).run s = .ok (some s.next, { s with
      loaders := Function.update s.loaders s.next (some ⟨some l⟩)
      next := s.next + 1 }) := rfl

@[simp] theorem run_boxEncoder (e : Encoder) :
    (boxEncoder e).run s = .ok (some s.next, { s with
      encoders := Function.update s.encoders s.next (some ⟨e⟩)
      next := s.next + 1 }) := rfl

/-- Taking from a loader that is there leaves its handle empty. -/
theorem run_takeInner_some {p : Nat} {l : Loader} (h : s.loaders p = some ⟨some l⟩) :
    (takeInner p).run s = .ok (some l, { s with
      loaders := Function.update s.loaders p (some ⟨none⟩) }) := by
  show Except.ok _ = _
  rw [h]
  rfl

/-- Taking from an empty handle changes nothing. -/
theorem run_takeInner_none {p : Nat} (h : (s.loaders p).bind LoaderHandle.inner = none) :
    (takeInner p).run s = .ok (none, s) := by
  show Except.ok _ = _
  have hsame : (s.loaders p).map (fun _ => (⟨none⟩ : LoaderHandle)) = s.loaders p := by
    cases hp : s.loaders p with
    | none => rfl
    | some handle =>
      rw [hp] at h
      cases handle
      cases h
      rfl
  rw [h, hsame, Function.update_eq_self]

/-- Either a handle holds a loader or taking from it finds none. -/
theorem holds_or_empty (s : Session) (p : Nat) :
    (∃ l, s.loaders p = some ⟨some l⟩) ∨ (s.loaders p).bind LoaderHandle.inner = none := by
  cases hp : s.loaders p with
  | none => exact .inr rfl
  | some handle =>
    obtain ⟨inner⟩ := handle
    cases inner with
    | none => exact .inr rfl
    | some l => exact .inl ⟨l, rfl⟩

/-- What an encoder call with an `int` answer does: it leaves a message, or changes the
encoder in one of the ways `allowed`. -/
inductive Outcome (s : Session) (encoder : Ptr) (allowed : (Encoder → Encoder) → Prop) :
    Int32 → Session → Prop
  | refused (m : String) : Outcome s encoder allowed (-1) { s with lastError := some m }
  | changed {p : Nat} (mutate : Encoder → Encoder) (hp : encoder = some p)
    (hmutate : allowed mutate) :
    Outcome s encoder allowed 0 { s with
      lastError := none
      encoders := Function.update s.encoders p
        ((s.encoders p).map fun h => ⟨mutate h.inner⟩) }

section
variable {s' : Session} {encoder : Ptr} {rc : Int32}

/-- A new handle holds a new encoder. -/
theorem encoderNew_made {format : UInt32} {p : Nat}
    (h : (encoderNew format).run s = .ok (some p, s')) :
    ∃ target e, cUintToFormat format = some target ∧ Encoder.new target = .ok e ∧
      s'.encoders p = some ⟨e⟩ := by
  cases htarget : cUintToFormat format with
  | none =>
    simp only [encoderNew, htarget] at h
    cases h
  | some target =>
    cases hnew : Encoder.new target with
    | error e =>
      simp only [encoderNew, htarget, hnew] at h
      cases h
    | ok e =>
      simp only [encoderNew, htarget, hnew] at h
      cases h
      exact ⟨target, e, rfl, hnew, Function.update_self ..⟩

theorem encoderSetIccProfile_outcome {data : Data}
    (h : (encoderSetIccProfile encoder data).run s = .ok (rc, s')) :
    Outcome s encoder (fun mutate => ∃ icc, mutate = (·.setIccProfile icc)) rc s' := by
  cases encoder with
  | none =>
    cases h
    exact .refused _
  | some p =>
    cases hmissing : data.missing <;>
      simp only [encoderSetIccProfile, hmissing, Bool.false_eq_true, if_true, if_false] at h <;>
      cases h
    · exact .changed (·.setIccProfile _) rfl ⟨_, rfl⟩
    · exact .refused _

theorem encoderAddMetadata_outcome {key value : Option Bytes}
    (h : (encoderAddMetadata encoder key value).run s = .ok (rc, s')) :
    Outcome s encoder (fun mutate => ∃ k v, mutate = (·.addMetadata k v)) rc s' := by
  cases encoder with
  | none =>
    cases h
    exact .refused _
  | some p =>
    cases key with
    | none =>
      cases h
      exact .refused _
    | some key =>
      cases value with
      | none =>
        cases h
        exact .refused _
      | some value =>
        cases hkey : toStr key with
        | none =>
          simp only [encoderAddMetadata, hkey] at h
          cases h
          exact .refused _
        | some k =>
          cases hvalue : toStr value with
          | none =>
            simp only [encoderAddMetadata, hkey, hvalue] at h
            cases h
            exact .refused _
          | some v =>
            simp only [encoderAddMetadata, hkey, hvalue] at h
            cases h
            exact .changed (·.addMetadata k v) rfl ⟨k, v, rfl⟩

theorem encoderAddFrame_outcome {width height stride format : UInt32} {data : Data}
    (h : (encoderAddFrame encoder width height stride format data).run s = .ok (rc, s')) :
    Outcome s encoder (fun mutate => ∃ mf, cUintToMemoryFormat format = some mf ∧
      mutate = (·.addFrame ⟨width, height, stride, mf, data.copied⟩)) rc s' := by
  cases encoder with
  | none =>
    cases h
    exact .refused _
  | some p =>
    cases hformat : cUintToMemoryFormat format with
    | none =>
      simp only [encoderAddFrame, hformat] at h
      cases h
      exact .refused _
    | some mf =>
      cases hmissing : data.missing <;>
        simp only [encoderAddFrame, hformat, hmissing, Bool.false_eq_true, if_true,
          if_false] at h <;> cases h
      · exact .changed (·.addFrame _) rfl ⟨mf, rfl, rfl⟩
      · exact .refused _

end
end Abi

section
variable {s s' : Session} {c : Call} {a : Answer}
open Abi

/-- A setter over `modify_loader` refuses or writes its field. -/
theorem modifyLoader_effect {loader : Ptr} {mutate : Loader → Loader} (hc : c.reports = true)
    (hset : ∀ p, loader = some p →
      ∃ w, c.setting = some (p, w) ∧ ∀ l, loaderFields.write l w = mutate l)
    (h : (do return Answer.code (← modifyLoader loader mutate) : Abi Answer).run s = .ok (a, s')) :
    Effect s c a s' := by
  cases loader with
  | none =>
    cases h
    exact .refused _ hc rfl
  | some p =>
    rcases holds_or_empty s p with ⟨l, hl⟩ | hempty
    · obtain ⟨w, hw, hmutate⟩ := hset p rfl
      simp only [modifyLoader, bind_assoc, StateT.run_bind, run_clearError, ok_bind,
        run_takeInner_some (s := { s with lastError := none }) hl, run_putInner,
        StateT.run_pure, Function.update_idem] at h
      cases h
      rw [← hmutate]
      exact .configured hw hl
    · simp only [modifyLoader, bind_assoc, StateT.run_bind, run_clearError, ok_bind,
        run_takeInner_none (s := { s with lastError := none }) hempty, run_setError,
        StateT.run_pure] at h
      cases h
      exact .refused _ hc rfl

theorem loaderSandbox_effect {loader : Ptr} {landlock seccomp rlimit strict : Int32}
    (h : step s (.loaderSandbox loader landlock seccomp rlimit strict) = .ok (a, s')) :
    Effect s (.loaderSandbox loader landlock seccomp rlimit strict) a s' := by
  cases loader with
  | none =>
    cases h
    exact .refused _ rfl rfl
  | some p =>
    rcases holds_or_empty s p with ⟨l, hl⟩ | hempty
    · simp only [step, Call.exec, loaderSandbox, bind_assoc, StateT.run_bind, run_clearError,
        ok_bind, run_takeInner_some (s := { s with lastError := none }) hl, run_putInner,
        StateT.run_pure, Function.update_idem] at h
      cases h
      have hset : (Call.loaderSandbox (some p) landlock seccomp rlimit strict).setting =
          some (p, ⟨.sandbox, (⟨landlock != 0, seccomp != 0, rlimit != 0, strict != 0⟩ :
            SandboxSelector)⟩) := rfl
      exact .configured hset hl
    · simp only [step, Call.exec, loaderSandbox, bind_assoc, StateT.run_bind, run_clearError,
        ok_bind, run_takeInner_none (s := { s with lastError := none }) hempty, run_setError,
        StateT.run_pure] at h
      cases h
      exact .refused _ rfl rfl

/-- The format hint is the one setter that has taken the loader when it refuses; it
puts it back. -/
theorem loaderFormatHint_effect {loader : Ptr} {format : UInt32}
    (h : step s (.loaderFormatHint loader format) = .ok (a, s')) :
    Effect s (.loaderFormatHint loader format) a s' := by
  cases loader with
  | none =>
    cases h
    exact .refused _ rfl rfl
  | some p =>
    rcases holds_or_empty s p with ⟨l, hl⟩ | hempty
    · cases hformat : cUintToFormat format with
      | none =>
        have hback : Function.update s.loaders p (some ⟨some l⟩) = s.loaders := by
          rw [← hl, Function.update_eq_self]
        simp only [step, Call.exec, loaderFormatHint, bind_assoc, StateT.run_bind, run_clearError,
          ok_bind, run_takeInner_some (s := { s with lastError := none }) hl, hformat,
          run_putInner, run_setError, StateT.run_pure, Function.update_idem, hback] at h
        cases h
        exact .refused _ rfl rfl
      | some f =>
        simp only [step, Call.exec, loaderFormatHint, bind_assoc, StateT.run_bind, run_clearError,
          ok_bind, run_takeInner_some (s := { s with lastError := none }) hl, hformat,
          run_putInner, StateT.run_pure, Function.update_idem] at h
        cases h
        have hset : (Call.loaderFormatHint (some p) format).setting =
            some (p, ⟨.formatHint, some f⟩) := by
          rw [Call.setting, hformat]
          rfl
        exact .configured hset hl
    · simp only [step, Call.exec, loaderFormatHint, bind_assoc, StateT.run_bind, run_clearError,
        ok_bind, run_takeInner_none (s := { s with lastError := none }) hempty, run_setError,
        StateT.run_pure] at h
      cases h
      exact .refused _ rfl rfl

/-- No live loader handle is empty. -/
def Session.Full (s : Session) : Prop := ∀ p h, s.loaders p = some h → ∃ l, h = ⟨some l⟩

/-- A load of a loader that is there answers with the image it decodes, and frees the
handle whatever becomes of it. -/
theorem step_load_ok {p : Nat} {host : Host} {l : Loader} (hl : s.loaders p = some ⟨some l⟩)
    (h : step s (.loaderLoad (some p) host) = .ok (a, s')) :
    ∃ r e, l.load host = .ok r ∧ a = .image r.toOption ∧ e.isSome = r.toOption.isNone ∧
      s' = { s with loaders := Function.update s.loaders p none, lastError := e } := by
  simp only [step, Call.exec, Abi.loaderLoad, bind_assoc, StateT.run_bind, run_clearError,
    ok_bind, run_takeInner_some (s := { s with lastError := none }) hl, run_dropLoader,
    Function.update_idem] at h
  cases hr : l.load host with
  | error panic =>
    rw [hr] at h
    cases h
  | ok r =>
    rw [hr] at h
    cases r <;> cases h
    · exact ⟨_, _, rfl, rfl, rfl, rfl⟩
    · exact ⟨_, _, rfl, rfl, rfl, rfl⟩

theorem loaderLoad_effect {loader : Ptr} {host : Host} (hfull : s.Full)
    (hlive : s.Live (.loaderLoad loader host))
    (h : step s (.loaderLoad loader host) = .ok (a, s')) :
    Effect s (.loaderLoad loader host) a s' := by
  cases loader with
  | none =>
    cases h
    exact .refused _ rfl rfl
  | some p =>
    obtain ⟨handle, hp⟩ := Option.isSome_iff_exists.mp (hlive.loader p rfl)
    obtain ⟨l, rfl⟩ := hfull p handle hp
    obtain ⟨r, e, hr, rfl, he, rfl⟩ := step_load_ok hp h
    exact .consumed hp hr he

theorem loaderNewBytes_effect {data : Data} (h : step s (.loaderNewBytes data) = .ok (a, s')) :
    Effect s (.loaderNewBytes data) a s' := by
  have hnew : (Call.loaderNewBytes data).constructs =
      if data.missing then none else some (Loader.newBytes data.copied) := rfl
  cases hmissing : data.missing <;>
    simp only [step, Call.exec, Abi.loaderNewBytes, hmissing, Bool.false_eq_true, if_true,
      if_false] at h hnew <;> cases h
  · exact .constructed hnew
  · exact .refused _ rfl rfl

theorem encoderNew_effect {format : UInt32} (h : step s (.encoderNew format) = .ok (a, s')) :
    Effect s (.encoderNew format) a s' := by
  cases htarget : cUintToFormat format with
  | none =>
    simp only [step, Call.exec, encoderNew, htarget] at h
    cases h
    exact .refused _ rfl rfl
  | some target =>
    cases hnew : Encoder.new target with
    | error e =>
      simp only [step, Call.exec, encoderNew, htarget, hnew] at h
      cases h
      exact .refused _ rfl rfl
    | ok e =>
      simp only [step, Call.exec, encoderNew, htarget, hnew] at h
      cases h
      exact .reported rfl rfl rfl rfl (Nat.le_succ _)

/-- Either outcome is reported. -/
theorem Effect.of_outcome {encoder : Ptr} {allowed : (Encoder → Encoder) → Prop} {rc : Int32}
    (h : Outcome s encoder allowed rc s') (hc : c.reports = true) (hset : c.setting = none)
    (hnew : c.constructs = none) : Effect s c (.code rc) s' := by
  cases h with
  | refused m => exact .refused m hc rfl
  | changed mutate hp hmutate => exact .reported hc rfl hset hnew (Nat.le_refl _)

theorem encoderSetIccProfile_effect {encoder : Ptr} {data : Data}
    (h : step s (.encoderSetIccProfile encoder data) = .ok (a, s')) :
    Effect s (.encoderSetIccProfile encoder data) a s' := by
  obtain ⟨⟨rc, s₁⟩, hrun, h⟩ := bind_eq_ok.mp h
  cases h
  exact .of_outcome (encoderSetIccProfile_outcome hrun) rfl rfl rfl

theorem encoderAddMetadata_effect {encoder : Ptr} {key value : Option Bytes}
    (h : step s (.encoderAddMetadata encoder key value) = .ok (a, s')) :
    Effect s (.encoderAddMetadata encoder key value) a s' := by
  obtain ⟨⟨rc, s₁⟩, hrun, h⟩ := bind_eq_ok.mp h
  cases h
  exact .of_outcome (encoderAddMetadata_outcome hrun) rfl rfl rfl

theorem encoderAddFrame_effect {encoder : Ptr} {width height stride format : UInt32} {data : Data}
    (h : step s (.encoderAddFrame encoder width height stride format data) = .ok (a, s')) :
    Effect s (.encoderAddFrame encoder width height stride format data) a s' := by
  obtain ⟨⟨rc, s₁⟩, hrun, h⟩ := bind_eq_ok.mp h
  cases h
  exact .of_outcome (encoderAddFrame_outcome hrun) rfl rfl rfl

/-- Encoding leaves the encoder as it is. -/
theorem encoderEncode_effect {encoder : Ptr} {codecs : ImageEncoders}
    (hlive : s.Live (.encoderEncode encoder codecs))
    (h : step s (.encoderEncode encoder codecs) = .ok (a, s')) :
    Effect s (.encoderEncode encoder codecs) a s' := by
  cases encoder with
  | none =>
    cases h
    exact .refused _ rfl rfl
  | some p =>
    obtain ⟨handle, hp⟩ := Option.isSome_iff_exists.mp (hlive.encoder p rfl)
    simp only [step, Call.exec, Abi.encoderEncode, bind_assoc, StateT.run_bind, run_clearError,
      ok_bind, StateT.run_get, pure_bind, hp] at h
    cases hr : handle.inner.encode codecs with
    | error panic =>
      rw [hr] at h
      cases h
    | ok r =>
      rw [hr] at h
      cases r with
      | ok bytes =>
        cases h
        exact .reported rfl rfl rfl rfl (Nat.le_refl _)
      | error e =>
        cases h
        exact .refused _ rfl rfl

/-- The effect of every call on live handles. -/
theorem step_effect (hfull : s.Full) (hlive : s.Live c) (h : step s c = .ok (a, s')) :
    Effect s c a s' := by
  cases c with
  | lastError =>
    cases h
    exact @Effect.quiet s _ _ s.encoders rfl rfl
  | clearLastError =>
    cases h
    exact @Effect.reported s _ _ s.encoders s.next rfl rfl rfl rfl (Nat.le_refl _)
  | loaderFree loader =>
    cases loader with
    | none =>
      cases h
      exact @Effect.quiet s _ _ s.encoders rfl rfl
    | some p =>
      cases h
      exact .freed
  | loaderNewPath path =>
    cases path <;> cases h
    · exact .refused _ rfl rfl
    · exact .constructed rfl
  | loaderNewBytes => exact loaderNewBytes_effect h
  | loaderSandbox => exact loaderSandbox_effect h
  | loaderFormatHint => exact loaderFormatHint_effect h
  | loaderLoad => exact loaderLoad_effect hfull hlive h
  | encoderNew => exact encoderNew_effect h
  | encoderFree encoder =>
    cases encoder <;> cases h
    · exact @Effect.quiet s _ _ s.encoders rfl rfl
    · exact .quiet rfl rfl
  | encoderSetQuality encoder =>
    cases encoder <;> cases h
    · exact @Effect.quiet s _ _ s.encoders rfl rfl
    · exact .quiet rfl rfl
  | encoderSetCompression encoder =>
    cases encoder <;> cases h
    · exact @Effect.quiet s _ _ s.encoders rfl rfl
    · exact .quiet rfl rfl
  | encoderSetIccProfile => exact encoderSetIccProfile_effect h
  | encoderAddMetadata => exact encoderAddMetadata_effect h
  | encoderAddFrame => exact encoderAddFrame_effect h
  | encoderEncode => exact encoderEncode_effect hlive h
  | _ =>
    refine modifyLoader_effect rfl ?_ h
    rintro p rfl
    exact ⟨_, rfl, fun _ => rfl⟩

end

/-! ## Runs -/

/-- The calls of a thread so far, with their answers. -/
abbrev Trace := List (Call × Answer)

/-- A thread that has made the calls of a trace, each on live handles. -/
inductive Run : Trace → Session → Prop
  | start : Run [] .start
  | call {trace : Trace} {s s' : Session} {c : Call} {a : Answer} (h : Run trace s)
    (hlive : s.Live c) (hstep : step s c = .ok (a, s')) : Run (trace ++ [(c, a)]) s'

namespace Trace

/-- The setting a call has made on the loader `p`. -/
def settingOf (p : Nat) (x : Call × Answer) : Option Setting :=
  if x.2.failed then none
  else x.1.setting.bind fun q => if q.1 = p then some q.2 else none

/-- The settings that succeeded on the loader `p`. -/
def settings (trace : Trace) (p : Nat) : List Setting := trace.filterMap (settingOf p)

/-- A call of the trace has made the loader `base` as the handle `p`. -/
def Made (trace : Trace) (p : Nat) (base : Loader) : Prop :=
  ∃ c, (c, .handle (some p)) ∈ trace ∧ c.constructs = some base

/-- Whether the last call that reports errors failed. -/
def lastReportFailed (trace : Trace) : Bool :=
  (trace.filter fun x => x.1.reports).getLast?.any fun x => x.2.failed

variable {trace : Trace} {c : Call} {a : Answer}

theorem settings_snoc (p : Nat) :
    settings (trace ++ [(c, a)]) p = settings trace p ++ (settingOf p (c, a)).toList := by
  rw [settings, List.filterMap_append, settings]
  cases h : settingOf p (c, a) <;> simp [h]

theorem lastReportFailed_snoc :
    lastReportFailed (trace ++ [(c, a)]) =
      if c.reports then a.failed else lastReportFailed trace := by
  rw [lastReportFailed, List.filter_append]
  cases h : c.reports <;> simp [h, lastReportFailed]

theorem Made.snoc {p : Nat} {base : Loader} (h : Made trace p base) :
    Made (trace ++ [(c, a)]) p base := by
  obtain ⟨c', hmem, hmakes⟩ := h
  exact ⟨c', List.mem_append_left _ hmem, hmakes⟩

theorem settingOf_of_setting_none (h : c.setting = none) (p : Nat) : settingOf p (c, a) = none := by
  unfold settingOf
  rw [h]
  split <;> rfl

theorem settingOf_of_failed (h : a.failed = true) (p : Nat) : settingOf p (c, a) = none :=
  if_pos h

end Trace

/-- A call that does not report errors sets nothing. -/
theorem setting_of_not_reports {c : Call} (h : c.reports = false) : c.setting = none := by
  cases c <;> first | rfl | cases h

theorem setting_of_constructs {c : Call} {base : Loader} (h : c.constructs = some base) :
    c.setting = none ∧ c.reports = true := by
  cases c <;> first | exact ⟨rfl, rfl⟩ | cases h

theorem reports_of_setting {c : Call} {q : Nat × Setting} (h : c.setting = some q) :
    c.reports = true := by
  cases c <;> first | rfl | cases h

/-- What a run keeps true: every live loader is the one its constructor made, changed
by the settings that succeeded on it, and the error slot tells of the last report. -/
structure Inv (trace : Trace) (s : Session) : Prop where
  fresh : ∀ p, s.next ≤ p → s.loaders p = none
  unseen : ∀ p, s.next ≤ p → trace.settings p = []
  configured : ∀ p handle, s.loaders p = some handle → ∃ base, trace.Made p base ∧
    handle = ⟨some ((trace.settings p).foldl loaderFields.write base)⟩
  error : s.lastError.isSome = trace.lastReportFailed

namespace Inv
variable {trace : Trace} {s s' : Session} {c : Call} {a : Answer}

theorem start : Inv [] .start where
  fresh _ _ := rfl
  unseen _ _ := rfl
  configured p handle h := by cases h
  error := rfl

theorem full (h : Inv trace s) : s.Full := by
  intro p handle hp
  obtain ⟨base, -, rfl⟩ := h.configured p handle hp
  exact ⟨_, rfl⟩

/-- A call that sets nothing and makes no loader at most releases one. -/
theorem snoc_unset (h : Inv trace s) (hnone : ∀ p, Trace.settingOf p (c, a) = none)
    (hsub : ∀ p handle, s'.loaders p = some handle → s.loaders p = some handle)
    (hnext : s.next ≤ s'.next)
    (herror : s'.lastError.isSome = (if c.reports then a.failed else s.lastError.isSome)) :
    Inv (trace ++ [(c, a)]) s' where
  fresh p hp := by
    cases hs' : s'.loaders p with
    | none => rfl
    | some handle =>
      have hs := hsub p handle hs'
      rw [h.fresh p (Nat.le_trans hnext hp)] at hs
      cases hs
  unseen p hp := by
    rw [Trace.settings_snoc, hnone, h.unseen p (Nat.le_trans hnext hp)]
    rfl
  configured p handle hp := by
    obtain ⟨base, hmade, hhandle⟩ := h.configured p handle (hsub p handle hp)
    refine ⟨base, hmade.snoc, ?_⟩
    rw [Trace.settings_snoc, hnone, Option.toList_none, List.append_nil]
    exact hhandle
  error := by rw [herror, Trace.lastReportFailed_snoc, h.error]

/-- Releasing a handle leaves only handles that were there. -/
theorem of_released {loaders : Nat → Option LoaderHandle} {p q : Nat} {handle : LoaderHandle}
    (h : Function.update loaders p none q = some handle) : loaders q = some handle := by
  by_cases hq : q = p
  · subst hq
    rw [Function.update_self] at h
    cases h
  · rwa [Function.update_of_ne hq] at h

/-- A setting that succeeds is the last one of its loader. -/
theorem snoc_configured {p : Nat} {w : Setting} {l : Loader} (h : Inv trace s)
    (hc : c.setting = some (p, w)) (hl : s.loaders p = some ⟨some l⟩) :
    Inv (trace ++ [(c, .code 0)]) { s with
      loaders := Function.update s.loaders p (some ⟨some (loaderFields.write l w)⟩)
      lastError := none } := by
  have hset : ∀ q, Trace.settingOf q (c, .code 0) = if p = q then some w else none := by
    intro q
    simp only [Trace.settingOf, hc, Option.bind_some]
    rfl
  have hlt : p < s.next := by
    by_contra hge
    rw [h.fresh p (Nat.not_lt.mp hge)] at hl
    cases hl
  exact {
    fresh := by
      intro q hq
      dsimp only at hq ⊢
      rw [Function.update_of_ne (by omega), h.fresh q hq]
    unseen := by
      intro q hq
      dsimp only at hq
      rw [Trace.settings_snoc, h.unseen q hq, hset, if_neg (by omega)]
      rfl
    configured := by
      intro q handle hq
      dsimp only at hq
      rw [Trace.settings_snoc, hset]
      by_cases hpq : p = q
      · subst hpq
        obtain ⟨base, hmade, hbase⟩ := h.configured p _ hl
        rw [Function.update_self] at hq
        cases hq
        refine ⟨base, hmade.snoc, ?_⟩
        rw [if_pos rfl, Option.toList_some, List.foldl_append, List.foldl_cons, List.foldl_nil]
        cases hbase
        rfl
      · rw [Function.update_of_ne (Ne.symm hpq)] at hq
        obtain ⟨base, hmade, hbase⟩ := h.configured q handle hq
        rw [if_neg hpq, Option.toList_none, List.append_nil]
        exact ⟨base, hmade.snoc, hbase⟩
    error := by
      rw [Trace.lastReportFailed_snoc, if_pos (reports_of_setting hc)]
      rfl }

/-- A constructor gives out the next handle, on which nothing has been set. -/
theorem snoc_constructed {base : Loader} (h : Inv trace s) (hc : c.constructs = some base) :
    Inv (trace ++ [(c, .handle (some s.next))]) { s with
      loaders := Function.update s.loaders s.next (some ⟨some base⟩)
      next := s.next + 1
      lastError := none } := by
  obtain ⟨hset, hreports⟩ := setting_of_constructs hc
  have hnone := @Trace.settingOf_of_setting_none c (.handle (some s.next)) hset
  exact {
    fresh := by
      intro q hq
      dsimp only at hq ⊢
      rw [Function.update_of_ne (by omega), h.fresh q (by omega)]
    unseen := by
      intro q hq
      dsimp only at hq
      rw [Trace.settings_snoc, hnone, h.unseen q (by omega)]
      rfl
    configured := by
      intro q handle hq
      dsimp only at hq
      rw [Trace.settings_snoc, hnone, Option.toList_none, List.append_nil]
      by_cases hnew : q = s.next
      · subst hnew
        rw [Function.update_self] at hq
        cases hq
        refine ⟨base, ⟨c, by simp, hc⟩, ?_⟩
        rw [h.unseen s.next (Nat.le_refl _)]
        rfl
      · rw [Function.update_of_ne hnew] at hq
        obtain ⟨base, hmade, hbase⟩ := h.configured q handle hq
        exact ⟨base, hmade.snoc, hbase⟩
    error := by
      rw [Trace.lastReportFailed_snoc, if_pos hreports]
      rfl }

/-- One call. -/
theorem snoc (h : Inv trace s) (heffect : Effect s c a s') : Inv (trace ++ [(c, a)]) s' := by
  cases heffect with
  | refused m hc ha =>
    refine h.snoc_unset (Trace.settingOf_of_failed ha) (fun _ _ hp => hp) (Nat.le_refl _) ?_
    rw [if_pos hc, ha]
    rfl
  | configured hc hl => exact h.snoc_configured hc hl
  | constructed hc => exact h.snoc_constructed hc
  | @consumed p host l r e hl hr he =>
    have hanswer : e.isSome = (Answer.image r.toOption).failed := he
    exact h.snoc_unset (Trace.settingOf_of_setting_none rfl) (fun _ _ => of_released)
      (Nat.le_refl _) hanswer
  | @freed p =>
    exact h.snoc_unset (Trace.settingOf_of_setting_none rfl) (fun _ _ => of_released)
      (Nat.le_refl _) rfl
  | reported hc ha hset hnew hnext =>
    refine h.snoc_unset (Trace.settingOf_of_setting_none hset) (fun _ _ hp => hp) hnext ?_
    rw [if_pos hc, ha]
    rfl
  | quiet hc _ =>
    have hset := setting_of_not_reports hc
    refine h.snoc_unset (Trace.settingOf_of_setting_none hset) (fun _ _ hp => hp)
      (Nat.le_refl _) ?_
    rw [if_neg (by rw [hc]; exact Bool.false_ne_true)]

end Inv

/-- The invariant holds after every run. -/
theorem Run.inv {trace : Trace} {s : Session} (h : Run trace s) : Inv trace s := by
  induction h with
  | start => exact .start
  | call _ hlive hstep ih => exact ih.snoc (step_effect ih.full hlive hstep)

/-- Before any setting a loader has the default configuration. -/
theorem get_constructs {c : Call} {base : Loader} (h : c.constructs = some base)
    (f : LoaderField) : loaderFields.get base f = f.default := by
  cases c with
  | loaderNewPath path =>
    obtain ⟨path, -, rfl⟩ := Option.map_eq_some_iff.mp h
    cases f <;> rfl
  | loaderNewBytes data =>
    have hnew : (if data.missing then none else some (Loader.newBytes data.copied)) = some base := h
    split at hnew <;> cases hnew
    cases f <;> rfl
  | _ => cases h

section
variable {trace : Trace} {s s' : Session} {c : Call} {a : Answer}

/-- A code other than 0 comes with no change to any handle. -/
theorem Effect.refused_keeps {k : Int32} (h : Effect s c (.code k) s') (hk : k ≠ 0) :
    s'.loaders = s.loaders ∧ s'.encoders = s.encoders := by
  generalize ha : Answer.code k = a at h
  cases h with
  | refused => exact ⟨rfl, rfl⟩
  | configured => cases ha; exact absurd rfl hk
  | constructed => cases ha
  | consumed => cases ha
  | freed => cases ha
  | reported _ hfailed =>
    subst ha
    exact absurd (bne_iff_ne.mpr hk) (by rw [show (k != 0) = false from hfailed]; decide)
  | quiet _ hcode =>
    subst ha
    cases hcode

/-- A setter that answers 0 has written its setting to its loader. -/
theorem Effect.setting_writes {p : Nat} {w : Setting} (h : Effect s c (.code 0) s')
    (hset : c.setting = some (p, w)) : ∃ l, s.loaders p = some ⟨some l⟩ ∧
      s'.loaders = Function.update s.loaders p (some ⟨some (loaderFields.write l w)⟩) ∧
      s'.encoders = s.encoders := by
  generalize ha : Answer.code 0 = a at h
  cases h with
  | refused m hc hfailed =>
    subst ha
    cases hfailed
  | @configured _ q w l hc hl =>
    rw [hset] at hc
    cases hc
    exact ⟨l, hl, rfl, rfl⟩
  | constructed => cases ha
  | consumed => cases ha
  | freed => cases ha
  | reported _ _ hnone =>
    rw [hset] at hnone
    cases hnone
  | quiet hc _ =>
    rw [setting_of_not_reports hc] at hset
    cases hset

/-- What a live loader is configured with. -/
theorem Inv.configuration {p : Nat} {l : Loader} (h : Inv trace s)
    (hp : s.loaders p = some ⟨some l⟩) :
    (∀ f, LoaderField.get l f = (lastWrite f (trace.settings p)).getD f.default) ∧
      ∃ base, trace.Made p base ∧
        (l.source, l.extensionHint) = (base.source, base.extensionHint) := by
  obtain ⟨base, hmade, hbase⟩ := h.configured p _ hp
  obtain ⟨c, hmem, hmakes⟩ := id hmade
  cases hbase
  refine ⟨fun f => ?_, base, hmade, ?_⟩
  · have hget := loaderFields.get_foldl_write (trace.settings p) base f
    rw [get_constructs hmakes] at hget
    exact hget
  · exact loaderFields.foldl_write_eq (p := fun l => (l.source, l.extensionHint)) source_set _ _

end

/-- After any run of calls on live handles: a setter or add call that fails changes no
handle, and every loader that is live can be used; a setter that succeeds changes its own
field only; a load consumes the configuration of the last successful setters and the
defaults; and the last-error slot is filled exactly when the last reporting call failed. -/
theorem calls_truthful {trace : Trace} {s : Session} (h : Run trace s) :
    (∀ c k s', s.Live c → step s c = .ok (.code k, s') → k ≠ 0 →
      s'.loaders = s.loaders ∧ s'.encoders = s.encoders) ∧
    (∀ p handle, s.loaders p = some handle → handle.inner.isSome = true) ∧
    (∀ c p f v s', s.Live c → c.setting = some (p, ⟨f, v⟩) →
      step s c = .ok (.code 0, s') → ∃ l l', s.loaders p = some ⟨some l⟩ ∧
        s'.loaders = Function.update s.loaders p (some ⟨some l'⟩) ∧ s'.encoders = s.encoders ∧
        LoaderField.get l' f = v ∧ (∀ g, g ≠ f → LoaderField.get l' g = LoaderField.get l g) ∧
        (l'.source, l'.extensionHint) = (l.source, l.extensionHint)) ∧
    (∀ p host a s', s.Live (.loaderLoad (some p) host) →
      step s (.loaderLoad (some p) host) = .ok (a, s') → ∃ l r, s.loaders p = some ⟨some l⟩ ∧
        l.load host = .ok r ∧ a = .image r.toOption ∧
        (∀ f, LoaderField.get l f = (lastWrite f (trace.settings p)).getD f.default) ∧
        ∃ base, trace.Made p base ∧
          (l.source, l.extensionHint) = (base.source, base.extensionHint)) ∧
    (s.lastError.isSome = true ↔ trace.lastReportFailed = true) := by
  have hinv := h.inv
  refine ⟨?_, ?_, ?_, ?_, by rw [hinv.error]⟩
  · intro c k s' hlive hstep hk
    exact (step_effect hinv.full hlive hstep).refused_keeps hk
  · intro p handle hp
    obtain ⟨l, rfl⟩ := hinv.full p handle hp
    rfl
  · intro c p f v s' hlive hset hstep
    obtain ⟨l, hl, hloaders, hencoders⟩ :=
      (step_effect hinv.full hlive hstep).setting_writes hset
    refine ⟨l, _, hl, hloaders, hencoders, ?_, ?_, ?_⟩
    · exact loaderFields.get_set_self l f v
    · intro g hg
      exact loaderFields.get_set_ne l f v g hg
    · exact source_set l f v
  · intro p host a s' hlive hstep
    obtain ⟨handle, hp⟩ := Option.isSome_iff_exists.mp (hlive.loader p rfl)
    obtain ⟨l, rfl⟩ := hinv.full p handle hp
    obtain ⟨r, e, hr, ha, -, -⟩ := step_load_ok hp hstep
    obtain ⟨hfields, hsource⟩ := hinv.configuration hp
    exact ⟨l, r, hp, hr, ha, hfields, hsource⟩

/-- A width cap and a format hint with an unknown constant. -/
def refusedHint : Trace :=
  [(.loaderNewBytes (.bytes [1]), .handle (some 0)), (.loaderSetMaxWidth (some 0) 7, .code 0),
    (.loaderFormatHint (some 0) 99, .code (-1))]

theorem calls_truthful_refusedHint :
    ∃ s, Run refusedHint s ∧ s.lastError.isSome = true ∧
      ∀ handle, s.loaders 0 = some handle → handle.inner.isSome = true := by
  have live : ∀ {s : Session} {c : Call}, c.loaderArg = some 0 → c.encoderArg = none →
      (s.loaders 0).isSome = true → s.Live c := by
    intro s c hloader hencoder hsome
    constructor
    · intro p hp
      rw [hloader] at hp
      cases hp
      exact hsome
    · intro p hp
      rw [hencoder] at hp
      cases hp
  have made : Session.Live .start (.loaderNewBytes (.bytes [1])) := by
    constructor <;> rintro p ⟨⟩
  obtain ⟨s, hrun⟩ : ∃ s, Run refusedHint s :=
    ⟨_, .call (.call (.call .start made rfl) (live rfl rfl rfl) rfl) (live rfl rfl rfl) rfl⟩
  obtain ⟨-, husable, -, -, herror⟩ := calls_truthful hrun
  exact ⟨s, hrun, herror.mpr (by decide), husable 0⟩

end GlycinNg.CApi
