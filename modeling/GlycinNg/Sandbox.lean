import GlycinNg.Limits

/-! # The decode worker

`sandbox/mod.rs`. The kernel's answers (can the thread be spawned, which layers
were applied) are inputs; the selection of layers, the strictness check and the
way a worker's result or panic reaches the caller are the code's. -/
namespace GlycinNg

/-- Filesystem-restriction layer status. -/
inductive LandlockPosture where
  | enforced (abi : UInt32)
  | unsupported (reason : String)
  | disabled
  deriving DecidableEq, Repr

/-- Syscall-filter layer status. -/
inductive SeccompPosture where
  | enforced
  | unsupported (reason : String)
  | disabled
  deriving DecidableEq, Repr

/-- `setrlimit` layer status. -/
inductive RlimitPosture where
  | applied (asMib cpuSeconds : UInt64)
  | partiallyApplied (detail : String)
  | disabled
  deriving DecidableEq, Repr

structure SandboxPosture where
  landlock : LandlockPosture
  seccomp : SeccompPosture
  rlimit : RlimitPosture
  deriving DecidableEq, Repr

def SandboxPosture.none : SandboxPosture := ⟨.disabled, .disabled, .disabled⟩

/-- Which layers a caller asks for. -/
structure SandboxSelector where
  landlock : Bool
  seccomp : Bool
  rlimit : Bool
  strict : Bool
  deriving DecidableEq, Repr

def SandboxSelector.default : SandboxSelector where
  landlock := true
  seccomp := true
  rlimit := false
  strict := false

def SandboxSelector.none : SandboxSelector := ⟨false, false, false, false⟩

namespace Sandbox

/-- What the operating system answers while one worker is set up. -/
structure Kernel where
  /-- The I/O error of a thread that could not be spawned. -/
  spawnError : Option String
  landlockApply : LandlockPosture
  seccompApply : SeccompPosture
  /-- Whether `setrlimit(RLIMIT_AS)` and `setrlimit(RLIMIT_CPU)` succeed. -/
  setrlimitAs : Bool
  setrlimitCpu : Bool

/-- `rlimit::apply`. -/
def rlimitApply (k : Kernel) (decodeMemoryMib decodeCpuSeconds : UInt64) : RlimitPosture :=
  match k.setrlimitAs, k.setrlimitCpu with
  | true, true => .applied decodeMemoryMib decodeCpuSeconds
  | true, false => .partiallyApplied "RLIMIT_CPU not applied"
  | false, true => .partiallyApplied "RLIMIT_AS not applied"
  | false, false => .partiallyApplied "neither RLIMIT_AS nor RLIMIT_CPU applied"

def applyLayers (k : Kernel) (s : SandboxSelector) (l : Limits) : SandboxPosture where
  rlimit := if s.rlimit then rlimitApply k l.decodeMemoryMib l.decodeCpuSeconds else .disabled
  landlock := if s.landlock then k.landlockApply else .disabled
  seccomp := if s.seccomp then k.seccompApply else .disabled

def checkStrict (s : SandboxSelector) (p : SandboxPosture) : Except Error Unit :=
  if !s.strict then .ok ()
  else if s.landlock && !(p.landlock matches .enforced _) then
    .error (.sandboxUnavailable "landlock")
  else if s.seccomp && !(p.seccomp matches .enforced) then .error (.sandboxUnavailable "seccomp")
  else if s.rlimit && !(p.rlimit matches .applied _ _) then .error (.sandboxUnavailable "rlimit")
  else .ok ()

/-- The payload of a panic that unwound the worker. -/
inductive PanicPayload where
  | str (s : String)
  | string (s : String)
  | other
  deriving DecidableEq, Repr

def panicMessage : PanicPayload → String
  | .str s => "decode worker panicked: " ++ s
  | .string s => "decode worker panicked: " ++ s
  | .other => "decode worker panicked"

/-- `run_in_worker`: `work` is what the closure does on the worker, a panic of
its thread included. This is the build whose panics unwind; with `panic = "abort"`,
as in the release profile, a panic ends the process and nothing is joined. -/
def runInWorker {α : Type} (k : Kernel) (selector : SandboxSelector) (limits : Limits)
    (work : Except PanicPayload (Except Error α)) : Except Error (α × SandboxPosture) :=
  match k.spawnError with
  | some e => .error (.io e)
  | none =>
    let posture := applyLayers k selector limits
    match checkStrict selector posture with
    | .error e => .error e
    | .ok () =>
      match work with
      | .error payload => .error (.internal (panicMessage payload))
      | .ok (.error e) => .error e
      | .ok (.ok r) => .ok (r, posture)

/-- The worker hands back only what its closure returned. -/
theorem runInWorker_ok {α : Type} {k : Kernel} {selector : SandboxSelector} {limits : Limits}
    {work : Except PanicPayload (Except Error α)} {r : α} {posture : SandboxPosture}
    (h : runInWorker k selector limits work = .ok (r, posture)) :
    work = .ok (.ok r) ∧ posture = applyLayers k selector limits := by
  unfold runInWorker at h
  split at h
  · cases h
  · dsimp only at h
    split at h
    · cases h
    · split at h
      · cases h
      · cases h
      · cases h
        exact ⟨rfl, rfl⟩

end Sandbox

end GlycinNg
