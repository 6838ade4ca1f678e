import GlycinNg.Sandbox.Seccomp
import GlycinNg.Confined.Threads

/-! # The process around the workers

`sandbox/mod.rs` with `landlock.rs` and `rlimit.rs`, in a process whose threads run as they
like: callers, the workers of any number of decodes, and the threads that the decoders start.
The filters and the file-system domain bind a thread; the resource limits bind the process. -/
namespace GlycinNg.Sandbox
open Rust Confined

/-! ## Landlock -/

/-- The access rights, network rights and scopes that `landlock::apply` handles. -/
inductive Access where
  | execute | writeFile | readFile | readDir | removeDir | removeFile | makeChar | makeDir
  | makeReg | makeSock | makeFifo | makeBlock | makeSym
  | refer
  | truncate
  | bindTcp | connectTcp
  | ioctlDev
  | abstractUnixSocket | signal
  deriving DecidableEq, Repr

/-- The version of the kernel's interface that brought the right. -/
def Access.since : Access → UInt32
  | .refer => 2
  | .truncate => 3
  | .bindTcp | .connectTcp => 4
  | .ioctlDev => 5
  | .abstractUnixSocket | .signal => 6
  | _ => 1

inductive RulesetStatus where
  | fullyEnforced | partiallyEnforced | notEnforced
  deriving DecidableEq, Repr

/-- What the kernel answers `landlock::apply`. -/
structure LandlockAnswers where
  /-- The result of `landlock_create_ruleset` with the version flag. -/
  version : Int64
  handled : Bool
  created : Bool
  restricted : Option RulesetStatus
  deriving DecidableEq

/-- `probe_kernel_abi`. -/
def probeKernelAbi (v : Int64) : UInt32 := if v < 0 then 0 else v.toUInt64.toUInt32

/-- `landlock::apply`. -/
def landlockApply (a : LandlockAnswers) : LandlockPosture :=
  let kernelAbi := probeKernelAbi a.version
  if kernelAbi = 0 then .unsupported "kernel does not support landlock"
  else if !a.handled then .unsupported "handle_access failed"
  else if !a.created then .unsupported "ruleset create failed"
  else match a.restricted with
    | none => .unsupported "restrict_self failed"
    | some .fullyEnforced | some .partiallyEnforced => .enforced kernelAbi
    | some .notEnforced => .unsupported "kernel does not support landlock"

/-! ## Resource limits -/

/-- `libc::rlimit`. -/
structure Rlimit where
  cur : UInt64
  max : UInt64
  deriving DecidableEq, Repr

inductive Resource where
  | as | cpu
  deriving DecidableEq, Repr

/-- The limits of the process. -/
abbrev Caps := Resource → Rlimit

/-- What `rlimit::apply` asks for. -/
def requested (l : Limits) : Resource → UInt64
  | .as => u64SaturatingMul l.decodeMemoryMib (1024 * 1024)
  | .cpu => l.decodeCpuSeconds

/-! ## The system around the code -/

/-- A call into the kernel: the registers, and what it wants of files, network and scopes. -/
structure Syscall where
  data : SeccompData
  access : List Access

inductive Rule where
  | filter (filter : SeccompFilter)
  | domain (abi : UInt32)

/-- The parts that are not the code's. -/
structure System where
  number : Sysno → Int
  answer : SeccompFilter → SeccompData → SeccompAction
  /-- Whether a domain without rules, made by a kernel of this version, refuses the access. -/
  refuses : UInt32 → Access → Bool
  setrlimit : Rlimit → Rlimit → Option Rlimit

def System.admits (sys : System) : Rule → Syscall → Prop
  | .filter filter, c => sys.answer filter c.data = .allow
  | .domain abi, c => ∀ a ∈ c.access, sys.refuses abi a = false

/-- What is documented of filters and domains: a handled right without a rule is refused. -/
structure System.Documented (sys : System) : Prop where
  filters : Filters sys.number sys.answer
  domains : ∀ abi a, a.since ≤ abi → sys.refuses abi a = true

/-- A process without privileges only lowers its hard limits. -/
def System.Unprivileged (sys : System) : Prop :=
  ∀ old new r, sys.setrlimit old new = some r → r = new ∧ new.max ≤ old.max

/-! ## Workers -/

structure Job where
  selector : SandboxSelector
  limits : Limits
  deriving DecidableEq

/-- Where a thread is in the code; `free` is a caller, or a thread that some thread started. -/
inductive Stage (α : Type) where
  | free
  | spawned (job : Job)
  | capped (job : Job) (asApplied : Bool)
  | limited (job : Job) (rlimit : RlimitPosture)
  | walled (job : Job) (rlimit : RlimitPosture) (landlock : LandlockPosture)
  | layered (job : Job) (posture : SandboxPosture)
  | working (job : Job) (posture : SandboxPosture)
  | ended (job : Job) (posture : SandboxPosture) (result : Except Error (α × SandboxPosture))

/-- Code runs there that is not the sandbox's own. -/
def Stage.Runs {α : Type} : Stage α → Prop
  | .free | .working .. => True
  | _ => False

structure Answers (α : Type) where
  landlock : LandlockAnswers
  seccomp : SeccompAnswers
  /-- What the closure does, a panic included. -/
  work : Except PanicPayload (Except Error α)

/-- `setrlimit`: whether it succeeded, and the limits after it. -/
def System.attempt (sys : System) (caps : Caps) (resource : Resource) (value : UInt64) :
    Bool × Caps :=
  match sys.setrlimit (caps resource) ⟨value, value⟩ with
  | some r => (true, Function.update caps resource r)
  | none => (false, caps)

/-- What `rlimit::apply` makes of the two calls. -/
def rlimitPosture (l : Limits) (asApplied cpuApplied : Bool) : RlimitPosture :=
  rlimitApply ⟨none, .disabled, .disabled, asApplied, cpuApplied⟩ l.decodeMemoryMib
    l.decodeCpuSeconds

def landlockRule : LandlockPosture → Option Rule
  | .enforced abi => some (.domain abi)
  | _ => none

/-- What the closure leaves for the caller: its result, or its panic as an error. -/
def joined {α : Type} (posture : SandboxPosture) :
    Except PanicPayload (Except Error α) → Except Error (α × SandboxPosture)
  | .error payload => .error (.internal (panicMessage payload))
  | .ok (.error e) => .error e
  | .ok (.ok r) => .ok (r, posture)

/-- The next thing a worker does: `apply_layers` a layer at a time, `check_strict`, the closure
and the join. With it come the limits of the process and the rule it took on, if any. -/
def System.advance {α : Type} (sys : System) (caps : Caps) (a : Answers α) :
    Stage α → Option (Stage α × Caps × Option Rule)
  | .free => none
  | .spawned job =>
    if job.selector.rlimit then
      let (applied, caps') := sys.attempt caps .as (requested job.limits .as)
      some (.capped job applied, caps', none)
    else some (.limited job .disabled, caps, none)
  | .capped job asApplied =>
    let (applied, caps') := sys.attempt caps .cpu (requested job.limits .cpu)
    some (.limited job (rlimitPosture job.limits asApplied applied), caps', none)
  | .limited job rlimit =>
    if job.selector.landlock then
      let posture := landlockApply a.landlock
      some (.walled job rlimit posture, caps, landlockRule posture)
    else some (.walled job rlimit .disabled, caps, none)
  | .walled job rlimit landlock =>
    if job.selector.seccomp then
      let (posture, filter) := seccompApply sys.number a.seccomp
      some (.layered job ⟨landlock, posture, rlimit⟩, caps, filter.map .filter)
    else some (.layered job ⟨landlock, .disabled, rlimit⟩, caps, none)
  | .layered job posture =>
    match checkStrict job.selector posture with
    | .error e => some (.ended job posture (.error e), caps, none)
    | .ok () => some (.working job posture, caps, none)
  | .working job posture => some (.ended job posture (joined posture a.work), caps, none)
  | .ended .. => none

structure Process (α : Type) where
  held : Held Nat Rule
  stage : Nat → Stage α
  caps : Caps

namespace Process
variable {α : Type}

/-- The rules of a thread after one more. -/
def take (held : Held Nat Rule) (w : Nat) (rules : List Rule) : Option Rule → Held Nat Rule
  | none => held
  | some r => Function.update held w (some (r :: rules))

/-- What happens when a thread takes its turn. -/
inductive Step (sys : System) :
    Process α → List (Event Nat Syscall Rule) → Process α → Prop where
  /-- A call that nothing refuses. -/
  | perform {p : Process α} {t : Nat} {rules : List Rule} {c : Syscall}
      (hruns : (p.stage t).Runs) (ht : p.held t = some rules)
      (hadmits : ∀ r ∈ rules, sys.admits r c) : Step sys p [.performed t c] p
  | setrlimit {p : Process α} {t : Nat} {resource : Resource} {new r : Rlimit}
      (hruns : (p.stage t).Runs) (h : sys.setrlimit (p.caps resource) new = some r) :
      Step sys p [] { p with caps := Function.update p.caps resource r }
  | start {p : Process α} {t child : Nat} {rules : List Rule} (hruns : (p.stage t).Runs)
      (ht : p.held t = some rules) (hfresh : p.held child = none) :
      Step sys p [.started t child]
        { p with held := Function.update p.held child (some rules) }
  /-- `run_in_worker`, in any thread. -/
  | decode {p : Process α} {t w : Nat} {rules : List Rule} (job : Job)
      (hruns : (p.stage t).Runs) (ht : p.held t = some rules) (hfresh : p.held w = none) :
      Step sys p [.started t w]
        { p with
          held := Function.update p.held w (some rules)
          stage := Function.update p.stage w (.spawned job) }
  | advance {p : Process α} {w : Nat} {rules : List Rule} {a : Answers α} {stage : Stage α}
      {caps : Caps} {rule : Option Rule} (hw : p.held w = some rules)
      (h : sys.advance p.caps a (p.stage w) = some (stage, caps, rule)) :
      Step sys p (rule.map (Event.restricted w)).toList
        ⟨take p.held w rules rule, Function.update p.stage w stage, caps⟩

inductive Run (sys : System) : Process α → List (Event Nat Syscall Rule) → Process α → Prop where
  | nil (p : Process α) : Run sys p [] p
  | cons {p p' p'' : Process α} {e events : List (Event Nat Syscall Rule)}
      (h : Step sys p e p') (hrun : Run sys p' events p'') : Run sys p (e ++ events) p''

variable {sys : System} {p p' p'' : Process α} {e events : List (Event Nat Syscall Rule)}

/-- To the kernel, a step of the process is one of threads under restrictions. -/
theorem Step.held (h : Step sys p e p') : Confined.Step sys.admits p.held e p'.held := by
  cases h with
  | perform hruns ht hadmits => exact .perform ht hadmits
  | setrlimit hruns h => exact .quiet _
  | start hruns ht hfresh => exact .start ht hfresh
  | decode job hruns ht hfresh => exact .start ht hfresh
  | @advance w rules a stage caps rule hw h =>
    cases rule with
    | none => exact .quiet _
    | some r => exact .restrict hw

theorem Run.held (h : Run sys p events p') : Confined.Run sys.admits p.held events p'.held := by
  induction h with
  | nil => exact .nil _
  | cons hstep _ ih => exact .cons hstep.held ih

end Process

/-! ## What a worker says and what it holds -/

namespace Stage
variable {α : Type}

def landlock : Stage α → LandlockPosture
  | .walled _ _ landlock => landlock
  | .layered _ posture | .working _ posture | .ended _ posture _ => posture.landlock
  | _ => .disabled

def seccomp : Stage α → SeccompPosture
  | .layered _ posture | .working _ posture | .ended _ posture _ => posture.seccomp
  | _ => .disabled

/-- The layers of a worker that has been through `check_strict` one way or the other. -/
def settled : Stage α → Option (Job × SandboxPosture)
  | .working job posture | .ended job posture _ => some (job, posture)
  | _ => none

theorem landlock_of_settled {stage : Stage α} {job : Job} {posture : SandboxPosture}
    (h : stage.settled = some (job, posture)) : stage.landlock = posture.landlock := by
  cases stage <;> cases h <;> rfl

theorem seccomp_of_settled {stage : Stage α} {job : Job} {posture : SandboxPosture}
    (h : stage.settled = some (job, posture)) : stage.seccomp = posture.seccomp := by
  cases stage <;> cases h <;> rfl

theorem eq_free_of_runs {stage : Stage α} (hruns : stage.Runs) (h : stage.settled = none) :
    stage = .free := by
  cases stage with
  | free => rfl
  | working => cases h
  | _ => exact hruns.elim

end Stage

/-- What `advance` can do, one constructor for each way through the code. -/
inductive Moves {α : Type} (sys : System) (caps : Caps) (a : Answers α) :
    Stage α → Stage α → Caps → Option Rule → Prop where
  | rlimitOff (job : Job) (hoff : job.selector.rlimit = false) :
      Moves sys caps a (.spawned job) (.limited job .disabled) caps none
  | capAs (job : Job) (hon : job.selector.rlimit = true) :
      Moves sys caps a (.spawned job)
        (.capped job (sys.attempt caps .as (requested job.limits .as)).1)
        (sys.attempt caps .as (requested job.limits .as)).2 none
  | capCpu (job : Job) (asApplied : Bool) :
      Moves sys caps a (.capped job asApplied)
        (.limited job (rlimitPosture job.limits asApplied
          (sys.attempt caps .cpu (requested job.limits .cpu)).1))
        (sys.attempt caps .cpu (requested job.limits .cpu)).2 none
  | landlockOff (job : Job) (rlimit : RlimitPosture) (hoff : job.selector.landlock = false) :
      Moves sys caps a (.limited job rlimit) (.walled job rlimit .disabled) caps none
  | landlock (job : Job) (rlimit : RlimitPosture) (hon : job.selector.landlock = true) :
      Moves sys caps a (.limited job rlimit) (.walled job rlimit (landlockApply a.landlock)) caps
        (landlockRule (landlockApply a.landlock))
  | seccompOff (job : Job) (rlimit : RlimitPosture) (landlock : LandlockPosture)
      (hoff : job.selector.seccomp = false) :
      Moves sys caps a (.walled job rlimit landlock) (.layered job ⟨landlock, .disabled, rlimit⟩)
        caps none
  | seccomp (job : Job) (rlimit : RlimitPosture) (landlock : LandlockPosture)
      (hon : job.selector.seccomp = true) :
      Moves sys caps a (.walled job rlimit landlock)
        (.layered job ⟨landlock, (seccompApply sys.number a.seccomp).1, rlimit⟩) caps
        ((seccompApply sys.number a.seccomp).2.map .filter)
  | refused (job : Job) (posture : SandboxPosture) {e : Error}
      (h : checkStrict job.selector posture = .error e) :
      Moves sys caps a (.layered job posture) (.ended job posture (.error e)) caps none
  | admitted (job : Job) (posture : SandboxPosture)
      (h : checkStrict job.selector posture = .ok ()) :
      Moves sys caps a (.layered job posture) (.working job posture) caps none
  | joined (job : Job) (posture : SandboxPosture) :
      Moves sys caps a (.working job posture) (.ended job posture (joined posture a.work)) caps
        none

namespace System
variable {α : Type} {sys : System} {caps caps' : Caps} {a : Answers α} {stage stage' : Stage α}
  {rule : Option Rule}

theorem moves_of_advance (h : sys.advance caps a stage = some (stage', caps', rule)) :
    Moves sys caps a stage stage' caps' rule := by
  cases stage with
  | free => cases h
  | spawned job =>
    rw [advance] at h
    split at h
    · cases h
      exact .capAs job ‹_›
    · cases h
      exact .rlimitOff job (Bool.eq_false_iff.mpr ‹_›)
  | capped job asApplied =>
    cases h
    exact .capCpu job asApplied
  | limited job rlimit =>
    rw [advance] at h
    split at h
    · cases h
      exact .landlock job rlimit ‹_›
    · cases h
      exact .landlockOff job rlimit (Bool.eq_false_iff.mpr ‹_›)
  | walled job rlimit landlock =>
    rw [advance] at h
    split at h
    · cases h
      exact .seccomp job rlimit landlock ‹_›
    · cases h
      exact .seccompOff job rlimit landlock (Bool.eq_false_iff.mpr ‹_›)
  | layered job posture =>
    rw [advance] at h
    split at h
    · cases h
      exact .refused job posture ‹_›
    · cases h
      exact .admitted job posture ‹_›
  | working job posture =>
    cases h
    exact .joined job posture
  | ended => cases h

end System

/-- A kernel that knows nothing of landlock has version 0. -/
theorem landlockApply_enforced {a : LandlockAnswers} {abi : UInt32}
    (h : landlockApply a = .enforced abi) : 1 ≤ abi := by
  unfold landlockApply at h
  grind

theorem seccompApply_enforced {number : Sysno → Int} {a : SeccompAnswers}
    (h : (seccompApply number a).1 = .enforced) :
    ∃ arch, (seccompApply number a).2 = some (buildFilter number arch) := by
  unfold seccompApply at h ⊢
  grind

namespace Moves
variable {α : Type} {sys : System} {caps caps' : Caps} {a : Answers α} {stage stage' : Stage α}
  {rule : Option Rule}

/-- A filesystem status that a move comes to is one the worker had, or the domain it took on. -/
theorem landlock_cases (h : Moves sys caps a stage stage' caps' rule) {abi : UInt32}
    (hposture : stage'.landlock = .enforced abi) :
    stage.landlock = .enforced abi ∨ rule = some (.domain abi) ∧ 1 ≤ abi := by
  cases h with
  | landlock job rlimit hon =>
    have hposture : landlockApply a.landlock = .enforced abi := hposture
    refine .inr ⟨?_, landlockApply_enforced hposture⟩
    rw [hposture, landlockRule]
  | rlimitOff | capAs | capCpu | landlockOff => cases hposture
  | _ => exact .inl hposture

/-- The same of the filter. -/
theorem seccomp_cases (h : Moves sys caps a stage stage' caps' rule)
    (hposture : stage'.seccomp = .enforced) :
    stage.seccomp = .enforced ∨
      ∃ arch, rule = some (.filter (buildFilter sys.number arch)) := by
  cases h with
  | seccomp job rlimit landlock hon =>
    obtain ⟨arch, hfilter⟩ := seccompApply_enforced hposture
    exact .inr ⟨arch, by rw [hfilter, Option.map_some]⟩
  | refused | admitted | joined => exact .inl hposture
  | _ => cases hposture

/-- Once settled, the layers stay. -/
theorem settled (h : Moves sys caps a stage stage' caps' rule) {job : Job}
    {posture : SandboxPosture} (hsettled : stage.settled = some (job, posture)) :
    stage'.settled = some (job, posture) := by
  cases h with
  | joined => exact hsettled
  | _ => cases hsettled

theorem not_free (h : Moves sys caps a stage stage' caps' rule) : stage ≠ .free := by
  cases h <;> nofun

theorem not_free_after (h : Moves sys caps a stage stage' caps' rule) : stage' ≠ .free := by
  cases h <;> nofun

end Moves

namespace Process
variable {α : Type} {sys : System} {p p' : Process α} {e : List (Event Nat Syscall Rule)}

/-- What a step can do to one thread's place in the code. -/
theorem Step.stage_cases (h : Step sys p e p') (t : Nat) :
    p'.stage t = p.stage t ∨
    (∃ job, p'.stage t = .spawned job ∧ p.held t = none ∧ p'.held t ≠ none) ∨
    ∃ rules a rule, p.held t = some rules ∧
      Moves sys p.caps a (p.stage t) (p'.stage t) p'.caps rule ∧
      p'.held t = some (rule.toList ++ rules) ∧ e = (rule.map (Event.restricted t)).toList := by
  cases h with
  | perform => exact .inl rfl
  | setrlimit => exact .inl rfl
  | start => exact .inl rfl
  | @decode u w rules job hruns hu hfresh =>
    by_cases heq : t = w
    · subst heq
      refine .inr (.inl ⟨job, Function.update_self .., hfresh, ?_⟩)
      dsimp only
      rw [Function.update_self]
      exact Option.some_ne_none _
    · exact .inl (Function.update_of_ne heq ..)
  | @advance w rules a stage caps rule hw h =>
    by_cases heq : t = w
    · subst heq
      refine .inr (.inr ⟨rules, a, rule, hw, ?_, ?_, rfl⟩)
      · dsimp only
        rw [Function.update_self]
        exact System.moves_of_advance h
      · cases rule with
        | none => exact hw
        | some r => exact Function.update_self ..
    · exact .inl (Function.update_of_ne heq ..)

end Process

end GlycinNg.Sandbox
