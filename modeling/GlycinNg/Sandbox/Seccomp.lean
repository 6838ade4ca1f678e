import GlycinNg.Sandbox

/-! # The system-call filter

`sandbox/seccomp.rs`. `buildFilter` is the code's; how `seccompiler` compiles a filter and the
kernel runs it is not, and comes in as `Filters`, with what both document. What the filter
lets through is then a matter of the list (`Filters.allow_iff`). -/
namespace GlycinNg.Sandbox

/-- The system calls that the source names, by their names in `libc`. -/
inductive Sysno where
  -- Process and thread state.
  | exit | exitGroup | restartSyscall | rtSigreturn | rtSigprocmask | rtSigaction | sigaltstack
  | schedYield | schedGetaffinity | getpriority | setpriority | prctl | gettid | getpid | getppid
  | getuid | geteuid | getgid | getegid | getrandom | uname | sysinfo | prlimit64 | tgkill
  | setRobustList | getRobustList | setTidAddress | rseq | membarrier | wait4
  -- Time and sleep.
  | futex | nanosleep | clockNanosleep | clockGettime | clockGetres | gettimeofday
  -- Memory.
  | brk | mmap | munmap | mprotect | mremap | madvise | memfdCreate | getMempolicy | setMempolicy
  -- Open file descriptors.
  | read | write | readv | writev | pread64 | pwrite64 | lseek | close | closeRange | dup | dup3
  | fcntl | ftruncate | ioctl | fstat | fstatfs | statx | newfstatat
  -- File opening and metadata.
  | openat | openat2 | getcwd | getdents64 | faccessat | faccessat2 | readlinkat
  -- Events.
  | epollCreate1 | epollCtl | epollPwait | eventfd2 | pipe2 | ppoll | signalfd4 | timerfdCreate
  | timerfdSettime
  -- Threads.
  | clone3 | clone
  -- The older names of x86_64.
  | archPrctl | access | «open» | stat | creat | dup2 | epollCreate | epollWait | eventfd | pipe
  | poll | readlink | signalfd | time | fadvise64
  -- What the comment on the list keeps out.
  | socket | connect | bind | listen | accept | accept4 | recvfrom | recvmsg | recvmmsg | sendto
  | sendmsg | sendmmsg | socketcall | getsockopt | setsockopt | getsockname | getpeername
  | execve | execveat | fork | vfork
  | unshare | setns | pivotRoot | chroot | mount | umount | umount2 | chdir | fchdir
  | capget | capset
  | ptrace | processVmReadv | processVmWritev | bpf | perfEventOpen | keyctl | requestKey
  deriving DecidableEq, Repr

inductive TargetArch where
  | x86_64 | aarch64
  deriving DecidableEq, Repr

/-- The list of `build_filter`; the last part is compiled in on x86_64 only. -/
def allowed (arch : TargetArch) : List Sysno :=
  [.exit, .exitGroup, .restartSyscall, .rtSigreturn, .rtSigprocmask, .rtSigaction, .sigaltstack,
    .schedYield, .schedGetaffinity, .getpriority, .setpriority, .prctl, .gettid, .getpid,
    .getppid, .getuid, .geteuid, .getgid, .getegid, .getrandom, .uname, .sysinfo, .prlimit64,
    .tgkill, .setRobustList, .getRobustList, .setTidAddress, .rseq, .membarrier, .wait4,
    .futex, .nanosleep, .clockNanosleep, .clockGettime, .clockGetres, .gettimeofday,
    .brk, .mmap, .munmap, .mprotect, .mremap, .madvise, .memfdCreate, .getMempolicy,
    .setMempolicy,
    .read, .write, .readv, .writev, .pread64, .pwrite64, .lseek, .close, .closeRange, .dup,
    .dup3, .fcntl, .ftruncate, .ioctl, .fstat, .fstatfs, .statx, .newfstatat,
    .openat, .openat2, .getcwd, .getdents64, .faccessat, .faccessat2, .readlinkat,
    .epollCreate1, .epollCtl, .epollPwait, .eventfd2, .pipe2, .ppoll, .signalfd4,
    .timerfdCreate, .timerfdSettime,
    .clone3] ++
  match arch with
  | .x86_64 =>
    [.archPrctl, .access, .open, .stat, .creat, .dup2, .epollCreate, .epollWait, .eventfd, .pipe,
      .poll, .readlink, .signalfd, .time, .fadvise64]
  | .aarch64 => []

/-- The calls that the comment of `build_filter` says cannot be afforded: network, processes,
namespaces, capabilities, other processes' memory. -/
def contained : List Sysno :=
  [.socket, .connect, .bind, .listen, .accept, .accept4, .recvfrom, .recvmsg, .recvmmsg, .sendto,
    .sendmsg, .sendmmsg, .socketcall, .getsockopt, .setsockopt, .getsockname, .getpeername,
    .execve, .execveat, .fork, .vfork,
    .unshare, .setns, .pivotRoot, .chroot, .mount, .umount, .umount2, .chdir, .fchdir,
    .capget, .capset,
    .ptrace, .processVmReadv, .processVmWritev, .bpf, .perfEventOpen, .keyctl, .requestKey]

/-- The `CLONE_NEW*` flags of `ns_mask`, in its order. -/
def cloneNew : List UInt64 :=
  [0x00020000, 0x02000000, 0x04000000, 0x08000000, 0x10000000, 0x20000000, 0x40000000]

def nsMask : UInt64 := cloneNew.foldl (· ||| ·) 0

/-! ## Filters -/

/-- Whether `arg & mask` has to be the value (`SeccompCmpOp::MaskedEq`, on all 64 bits). -/
structure SeccompCondition where
  argIndex : Fin 6
  mask : UInt64
  value : UInt64
  deriving DecidableEq

/-- The conditions that have to hold together. -/
structure SeccompRule where
  conditions : List SeccompCondition
  deriving DecidableEq

inductive SeccompAction where
  | allow
  | errno (code : UInt32)
  | killProcess
  deriving DecidableEq, Repr

structure SeccompFilter where
  rules : Int → Option (List SeccompRule)
  mismatchAction : SeccompAction
  matchAction : SeccompAction
  targetArch : TargetArch

/-- What a filter is run on. -/
structure SeccompData where
  nr : Int
  /-- The calling convention, which a program can choose; `none` is a foreign one. -/
  arch : Option TargetArch
  args : Fin 6 → UInt64

def SeccompCondition.Holds (condition : SeccompCondition) (data : SeccompData) : Prop :=
  data.args condition.argIndex &&& condition.mask = condition.value

def SeccompRule.Holds (rule : SeccompRule) (data : SeccompData) : Prop :=
  ∀ condition ∈ rule.conditions, condition.Holds data

instance (condition : SeccompCondition) (data : SeccompData) : Decidable (condition.Holds data) :=
  inferInstanceAs (Decidable (_ = _))

instance (rule : SeccompRule) (data : SeccompData) : Decidable (rule.Holds data) :=
  inferInstanceAs (Decidable (∀ _ ∈ _, _))

/-- `EPERM`. -/
def eperm : UInt32 := 1

/-- What every `allowed` call has: no rule, so no condition. -/
def listed (number : Sysno → Int) (arch : TargetArch) : Int → Option (List SeccompRule) :=
  fun nr => if nr ∈ (allowed arch).map number then some [] else none

def noNsRule : SeccompRule := ⟨[⟨0, nsMask, 0⟩]⟩

/-- `build_filter`, with the numbers of `libc`; that it was built is among the answers of
`seccompApply`. -/
def buildFilter (number : Sysno → Int) (arch : TargetArch) : SeccompFilter :=
  { rules := Function.update (listed number arch) (number .clone) (some [noNsRule])
    mismatchAction := .errno eperm
    matchAction := .allow
    targetArch := arch }

/-- How the layer came out at each place where `seccomp::apply` can give up. -/
structure SeccompAnswers where
  targetArch : Option TargetArch
  built : Bool
  compiled : Bool
  installed : Bool
  deriving DecidableEq, Repr

/-- `seccomp::apply`: the status, and the filter that the calling thread is under from now on. -/
def seccompApply (number : Sysno → Int) (a : SeccompAnswers) :
    SeccompPosture × Option SeccompFilter :=
  match a.targetArch with
  | none => (.unsupported "unsupported architecture", none)
  | some arch =>
    if !a.built then (.unsupported "filter build failed", none)
    else if !a.compiled then (.unsupported "filter compile failed", none)
    else if !a.installed then (.unsupported "filter apply failed", none)
    else (.enforced, some (buildFilter number arch))

/-- What `libc`, `seccompiler` and the kernel document: system calls have numbers of their own; a
filter kills a process that calls by another convention, allows by the rules of the number, and
where there are none answers with the action for a mismatch. -/
structure Filters (number : Sysno → Int) (answer : SeccompFilter → SeccompData → SeccompAction) :
    Prop where
  numbered : ∀ a b, number a = number b → a = b
  foreign : ∀ filter data, data.arch ≠ some filter.targetArch →
    answer filter data = .killProcess
  unlisted : ∀ filter data, data.arch = some filter.targetArch →
    filter.rules data.nr = none → answer filter data = filter.mismatchAction
  unconditional : ∀ filter data, data.arch = some filter.targetArch →
    filter.rules data.nr = some [] → answer filter data = filter.matchAction
  conditional : ∀ filter data rule rules, data.arch = some filter.targetArch →
    filter.rules data.nr = some (rule :: rules) → answer filter data =
      if (rule :: rules).any (·.Holds data) then filter.matchAction else filter.mismatchAction

/-! ## What the filter lets through -/

/-- The call is on the list, or a `clone` that makes no namespace. -/
def Admitted (number : Sysno → Int) (arch : TargetArch) (data : SeccompData) : Prop :=
  data.arch = some arch ∧
    ((∃ call ∈ allowed arch, data.nr = number call) ∨
      data.nr = number .clone ∧ ∀ flag ∈ cloneNew, data.args 0 &&& flag = 0)

/-- No flag of several is set where none of their union is. -/
theorem and_foldl_or_eq_zero (a mask : UInt64) (flags : List UInt64) :
    a &&& flags.foldl (· ||| ·) mask = 0 ↔ a &&& mask = 0 ∧ ∀ flag ∈ flags, a &&& flag = 0 := by
  induction flags generalizing mask with
  | nil => simp
  | cons flag flags ih =>
    have hor : a &&& (mask ||| flag) = a &&& mask ||| a &&& flag :=
      UInt64.toBitVec_inj.mp BitVec.and_or_distrib_left
    rw [List.foldl_cons, ih, hor, UInt64.or_eq_zero_iff]
    simp only [List.mem_cons, forall_eq_or_imp, and_assoc]

theorem and_nsMask (a : UInt64) : a &&& nsMask = 0 ↔ ∀ flag ∈ cloneNew, a &&& flag = 0 := by
  rw [nsMask, and_foldl_or_eq_zero, UInt64.and_zero]
  exact and_iff_right rfl

theorem clone_not_allowed (arch : TargetArch) : .clone ∉ allowed arch := by
  cases arch <;> decide

theorem contained_not_allowed (arch : TargetArch) :
    ∀ call ∈ contained, call ∉ allowed arch ∧ call ≠ .clone := by
  cases arch <;> decide

namespace Filters
variable {number : Sysno → Int} {answer : SeccompFilter → SeccompData → SeccompAction}
  {arch : TargetArch} {data : SeccompData}

/-- The filter lets through what is on the list, and nothing else. -/
theorem allow_iff (h : Filters number answer) :
    answer (buildFilter number arch) data = .allow ↔ Admitted number arch data := by
  by_cases harch : data.arch = some arch
  · rw [Admitted, and_iff_right harch]
    by_cases hclone : data.nr = number .clone
    · have hrules : (buildFilter number arch).rules data.nr = some [noNsRule] := by
        unfold buildFilter
        rw [hclone]
        exact Function.update_self ..
      rw [h.conditional _ _ _ _ harch hrules]
      have hnone : ¬ ∃ call ∈ allowed arch, data.nr = number call := by
        rintro ⟨call, hcall, hnr⟩
        rw [h.numbered _ _ (hnr.symm.trans hclone)] at hcall
        exact clone_not_allowed arch hcall
      rw [or_iff_right hnone, and_iff_right hclone, ← and_nsMask]
      have hany : [noNsRule].any (·.Holds data) = decide (data.args 0 &&& nsMask = 0) := by
        simp [noNsRule, SeccompRule.Holds, SeccompCondition.Holds]
      rw [hany]
      by_cases hflags : data.args 0 &&& nsMask = 0
      · exact iff_of_true (if_pos (decide_eq_true hflags)) hflags
      · rw [if_neg (by simpa using hflags)]
        exact iff_of_false nofun hflags
    · have hrules : (buildFilter number arch).rules data.nr = listed number arch data.nr := by
        unfold buildFilter
        exact Function.update_of_ne hclone ..
      by_cases hlisted : data.nr ∈ (allowed arch).map number
      · rw [listed, if_pos hlisted] at hrules
        rw [h.unconditional _ _ harch hrules]
        obtain ⟨call, hcall, hnr⟩ := List.mem_map.mp hlisted
        exact iff_of_true rfl (.inl ⟨call, hcall, hnr.symm⟩)
      · rw [listed, if_neg hlisted] at hrules
        rw [h.unlisted _ _ harch hrules]
        refine iff_of_false nofun ?_
        rintro (⟨call, hcall, hnr⟩ | ⟨hnr, -⟩)
        · exact hlisted (List.mem_map.mpr ⟨call, hcall, hnr.symm⟩)
        · exact hclone hnr
  · rw [h.foreign _ _ harch]
    exact iff_of_false nofun fun hadmitted => harch hadmitted.1


/-- A call that is let through has the number of none that the comment names. -/
theorem not_contained (h : Filters number answer) (hadmitted : Admitted number arch data) :
    ∀ call ∈ contained, data.nr ≠ number call := by
  intro call hcall hnr
  obtain ⟨hallowed, hclone⟩ := contained_not_allowed arch call hcall
  rcases hadmitted.2 with ⟨call', hmem, hnr'⟩ | ⟨hnr', -⟩
  · rw [h.numbered _ _ (hnr.symm.trans hnr')] at hallowed
    exact hallowed hmem
  · exact hclone (h.numbered _ _ (hnr.symm.trans hnr'))

end Filters

end GlycinNg.Sandbox
