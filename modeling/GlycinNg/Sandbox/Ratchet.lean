import GlycinNg.Sandbox.Confinement

/-! # Resource limits over the life of a process

`setrlimit` is about the process, and its hard limits only come down. What one decode applies
binds everything after it; a later decode that asks for more does not get it, and a strict one
is refused before its decoder runs (`limits_ratchet`). -/
namespace GlycinNg.Sandbox
open Confined

/-- The limit asked for is in force, and was there to be had under `caps₀`. -/
def Within (caps₀ caps : Caps) (l : Limits) (resource : Resource) : Prop :=
  (caps resource).max ≤ requested l resource ∧ requested l resource ≤ (caps₀ resource).max

theorem Within.mono {caps₀ caps caps' : Caps} {l : Limits} {resource : Resource}
    (h : Within caps₀ caps l resource) (hle : (caps' resource).max ≤ (caps resource).max) :
    Within caps₀ caps' l resource :=
  ⟨UInt64.le_trans hle h.1, h.2⟩

/-- A report that both limits were applied. -/
def RlimitPosture.Holds (caps₀ caps : Caps) (l : Limits) (posture : RlimitPosture) : Prop :=
  ∀ asMib cpuSeconds, posture = .applied asMib cpuSeconds →
    asMib = l.decodeMemoryMib ∧ cpuSeconds = l.decodeCpuSeconds ∧
      ∀ resource, Within caps₀ caps l resource

/-- What a worker says of the limits is so. -/
def Stage.Limited {α : Type} (caps₀ caps : Caps) : Stage α → Prop
  | .free | .spawned _ => True
  | .capped job asApplied => asApplied = true → Within caps₀ caps job.limits .as
  | .limited job rlimit | .walled job rlimit _ => RlimitPosture.Holds caps₀ caps job.limits rlimit
  | .layered job posture | .working job posture | .ended job posture _ =>
    RlimitPosture.Holds caps₀ caps job.limits posture.rlimit

theorem Stage.Limited.mono {α : Type} {caps₀ caps caps' : Caps} {stage : Stage α}
    (h : stage.Limited caps₀ caps) (hle : ∀ resource, (caps' resource).max ≤ (caps resource).max) :
    stage.Limited caps₀ caps' := by
  have hholds : ∀ {l posture}, RlimitPosture.Holds caps₀ caps l posture →
      RlimitPosture.Holds caps₀ caps' l posture := by
    intro l posture h asMib cpuSeconds happlied
    obtain ⟨hmib, hcpu, hwithin⟩ := h asMib cpuSeconds happlied
    exact ⟨hmib, hcpu, fun resource => (hwithin resource).mono (hle resource)⟩
  cases stage with
  | free => trivial
  | spawned => trivial
  | capped => exact fun happlied => (h happlied).mono (hle .as)
  | limited => exact hholds h
  | walled => exact hholds h
  | layered => exact hholds h
  | working => exact hholds h
  | ended => exact hholds h

namespace System
variable {sys : System} {caps caps₀ : Caps} {resource r : Resource} {value : UInt64}

/-- A change to one limit, as `setrlimit` makes it. -/
theorem max_update_le (hsys : sys.Unprivileged) {new after : Rlimit}
    (h : sys.setrlimit (caps resource) new = some after) (r : Resource) :
    (Function.update caps resource after r).max ≤ (caps r).max := by
  obtain ⟨rfl, hle⟩ := hsys _ _ _ h
  by_cases heq : r = resource
  · subst heq
    rw [Function.update_self]
    exact hle
  · rw [Function.update_of_ne heq]
    exact UInt64.le_refl _

theorem attempt_le (hsys : sys.Unprivileged) (r : Resource) :
    ((sys.attempt caps resource value).2 r).max ≤ (caps r).max := by
  unfold attempt
  split
  · exact max_update_le hsys ‹_› r
  · exact UInt64.le_refl _

/-- A limit that was applied is the one asked for, and no higher than before. -/
theorem attempt_applied (hsys : sys.Unprivileged)
    (h : (sys.attempt caps resource value).1 = true) :
    ((sys.attempt caps resource value).2 resource).max = value ∧ value ≤ (caps resource).max := by
  unfold attempt at h ⊢
  cases hset : sys.setrlimit (caps resource) ⟨value, value⟩ with
  | none =>
    rw [hset] at h
    cases h
  | some after =>
    obtain ⟨rfl, hle⟩ := hsys _ _ _ hset
    dsimp only at hle ⊢
    rw [Function.update_self]
    exact ⟨rfl, hle⟩

theorem within_attempt (hsys : sys.Unprivileged) {l : Limits}
    (hcaps : ∀ r, (caps r).max ≤ (caps₀ r).max)
    (h : (sys.attempt caps resource (requested l resource)).1 = true) :
    Within caps₀ (sys.attempt caps resource (requested l resource)).2 l resource := by
  obtain ⟨hmax, hle⟩ := attempt_applied hsys h
  exact ⟨UInt64.le_of_eq hmax, UInt64.le_trans hle (hcaps resource)⟩

end System

theorem rlimitPosture_applied {l : Limits} {asApplied cpuApplied : Bool}
    {asMib cpuSeconds : UInt64}
    (h : rlimitPosture l asApplied cpuApplied = .applied asMib cpuSeconds) :
    asApplied = true ∧ cpuApplied = true ∧
      asMib = l.decodeMemoryMib ∧ cpuSeconds = l.decodeCpuSeconds := by
  cases asApplied <;> cases cpuApplied <;> cases h
  exact ⟨rfl, rfl, rfl, rfl⟩

namespace Moves
variable {α : Type} {sys : System} {caps₀ caps caps' : Caps} {a : Answers α}
  {stage stage' : Stage α} {rule : Option Rule}

theorem max_le (h : Moves sys caps a stage stage' caps' rule) (hsys : sys.Unprivileged)
    (r : Resource) : (caps' r).max ≤ (caps r).max := by
  cases h with
  | capAs => exact System.attempt_le hsys r
  | capCpu => exact System.attempt_le hsys r
  | _ => exact UInt64.le_refl _

theorem limited (h : Moves sys caps a stage stage' caps' rule) (hsys : sys.Unprivileged)
    (hcaps : ∀ r, (caps r).max ≤ (caps₀ r).max) (hstage : stage.Limited caps₀ caps) :
    stage'.Limited caps₀ caps' := by
  cases h with
  | rlimitOff => exact fun _ _ happlied => nomatch happlied
  | capAs job hon => exact System.within_attempt hsys hcaps
  | capCpu job asApplied =>
    intro asMib cpuSeconds happlied
    obtain ⟨has, hcpu, hmib, hseconds⟩ := rlimitPosture_applied happlied
    refine ⟨hmib, hseconds, fun resource => ?_⟩
    cases resource with
    | as => exact (hstage has).mono (System.attempt_le hsys .as)
    | cpu => exact System.within_attempt hsys hcaps hcpu
  | _ => exact hstage

end Moves

namespace Process
variable {α : Type} {sys : System} {p p' : Process α} {caps₀ : Caps}
  {e events : List (Event Nat Syscall Rule)} {w : Nat} {job : Job} {posture : SandboxPosture}

theorem Step.max_le (h : Step sys p e p') (hsys : sys.Unprivileged) (r : Resource) :
    (p'.caps r).max ≤ (p.caps r).max := by
  cases h with
  | perform => exact UInt64.le_refl _
  | setrlimit hruns hset => exact System.max_update_le hsys hset r
  | start => exact UInt64.le_refl _
  | decode => exact UInt64.le_refl _
  | advance hw h => exact (System.moves_of_advance h).max_le hsys r

theorem Run.max_le (h : Run sys p events p') (hsys : sys.Unprivileged) (r : Resource) :
    (p'.caps r).max ≤ (p.caps r).max := by
  induction h with
  | nil => exact UInt64.le_refl _
  | cons hstep _ ih => exact UInt64.le_trans ih (hstep.max_le hsys r)

theorem Step.limited (h : Step sys p e p') (hsys : sys.Unprivileged)
    (hcaps : ∀ r, (p.caps r).max ≤ (caps₀ r).max) (hw : (p.stage w).Limited caps₀ p.caps) :
    (p'.stage w).Limited caps₀ p'.caps := by
  rcases h.stage_cases w with hstage | ⟨job, hstage, -⟩ | ⟨rules, a, rule, -, hmoves, -⟩
  · rw [hstage]
    exact hw.mono (h.max_le hsys)
  · rw [hstage]
    exact trivial
  · exact hmoves.limited hsys hcaps hw

theorem Run.limited (h : Run sys p events p') (hsys : sys.Unprivileged)
    (hcaps : ∀ r, (p.caps r).max ≤ (caps₀ r).max) (hw : (p.stage w).Limited caps₀ p.caps) :
    (p'.stage w).Limited caps₀ p'.caps := by
  induction h with
  | nil => exact hw
  | cons hstep _ ih =>
    exact ih (fun r => UInt64.le_trans (hstep.max_le hsys r) (hcaps r))
      (hstep.limited hsys hcaps hw)

/-- A report of a worker that started free of one, in terms of the limits before and after. -/
theorem Run.within (h : Run sys p events p') (hsys : sys.Unprivileged) (hw : p.stage w = .free)
    (hsettled : (p'.stage w).settled = some (job, posture)) {asMib cpuSeconds : UInt64}
    (hposture : posture.rlimit = .applied asMib cpuSeconds) (r : Resource) :
    Within p.caps p'.caps job.limits r := by
  have hlimited : (p'.stage w).Limited p.caps p'.caps := by
    refine h.limited hsys (fun r => UInt64.le_refl _) ?_
    rw [hw]
    exact trivial
  cases hstage : p'.stage w with
  | working job' posture' =>
    rw [hstage] at hsettled hlimited
    cases hsettled
    exact (hlimited asMib cpuSeconds hposture).2.2 r
  | ended job' posture' result =>
    rw [hstage] at hsettled hlimited
    cases hsettled
    exact (hlimited asMib cpuSeconds hposture).2.2 r
  | _ =>
    rw [hstage] at hsettled
    cases hsettled

end Process

theorem checkStrict_error {selector : SandboxSelector} {posture : SandboxPosture} {e : Error}
    (h : checkStrict selector posture = .error e) : ∃ layer, e = .sandboxUnavailable layer := by
  unfold checkStrict at h
  grind

/-- A worker that `check_strict` refuses has ended without its closure. -/
theorem Stage.Follows.refused {α : Type} {stage : Stage α} {job : Job} {posture : SandboxPosture}
    {e : Error} (h : stage.Follows) (hsettled : stage.settled = some (job, posture))
    (hrefused : checkStrict job.selector posture = .error e) :
    stage = .ended job posture (.error e) := by
  cases stage with
  | working job' posture' =>
    cases hsettled
    rw [h.2] at hrefused
    cases hrefused
  | ended job' posture' result =>
    cases hsettled
    obtain ⟨k, work, hspawn, rfl, hrun⟩ := h
    rw [runInWorker, hspawn] at hrun
    dsimp only at hrun
    rw [hrefused] at hrun
    rw [← hrun]
  | _ => cases hsettled

/-- In whatever order the threads take their turns: once a decode has reported its limits as
applied, the process stays under them, and every decode that starts later and reports its own
as applied asked for no more. A strict one that asks for more of either is refused as
unavailable, and no call of its decoder is made. -/
theorem limits_ratchet {α : Type} {sys : System} (hsys : sys.Unprivileged) {p₀ p p' : Process α}
    {before later : List (Event Nat Syscall Rule)} (hfree : ∀ t, p₀.stage t = .free)
    (h : Process.Run sys p₀ before p) (hlater : Process.Run sys p later p')
    {w : Nat} {job : Job} {posture : SandboxPosture} {asMib cpuSeconds : UInt64}
    (hsettled : (p.stage w).settled = some (job, posture))
    (hposture : posture.rlimit = .applied asMib cpuSeconds) :
    (∀ r, (p'.caps r).max ≤ requested job.limits r) ∧
    ∀ w' job' posture', p.held w' = none → (p'.stage w').settled = some (job', posture') →
      ((∃ asMib' cpuSeconds', posture'.rlimit = .applied asMib' cpuSeconds') →
        ∀ r, requested job'.limits r ≤ requested job.limits r) ∧
      (job'.selector.strict = true → job'.selector.rlimit = true →
        (∃ r, requested job.limits r < requested job'.limits r) →
        (∃ layer, p'.stage w' = .ended job' posture' (.error (.sandboxUnavailable layer))) ∧
          ∀ t c, Line later w' t → .performed t c ∉ later) := by
  have hp₀ : p₀.Consistent sys := .of_free hfree
  have hp := h.consistent hp₀
  have hfollows : ∀ t, (p.stage t).Follows := h.follows fun t => by
    rw [hfree t]
    exact trivial
  have hwithin := h.within hsys (hfree w) hsettled hposture
  refine ⟨fun r => UInt64.le_trans (hlater.max_le hsys r) (hwithin r).1, ?_⟩
  intro w' job' posture' hnew hsettled'
  have hasked : (∃ asMib' cpuSeconds', posture'.rlimit = .applied asMib' cpuSeconds') →
      ∀ r, requested job'.limits r ≤ requested job.limits r := by
    rintro ⟨asMib', cpuSeconds', hposture'⟩ r
    have hwithin' := hlater.within hsys (hp.absent w' hnew) hsettled' hposture' r
    exact UInt64.le_trans hwithin'.2 (hwithin r).1
  refine ⟨hasked, fun hstrict hon hmore => ?_⟩
  obtain ⟨r, hmore⟩ := hmore
  have hcheck : checkStrict job'.selector posture' ≠ .ok () := by
    intro hok
    have hle := hasked ((checkStrict_ok hok hstrict).2.2 hon) r
    exact absurd hle (UInt64.not_le.mpr hmore)
  constructor
  · cases hresult : checkStrict job'.selector posture' with
    | ok => exact absurd hresult hcheck
    | error e =>
      obtain ⟨layer, rfl⟩ := checkStrict_error hresult
      exact ⟨layer, (hlater.follows hfollows w').refused hsettled' hresult⟩
  · intro t c hline hc
    exact hcheck (hlater.checked hp hfollows hsettled' hline hc).2

/-- A decode under the given cap, and no other layer. -/
def cappedJob (decodeMemoryMib : UInt64) : Job :=
  ⟨{ SandboxSelector.none with rlimit := true, strict := true },
    { Limits.default with decodeMemoryMib }⟩

/-- After a decode under 512 MiB, one that asks for 1024 is refused. -/
theorem limits_ratchet_doubled : ∃ before later p p' posture layer,
    Process.Run linuxX86 oneThread before p ∧ Process.Run linuxX86 p later p' ∧
    (p.stage 1).settled =
      some (cappedJob 512, ⟨.disabled, .disabled, .applied 512 30⟩) ∧
    p'.stage 2 = .ended (cappedJob 1024) posture (.error (.sandboxUnavailable layer)) := by
  have hrun : ∃ before p, Process.Run linuxX86 oneThread before p ∧
      (p.stage 1).settled = some (cappedJob 512, ⟨.disabled, .disabled, .applied 512 30⟩) ∧
      ∃ later p' posture', Process.Run linuxX86 p later p' ∧ p.held 2 = none ∧
      (p'.stage 2).settled = some (cappedJob 1024, posture') := by
    refine ⟨_, _, .cons (.decode (t := 0) (w := 1) (cappedJob 512) trivial rfl rfl)
      (.cons (.advance (w := 1) (a := willing) rfl rfl)
      (.cons (.advance (w := 1) (a := willing) rfl rfl)
      (.cons (.advance (w := 1) (a := willing) rfl rfl)
      (.cons (.advance (w := 1) (a := willing) rfl rfl)
      (.cons (.advance (w := 1) (a := willing) rfl rfl) (.nil _)))))), rfl, ?_⟩
    refine ⟨_, _, _, .cons (.decode (t := 0) (w := 2) (cappedJob 1024) trivial rfl rfl)
      (.cons (.advance (w := 2) (a := willing) rfl rfl)
      (.cons (.advance (w := 2) (a := willing) rfl rfl)
      (.cons (.advance (w := 2) (a := willing) rfl rfl)
      (.cons (.advance (w := 2) (a := willing) rfl rfl)
      (.cons (.advance (w := 2) (a := willing) rfl rfl) (.nil _)))))), rfl, rfl⟩
  obtain ⟨before, p, hrun, hsettled, later, p', posture', hlater, hnew, hsettled'⟩ := hrun
  obtain ⟨-, hall⟩ := limits_ratchet unprivileged_linuxX86 (fun _ => rfl) hrun hlater hsettled rfl
  obtain ⟨-, hrefused⟩ := hall 2 _ _ hnew hsettled'
  obtain ⟨⟨layer, hended⟩, -⟩ := hrefused rfl rfl ⟨.as, by decide⟩
  exact ⟨before, later, p, p', posture', layer, hrun, hlater, hsettled, hended⟩

end GlycinNg.Sandbox
