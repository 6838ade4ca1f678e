import GlycinNg.Sandbox.Process

/-! # Confinement

What the posture of a decode is worth. Threads run in any order: the callers, the workers of
other decodes, whatever the decoders start. A layer that a worker reports as enforced binds every
call that its decoder makes, in any thread of its line and long after the decode
(`decode_confined`); the threads of no worker's line hold what they held before. -/
namespace GlycinNg.Sandbox
open Confined

namespace Process
variable {α : Type} {sys : System} {p p' p'' : Process α}
  {e events : List (Event Nat Syscall Rule)} {t u w : Nat} {c : Syscall} {job : Job}
  {posture : SandboxPosture}

/-- A thread that says a layer is enforced holds the rule of the layer. -/
structure Consistent (sys : System) (p : Process α) : Prop where
  absent : ∀ t, p.held t = none → p.stage t = .free
  domain : ∀ t abi, (p.stage t).landlock = .enforced abi →
    1 ≤ abi ∧ ∃ rules, p.held t = some rules ∧ .domain abi ∈ rules
  filter : ∀ t, (p.stage t).seccomp = .enforced →
    ∃ arch rules, p.held t = some rules ∧ .filter (buildFilter sys.number arch) ∈ rules

theorem Consistent.of_free (h : ∀ t, p.stage t = .free) : p.Consistent sys where
  absent t _ := h t
  domain t abi hposture := by
    rw [h t] at hposture
    cases hposture
  filter t hposture := by
    rw [h t] at hposture
    cases hposture

theorem Step.consistent (h : Step sys p e p') (hp : p.Consistent sys) : p'.Consistent sys where
  absent t ht := by
    have hold : p.held t = none := by
      by_contra hne
      exact h.held.exists_held hne ht
    rcases h.stage_cases t with hstage | ⟨job, -, -, hnew⟩ | ⟨rules, a, rule, -, -, hheld, -⟩
    · rw [hstage, hp.absent t hold]
    · exact absurd ht hnew
    · rw [hheld] at ht
      cases ht
  domain t abi hposture := by
    rcases h.stage_cases t with hstage | ⟨job, hstage, -⟩ | ⟨rules, a, rule, hold, hmoves, hheld, -⟩
    · rw [hstage] at hposture
      exact (hp.domain t abi hposture).imp_right h.held.keeps
    · rw [hstage] at hposture
      cases hposture
    · rcases hmoves.landlock_cases hposture with hbefore | ⟨rfl, habi⟩
      · exact (hp.domain t abi hbefore).imp_right h.held.keeps
      · exact ⟨habi, _, hheld, List.mem_append_left _ (List.mem_singleton_self _)⟩
  filter t hposture := by
    rcases h.stage_cases t with hstage | ⟨job, hstage, -⟩ | ⟨rules, a, rule, hold, hmoves, hheld, -⟩
    · rw [hstage] at hposture
      obtain ⟨arch, hrule⟩ := hp.filter t hposture
      exact ⟨arch, h.held.keeps hrule⟩
    · rw [hstage] at hposture
      cases hposture
    · rcases hmoves.seccomp_cases hposture with hbefore | ⟨arch, rfl⟩
      · obtain ⟨arch, hrule⟩ := hp.filter t hbefore
        exact ⟨arch, h.held.keeps hrule⟩
      · exact ⟨arch, _, hheld, List.mem_append_left _ (List.mem_singleton_self _)⟩

theorem Run.consistent (h : Run sys p events p') (hp : p.Consistent sys) :
    p'.Consistent sys := by
  induction h with
  | nil => exact hp
  | cons hstep _ ih => exact ih (hstep.consistent hp)

/-- A caller's thread stays one. -/
theorem Step.free (h : Step sys p e p') (hex : p.held t ≠ none) (hfree : p.stage t = .free) :
    p'.stage t = .free := by
  rcases h.stage_cases t with hstage | ⟨job, -, hnone, -⟩ | ⟨rules, a, rule, -, hmoves, -, -⟩
  · rw [hstage, hfree]
  · exact absurd hnone hex
  · exact absurd hfree hmoves.not_free

theorem Run.free (h : Run sys p events p') (hex : p.held t ≠ none) (hfree : p.stage t = .free) :
    p'.stage t = .free := by
  induction h with
  | nil => exact hfree
  | cons hstep _ ih => exact ih (hstep.held.exists_held hex) (hstep.free hex hfree)

theorem Step.settled (h : Step sys p e p') (hp : p.Consistent sys)
    (hsettled : (p.stage w).settled = some (job, posture)) :
    (p'.stage w).settled = some (job, posture) := by
  rcases h.stage_cases w with hstage | ⟨job', -, hnone, -⟩ | ⟨rules, a, rule, -, hmoves, -, -⟩
  · rw [hstage, hsettled]
  · rw [hp.absent w hnone] at hsettled
    cases hsettled
  · exact hmoves.settled hsettled

theorem Run.settled (h : Run sys p events p') (hp : p.Consistent sys)
    (hsettled : (p.stage w).settled = some (job, posture)) :
    (p'.stage w).settled = some (job, posture) := by
  induction h with
  | nil => exact hsettled
  | cons hstep _ ih => exact ih (hstep.consistent hp) (hstep.settled hp hsettled)

/-- Who makes a call or starts a thread is at a place where code runs. -/
theorem Step.runs (h : Step sys p e p')
    (hmem : (∃ c, .performed t c ∈ e) ∨ ∃ child, .started t child ∈ e) :
    p.held t ≠ none ∧ (p.stage t).Runs := by
  have hne : ∀ {rules}, p.held t = some rules → p.held t ≠ none := by
    intro rules ht
    rw [ht]
    exact Option.some_ne_none _
  cases h with
  | perform hruns ht hadmits =>
    rcases hmem with ⟨c, hmem⟩ | ⟨child, hmem⟩
    · cases List.mem_singleton.mp hmem
      exact ⟨hne ht, hruns⟩
    · cases List.mem_singleton.mp hmem
  | setrlimit => rcases hmem with ⟨c, hmem⟩ | ⟨child, hmem⟩ <;> cases hmem
  | start hruns ht hfresh =>
    rcases hmem with ⟨c, hmem⟩ | ⟨child, hmem⟩
    · cases List.mem_singleton.mp hmem
    · cases List.mem_singleton.mp hmem
      exact ⟨hne ht, hruns⟩
  | decode job hruns ht hfresh =>
    rcases hmem with ⟨c, hmem⟩ | ⟨child, hmem⟩
    · cases List.mem_singleton.mp hmem
    · cases List.mem_singleton.mp hmem
      exact ⟨hne ht, hruns⟩
  | @advance w rules a stage caps rule hw h =>
    rcases hmem with ⟨c, hmem⟩ | ⟨child, hmem⟩
    · cases rule with
      | none => cases hmem
      | some r => cases List.mem_singleton.mp hmem
    · cases rule with
      | none => cases hmem
      | some r => cases List.mem_singleton.mp hmem

/-- Nothing happens in the line of a worker at a step at which it runs no code. -/
theorem Step.line_of_idle (hstep : Step sys p e p') (hrun : Run sys p' events p'')
    (hidle : ¬ (p.held w ≠ none ∧ (p.stage w).Runs)) (hline : Line (e ++ events) w t) :
    Line events w t ∧ ∀ c, .performed t c ∉ e := by
  constructor
  · rcases Confined.Run.line_cons hstep.held hrun.held hline with hline | ⟨u, hu, -⟩
    · exact hline
    · exact absurd (hstep.runs (.inr ⟨u, hu⟩)) hidle
  · intro c hc
    -- who makes the call was there before, so it is the worker itself
    obtain ⟨hex, hruns⟩ := hstep.runs (.inl ⟨c, hc⟩)
    cases Confined.Run.eq_of_line (Run.cons hstep hrun).held hex hline
    exact hidle ⟨hex, hruns⟩

/-- Before its layers are settled, a thread that will be a worker runs no code. -/
theorem Run.not_runs (h : Run sys p events p') (hnow : (p.stage w).settled = none)
    (hsettled : (p'.stage w).settled = some (job, posture)) :
    ¬ (p.held w ≠ none ∧ (p.stage w).Runs) := by
  rintro ⟨hex, hruns⟩
  rw [h.free hex (Stage.eq_free_of_runs hruns hnow)] at hsettled
  cases hsettled

/-- So what happens in its line happens after they are. -/
theorem Run.settles (h : Run sys p events p') (hp : p.Consistent sys)
    (hsettled : (p'.stage w).settled = some (job, posture)) :
    ∃ before later p₁, Run sys p before p₁ ∧ Run sys p₁ later p' ∧
      (p₁.stage w).settled = some (job, posture) ∧
      ∀ t, Line events w t →
        Line later w t ∧ ∀ c, .performed t c ∈ events → .performed t c ∈ later := by
  induction h with
  | nil p => exact ⟨[], [], p, .nil p, .nil p, hsettled, fun t hline => ⟨hline, fun c hc => hc⟩⟩
  | @cons p p₁ p' e events hstep hrun ih =>
    cases hnow : (p.stage w).settled with
    | some settled =>
      have hlast := (Run.cons hstep hrun).settled hp hnow
      cases hlast.symm.trans hsettled
      exact ⟨[], e ++ events, p, .nil p, .cons hstep hrun, hnow,
        fun t hline => ⟨hline, fun c hc => hc⟩⟩
    | none =>
      have hidle := (Run.cons hstep hrun).not_runs hnow hsettled
      obtain ⟨before, later, p₂, hbefore, hlater, hsettled₂, hall⟩ :=
        ih (hstep.consistent hp) hsettled
      refine ⟨e ++ before, later, p₂, .cons hstep hbefore, hlater, hsettled₂, fun t hline => ?_⟩
      obtain ⟨hline', hnone⟩ := hstep.line_of_idle hrun hidle hline
      refine ⟨(hall t hline').1, fun c hc => (hall t hline').2 c ?_⟩
      exact (List.mem_append.mp hc).resolve_left (hnone c)

/-- A worker that has ended makes no call, and starts no thread that could. -/
theorem Run.silent_of_ended (h : Run sys p events p') {result : Except Error (α × SandboxPosture)}
    (hended : p.stage w = .ended job posture result) (hp : p.Consistent sys)
    (hline : Line events w t) : .performed t c ∉ events := by
  induction h with
  | nil => exact List.not_mem_nil
  | @cons p p₁ p' e events hstep hrun ih =>
    have hidle : ¬ (p.held w ≠ none ∧ (p.stage w).Runs) := by
      rw [hended]
      exact fun h => h.2
    obtain ⟨hline', hnone⟩ := hstep.line_of_idle hrun hidle hline
    rw [List.mem_append, not_or]
    refine ⟨hnone c, ih ?_ (hstep.consistent hp) hline'⟩
    rcases hstep.stage_cases w with hstage | ⟨job', -, hold, -⟩ | ⟨rules, a, rule, -, hmoves, -⟩
    · rw [hstage, hended]
    · rw [hp.absent w hold] at hended
      cases hended
    · rw [hended] at hmoves
      cases hmoves

end Process

/-! ## What a worker does on its own -/

/-- The worker is where `run_in_worker` is, for some answers of the kernel. -/
def Stage.Follows {α : Type} : Stage α → Prop
  | .free | .spawned _ => True
  | .capped job _ => job.selector.rlimit = true
  | .limited job rlimit =>
    ∃ k : Kernel, k.spawnError = none ∧ (applyLayers k job.selector job.limits).rlimit = rlimit
  | .walled job rlimit landlock =>
    ∃ k : Kernel, k.spawnError = none ∧
      (applyLayers k job.selector job.limits).rlimit = rlimit ∧
      (applyLayers k job.selector job.limits).landlock = landlock
  | .layered job posture =>
    ∃ k : Kernel, k.spawnError = none ∧ applyLayers k job.selector job.limits = posture
  | .working job posture =>
    (∃ k : Kernel, k.spawnError = none ∧ applyLayers k job.selector job.limits = posture) ∧
      checkStrict job.selector posture = .ok ()
  | .ended job posture result =>
    ∃ (k : Kernel) (work : Except PanicPayload (Except Error α)), k.spawnError = none ∧
      applyLayers k job.selector job.limits = posture ∧
      runInWorker k job.selector job.limits work = result

theorem Moves.follows {α : Type} {sys : System} {caps caps' : Caps} {a : Answers α}
    {stage stage' : Stage α} {rule : Option Rule}
    (h : Moves sys caps a stage stage' caps' rule) (hstage : stage.Follows) : stage'.Follows := by
  cases h with
  | rlimitOff job hoff =>
    refine ⟨⟨none, .disabled, .disabled, true, true⟩, rfl, ?_⟩
    simp [applyLayers, hoff]
  | capAs job hon => exact hon
  | capCpu job asApplied =>
    refine ⟨⟨none, .disabled, .disabled, asApplied,
      (sys.attempt caps .cpu (requested job.limits .cpu)).1⟩, rfl, ?_⟩
    simp only [applyLayers, if_pos (show job.selector.rlimit = true from hstage)]
    rfl
  | landlockOff job rlimit hoff =>
    obtain ⟨k, hspawn, hrlimit⟩ := hstage
    refine ⟨k, hspawn, hrlimit, ?_⟩
    simp [applyLayers, hoff]
  | landlock job rlimit hon =>
    obtain ⟨k, hspawn, hrlimit⟩ := hstage
    refine ⟨{ k with landlockApply := landlockApply a.landlock }, hspawn, hrlimit, ?_⟩
    simp [applyLayers, hon]
  | seccompOff job rlimit landlock hoff =>
    obtain ⟨k, hspawn, rfl, rfl⟩ := hstage
    refine ⟨k, hspawn, ?_⟩
    simp [applyLayers, hoff]
  | seccomp job rlimit landlock hon =>
    obtain ⟨k, hspawn, rfl, rfl⟩ := hstage
    refine ⟨{ k with seccompApply := (seccompApply sys.number a.seccomp).1 }, hspawn, ?_⟩
    simp only [applyLayers, hon, if_true]
    rfl
  | refused job posture hrefused =>
    obtain ⟨k, hspawn, rfl⟩ := hstage
    refine ⟨k, .error .other, hspawn, rfl, ?_⟩
    rw [runInWorker, hspawn]
    dsimp only
    rw [hrefused]
  | admitted job posture hadmitted => exact ⟨hstage, hadmitted⟩
  | joined job posture =>
    obtain ⟨⟨k, hspawn, rfl⟩, hadmitted⟩ := hstage
    refine ⟨k, a.work, hspawn, rfl, ?_⟩
    rw [runInWorker, hspawn]
    dsimp only
    rw [hadmitted]
    rcases a.work with payload | (e | r) <;> rfl

theorem Process.Run.follows {α : Type} {sys : System} {p p' : Process α}
    {events : List (Event Nat Syscall Rule)} (h : Run sys p events p')
    (hp : ∀ t, (p.stage t).Follows) : ∀ t, (p'.stage t).Follows := by
  induction h with
  | nil => exact hp
  | cons hstep _ ih =>
    refine ih fun t => ?_
    rcases hstep.stage_cases t with hstage | ⟨job, hstage, -⟩ | ⟨rules, a, rule, -, hmoves, -⟩
    · rw [hstage]
      exact hp t
    · rw [hstage]
      exact trivial
    · exact hmoves.follows (hp t)

/-! ## Confinement -/

/-- On the list of the filter, and none of the calls that it is there to keep out. -/
def Syscall.Filtered (sys : System) (c : Syscall) : Prop :=
  (∃ arch, Admitted sys.number arch c.data) ∧ ∀ call ∈ contained, c.data.nr ≠ sys.number call

/-- It wants nothing of files, network and scopes that a kernel of version `abi` can refuse. -/
def Syscall.Walled (abi : UInt32) (c : Syscall) : Prop :=
  1 ≤ abi ∧ ∀ a ∈ c.access, abi < a.since

namespace Process
variable {α : Type} {sys : System} {p p₀ : Process α} {events : List (Event Nat Syscall Rule)}
  {w t : Nat} {c : Syscall} {job : Job} {posture : SandboxPosture}

/-- The calls of a worker's line are bound by the layers it reports. -/
theorem Run.bound (h : Run sys p₀ events p) (hsys : sys.Documented) (hp : p₀.Consistent sys)
    (hsettled : (p.stage w).settled = some (job, posture)) (hline : Line events w t)
    (hc : .performed t c ∈ events) :
    (posture.seccomp = .enforced → c.Filtered sys) ∧
      ∀ abi, posture.landlock = .enforced abi → c.Walled abi := by
  obtain ⟨before, later, p₁, hbefore, hlater, hsettled₁, hall⟩ := h.settles hp hsettled
  obtain ⟨hline', hperformed⟩ := hall t hline
  have hp₁ := hbefore.consistent hp
  constructor
  · intro hposture
    rw [← Stage.seccomp_of_settled hsettled₁] at hposture
    obtain ⟨arch, hrule⟩ := hp₁.filter w hposture
    have hadmits := hlater.held.confined hrule hline' (hperformed c hc)
    have hadmitted := hsys.filters.allow_iff.mp hadmits
    exact ⟨⟨arch, hadmitted⟩, hsys.filters.not_contained hadmitted⟩
  · intro abi hposture
    rw [← Stage.landlock_of_settled hsettled₁] at hposture
    obtain ⟨habi, hrule⟩ := hp₁.domain w abi hposture
    refine ⟨habi, fun a ha => ?_⟩
    have hadmits := hlater.held.confined hrule hline' (hperformed c hc) a ha
    by_contra hle
    rw [hsys.domains abi a (UInt32.not_lt.mp hle)] at hadmits
    cases hadmits

/-- A decoder only runs where `check_strict` let it, on what `apply_layers` reported. -/
theorem Run.checked (h : Run sys p₀ events p) (hp : p₀.Consistent sys)
    (hfollows : ∀ t, (p₀.stage t).Follows) (hsettled : (p.stage w).settled = some (job, posture))
    (hline : Line events w t) (hc : .performed t c ∈ events) :
    (∃ k, applyLayers k job.selector job.limits = posture) ∧
      checkStrict job.selector posture = .ok () := by
  obtain ⟨before, later, p₁, hbefore, hlater, hsettled₁, hall⟩ := h.settles hp hsettled
  obtain ⟨hline', hperformed⟩ := hall t hline
  have hfollows₁ := hbefore.follows hfollows w
  cases hstage : p₁.stage w with
  | working job' posture' =>
    rw [hstage] at hsettled₁ hfollows₁
    cases hsettled₁
    obtain ⟨⟨k, -, hlayers⟩, hchecked⟩ := hfollows₁
    exact ⟨⟨k, hlayers⟩, hchecked⟩
  | ended job' posture' result =>
    exact absurd (hperformed c hc) (hlater.silent_of_ended hstage (hbefore.consistent hp) hline')
  | _ =>
    rw [hstage] at hsettled₁
    cases hsettled₁

/-- Only a worker takes on a rule. -/
theorem Step.not_free_of_restricted {p' : Process α} {r : Rule} (h : Step sys p events p')
    (hr : .restricted w r ∈ events) : p'.stage w ≠ .free := by
  cases h with
  | perform => cases List.mem_singleton.mp hr
  | setrlimit => cases hr
  | start => cases List.mem_singleton.mp hr
  | decode => cases List.mem_singleton.mp hr
  | @advance u rules a stage caps rule hu h =>
    cases rule with
    | none => cases hr
    | some r' =>
      cases List.mem_singleton.mp hr
      dsimp only
      rw [Function.update_self]
      exact (System.moves_of_advance h).not_free_after

theorem Step.not_free {p' : Process α} (h : Step sys p events p') (hw : p.stage w ≠ .free) :
    p'.stage w ≠ .free := by
  rcases h.stage_cases w with hstage | ⟨job, hstage, -⟩ | ⟨rules, a, rule, -, hmoves, -⟩
  · rwa [hstage]
  · rw [hstage]
    nofun
  · exact hmoves.not_free_after

theorem Run.not_free (h : Run sys p₀ events p) (hw : p₀.stage w ≠ .free) :
    p.stage w ≠ .free := by
  induction h with
  | nil => exact hw
  | cons hstep _ ih => exact ih (hstep.not_free hw)

theorem Run.not_free_of_restricted {r : Rule} (h : Run sys p₀ events p)
    (hr : .restricted w r ∈ events) : p.stage w ≠ .free := by
  induction h with
  | nil => cases hr
  | cons hstep hrun ih =>
    rcases List.mem_append.mp hr with hr | hr
    · exact hrun.not_free (hstep.not_free_of_restricted hr)
    · exact ih hr

end Process

/-- What a strict caller can count on. -/
theorem checkStrict_ok {selector : SandboxSelector} {posture : SandboxPosture}
    (h : checkStrict selector posture = .ok ()) (hstrict : selector.strict = true) :
    (selector.seccomp = true → posture.seccomp = .enforced) ∧
      (selector.landlock = true → ∃ abi, posture.landlock = .enforced abi) ∧
      (selector.rlimit = true → ∃ asMib cpuSeconds,
        posture.rlimit = .applied asMib cpuSeconds) := by
  unfold checkStrict at h
  rw [hstrict] at h
  obtain ⟨landlock, seccomp, rlimit⟩ := posture
  cases landlock <;> cases seccomp <;> cases rlimit <;> grind

/-- The limits that are reported as applied are those asked for. -/
theorem applyLayers_applied {k : Kernel} {selector : SandboxSelector} {limits : Limits}
    {asMib cpuSeconds : UInt64}
    (h : (applyLayers k selector limits).rlimit = .applied asMib cpuSeconds) :
    asMib = limits.decodeMemoryMib ∧ cpuSeconds = limits.decodeCpuSeconds := by
  unfold applyLayers rlimitApply at h
  dsimp only at h
  split at h
  · split at h <;> cases h
    exact ⟨rfl, rfl⟩
  · cases h

/-- In whatever order the threads of the process take their turns: no call of a decoder, in any
thread of its worker's line and at any time, gets past a layer that the worker reports as
enforced. A strict decoder that makes a call at all is under every layer it was asked for, and
its resource limits, where it was asked for them, have all been applied. A
thread in no worker's line holds the restrictions that the line brought from the start. And
what a worker hands back is what `run_in_worker` does alone, for some answers of the kernel. -/
theorem decode_confined {α : Type} {sys : System} (hsys : sys.Documented) {p₀ p : Process α}
    {events : List (Event Nat Syscall Rule)} (hfree : ∀ t, p₀.stage t = .free)
    (h : Process.Run sys p₀ events p) :
    (∀ w job posture, (p.stage w).settled = some (job, posture) →
      ∀ t c, Line events w t → .performed t c ∈ events →
        ((posture.seccomp = .enforced → c.Filtered sys) ∧
          ∀ abi, posture.landlock = .enforced abi → c.Walled abi) ∧
        (job.selector.strict = true → (job.selector.seccomp = true → c.Filtered sys) ∧
          (job.selector.landlock = true → ∃ abi, c.Walled abi) ∧
          (job.selector.rlimit = true → posture.rlimit =
            .applied job.limits.decodeMemoryMib job.limits.decodeCpuSeconds))) ∧
    (∀ t rules, p.held t = some rules → (∀ w, Line events w t → p.stage w = .free) →
      ∀ r ∈ rules, ∃ u rules, Line events u t ∧ p₀.held u = some rules ∧ r ∈ rules) ∧
    ∀ w job posture result, p.stage w = .ended job posture result →
      ∃ (k : Kernel) (work : Except PanicPayload (Except Error α)), k.spawnError = none ∧
        applyLayers k job.selector job.limits = posture ∧
        runInWorker k job.selector job.limits work = result := by
  have hp : p₀.Consistent sys := .of_free hfree
  have hfollows : ∀ t, (p₀.stage t).Follows := by
    intro t
    rw [hfree t]
    exact trivial
  refine ⟨?_, ?_, ?_⟩
  · intro w job posture hsettled t c hline hc
    obtain ⟨hfiltered, hwalled⟩ := h.bound hsys hp hsettled hline hc
    refine ⟨⟨hfiltered, hwalled⟩, fun hstrict => ?_⟩
    obtain ⟨⟨k, rfl⟩, hchecked⟩ := h.checked hp hfollows hsettled hline hc
    obtain ⟨hseccomp, hlandlock, hrlimit⟩ := checkStrict_ok hchecked hstrict
    refine ⟨fun hon => hfiltered (hseccomp hon), fun hon => ?_, fun hon => ?_⟩
    · obtain ⟨abi, hposture⟩ := hlandlock hon
      exact ⟨abi, hwalled abi hposture⟩
    · obtain ⟨asMib, cpuSeconds, hposture⟩ := hrlimit hon
      obtain ⟨rfl, rfl⟩ := applyLayers_applied hposture
      exact hposture
  · intro t rules ht hnone r hr
    obtain ⟨u, hline, hfrom⟩ := h.held.held_from ht hr
    rcases hfrom with hrestricted | ⟨rules', hu, hr'⟩
    · exact absurd (hnone u hline) (h.not_free_of_restricted hrestricted)
    · exact ⟨u, rules', hline, hu, hr'⟩
  · intro w job posture result hended
    have hstage := h.follows hfollows w
    rw [hended] at hstage
    exact hstage

/-! ## A process on Linux -/

/-- The numbers of x86_64 in the order of `Sysno`; what it lacks has a negative one. -/
def numbersX86 : List Int :=
  [60, 231, 219, 15, 14, 13, 131, 24, 204, 140, 141, 157, 186, 39, 110, 102, 107, 104, 108, 318,
    63, 99, 302, 234, 273, 274, 218, 334, 324, 61,
    202, 35, 230, 228, 229, 96,
    12, 9, 11, 10, 25, 28, 319, 239, 238,
    0, 1, 19, 20, 17, 18, 8, 3, 436, 32, 292, 72, 77, 16, 5, 138, 332, 262,
    257, 437, 79, 217, 269, 439, 267,
    291, 233, 281, 290, 293, 271, 289, 283, 286,
    435, 56,
    158, 21, 2, 4, 85, 33, 213, 232, 284, 22, 7, 89, 282, 201, 221,
    41, 42, 49, 50, 43, 288, 45, 47, 299, 44, 46, 307, -1, 55, 54, 51, 52,
    59, 322, 57, 58,
    272, 308, 155, 161, 165, -2, 166, 80, 81,
    125, 126,
    101, 310, 311, 321, 298, 250, 249]

def numberX86 (call : Sysno) : Int := numbersX86.getD call.ctorIdx (-3)

theorem idxOf_numberX86 : ∀ call, numbersX86.idxOf (numberX86 call) = call.ctorIdx := by
  intro call
  cases call <;> decide +kernel

theorem numberX86_injective (a b : Sysno) (h : numberX86 a = numberX86 b) : a = b := by
  have hidx : a.ctorIdx = b.ctorIdx := by rw [← idxOf_numberX86, h, idxOf_numberX86]
  have hback := congrArg Sysno.ofNat hidx
  rwa [Sysno.ofNat_ctorIdx, Sysno.ofNat_ctorIdx] at hback

/-- A filter as it is documented. -/
def runFilter (filter : SeccompFilter) (data : SeccompData) : SeccompAction :=
  if data.arch ≠ some filter.targetArch then .killProcess
  else match filter.rules data.nr with
    | none => filter.mismatchAction
    | some [] => filter.matchAction
    | some rules => if rules.any (·.Holds data) then filter.matchAction else filter.mismatchAction

theorem filters_runFilter : Filters numberX86 runFilter where
  numbered := numberX86_injective
  foreign filter data harch := if_pos harch
  unlisted filter data harch hrules := by
    rw [runFilter, if_neg (not_not.mpr harch), hrules]
  unconditional filter data harch hrules := by
    rw [runFilter, if_neg (not_not.mpr harch), hrules]
  conditional filter data rule rules harch hrules := by
    rw [runFilter, if_neg (not_not.mpr harch), hrules]

/-- A kernel on x86_64 and a process without privileges. -/
def linuxX86 : System where
  number := numberX86
  answer := runFilter
  refuses abi a := a.since ≤ abi
  setrlimit old new := if new.cur ≤ new.max ∧ new.max ≤ old.max then some new else none

theorem documented_linuxX86 : linuxX86.Documented where
  filters := filters_runFilter
  domains _ _ h := decide_eq_true h

theorem unprivileged_linuxX86 : linuxX86.Unprivileged := by
  intro old new r h
  unfold linuxX86 at h
  grind

/-- A process with one thread, and no limits. -/
def oneThread : Process Unit where
  held := Function.update (fun _ => none) 0 (some [])
  stage _ := .free
  caps _ := ⟨0xffffffffffffffff, 0xffffffffffffffff⟩

/-- Every layer, and none of them may be missing. -/
def strictJob : Job := ⟨⟨true, true, true, true⟩, .default⟩

def willing : Answers Unit where
  landlock := ⟨6, true, true, some .fullyEnforced⟩
  seccomp := ⟨some .x86_64, true, true, true⟩
  work := .ok (.ok ())

def readCall : Syscall := ⟨⟨0, some .x86_64, fun _ => 0⟩, []⟩

theorem readCall_admitted : ∀ r ∈ [Rule.filter (buildFilter numberX86 .x86_64), .domain 6],
    linuxX86.admits r readCall := by
  intro r hr
  rcases List.mem_cons.mp hr with rfl | hr
  · have hadmitted : Admitted numberX86 .x86_64 readCall.data :=
      ⟨rfl, .inl ⟨.read, by decide, rfl⟩⟩
    exact filters_runFilter.allow_iff.mpr hadmitted
  · cases List.mem_singleton.mp hr
    exact fun a ha => nomatch ha

/-- A strict decode on that kernel, and a call that its decoder makes. -/
theorem decode_confined_read : ∃ events p posture, Process.Run linuxX86 oneThread events p ∧
    (p.stage 1).settled = some (strictJob, posture) ∧ .performed 1 readCall ∈ events ∧
    readCall.Filtered linuxX86 ∧ (∃ abi, readCall.Walled abi) ∧
    posture.rlimit = .applied 512 30 := by
  have hrun : ∃ events p posture, Process.Run linuxX86 oneThread events p ∧
      .performed 1 readCall ∈ events ∧ (p.stage 1).settled = some (strictJob, posture) := by
    refine ⟨_, _, ⟨.enforced 6, .enforced, .applied 512 30⟩,
      .cons (.decode (t := 0) (w := 1) strictJob trivial rfl rfl)
      (.cons (.advance (w := 1) (a := willing) rfl rfl)
      (.cons (.advance (w := 1) (a := willing) rfl rfl)
      (.cons (.advance (w := 1) (a := willing) rfl rfl)
      (.cons (.advance (w := 1) (a := willing) rfl rfl)
      (.cons (.advance (w := 1) (a := willing) rfl rfl)
      (.cons (.perform (t := 1) (c := readCall) trivial rfl readCall_admitted) (.nil _))))))),
      ?_, rfl⟩
    simp
  obtain ⟨events, p, posture, hrun, hc, hsettled⟩ := hrun
  obtain ⟨hbound, -, -⟩ := decode_confined documented_linuxX86 (fun _ => rfl) hrun
  obtain ⟨-, hstrict⟩ := hbound 1 _ _ hsettled 1 readCall .self hc
  obtain ⟨hfiltered, hwalled, hrlimit⟩ := hstrict rfl
  exact ⟨events, p, posture, hrun, hsettled, hc, hfiltered rfl, hwalled rfl, hrlimit rfl⟩

end GlycinNg.Sandbox
