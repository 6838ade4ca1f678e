import GlycinNg.Shim.Frames

/-! # Iteration over frames

A caller that does not loop pulls frames until it is told that there are no
more. The cursor bounds the frames of the cached path; a frame that is rendered
again leaves the cursor where it is. `iteration_ends_iff` says which calls may be
made so that every sequence of them ends. -/
namespace GlycinNg.Shim
open Rust CApi

/-- The request asks for no loop. -/
def Call.Once (c : Call) : Prop := ∃ r, c.request = some r ∧ r.loopAnimation = false

/-- The number of calls that returned a frame. -/
def delivered (answers : List (Except GError FrameState)) : Nat := answers.countP Except.isOk

/-- At most `n` calls return a frame, and once `n` have, every call answers that
there are no more. -/
structure Ends (n : Nat) (answers : List (Except GError FrameState)) : Prop where
  bounded : delivered answers ≤ n
  stops : ∀ before answer after, answers = before ++ answer :: after → n ≤ delivered before →
    answer = .error (.new 2 "no more frames")

namespace Ends
variable {n : Nat} {answers : List (Except GError FrameState)}

theorem nil : Ends n [] where
  bounded := Nat.zero_le _
  stops before answer after h := by simp at h

/-- A frame uses up one of the `n`. -/
theorem frame (f : FrameState) (h : Ends n answers) : Ends (n + 1) (.ok f :: answers) where
  bounded := by
    rw [delivered, List.countP_cons_of_pos rfl]
    exact Nat.succ_le_succ h.bounded
  stops before answer after heq hle := by
    cases before with
    | nil => exact absurd hle (by simp [delivered])
    | cons b before =>
      obtain ⟨rfl, htail⟩ := List.cons.inj heq
      rw [delivered, List.countP_cons_of_pos rfl] at hle
      exact h.stops before answer after htail (Nat.le_of_succ_le_succ hle)

/-- When none is left, the answer is that there are no more. -/
theorem stop (h : Ends 0 answers) :
    Ends 0 (.error (.new 2 "no more frames") :: answers) where
  bounded := by
    rw [delivered, List.countP_cons_of_neg (by simp [Except.isOk, Except.toBool])]
    exact h.bounded
  stops before answer after heq hle := by
    cases before with
    | nil => exact (List.cons.inj heq).1.symm
    | cons b before => exact h.stops before answer after (List.cons.inj heq).2 (Nat.zero_le _)

end Ends

namespace ImageState
variable {img : ImageState} {c : Call}

/-- The image can be rendered again, the request asks for a size that is not empty
and not the one it has, and the engine decodes a frame at that size. -/
def Rerenders (img : ImageState) (c : Call) : Prop :=
  ∃ rerender sw sh newImage, img.rerender = some rerender ∧
    c.request.bind FrameRequest.scale = some (sw, sh) ∧ sw > 0 ∧ sh > 0 ∧
    (sw ≠ img.inner.width ∨ sh ≠ img.inner.height) ∧
    (rerender.loader sw sh).load c.host = .ok (.ok newImage) ∧ newImage.frames ≠ []

theorem rerenderSize_eq_some {request : Option FrameRequest} {r : Rerender} {sw sh : UInt32} :
    img.rerenderSize request = some (r, sw, sh) ↔
      img.rerender = some r ∧ request.bind FrameRequest.scale = some (sw, sh) ∧ sw > 0 ∧ sh > 0 ∧
        (sw ≠ img.inner.width ∨ sh ≠ img.inner.height) := by
  rw [rerenderSize]
  cases img.rerender with
  | none => simp
  | some r' =>
    cases request.bind FrameRequest.scale with
    | none => simp
    | some size =>
      dsimp only
      split_ifs with hsize
      · constructor
        · rintro ⟨⟩
          exact ⟨rfl, rfl, hsize⟩
        · rintro ⟨⟨⟩, ⟨⟩, -⟩
          rfl
      · apply iff_of_false nofun
        rintro ⟨-, ⟨⟩, h⟩
        exact hsize h

theorem rerendered_eq_some {host : Host} {request : Option FrameRequest} {newImage : Image} :
    img.rerendered host request = .ok (some newImage) ↔
      ∃ r sw sh, img.rerenderSize request = some (r, sw, sh) ∧
        (r.loader sw sh).load host = .ok (.ok newImage) := by
  rw [rerendered]
  cases img.rerenderSize request with
  | none => simp [pure, Except.pure]
  | some size =>
    obtain ⟨r, sw, sh⟩ := size
    dsimp only
    constructor
    · intro h
      obtain ⟨answer, hload, h⟩ := bind_eq_ok.mp h
      cases answer with
      | error message => cases h
      | ok image =>
        cases h
        exact ⟨r, sw, sh, rfl, loaderLoad_ok.mp hload⟩
    · rintro ⟨_, _, _, ⟨⟩, hload⟩
      rw [loaderLoad_ok.mpr hload]
      rfl

theorem rawFrame_zero {image : Image} :
    (∃ raw, Shim.rawFrame image 0 = some raw) ↔ image.frames ≠ [] := by
  cases hframes : image.frames <;> simp [Shim.rawFrame, imageTexture, hframes]

/-- That is when the shim takes its frame from a new decode. -/
theorem rerenders_iff :
    img.Rerenders c ↔ ∃ newImage raw, img.rerendered c.host c.request = .ok (some newImage) ∧
      rawFrame newImage 0 = some raw := by
  constructor
  · intro ⟨r, sw, sh, newImage, hr, hscale, hw, hh, hsize, hload, hframes⟩
    obtain ⟨raw, hraw⟩ := rawFrame_zero.mpr hframes
    exact ⟨newImage, raw, rerendered_eq_some.mpr
      ⟨r, sw, sh, rerenderSize_eq_some.mpr ⟨hr, hscale, hw, hh, hsize⟩, hload⟩, hraw⟩
  · intro ⟨newImage, raw, hrerendered, hraw⟩
    obtain ⟨r, sw, sh, hsize, hload⟩ := rerendered_eq_some.mp hrerendered
    obtain ⟨hr, hscale, hw, hh, hsize⟩ := rerenderSize_eq_some.mp hsize
    exact ⟨r, sw, sh, newImage, hr, hscale, hw, hh, hsize, hload, rawFrame_zero.mp ⟨raw, hraw⟩⟩

/-- Such a call returns a frame and leaves the image as it was. -/
theorem Rerenders.specificFrame (h : img.Rerenders c) :
    ∃ f, img.specificFrame c.host c.request = .ok (img, .ok f) := by
  obtain ⟨newImage, raw, hrerendered, hraw⟩ := rerenders_iff.mp h
  obtain ⟨out, hout⟩ := maybeConvert_returns raw img.accepted
  refine ⟨⟨out, newImage.cicp⟩, ?_⟩
  rw [ImageState.specificFrame, hrerendered, ok_bind]
  dsimp only
  rw [extractFrame_some hraw, hout]
  rfl

/-- Any other call that returns is answered by the cached path. -/
theorem specificFrame_cached {img' : ImageState} {answer : Except GError FrameState}
    (hnot : ¬ img.Rerenders c) (honce : c.Once)
    (h : img.specificFrame c.host c.request = .ok (img', answer)) :
    img.cachedFrame false = .ok (img', answer) := by
  obtain ⟨r, hr, hloop⟩ := honce
  have hfalse : (c.request.map FrameRequest.loopAnimation).getD true = false := by
    rw [hr]
    exact hloop
  rw [specificFrame, hfalse] at h
  obtain ⟨rerendered, hrerendered, h⟩ := bind_eq_ok.mp h
  cases rerendered with
  | none => exact h
  | some newImage =>
    cases hraw : rawFrame newImage 0 with
    | some raw => exact absurd (rerenders_iff.mpr ⟨newImage, raw, hrerendered, hraw⟩) hnot
    | none =>
      dsimp only at h
      rw [extractFrame_none hraw] at h
      exact h

/-- The cursor is within the frames of the engine's image. -/
structure Sound (img : ImageState) : Prop where
  frameCount : img.frameCount = img.inner.frames.length
  cursor : img.cursor ≤ img.frameCount

theorem Sound.rawFrame (h : img.Sound) (hcursor : img.cursor < img.frameCount) :
    ∃ raw, rawFrame img.inner img.cursor = some raw := by
  rw [h.frameCount] at hcursor
  simp [Shim.rawFrame, imageTexture, List.getElem?_eq_getElem hcursor]

/-- One step of the cached path: a frame and the next index, or the end. -/
theorem Sound.cachedFrame {img' : ImageState} {answer : Except GError FrameState} (h : img.Sound)
    (hstep : img.cachedFrame false = .ok (img', answer)) :
    (img.cursor < img.frameCount ∧ (∃ f, answer = .ok f) ∧
        img' = { img with cursor := img.cursor + 1 }) ∨
      (img.cursor = img.frameCount ∧ answer = .error (.new 2 "no more frames") ∧ img' = img) := by
  rw [cachedFrame_eq] at hstep
  rcases Nat.lt_or_ge img.cursor img.frameCount with hlt | hge
  · obtain ⟨raw, hraw⟩ := h.rawFrame hlt
    rw [cachedRaw_of_lt hlt hraw] at hstep
    obtain ⟨converted, hconverted, hstep⟩ := bind_eq_ok.mp hstep
    obtain ⟨out, -, hconverted⟩ := bind_eq_ok.mp hconverted
    cases hconverted
    cases hstep
    exact .inl ⟨hlt, ⟨_, rfl⟩, rfl⟩
  · rw [cachedRaw, advance_of_le hge] at hstep
    cases hstep
    exact .inr ⟨Nat.le_antisymm h.cursor hge, rfl, rfl⟩

/-- Calls that neither loop nor render again end after the frames that are left. -/
theorem Sound.ends {last : ImageState} {calls : List Call}
    {answers : List (Except GError FrameState)}
    (h : img.Sound) (honce : ∀ c ∈ calls, c.Once) (hnot : ∀ c ∈ calls, ¬ img.Rerenders c)
    (hrun : img.frames calls = .ok (last, answers)) :
    Ends (img.frameCount - img.cursor) answers := by
  induction calls generalizing img answers with
  | nil =>
    obtain ⟨-, rfl⟩ := replay_nil_eq_ok.mp hrun
    exact .nil
  | cons c calls ih =>
    obtain ⟨img', answer, rest, hstep, hrest, rfl⟩ := replay_cons_eq_ok.mp hrun
    have hcached := specificFrame_cached (hnot c (by simp)) (honce c (by simp)) hstep
    have honce : ∀ c ∈ calls, c.Once := by
      intro c hc
      exact honce c (by simp [hc])
    have hnot : ∀ c ∈ calls, ¬ img.Rerenders c := by
      intro c hc
      exact hnot c (by simp [hc])
    rcases h.cachedFrame hcached with ⟨hlt, ⟨f, rfl⟩, rfl⟩ | ⟨heq, rfl, rfl⟩
    · -- the cursor has moved, and what is rendered again does not depend on it
      have hsound : Sound { img with cursor := img.cursor + 1 } := ⟨h.frameCount, hlt⟩
      have hends := ih hsound honce hnot hrest
      have hleft : img.frameCount - img.cursor = img.frameCount - (img.cursor + 1) + 1 := by omega
      rw [hleft]
      exact hends.frame f
    · have hends := ih h honce hnot hrest
      rw [heq, Nat.sub_self] at hends ⊢
      exact hends.stop

/-- A call that renders again can be repeated for ever. -/
theorem Rerenders.replicate (h : img.Rerenders c) (n : Nat) :
    ∃ answers, img.frames (List.replicate n c) = .ok (img, answers) ∧ delivered answers = n := by
  obtain ⟨f, hf⟩ := h.specificFrame
  induction n with
  | zero => exact ⟨[], rfl, rfl⟩
  | succ n ih =>
    obtain ⟨answers, hrun, hcount⟩ := ih
    refine ⟨.ok f :: answers, replay_cons_eq_ok.mpr ⟨img, .ok f, answers, hf, hrun, rfl⟩, ?_⟩
    rw [delivered, List.countP_cons_of_pos rfl]
    exact congrArg Nat.succ hcount

end ImageState

/-- Of a loaded image of `n` frames: all sequences drawn from a set of calls that
do not loop end after at most `n` frames, exactly when none of these calls
renders the image again. -/
theorem iteration_ends_iff (host : Host) (loader loader' : LoaderState) (img : ImageState)
    (h : loader.load host = .ok (loader', .ok img)) (C : Call → Prop)
    (honce : ∀ c, C c → c.Once) :
    (∀ calls last answers, (∀ c ∈ calls, C c) → img.frames calls = .ok (last, answers) →
        Ends img.inner.frames.length answers) ↔
      ∀ c, C c → ¬ img.Rerenders c := by
  obtain ⟨image, rfl⟩ := LoaderState.load_ok h
  constructor
  · intro hends c hc hrerenders
    obtain ⟨answers, hrun, hcount⟩ := hrerenders.replicate (image.frames.length + 1)
    have hdrawn : ∀ c' ∈ List.replicate (image.frames.length + 1) c, C c' := by
      intro c' hc'
      rw [List.eq_of_mem_replicate hc']
      exact hc
    have hbound := (hends _ _ _ hdrawn hrun).bounded
    rw [hcount] at hbound
    exact Nat.not_succ_le_self _ hbound
  · intro hnot calls last answers hcalls hrun
    have hsound : ImageState.Sound (.new loader image) := ⟨rfl, Nat.zero_le _⟩
    apply hsound.ends ?_ ?_ hrun
    · intro c hc
      exact honce c (hcalls c hc)
    · intro c hc
      exact hnot c (hcalls c hc)

/-- An SVG of one pixel, opaque black at every size. -/
def blackSvg : Codecs :=
  { Codecs.failing with
    svg := { Codecs.failing.svg with
      treeFromData := fun _ => .ok {
        intrinsicWidth := 1
        intrinsicHeight := 1
        pixmap := fun w h => some (List.replicate (w.toNat * h.toNat) ⟨0, 0, 0, 255⟩) } } }

def blackLoader : LoaderState := .newFromBytes (ascii "<svg>")

/-- A request for twice the size, without a loop. -/
def blackDoubled : Call := ⟨.plain blackSvg, some ⟨some (2, 2), false⟩⟩

theorem iteration_ends_iff_blackSvg :
    ∃ loader' img, blackLoader.load (.plain blackSvg) = .ok (loader', .ok img) ∧
      ((∀ calls last answers, (∀ c ∈ calls, c = blackDoubled) →
          img.frames calls = .ok (last, answers) → Ends img.inner.frames.length answers) ↔
        ∀ c, c = blackDoubled → ¬ img.Rerenders c) :=
  ⟨_, _, rfl, iteration_ends_iff (.plain blackSvg) blackLoader _ _ rfl (· = blackDoubled)
    (by rintro c rfl; exact ⟨_, rfl, rfl⟩)⟩

/-- Two such calls return two frames of an image that has one. -/
theorem blackSvg_never_ends :
    ∃ loader' img last answers, blackLoader.load (.plain blackSvg) = .ok (loader', .ok img) ∧
      img.inner.frames.length = 1 ∧ blackDoubled.Once ∧
      img.frames [blackDoubled, blackDoubled] = .ok (last, answers) ∧ delivered answers = 2 ∧
      ¬ Ends img.inner.frames.length answers :=
  ⟨_, _, _, _, rfl, rfl, ⟨_, rfl, rfl⟩, rfl, rfl, fun h => absurd h.bounded (by decide)⟩

end GlycinNg.Shim
