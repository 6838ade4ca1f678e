import GlycinNg.Loader.Named
import GlycinNg.Shim.Accepted
import GlycinNg.Shim.Iteration

/-! # What a client of the shim can reach

A client creates a loader from bytes, sets what there is to set on it, loads it, as often
as it likes, and asks a loaded image for frames. `Loading` and `Viewing` are the states it
reaches that way, while the world around it answers as some `Host` of `world` does. The shim
never changes the caps of the engine, so every decode runs under the default limits
(`engineLoader`), and the image behind a view is the one that was loaded (`Backed`). -/
namespace GlycinNg.Shim
open Rust CApi

/-- The states of a loader made from `bytes`. -/
inductive Loading (world : Host → Prop) (bytes : Bytes) : LoaderState → Prop where
  | new : Loading world bytes (.newFromBytes bytes)
  | setApplyTransformations {s : LoaderState} (h : Loading world bytes s) (apply : Bool) :
    Loading world bytes (s.setApplyTransformations apply)
  | setAcceptedMemoryFormats {s : LoaderState} (h : Loading world bytes s) (selection : UInt32) :
    Loading world bytes (s.setAcceptedMemoryFormats selection)
  | load {s s' : LoaderState} {host : Host} {answer : Except GError ImageState}
    (h : Loading world bytes s) (hhost : world host) (hload : s.load host = .ok (s', answer)) :
    Loading world bytes s'

/-- The states of an image loaded from `bytes`. -/
inductive Viewing (world : Host → Prop) (bytes : Bytes) : ImageState → Prop where
  | loaded {s s' : LoaderState} {host : Host} {img : ImageState} (h : Loading world bytes s)
    (hhost : world host) (hload : s.load host = .ok (s', .ok img)) : Viewing world bytes img
  | called {img img' : ImageState} {c : Call} {answer : Except GError FrameState}
    (h : Viewing world bytes img) (hhost : world c.host)
    (hcall : img.specificFrame c.host c.request = .ok (img', answer)) : Viewing world bytes img'

/-- `gly_image_next_frame` is one of the calls. -/
theorem Viewing.nextFrame {world : Host → Prop} {bytes : Bytes} {img img' : ImageState}
    {host : Host} {answer : Except GError FrameState} (h : Viewing world bytes img)
    (hhost : world host) (hcall : img.nextFrame host = .ok (img', answer)) :
    Viewing world bytes img' :=
  .called (c := ⟨host, none⟩) h hhost hcall

/-- The engine's loader for `bytes`, as the shim configures it. -/
def engineLoader (bytes : Bytes) (apply : Bool) (size : Option (UInt32 × UInt32)) : Loader :=
  { Loader.newBytes bytes with applyTransformations := apply, renderSizeHint := size }

namespace Loading
variable {world : Host → Prop} {bytes : Bytes} {s s' : LoaderState}

/-- A load gives up the inner loader and nothing else. -/
theorem load_state {host : Host} {answer : Except GError ImageState}
    (h : s.load host = .ok (s', answer)) : s' = { s with inner := none } := by
  rw [LoaderState.load] at h
  cases hinner : s.inner with
  | none =>
    rw [hinner] at h
    cases h
    rw [← hinner]
  | some inner =>
    rw [hinner] at h
    obtain ⟨answer', -, h⟩ := bind_eq_ok.mp h
    cases answer' <;> cases h <;> rfl

/-- The caps are those of a new loader, the source is kept, and the inner loader, while it is
there, is the one made from the bytes. -/
theorem fields (h : Loading world bytes s) : s.limits = .default ∧ s.sourceBytes = some bytes ∧
    ∀ inner ∈ s.inner, inner = loaderNewBytes bytes := by
  induction h with
  | new =>
    refine ⟨rfl, rfl, fun inner hinner => ?_⟩
    rw [Option.mem_def, LoaderState.newFromBytes, Option.some.injEq] at hinner
    exact hinner.symm
  | setApplyTransformations _ apply ih => exact ih
  | setAcceptedMemoryFormats _ selection ih => exact ih
  | load _ _ hload ih =>
    obtain rfl := load_state hload
    exact ⟨ih.1, ih.2.1, by simp⟩

/-- What the engine is asked to load. -/
theorem engineLoader_eq (h : Loading world bytes s) {inner : Loader}
    (hinner : s.inner = some inner) :
    s.limits.apply (loaderApplyTransformations inner s.applyTransformations) =
      engineLoader bytes s.applyTransformations none := by
  obtain ⟨hlimits, -, hnew⟩ := h.fields
  rw [hlimits, hnew inner hinner]
  rfl

/-- A load that returns an image is one of the engine. -/
theorem loaded {host : Host} {img : ImageState} (h : Loading world bytes s)
    (hload : s.load host = .ok (s', .ok img)) :
    ∃ image, img = .new s image ∧
      (engineLoader bytes s.applyTransformations none).load host = .ok (.ok image) := by
  rw [LoaderState.load] at hload
  cases hinner : s.inner with
  | none =>
    rw [hinner] at hload
    cases hload
  | some inner =>
    rw [hinner] at hload
    dsimp only at hload
    rw [h.engineLoader_eq hinner] at hload
    obtain ⟨answer, hanswer, hload⟩ := bind_eq_ok.mp hload
    cases answer with
    | error message => cases hload
    | ok image =>
      cases hload
      exact ⟨image, rfl, loaderLoad_ok.mp hanswer⟩

end Loading

/-- A new decode runs the same configuration at its own size. -/
theorem rerender_loader {r : Rerender} (h : r.limits = .default) (sw sh : UInt32) :
    r.loader sw sh = engineLoader r.sourceBytes r.applyTransformations (some (sw, sh)) := by
  rw [Rerender.loader, h]
  rfl

/-! ## The image behind a view -/

/-- What stays true of an image whatever frames are asked of it. -/
structure Backed (world : Host → Prop) (bytes : Bytes) (img : ImageState) : Prop where
  decoded : ∃ apply host, world host ∧
    (engineLoader bytes apply none).load host = .ok (.ok img.inner)
  count : img.frameCount = img.inner.frames.length
  cursor_le : img.cursor ≤ img.frameCount
  rerender : ∀ r ∈ img.rerender, r.sourceBytes = bytes ∧ r.limits = .default
  rescalable : img.rerender.isSome = true ↔ img.inner.formatName = "svg"

namespace Backed
variable {world : Host → Prop} {bytes : Bytes} {img img' : ImageState}

theorem of_load {s s' : LoaderState} {host : Host} (h : Loading world bytes s)
    (hhost : world host) (hload : s.load host = .ok (s', .ok img)) : Backed world bytes img := by
  obtain ⟨image, rfl, himage⟩ := h.loaded hload
  obtain ⟨hlimits, hsource, -⟩ := h.fields
  refine ⟨⟨_, host, hhost, himage⟩, rfl, Nat.zero_le _, ?_, ?_⟩
  · intro r hr
    rw [ImageState.new, hsource] at hr
    dsimp only [Option.bind_some] at hr
    split at hr
    · cases hr
      exact ⟨rfl, hlimits⟩
    · cases hr
  · rw [ImageState.rerender_isSome_iff, hsource]
    simp [ImageState.new]

/-- Only the cursor moves. -/
theorem of_moved (h : Backed world bytes img) {n : Nat} (hn : n ≤ img.frameCount) :
    Backed world bytes { img with cursor := n } :=
  ⟨h.decoded, h.count, hn, h.rerender, h.rescalable⟩

theorem cachedRaw (h : Backed world bytes img) (loopAnimation : Bool) :
    Backed world bytes (img.cachedRaw loopAnimation).1 := by
  rcases img.cachedRaw_cases loopAnimation with ⟨idx, _, hidx, -, hcase⟩ | ⟨idx, hidx, -, hcase⟩ |
      hcase
  · rw [hcase]
    exact h.of_moved hidx
  · rw [hcase]
    exact h.of_moved hidx
  · rwa [hcase]

theorem of_call (h : Backed world bytes img) {c : Call} {answer : Except GError FrameState}
    (hcall : img.specificFrame c.host c.request = .ok (img', answer)) :
    Backed world bytes img' := by
  obtain ⟨engine, hengine, -⟩ := ImageState.specificFrame_ok hcall
  rw [ImageState.engineFrame] at hengine
  obtain ⟨rerendered, -, hengine⟩ := bind_eq_ok.mp hengine
  split at hengine
  · have hmoved : (img.cachedRaw _).1 = img' := congrArg Prod.fst (Except.ok.inj hengine)
    exact hmoved ▸ h.cachedRaw _
  · cases hengine
    exact h

end Backed

theorem Viewing.backed {world : Host → Prop} {bytes : Bytes} {img : ImageState}
    (h : Viewing world bytes img) : Backed world bytes img := by
  induction h with
  | loaded h hhost hload => exact .of_load h hhost hload
  | called _ _ hcall ih => exact ih.of_call hcall

end GlycinNg.Shim
