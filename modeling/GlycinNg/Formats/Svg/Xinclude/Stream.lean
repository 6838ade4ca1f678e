import GlycinNg.Formats.Svg.Xinclude
import GlycinNg.Nested.Forest

/-! # The `xi:include` pass as a pass over brackets

The tags named like an include are the brackets of the event stream, and an include
that can be resolved is a replaced item. The event loop of the code is a pass over such
a stream, written out on the way: `rewrite_eq_pass`. -/
namespace GlycinNg.Xinclude
open Rust Nested

/-- The events before the end of the input, where no error comes first. -/
def readAll : List (Option Event) → Option (List Event)
  | [] => some []
  | none :: _ => none
  | some .eof :: _ => some []
  | some event :: rest => (readAll rest).map (event :: ·)

/-- Includes are brackets, by name. -/
def Event.mark : Event → Mark
  | .start tag => if isXincludeName tag.name then .opens else .neutral
  | .endTag name => if isXincludeName name then .closes else .neutral
  | .empty _ | .text _ | .other _ | .eof => .neutral

/-- The text an event is replaced by. -/
def replacement (xml : Xml) : Event → Option Bytes
  | .start tag | .empty tag => includeBody xml tag
  | .endTag _ | .text _ | .other _ | .eof => none

/-- How `quick-xml` writes an event; the `content` of the other events is kept with
its delimiters. -/
def Event.markup : Event → Bytes
  | .start tag => ascii "<" ++ tag.content ++ ascii ">"
  | .endTag name => ascii "</" ++ name ++ ascii ">"
  | .empty tag => ascii "<" ++ tag.content ++ ascii "/>"
  | .text escaped => escaped
  | .other content => content
  | .eof => []

/-- What `write_event` puts out. -/
def Xml.written (xml : Xml) (event : Event) : Bytes := (xml.writeEvent event).getD []

/-- What the pass puts out for an item, replaced or kept. -/
def Xml.output (xml : Xml) : Bytes ⊕ Event → Bytes :=
  Sum.elim (fun body => xml.written (.text body)) xml.written

/-- The event pass of `expand`, without the probe before it. -/
def fullPass (xml : Xml) (input : Bytes) : Option Bytes :=
  match rewrite xml (xml.events input) [] false with
  | some (out, true) => some out
  | _ => none

theorem expand_eq (xml : Xml) (input : Bytes) :
    expand xml input = if containsXinclude input then fullPass xml input else none := by
  rw [expand]
  cases containsXinclude input <;> rfl

/-! ## Reading -/

theorem readAll_cons {event : Event} {rest : List (Option Event)} (h : event ≠ .eof) :
    readAll (some event :: rest) = (readAll rest).map (event :: ·) := by
  cases event <;> first | rfl | exact absurd rfl h

/-! ## Swallowing -/

@[simp] theorem swallow_zero (events : List (Option Event)) : swallow 0 events = some events := by
  cases events <;> rfl

/-- One event moves the counter by its mark. -/
theorem swallow_cons {depth : Nat} {event : Event} {rest : List (Option Event)}
    (h : event ≠ .eof) :
    swallow (depth + 1) (some event :: rest) = swallow (event.mark.count (depth + 1)) rest := by
  cases event with
  | start tag =>
    cases hname : isXincludeName tag.name <;> simp [swallow, Event.mark, Mark.count, hname]
  | endTag name =>
    cases hname : isXincludeName name <;> simp [swallow, Event.mark, Mark.count, hname]
  | empty | text | other => rfl
  | eof => exact absurd rfl h

/-- Swallowing is skipping. -/
theorem swallow_eq_skip (depth : Nat) (events : List (Option Event)) :
    (swallow depth events).bind readAll = (readAll events).bind (skip Event.mark depth) := by
  induction events generalizing depth with
  | nil => cases depth <;> simp [readAll, swallow, skip]
  | cons answer rest ih =>
    cases depth with
    | zero => cases hread : readAll (answer :: rest) <;> simp [hread]
    | succ depth =>
      cases answer with
      | none => rfl
      | some event =>
        by_cases heof : event = .eof
        · rw [heof]
          rfl
        · rw [swallow_cons heof, ih, readAll_cons heof, Option.bind_map]
          rfl

/-! ## The event loop -/

/-- Where the loop goes on after a replaced event. -/
def resumeEvents (event : Event) (rest : List (Option Event)) : Option (List (Option Event)) :=
  if event.mark = .opens then swallow 1 rest else some rest

theorem resumeEvents_eq (event : Event) (rest : List (Option Event)) :
    (resumeEvents event rest).bind readAll =
      (readAll rest).bind (resume Event.mark event) := by
  rw [resumeEvents]
  by_cases hopens : event.mark = .opens
  · rw [if_pos hopens, swallow_eq_skip]
    cases readAll rest <;> simp [resume, hopens]
  · rw [if_neg hopens]
    cases hread : readAll rest <;> simp [hread, resume, hopens]

theorem length_of_resumeEvents {event : Event} {rest rest' : List (Option Event)}
    (h : resumeEvents event rest = some rest') : rest'.length ≤ rest.length := by
  rw [resumeEvents] at h
  split at h
  · exact swallow_length h
  · cases h
    exact Nat.le_refl _

section
variable {xml : Xml} {event : Event} {rest : List (Option Event)} {out : Bytes} {expanded : Bool}

/-- A turn of the loop on an event it keeps. -/
theorem rewrite_keep (hwrites : ∀ e, (xml.writeEvent e).isSome) (heof : event ≠ .eof)
    (h : replacement xml event = none) :
    rewrite xml (some event :: rest) out expanded =
      rewrite xml rest (out ++ xml.output (.inr event)) expanded := by
  obtain ⟨bytes, hbytes⟩ := Option.isSome_iff_exists.mp (hwrites event)
  cases event with
  | start tag | empty tag =>
    rw [replacement] at h
    rw [rewrite]
    simp [h, hbytes, Xml.output, Xml.written]
  | endTag | text | other => simp [rewrite, hbytes, Xml.output, Xml.written]
  | eof => exact absurd rfl heof

/-- A turn of the loop on an event it replaces. -/
theorem rewrite_replace {body : Bytes} (hwrites : ∀ e, (xml.writeEvent e).isSome)
    (h : replacement xml event = some body) :
    rewrite xml (some event :: rest) out expanded =
      (resumeEvents event rest).bind fun rest' =>
        rewrite xml rest' (out ++ xml.output (.inl body)) true := by
  obtain ⟨bytes, hbytes⟩ := Option.isSome_iff_exists.mp (hwrites (.text body))
  cases event with
  | start tag =>
    rw [replacement] at h
    have hname : isXincludeName tag.name := by
      rw [includeBody] at h
      split at h
      · assumption
      · cases h
    have hresume : resumeEvents (.start tag) rest = swallow 1 rest := by
      simp [resumeEvents, Event.mark, hname]
    rw [rewrite, hresume]
    simp only [h, Xml.output, Xml.written, hbytes, Sum.elim_inl, Option.getD_some]
    cases swallow 1 rest <;> rfl
  | empty tag =>
    rw [replacement] at h
    rw [rewrite]
    simp [h, hbytes, Xml.output, Xml.written, resumeEvents, Event.mark]
  | endTag | text | other | eof => cases h

/-- The loop is a pass over the events, written out. -/
theorem rewrite_eq_pass (hwrites : ∀ e, (xml.writeEvent e).isSome)
    (events : List (Option Event)) (out : Bytes) (expanded : Bool) :
    rewrite xml events out expanded =
      ((readAll events).bind (pass Event.mark (replacement xml))).map fun items =>
        (out ++ items.flatMap xml.output, expanded || items.any Sum.isLeft) := by
  match events with
  | [] => simp [rewrite, readAll]
  | none :: rest => simp [rewrite, readAll]
  | some event :: rest =>
    by_cases heof : event = .eof
    · rw [heof, rewrite]
      simp [readAll]
    rw [readAll_cons heof, Option.bind_map]
    cases h : replacement xml event with
    | none =>
      rw [rewrite_keep hwrites heof h, rewrite_eq_pass hwrites rest]
      cases readAll rest with
      | none => rfl
      | some l =>
        simp only [Option.bind_some, Function.comp_apply, pass_keep h, Option.map_map]
        congr 1
        funext items
        simp
    | some body =>
      have hpass : (readAll rest).bind (pass Event.mark (replacement xml) ∘ (event :: ·)) =
          ((resumeEvents event rest).bind readAll).bind fun l =>
            (pass Event.mark (replacement xml) l).map (.inl body :: ·) := by
        rw [resumeEvents_eq, Option.bind_assoc]
        exact congrArg _ (funext fun l => pass_replace h)
      rw [rewrite_replace hwrites h, hpass]
      cases hresume : resumeEvents event rest with
      | none => rfl
      | some rest' =>
        have hlen := length_of_resumeEvents hresume
        rw [Option.bind_some, Option.bind_some, rewrite_eq_pass hwrites rest']
        cases readAll rest' with
        | none => rfl
        | some l =>
          simp only [Option.bind_some, Option.map_map]
          congr 1
          funext items
          simp
termination_by events.length
decreasing_by
  · exact Nat.lt_succ_self _
  · exact Nat.lt_succ_of_le hlen

/-- The pass returns what it wrote when it reaches the end and has replaced something. -/
theorem fullPass_eq (hwrites : ∀ e, (xml.writeEvent e).isSome) (input : Bytes) :
    fullPass xml input =
      ((readAll (xml.events input)).bind (pass Event.mark (replacement xml))).bind fun items =>
        if items.any Sum.isLeft then some (items.flatMap xml.output) else none := by
  rw [fullPass, rewrite_eq_pass hwrites]
  cases (readAll (xml.events input)).bind (pass Event.mark (replacement xml)) with
  | none => rfl
  | some items =>
    simp only [Option.map_some, List.nil_append, Bool.false_or, Option.bind_some]
    cases items.any Sum.isLeft <;> rfl

end

end GlycinNg.Xinclude
