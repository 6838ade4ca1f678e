import Mathlib.Data.List.Induction
import Mathlib.Logic.Function.Basic

/-! # Stores and their journals

Objects under keys are made, changed and dropped one at a time. A journal of these events
tells what the store holds (`replay`), and an object is what its own events make of it: the
changes since it was last made (`replay_eq`), whatever happens to the others. -/
namespace Store

variable {K S E : Type} [DecidableEq K]

/-- What can happen to a store. -/
inductive Event (K S E : Type) where
  | made (k : K) (s : S)
  | changed (k : K) (e : E)
  | dropped (k : K)

/-- The object an event is about. -/
def Event.key : Event K S E → K
  | .made k _ | .changed k _ | .dropped k => k

/-- The store after an event. -/
def Event.apply (change : S → E → S) (objects : K → Option S) : Event K S E → K → Option S
  | .made k s => Function.update objects k (some s)
  | .changed k e => Function.update objects k ((objects k).map (change · e))
  | .dropped k => Function.update objects k none

/-- The store a journal leaves of an empty one. -/
def replay (change : S → E → S) (journal : List (Event K S E)) : K → Option S :=
  journal.foldl (Event.apply change) fun _ => none

/-- What an object was made as and its changes since, after one more of its events. -/
def Event.enter (made : Option (S × List E)) : Event K S E → Option (S × List E)
  | .made _ s => some (s, [])
  | .changed _ e => made.map fun (s, es) => (s, es ++ [e])
  | .dropped _ => none

/-- Only an object's own events are on its record. -/
def Event.record (k : K) (made : Option (S × List E)) (event : Event K S E) :
    Option (S × List E) :=
  if event.key = k then event.enter made else made

/-- What an object was last made as and its changes since; `none` once it is dropped. -/
def history (k : K) (journal : List (Event K S E)) : Option (S × List E) :=
  journal.foldl (Event.record k) none

/-- The object a history makes. -/
def object (change : S → E → S) (made : S × List E) : S := made.2.foldl change made.1

section
variable (change : S → E → S)

@[simp] theorem replay_snoc (journal : List (Event K S E)) (event : Event K S E) :
    replay change (journal ++ [event]) = event.apply change (replay change journal) := by
  rw [replay, List.foldl_append]
  rfl

@[simp] theorem history_snoc (k : K) (journal : List (Event K S E)) (event : Event K S E) :
    history k (journal ++ [event]) = event.record k (history k journal) := by
  rw [history, List.foldl_append]
  rfl

theorem object_snoc (s : S) (es : List E) (e : E) :
    object change (s, es ++ [e]) = change (object change (s, es)) e := by
  rw [object, List.foldl_append]
  rfl

/-- An event does to an object what it records about it. -/
theorem Event.apply_eq (event : Event K S E) {objects : K → Option S} {k : K}
    {made : Option (S × List E)} (h : objects k = made.map (object change)) :
    event.apply change objects k = (event.record k made).map (object change) := by
  by_cases hkey : event.key = k
  · rw [record, if_pos hkey]
    cases event with
    | made _ s =>
      obtain rfl := hkey
      exact Function.update_self ..
    | changed k' e =>
      obtain rfl : k' = k := hkey
      rw [apply, Function.update_self, h]
      cases made with
      | none => rfl
      | some m => exact congrArg some (object_snoc change m.1 m.2 e).symm
    | dropped _ =>
      obtain rfl := hkey
      exact Function.update_self ..
  · rw [record, if_neg hkey, ← h]
    cases event <;> exact Function.update_of_ne (Ne.symm hkey) ..

/-- An object is what its history makes. -/
theorem replay_eq (journal : List (Event K S E)) (k : K) :
    replay change journal k = (history k journal).map (object change) := by
  induction journal using List.reverseRecOn with
  | nil => rfl
  | append_singleton journal event ih =>
    rw [replay_snoc, history_snoc]
    exact event.apply_eq change ih

end

/-- What an object was made as is in the journal. -/
theorem made_mem {k : K} {journal : List (Event K S E)} {s : S} {es : List E}
    (h : history k journal = some (s, es)) : Event.made k s ∈ journal := by
  induction journal using List.reverseRecOn generalizing es with
  | nil => cases h
  | append_singleton journal event ih =>
    rw [history_snoc, Event.record] at h
    split at h
    · rename_i hkey
      cases event with
      | made k' s' =>
        cases h
        obtain rfl : k' = k := hkey
        simp
      | changed _ e =>
        obtain ⟨⟨s', es'⟩, hmade, h⟩ := Option.map_eq_some_iff.mp h
        cases h
        exact List.mem_append_left _ (ih hmade)
      | dropped _ => cases h
    · exact List.mem_append_left _ (ih h)

/-- The events about other objects leave no trace in a history. -/
theorem history_filter (k : K) (journal : List (Event K S E)) :
    history k (journal.filter (·.key = k)) = history k journal := by
  induction journal using List.reverseRecOn with
  | nil => rfl
  | append_singleton journal event ih =>
    rw [List.filter_append, history_snoc]
    by_cases hkey : event.key = k
    · rw [List.filter_cons_of_pos (by simpa using hkey), List.filter_nil, history_snoc, ih]
    · rw [List.filter_cons_of_neg (by simpa using hkey), List.filter_nil, List.append_nil, ih,
        Event.record, if_neg hkey]

end Store
