import Mathlib.Data.List.Induction
import Mathlib.Data.List.Nodup
import Std.Data.TreeMap

/-! # Maps filled by a list of writes

A map written to key by key holds the last value given under each key
(`getElem?_insertAll`). Its entries can be moved to other keys and values, where some have
no counterpart: an injective translation keeps the keys apart (`translate_nodup`), so a
search by key finds every entry that was moved (`find?_iff_mem`). -/
namespace Store

/-! ## The last value -/

section
variable {K V : Type}

/-- `v` is the last value given under `k`; a write without a value counts for nothing. -/
def LastValue (ws : List (K × Option V)) (k : K) (v : V) : Prop :=
  ∃ before after, ws = before ++ (k, some v) :: after ∧ ∀ w ∈ after, w.1 = k → w.2 = none

theorem not_lastValue_nil (k : K) (v : V) : ¬ LastValue [] k v := by
  rintro ⟨before, after, h, -⟩
  simp at h

theorem LastValue.mem {ws : List (K × Option V)} {k : K} {v : V} (h : LastValue ws k v) :
    (k, some v) ∈ ws := by
  obtain ⟨before, after, rfl, -⟩ := h
  simp

/-- One more write replaces the last value under its key, or leaves it. -/
theorem lastValue_concat {ws : List (K × Option V)} {w : K × Option V} {k : K} {v : V} :
    LastValue (ws ++ [w]) k v ↔
      w = (k, some v) ∨ (w.1 = k → w.2 = none) ∧ LastValue ws k v := by
  constructor
  · rintro ⟨before, after, hws, hafter⟩
    rcases List.eq_nil_or_concat' after with rfl | ⟨after, last, rfl⟩
    · obtain ⟨-, hw⟩ := List.append_inj' hws rfl
      exact .inl (List.head_eq_of_cons_eq hw)
    · have hsplit : ws ++ [w] = (before ++ (k, some v) :: after) ++ [last] := by simpa using hws
      obtain ⟨hpre, hw⟩ := List.append_inj' hsplit rfl
      obtain rfl := List.head_eq_of_cons_eq hw
      refine .inr ⟨hafter w (by simp), before, after, hpre, fun w' hw' => ?_⟩
      exact hafter w' (by simp [hw'])
  · rintro (rfl | ⟨hw, before, after, rfl, hafter⟩)
    · exact ⟨ws, [], rfl, by simp⟩
    · refine ⟨before, after ++ [w], by simp, fun w' hw' => ?_⟩
      rcases List.mem_append.mp hw' with hw' | hw'
      · exact hafter w' hw'
      · exact List.mem_singleton.mp hw' ▸ hw

/-- A key given some value has a last one. -/
theorem exists_lastValue {ws : List (K × Option V)} {k : K} {v : V} (h : (k, some v) ∈ ws) :
    ∃ v', LastValue ws k v' := by
  classical
  induction ws using List.reverseRecOn with
  | nil => simp at h
  | append_singleton ws w ih =>
    rcases List.mem_append.mp h with h | h
    · obtain ⟨v', hlast⟩ := ih h
      obtain ⟨k', value⟩ := w
      by_cases hw : k' = k → value = none
      · exact ⟨v', lastValue_concat.mpr (.inr ⟨hw, hlast⟩)⟩
      · obtain ⟨rfl, hvalue⟩ := Classical.not_imp.mp hw
        obtain ⟨v'', rfl⟩ := Option.ne_none_iff_exists'.mp hvalue
        exact ⟨v'', lastValue_concat.mpr (.inl rfl)⟩
    · obtain rfl := List.mem_singleton.mp h
      exact ⟨v, lastValue_concat.mpr (.inl rfl)⟩

end

/-! ## Filling a map -/

section
variable {K V : Type} {cmp : K → K → Ordering}

/-- One write; without a value it leaves the map alone. -/
def insertGiven (map : Std.TreeMap K V cmp) (w : K × Option V) : Std.TreeMap K V cmp :=
  match w.2 with
  | some v => map.insert w.1 v
  | none => map

variable [Std.TransCmp cmp] [Std.LawfulEqCmp cmp]

/-- The map holds the last values. -/
theorem getElem?_insertAll (ws : List (K × Option V)) (k : K) (v : V) :
    (ws.foldl insertGiven (∅ : Std.TreeMap K V cmp))[k]? = some v ↔ LastValue ws k v := by
  induction ws using List.reverseRecOn with
  | nil => simpa using not_lastValue_nil k v
  | append_singleton ws w ih =>
    rw [List.foldl_append, List.foldl_cons, List.foldl_nil, lastValue_concat, ← ih]
    obtain ⟨k', value⟩ := w
    cases value with
    | none => simp [insertGiven]
    | some v' =>
      rw [insertGiven, Std.TreeMap.getElem?_insert]
      by_cases hk : k' = k
      · subst hk
        simp
      · simp [hk]

/-- It is empty when no write had a value. -/
theorem isEmpty_insertAll (ws : List (K × Option V)) :
    (ws.foldl insertGiven (∅ : Std.TreeMap K V cmp)).isEmpty = true ↔ ∀ w ∈ ws, w.2 = none := by
  rw [Std.TreeMap.isEmpty_iff_forall_contains]
  simp only [Std.TreeMap.contains_eq_isSome_getElem?, Option.isSome_eq_false_iff,
    Option.isNone_iff_eq_none]
  constructor
  · rintro h ⟨k, value⟩ hw
    cases value with
    | none => rfl
    | some v =>
      obtain ⟨v', hlast⟩ := exists_lastValue hw
      have hsome : (ws.foldl insertGiven (∅ : Std.TreeMap K V cmp))[k]? = some v' :=
        (getElem?_insertAll ws k v').mpr hlast
      rw [h k] at hsome
      cases hsome
  · intro h k
    by_contra hne
    obtain ⟨v, hv⟩ := Option.ne_none_iff_exists'.mp hne
    exact absurd (h _ ((getElem?_insertAll ws k v).mp hv).mem) nofun

end

/-! ## Translated entries -/

section
variable {K V A B : Type}

/-- The entries of which both parts have a counterpart. -/
def translate (f : K → Option A) (g : V → Option B) (entries : List (K × V)) : List (A × B) :=
  entries.filterMap fun e => do return (← f e.1, ← g e.2)

section
variable {f : K → Option A} {g : V → Option B} {entries : List (K × V)} {a : A} {b : B}

theorem mem_translate : (a, b) ∈ translate f g entries ↔
    ∃ k v, (k, v) ∈ entries ∧ f k = some a ∧ g v = some b := by
  simp [translate, Option.bind_eq_some_iff]

/-- An injective translation keeps the keys apart. -/
theorem translate_nodup (hf : ∀ k k' a, f k = some a → f k' = some a → k = k')
    (hkeys : entries.Pairwise fun e e' => e.1 ≠ e'.1) :
    (translate f g entries).Pairwise fun e e' => e.1 ≠ e'.1 := by
  refine List.Pairwise.filterMap _ ?_ hkeys
  intro e e' hne t ht t' ht' heq
  obtain ⟨a, ha, hbind⟩ := Option.bind_eq_some_iff.mp ht
  obtain ⟨a', ha', hbind'⟩ := Option.bind_eq_some_iff.mp ht'
  obtain ⟨b, -, hb⟩ := Option.bind_eq_some_iff.mp hbind
  obtain ⟨b', -, hb'⟩ := Option.bind_eq_some_iff.mp hbind'
  cases hb
  cases hb'
  cases heq
  exact hne (hf _ _ _ ha ha')

end

/-- With distinct keys a search finds an entry exactly if it is there. -/
theorem find?_iff_mem [DecidableEq A] {entries : List (A × B)}
    (hkeys : entries.Pairwise fun e e' => e.1 ≠ e'.1) {a : A} {b : B} :
    (entries.find? fun e => e.1 = a).map (·.2) = some b ↔ (a, b) ∈ entries := by
  constructor
  · intro h
    obtain ⟨e, hfind, rfl⟩ := Option.map_eq_some_iff.mp h
    have ha : e.1 = a := by simpa using List.find?_some hfind
    subst ha
    exact List.mem_of_find?_eq_some hfind
  · intro hmem
    induction entries with
    | nil => simp at hmem
    | cons e entries ih =>
      obtain ⟨hhead, htail⟩ := List.pairwise_cons.mp hkeys
      rcases List.mem_cons.mp hmem with rfl | hmem
      · simp
      · rw [List.find?_cons_of_neg (by simpa using hhead _ hmem)]
        exact ih htail hmem

end
end Store
