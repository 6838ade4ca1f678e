import Mathlib.Data.List.Nodup
import Mathlib.Data.List.Perm.Basic

/-! # Ordered tests

A list of tests tried in turn, each with the answer it stands for. When no two of them
can hold of one input, the answer does not depend on the order in which they are tried
(`firstMatch_perm`); when each of them survives a change of the input, so does the answer
(`firstMatch_stable`). -/
namespace Guarded

/-- A test and the answer given where it holds. -/
structure Test (α β : Type*) where
  answer : β
  holds : α → Bool

variable {α β : Type*}

/-- The answer of the first test that holds. -/
def firstMatch (tests : List (Test α β)) (a : α) : Option β :=
  (tests.find? (·.holds a)).map (·.answer)

/-- No two of the tests hold of one input. -/
def Exclusive (tests : List (Test α β)) : Prop :=
  tests.Pairwise fun s t => ∀ a, s.holds a = true → t.holds a = false

@[simp] theorem firstMatch_nil (a : α) : firstMatch ([] : List (Test α β)) a = none := rfl

@[simp] theorem firstMatch_cons (t : Test α β) (tests : List (Test α β)) (a : α) :
    firstMatch (t :: tests) a = if t.holds a then some t.answer else firstMatch tests a := by
  unfold firstMatch
  cases h : t.holds a <;> simp [h]

theorem exists_of_firstMatch {tests : List (Test α β)} {a : α} {b : β}
    (h : firstMatch tests a = some b) : ∃ t ∈ tests, t.holds a = true ∧ t.answer = b := by
  obtain ⟨t, hfind, hanswer⟩ := Option.map_eq_some_iff.mp h
  exact ⟨t, List.mem_of_find?_eq_some hfind, by simpa using List.find?_some hfind, hanswer⟩

/-- A reading of the input that every test agrees with keeps the tests apart. -/
theorem exclusive_of_key {tests : List (Test α β)} (key : α → Option β)
    (hkey : ∀ t ∈ tests, ∀ a, t.holds a = true → key a = some t.answer)
    (hnodup : (tests.map (·.answer)).Nodup) : Exclusive tests := by
  rw [List.Nodup, List.pairwise_map] at hnodup
  refine hnodup.imp_of_mem fun {s t} hs ht hne a hsa => ?_
  cases hta : t.holds a with
  | false => rfl
  | true =>
    have hsame : some s.answer = some t.answer := (hkey s hs a hsa).symm.trans (hkey t ht a hta)
    exact absurd (Option.some.inj hsame) hne

theorem Exclusive.perm {tests tests' : List (Test α β)} (h : Exclusive tests)
    (hp : tests.Perm tests') : Exclusive tests' := by
  refine List.Perm.pairwise hp h fun {s t} hst a hta => ?_
  cases hsa : s.holds a with
  | false => rfl
  | true => exact absurd hta (by simp [hst a hsa])

/-- At most one of them holds. -/
theorem Exclusive.length_filter_le {tests : List (Test α β)} (h : Exclusive tests) (a : α) :
    (tests.filter (·.holds a)).length ≤ 1 := by
  induction tests with
  | nil => simp
  | cons t tests ih =>
    obtain ⟨hhead, htail⟩ := List.pairwise_cons.mp h
    cases hta : t.holds a with
    | false => simpa [List.filter_cons, hta] using ih htail
    | true =>
      have hrest : tests.filter (·.holds a) = [] := by
        simpa using fun s hs => hhead s hs a hta
      simp [hta, hrest]

/-- The first test that holds is the one that holds. -/
theorem Exclusive.firstMatch_eq_some {tests : List (Test α β)} (h : Exclusive tests)
    {t : Test α β} (ht : t ∈ tests) {a : α} (hta : t.holds a = true) :
    firstMatch tests a = some t.answer := by
  induction tests with
  | nil => simp at ht
  | cons s tests ih =>
    obtain ⟨hhead, htail⟩ := List.pairwise_cons.mp h
    rcases List.mem_cons.mp ht with rfl | hmem
    · simp [hta]
    · have hsa : s.holds a = false := by
        cases hsa : s.holds a with
        | false => rfl
        | true => exact absurd hta (by simp [hhead t hmem a hsa])
      simpa [hsa] using ih htail hmem

theorem Exclusive.firstMatch_iff {tests : List (Test α β)} (h : Exclusive tests) (a : α) (b : β) :
    firstMatch tests a = some b ↔ ∃ t ∈ tests, t.holds a = true ∧ t.answer = b := by
  constructor
  · exact exists_of_firstMatch
  · rintro ⟨t, ht, hta, rfl⟩
    exact h.firstMatch_eq_some ht hta

/-- The order in which the tests are tried does not matter. -/
theorem Exclusive.firstMatch_perm {tests tests' : List (Test α β)} (h : Exclusive tests)
    (hp : tests.Perm tests') (a : α) : firstMatch tests' a = firstMatch tests a := by
  refine Option.ext fun b => ?_
  rw [(h.perm hp).firstMatch_iff, h.firstMatch_iff]
  simp only [hp.mem_iff]

/-- Where every test that holds of `a` holds of `a'`, the answer for `a` stays. -/
theorem Exclusive.firstMatch_stable {tests : List (Test α β)} (h : Exclusive tests) {a a' : α}
    (hmono : ∀ t ∈ tests, t.holds a = true → t.holds a' = true) {b : β}
    (hb : firstMatch tests a = some b) : firstMatch tests a' = some b := by
  obtain ⟨t, ht, hta, rfl⟩ := exists_of_firstMatch hb
  exact h.firstMatch_eq_some ht (hmono t ht hta)

end Guarded
