import GlycinNg.Concurrent.Custody
import GlycinNg.Shim.Threads
import Mathlib.Data.Multiset.Count
import Mathlib.Algebra.Order.Group.Multiset

/-! # Who owns the handles

The resources of a thread of the shim are the handles in its local variables, the
references it owns, and the objects it may use because its caller owns one. `Owns` says
what the world has to do with what the threads hold: every live handle is in the local
variables of one thread or in the state of one object (`Custody`), and the reference counts
are right. Each operation keeps it. -/
namespace GlycinNg.Shim.Threads
open Concurrent

/-- One resource. `knows o p` is no more than the knowledge that the image of `o` is `p`. -/
inductive Token where
  | handle (h : Handle)
  | ref (o : Obj)
  | borrow (o : Obj)
  | knows (o : Obj) (p : Addr)
  deriving DecidableEq

abbrev Tokens := Multiset Token

/-- What comes with a state: its handle. -/
def State.tokens (st : State) : Tokens := st.handle.elim 0 fun h => {.handle h}

/-- What comes with a result: a reference to the object. -/
def Result.tokens : Result → Tokens
  | .object o => {.ref o}
  | .null _ => 0
  | .void => 0

/-- The object is kept alive, by a reference of the thread or of its caller. -/
def Keeps (T : Tokens) (o : Obj) : Prop := .ref o ∈ T ∨ .borrow o ∈ T

/-- The image may be read: it is the thread's own, or that of an object kept alive. -/
def Reads (T : Tokens) (p : Addr) : Prop :=
  .handle (.image p) ∈ T ∨ ∃ o, o.kind = .image ∧ Keeps T o ∧ .knows o p ∈ T

/-- What each operation needs of a thread that holds `T`, and what it leaves. -/
inductive Spec : (o : Op) → Tokens → (o.Ans → Tokens) → Prop where
  | loaderNewBytes (bytes T) : Spec (.loaderNewBytes bytes) T
      fun a => a.elim T fun p => .handle (.loader p) ::ₘ T
  | loaderSet {p s T} (h : .handle (.loader p) ∈ T) : Spec (.loaderSet p s) T fun _ => T
  | loaderLoad (p T) : Spec (.loaderLoad p) (.handle (.loader p) ::ₘ T) fun
      | .error _ => T
      | .ok q => .handle (.image q) ::ₘ T
  | loaderFree (p T) : Spec (.loaderFree p) (.handle (.loader p) ::ₘ T) fun _ => T
  | imageRead {p q T} (h : Reads T p) : Spec (.imageRead p q) T fun _ => T
  | imageFree (p T) : Spec (.imageFree p) (.handle (.image p) ::ₘ T) fun _ => T
  | attach (st T) : Spec (.attach st) (st.tokens + T)
      fun a => a.elim (st.tokens + T) fun o => .ref o ::ₘ T
  | unref (o T) : Spec (.unref o) (.ref o ::ₘ T) fun a => a.elim T fun st => st.tokens + T
  | takeInner {o T} (hkind : o.kind = .loader) (h : Keeps T o) : Spec (.takeInner o) T
      fun a => a.elim T fun p => .handle (.loader p) ::ₘ T
  | read {o f T} (hkind : o.kind = f.kind) (h : Keeps T o) : Spec (.read o f) T fun _ => T
  | readInner {o T} (hkind : o.kind = .image) (h : Keeps T o) : Spec (.read o .inner) T
      fun p => .knows o p ::ₘ T
  | write {o s T} (hkind : o.kind = s.kind) (h : Keeps T o) : Spec (.write o s) T fun _ => T
  | advance {o l T} (hkind : o.kind = .image) (h : Keeps T o) : Spec (.advance o l) T fun _ => T
  | propagate (r T) : Spec (.propagate r) (r.tokens + T)
      fun a => if a then T else r.tokens + T
  | abort (T) : Spec .abort T Empty.elim

/-! ## The balance of the world -/

def Slot.refs : Slot → Nat
  | .live n _ => n
  | .fresh => 0
  | .gone => 0

def Slot.handle : Slot → Option Handle
  | .live _ st => st.handle
  | .fresh => none
  | .gone => none

/-- The image of the object is `p`, unless the object has been finalized. -/
def Slot.Knows (p : Addr) : Slot → Prop
  | .live _ (.image s) => s.inner = p
  | .gone => True
  | _ => False

/-- What is recorded of a handle: at most one release, and a load only of a loader. -/
def ReleasesOk : Handle → List Release → Prop
  | .loader _, rs => rs.length ≤ 1
  | .image _, rs => rs = [] ∨ rs = [.free]

/-- The threads hold `T` between them. -/
structure Owns (w : World) (T : Tokens) : Prop where
  typed : ∀ o n st, w.objects o = .live n st → st.kind = o.kind ∧ 0 < n
  refs : ∀ o, T.count (.ref o) + w.owned o = (w.objects o).refs
  borrows : ∀ o, T.count (.borrow o) = w.calls o
  backed : ∀ o, 0 < w.calls o → 0 < w.owned o
  knows : ∀ o p, .knows o p ∈ T → (w.objects o).Knows p
  releases : ∀ h rs, w.handles h = some rs → ReleasesOk h rs
  custody : Custody (fun h => w.handles h = some []) (fun o => (w.objects o).handle)
    fun h => T.count (.handle h)

theorem Owns.start : Owns .start 0 where
  typed _ _ _ h := nomatch h
  refs _ := rfl
  borrows _ := rfl
  backed _ h := h
  knows _ _ h := absurd h (Multiset.notMem_zero _)
  releases _ _ h := nomatch h
  custody := by simpa [World.start, Slot.handle] using Custody.empty

/-! ## What may be used is there -/

section
variable {w : World} {T F : Tokens} {o : Obj} {p : Addr}

/-- An object that is kept alive is there, with its type of state. -/
theorem Owns.alive (h : Owns w (T + F)) (hkeeps : Keeps T o) : w.Alive o o.kind := by
  have hrefs := h.refs o
  have hpos : 0 < (w.objects o).refs := by
    rcases hkeeps with hmem | hmem
    · have := Multiset.count_pos.mpr hmem
      rw [Multiset.count_add] at hrefs
      omega
    · have hcount := Multiset.count_pos.mpr hmem
      have hcalls := h.borrows o
      rw [Multiset.count_add] at hcalls
      have := h.backed o (by omega)
      omega
  cases hslot : w.objects o with
  | live n st => exact ⟨n, st, hslot, (h.typed o n st hslot).1⟩
  | fresh => simp [hslot, Slot.refs] at hpos
  | gone => simp [hslot, Slot.refs] at hpos

/-- A handle in a local variable is live. -/
theorem Owns.live (h : Owns w (T + F)) {x : Handle} (hmem : .handle x ∈ T) :
    w.handles x = some [] :=
  h.custody.live_of_loose x (Multiset.count_pos.mpr (Multiset.mem_add.mpr (.inl hmem)))

/-- An image that may be read is live. -/
theorem Owns.readable (h : Owns w (T + F)) (hreads : Reads T p) :
    w.handles (.image p) = some [] := by
  rcases hreads with hmem | ⟨o, hkind, hkeeps, hmem⟩
  · exact h.live hmem
  · obtain ⟨n, st, hslot, hst⟩ := h.alive hkeeps
    have hknows := h.knows o p (Multiset.mem_add.mpr (.inl hmem))
    refine h.custody.live_of_held o _ ?_
    rw [hslot] at hknows ⊢
    rw [hkind] at hst
    cases st with
    | image s =>
      obtain rfl : s.inner = p := hknows
      rfl
    | loader s => cases hst
    | frame s => cases hst
    | request s => cases hst

/-- No operation within its specification is a fault. -/
theorem Owns.not_fault (h : Owns w (T + F)) {op : Op} {T' : op.Ans → Tokens}
    (hspec : Spec op T T') : ¬ w.Fault op := by
  cases hspec with
  | loaderNewBytes => exact id
  | loaderSet hmem => exact not_not.mpr (h.live hmem)
  | loaderLoad p T => exact not_not.mpr (h.live (Multiset.mem_cons_self _ _))
  | loaderFree p T => exact not_not.mpr (h.live (Multiset.mem_cons_self _ _))
  | imageRead hreads => exact not_not.mpr (h.readable hreads)
  | imageFree p T => exact not_not.mpr (h.live (Multiset.mem_cons_self _ _))
  | attach => exact id
  | unref o T => exact not_not.mpr (h.alive (.inl (Multiset.mem_cons_self _ _)))
  | takeInner hkind hkeeps => exact not_not.mpr (hkind ▸ h.alive hkeeps)
  | read hkind hkeeps => exact not_not.mpr (hkind ▸ h.alive hkeeps)
  | readInner hkind hkeeps =>
    have halive := h.alive hkeeps
    rw [hkind] at halive
    exact not_not.mpr halive
  | write hkind hkeeps => exact not_not.mpr (hkind ▸ h.alive hkeeps)
  | advance hkind hkeeps => exact not_not.mpr (hkind ▸ h.alive hkeeps)
  | propagate => exact id
  | abort => exact id

end

/-! ## Counting tokens -/

section
variable (st : State) (r : Result) (o x : Obj) (h : Handle) (p : Addr)

@[simp] theorem State.count_handle_tokens :
    st.tokens.count (.handle h) = if st.handle = some h then 1 else 0 := by
  unfold State.tokens
  cases hst : st.handle with
  | none => simp
  | some h' => simp [Multiset.count_singleton, eq_comm]

@[simp] theorem State.count_ref_tokens : st.tokens.count (.ref o) = 0 := by
  unfold State.tokens
  cases st.handle <;> simp

@[simp] theorem State.count_borrow_tokens : st.tokens.count (.borrow o) = 0 := by
  unfold State.tokens
  cases st.handle <;> simp

@[simp] theorem State.knows_notMem_tokens : .knows o p ∉ st.tokens := by
  unfold State.tokens
  cases st.handle <;> simp

end

theorem Setting.kind_write (s : Setting) (st : State) : (s.write st).kind = st.kind := by
  cases s <;> cases st <;> rfl

theorem Setting.handle_write (s : Setting) (st : State) : (s.write st).handle = st.handle := by
  cases s <;> cases st <;> rfl

/-! ## What the changes of the world do to the balance -/

namespace Owns
variable {w w' : World} {T T' : Tokens} {o : Obj}

/-- What is behind the handles has no part in it. -/
theorem congr (h : Owns w T) (hhandles : w'.handles = w.handles) (hobjects : w'.objects = w.objects)
    (howned : w'.owned = w.owned) (hcalls : w'.calls = w.calls) : Owns w' T := by
  obtain ⟨htyped, hrefs, hborrows, hbacked, hknows, hreleases, hcustody⟩ := h
  constructor <;> simpa only [hhandles, hobjects, howned, hcalls]

/-- A handle that is new is the thread's own. -/
theorem acquire (h : Owns w T) {x : Handle} (hnew : w.handles x = none)
    (hhandles : w'.handles = Function.update w.handles x (some []))
    (hobjects : w'.objects = w.objects) (howned : w'.owned = w.owned)
    (hcalls : w'.calls = w.calls) : Owns w' (.handle x ::ₘ T) where
  typed := by simpa only [hobjects] using h.typed
  refs y := by simpa [hobjects, howned] using h.refs y
  borrows y := by simpa [hcalls] using h.borrows y
  backed := by simpa only [hcalls, howned] using h.backed
  knows y q hy := by simpa only [hobjects] using h.knows y q (by simpa using hy)
  releases y rs hy := by
    rw [hhandles, Function.update_apply] at hy
    split at hy
    · cases hy
      cases y with
      | loader p => exact Nat.zero_le 1
      | image p => exact .inl rfl
    · exact h.releases y rs hy
  custody := by
    rw [hobjects]
    refine h.custody.acquire (h := x) (by simp [hnew]) (fun y => ?_) (fun y => ?_)
    · rw [hhandles, Function.update_apply]
      split
      · simp_all
      · simp_all
    · simp [Multiset.count_cons]

/-- A handle of the thread's own is released. -/
theorem release {x : Handle} {r : Release} (h : Owns w (.handle x ::ₘ T))
    (hfits : ReleasesOk x [r]) : Owns (w.release x r) T where
  typed := h.typed
  refs y := by simpa [World.release] using h.refs y
  borrows y := by simpa [World.release] using h.borrows y
  backed := h.backed
  knows y q hy := h.knows y q (Multiset.mem_cons_of_mem hy)
  releases y rs hy := by
    have hlive : w.handles x = some [] :=
      (h.custody.live_of_loose x (by simp))
    simp only [World.release, Function.update_apply, hlive] at hy
    split at hy
    · rename_i heq
      cases hy
      rw [heq]
      exact hfits
    · exact h.releases y rs hy
  custody := by
    refine h.custody.release (h := x) (fun y => ?_) (fun y => ?_)
    · have hlive : w.handles x = some [] := h.custody.live_of_loose x (by simp)
      simp only [World.release, Function.update_apply, hlive]
      split
      · simp_all
      · simp_all
    · simp [Multiset.count_cons]

/-- The slot of one object changes. -/
theorem setObject (h : Owns w T) {slot : Slot}
    (htyped : ∀ n st, slot = .live n st → st.kind = o.kind ∧ 0 < n)
    (hrefs : T'.count (.ref o) + w.owned o = slot.refs)
    (hother : ∀ x, x ≠ o → T'.count (.ref x) = T.count (.ref x))
    (hborrows : ∀ x, T'.count (.borrow x) = T.count (.borrow x))
    (hmem : ∀ x p, .knows x p ∈ T' → .knows x p ∈ T)
    (hknows : ∀ p, (w.objects o).Knows p → slot.Knows p)
    (hcustody : Custody (fun x => w.handles x = some [])
      (Function.update (fun x => (w.objects x).handle) o slot.handle)
      fun x => T'.count (.handle x)) : Owns (w.setObject o slot) T' where
  typed x n st hx := by
    simp only [World.setObject, Function.update_apply] at hx
    split at hx
    · rename_i heq
      rw [heq]
      exact htyped n st hx
    · exact h.typed x n st hx
  refs x := by
    simp only [World.setObject, Function.update_apply]
    split
    · rename_i heq
      rw [heq]
      exact hrefs
    · rename_i hne
      rw [hother x hne]
      exact h.refs x
  borrows x := by
    rw [hborrows]
    exact h.borrows x
  backed := h.backed
  knows x p hx := by
    have hold := h.knows x p (hmem x p hx)
    simp only [World.setObject, Function.update_apply]
    split
    · rename_i heq
      subst heq
      exact hknows p hold
    · exact hold
  releases := h.releases
  custody := by
    have hholding : (fun x => ((w.setObject o slot).objects x).handle) =
        Function.update (fun x => (w.objects x).handle) o slot.handle := by
      funext x
      simp only [World.setObject, Function.update_apply]
      split <;> rfl
    rw [hholding]
    exact hcustody

/-- The state of an object changes, but not its handle. -/
theorem setState (h : Owns w T) {n : Nat} {st st' : State} (hslot : w.objects o = .live n st)
    (hkind : st'.kind = st.kind) (hhandle : st'.handle = st.handle) :
    Owns (w.setObject o (.live n st')) T := by
  have htyped := h.typed o n st hslot
  refine h.setObject (fun m s heq => ?_) ?_ (fun _ _ => rfl) (fun _ => rfl) (fun _ _ hx => hx)
    (fun p hp => ?_) ?_
  · cases heq
    exact ⟨hkind.trans htyped.1, htyped.2⟩
  · have hrefs := h.refs o
    rwa [hslot] at hrefs
  · rw [hslot] at hp
    cases st with
    | image s =>
      cases st' with
      | image s' =>
        have heq : s'.inner = s.inner := by simpa [State.handle] using hhandle
        exact heq.trans hp
      | loader s' => cases hkind
      | frame s' => cases hkind
      | request s' => cases hkind
    | loader s => exact hp.elim
    | frame s => exact hp.elim
    | request s => exact hp.elim
  · have hsame : (Slot.live n st').handle = (w.objects o).handle := by
      rw [hslot]
      exact hhandle
    rw [hsame, Function.update_eq_self o fun x => (w.objects x).handle]
    exact h.custody

/-- The inner loader of an object is taken. -/
theorem takeInner (h : Owns w T) {n : Nat} {s : LoaderState}
    (hslot : w.objects o = .live n (.loader s)) :
    Owns (w.setObject o (.live n (.loader { s with inner := none })))
      (s.inner.elim T fun p => .handle (.loader p) ::ₘ T) := by
  cases hinner : s.inner with
  | none => exact h.setState hslot rfl (by simp [State.handle, hinner])
  | some p =>
    have htyped := h.typed o n _ hslot
    refine h.setObject (fun m st heq => ?_) ?_ (fun _ _ => by simp) (fun _ => by simp)
      (fun x q hx => by simpa using hx) (fun q hq => ?_) ?_
    · cases heq
      exact htyped
    · have hrefs := h.refs o
      rw [hslot] at hrefs
      simpa [Slot.refs] using hrefs
    · rw [hslot] at hq
      exact hq.elim
    · have hheld : (w.objects o).handle = some (.loader p) := by
        simp [hslot, Slot.handle, State.handle, hinner]
      refine h.custody.unstow hheld rfl fun x => ?_
      simp [Multiset.count_cons]

/-- A new object takes over the state. -/
theorem attach {st : State} (h : Owns w (st.tokens + T)) (hkind : o.kind = st.kind)
    (hslot : w.objects o = .fresh) : Owns (w.setObject o (.live 1 st)) (.ref o ::ₘ T) := by
  refine h.setObject (fun m s heq => ?_) ?_ (fun x hne => by simp [hne]) (fun _ => by simp)
    (fun x q hx => ?_) (fun q hq => ?_) ?_
  · cases heq
    exact ⟨hkind.symm, Nat.one_pos⟩
  · have hrefs := h.refs o
    rw [hslot] at hrefs
    simp only [Multiset.count_add, State.count_ref_tokens, Slot.refs] at hrefs ⊢
    rw [Multiset.count_cons_self]
    omega
  · exact Multiset.mem_add.mpr (.inr (by simpa using hx))
  · rw [hslot] at hq
    exact hq.elim
  · have hempty : (w.objects o).handle = none := by rw [hslot]; rfl
    cases hst : st.handle with
    | none =>
      have hcustody := h.custody
      simp only [Multiset.count_add, State.count_handle_tokens, hst] at hcustody
      have hsame : (Slot.live 1 st).handle = (w.objects o).handle := hst.trans hempty.symm
      rw [hsame, Function.update_eq_self o fun x => (w.objects x).handle]
      simpa using hcustody
    | some x =>
      refine h.custody.stow (h := x) hempty (by rw [Slot.handle, hst]) fun y => ?_
      simp only [Multiset.count_add, State.count_handle_tokens, hst, Option.some.injEq]
      rw [Multiset.count_cons_of_ne (by simp), add_comm]
      simp [eq_comm]

/-- The last reference to an object is dropped; its state goes to who dropped it. -/
theorem unrefLast {st : State} (h : Owns w (.ref o ::ₘ T)) (hslot : w.objects o = .live 1 st) :
    Owns (w.setObject o .gone) (st.tokens + T) := by
  refine h.setObject (fun m s heq => nomatch heq) ?_ (fun x hne => by simp [hne])
    (fun _ => by simp) (fun x q hx => ?_) (fun q hq => trivial) ?_
  · have hrefs := h.refs o
    rw [hslot, Multiset.count_cons_self] at hrefs
    simp only [Multiset.count_add, State.count_ref_tokens, Slot.refs] at hrefs ⊢
    omega
  · simpa using hx
  · have hheld : (w.objects o).handle = st.handle := by rw [hslot]; rfl
    cases hst : st.handle with
    | none =>
      have hcustody := h.custody
      have hsame : Slot.gone.handle = (w.objects o).handle := (hheld.trans hst).symm
      rw [hsame, Function.update_eq_self o fun x => (w.objects x).handle]
      simpa [hst] using hcustody
    | some x =>
      refine h.custody.unstow (h := x) (hheld.trans hst) rfl fun y => ?_
      simp only [Multiset.count_add, State.count_handle_tokens, hst, Option.some.injEq]
      rw [Multiset.count_cons_of_ne (by simp), add_comm]
      simp [eq_comm]

/-- The number of references to an object changes, and what the threads have of them. -/
theorem setRefs (h : Owns w T) {n m : Nat} {st : State} (hslot : w.objects o = .live n st)
    (hpos : 0 < m) (hrefs : T'.count (.ref o) + n = T.count (.ref o) + m)
    (hother : ∀ t, t ≠ .ref o → T'.count t = T.count t) :
    Owns (w.setObject o (.live m st)) T' := by
  have htyped := h.typed o n st hslot
  have hold := h.refs o
  rw [hslot] at hold
  refine h.setObject (fun k s heq => ?_) ?_ (fun x hne => hother _ (by simpa using hne))
    (fun x => hother _ (by simp)) (fun x p hx => ?_) (fun p hp => ?_) ?_
  · cases heq
    exact ⟨htyped.1, hpos⟩
  · simp only [Slot.refs] at hold ⊢
    omega
  · rw [← Multiset.count_pos, ← hother _ (by simp)]
    exact Multiset.count_pos.mpr hx
  · rw [hslot] at hp
    cases st <;> exact hp
  · have hsame : (Slot.live m st).handle = (w.objects o).handle := by rw [hslot]; rfl
    rw [hsame, Function.update_eq_self o fun x => (w.objects x).handle]
    have hcount : ∀ x, T'.count (.handle x) = T.count (.handle x) := fun x => hother _ (by simp)
    simp only [hcount]
    exact h.custody

/-- What an object's image is may be known. -/
theorem learn (h : Owns w T) {p : Addr} (hknows : (w.objects o).Knows p) :
    Owns w (.knows o p ::ₘ T) where
  typed := h.typed
  refs x := by simpa using h.refs x
  borrows x := by simpa using h.borrows x
  backed := h.backed
  knows x q hx := by
    rcases Multiset.mem_cons.mp hx with heq | hx
    · cases heq
      exact hknows
    · exact h.knows x q hx
  releases := h.releases
  custody := by simpa using h.custody

/-- The references the users own change hands with those of the threads. -/
theorem setOwned (h : Owns w T) {n : Nat}
    (hrefs : T'.count (.ref o) + n = T.count (.ref o) + w.owned o)
    (hother : ∀ t, t ≠ .ref o → T'.count t = T.count t) (hbacked : 0 < w.calls o → 0 < n) :
    Owns (w.setOwned o n) T' where
  typed := h.typed
  refs x := by
    simp only [World.setOwned, Function.update_apply]
    split
    · rename_i heq
      rw [heq, hrefs]
      exact h.refs o
    · rename_i hne
      rw [hother _ (by simpa using hne)]
      exact h.refs x
  borrows x := by
    rw [hother _ (by simp)]
    exact h.borrows x
  backed x hx := by
    simp only [World.setOwned, Function.update_apply]
    split
    · rename_i heq
      exact hbacked (heq ▸ hx)
    · exact h.backed x hx
  knows x p hx := by
    refine h.knows x p ?_
    rw [← Multiset.count_pos, ← hother _ (by simp)]
    exact Multiset.count_pos.mpr hx
  releases := h.releases
  custody := by
    have hcount : ∀ x, T'.count (.handle x) = T.count (.handle x) := fun x => hother _ (by simp)
    simp only [hcount]
    exact h.custody

/-! ### Operations -/

/-- Each operation keeps the balance, whatever the other threads hold. -/
theorem exec {F : Tokens} {op : Op} {P : op.Ans → Tokens} {a : op.Ans} (hspec : Spec op T P)
    (h : Owns w (T + F)) (hexec : w.Exec op a w') : Owns w' (P a + F) := by
  cases hspec with
  | loaderNewBytes bytes =>
    cases a with
    | none =>
      obtain rfl := hexec
      exact h
    | some p =>
      obtain ⟨hnew, rfl⟩ := hexec
      show Owns _ (_ ::ₘ T + F)
      rw [Multiset.cons_add]
      exact h.acquire hnew rfl rfl rfl rfl
  | loaderSet =>
    obtain rfl := hexec
    exact h.congr rfl rfl rfl rfl
  | loaderLoad p T =>
    rw [Multiset.cons_add] at h
    cases a with
    | error message =>
      obtain ⟨-, rfl⟩ := hexec
      exact h.release (Nat.le_refl 1)
    | ok q =>
      obtain ⟨host, loader, image, -, -, hnew, rfl⟩ := hexec
      show Owns _ (_ ::ₘ T + F)
      rw [Multiset.cons_add]
      refine (h.release (r := .load) (Nat.le_refl 1)).acquire ?_ rfl rfl rfl rfl
      simpa [World.release] using hnew
  | loaderFree p T =>
    rw [Multiset.cons_add] at h
    obtain rfl := hexec
    exact h.release (Nat.le_refl 1)
  | imageRead =>
    obtain ⟨-, rfl⟩ := hexec
    exact h
  | imageFree p T =>
    rw [Multiset.cons_add] at h
    obtain rfl := hexec
    exact h.release (.inr rfl)
  | attach st T =>
    cases a with
    | none =>
      obtain rfl := hexec
      exact h
    | some o =>
      obtain ⟨hkind, hfresh, rfl⟩ := hexec
      show Owns _ (_ ::ₘ T + F)
      rw [add_assoc] at h
      rw [Multiset.cons_add]
      exact h.attach hkind hfresh
  | unref o T =>
    rw [Multiset.cons_add] at h
    cases a with
    | some st =>
      obtain ⟨hslot, rfl⟩ := hexec
      show Owns _ (st.tokens + T + F)
      rw [add_assoc]
      exact h.unrefLast hslot
    | none =>
      obtain ⟨n, st, hslot, rfl⟩ := hexec
      refine h.setRefs hslot (Nat.succ_pos n) ?_ fun t hne => ?_
      · rw [Multiset.count_cons_self]
        show Multiset.count _ (T + F) + _ = _
        omega
      · rw [Multiset.count_cons_of_ne hne]
        rfl
  | takeInner =>
    obtain ⟨n, s, hslot, rfl, rfl⟩ := hexec
    have htake := h.takeInner hslot
    cases hinner : s.inner with
    | none => simpa [hinner] using htake
    | some p =>
      show Owns _ (_ ::ₘ T + F)
      rw [Multiset.cons_add]
      simpa [hinner] using htake
  | read =>
    obtain ⟨-, rfl⟩ := hexec
    exact h
  | @readInner o _ hkind =>
    obtain ⟨⟨n, st, hslot, hread⟩, rfl⟩ := hexec
    show Owns _ (.knows o a ::ₘ T + F)
    rw [Multiset.cons_add]
    refine h.learn ?_
    rw [hslot]
    cases st with
    | image s => exact Option.some.inj hread
    | loader s => cases hread
    | frame s => cases hread
    | request s => cases hread
  | write =>
    obtain ⟨n, st, hslot, rfl⟩ := hexec
    exact h.setState hslot (Setting.kind_write _ _) (Setting.handle_write _ _)
  | advance =>
    obtain ⟨n, s, hslot, rfl, rfl⟩ := hexec
    refine h.setState hslot rfl ?_
    simp [State.handle, ImageState.advance_inner]
  | propagate r T =>
    cases r with
    | object o =>
      rw [show (Result.object o).tokens + T + F = .ref o ::ₘ (T + F) by
        simp [Result.tokens]] at h
      cases a with
      | true =>
        obtain rfl := hexec
        refine h.setOwned ?_ (fun t hne => (Multiset.count_cons_of_ne hne _).symm) fun _ =>
          Nat.succ_pos _
        rw [Multiset.count_cons_self]
        show Multiset.count _ (T + F) + _ = _
        omega
      | false =>
        obtain rfl := hexec
        simpa [Result.tokens] using h
    | null e => cases a <;> obtain rfl := hexec <;> simpa [Result.tokens] using h
    | void => cases a <;> obtain rfl := hexec <;> simpa [Result.tokens] using h
  | abort => exact a.elim

end Owns

/-! ### Calls -/

/-- Nothing but knowledge. -/
def Facts (K : Tokens) : Prop := ∀ t ∈ K, ∃ o p, t = .knows o p

theorem Facts.zero : Facts 0 := fun _ h => absurd h (Multiset.notMem_zero _)

theorem Facts.count_eq_zero {K : Tokens} (h : Facts K) {t : Token} (ht : ∀ o p, t ≠ .knows o p) :
    K.count t = 0 :=
  Multiset.count_eq_zero.mpr fun hmem =>
    let ⟨o, p, heq⟩ := h t hmem
    ht o p heq

/-- The objects a blocking call works on. -/
def lent (bs : List Obj) : Tokens := ↑(bs.map Token.borrow)

/-- The references a task has taken. -/
def taken (os : List Obj) : Tokens := ↑(os.map Token.ref)

section
variable (bs : List Obj) (o : Obj)

@[simp] theorem count_borrow_lent : (lent bs).count (.borrow o) = bs.count o := by
  rw [lent, Multiset.coe_count]
  exact List.count_map_of_injective bs _ (fun _ _ h => Token.borrow.inj h) o

theorem count_lent {t : Token} (ht : ∀ o, t ≠ .borrow o) : (lent bs).count t = 0 := by
  rw [lent, Multiset.coe_count, List.count_eq_zero]
  intro hmem
  obtain ⟨x, -, heq⟩ := List.mem_map.mp hmem
  exact ht x heq.symm

@[simp] theorem taken_nil : taken [] = 0 := rfl

@[simp] theorem taken_cons : taken (o :: bs) = .ref o ::ₘ taken bs := rfl

end

/-- What a call brings with it when it starts. -/
def Call.brings : Call → Tokens
  | .unref o => {.ref o}
  | c => lent c.borrows + taken c.retains

theorem Call.brings_of_ne {c : Call} (hne : ∀ o, c ≠ .unref o) :
    c.brings = lent c.borrows + taken c.retains := by
  unfold brings
  split
  · exact absurd rfl (hne _)
  · rfl

/-- What a call has left when it returns: what it was lent, and its result. -/
def Call.Post (c : Call) (r : Result) (T : Tokens) : Prop :=
  ∃ K, Facts K ∧ T = K + (lent c.borrows + (c.returns r).elim 0 fun o => {.ref o})

@[simp] theorem World.ref_owned (w : World) (o : Obj) : (w.ref o).owned = w.owned := by
  unfold World.ref
  split <;> rfl

@[simp] theorem World.ref_calls (w : World) (o : Obj) : (w.ref o).calls = w.calls := by
  unfold World.ref
  split <;> rfl

namespace Owns
variable {w w' : World} {T T' K F : Tokens} {o : Obj}

/-- The calls under way change, and what the threads are lent and know with them. -/
theorem setCalls (h : Owns w T) {calls : Obj → Nat}
    (hrefs : ∀ x, T'.count (.ref x) = T.count (.ref x))
    (hhandles : ∀ x, T'.count (.handle x) = T.count (.handle x))
    (hborrows : ∀ x, T'.count (.borrow x) = calls x)
    (hbacked : ∀ x, 0 < calls x → 0 < w.owned x)
    (hknows : ∀ x p, .knows x p ∈ T' → .knows x p ∈ T) : Owns { w with calls := calls } T' where
  typed := h.typed
  refs x := by
    rw [hrefs]
    exact h.refs x
  borrows := hborrows
  backed := hbacked
  knows x p hx := h.knows x p (hknows x p hx)
  releases := h.releases
  custody := by simpa only [hhandles] using h.custody

/-- Knowledge may be forgotten. -/
theorem forget (h : Owns w (K + T)) (hK : Facts K) : Owns w T := by
  have hcount : ∀ t, (∀ o p, t ≠ .knows o p) → T.count t = (K + T).count t := by
    intro t ht
    rw [Multiset.count_add, hK.count_eq_zero ht, Nat.zero_add]
  refine h.setCalls (fun x => hcount _ (by simp)) (fun x => hcount _ (by simp)) (fun x => ?_)
    h.backed fun x p hx => Multiset.mem_add.mpr (.inr hx)
  rw [hcount _ (by simp)]
  exact h.borrows x

/-- Who owns a reference can make another. -/
theorem ref (h : Owns w T) (hpos : 0 < w.owned o) : Owns (w.ref o) (.ref o ::ₘ T) := by
  have hrefs := h.refs o
  cases hslot : w.objects o with
  | live n st =>
    rw [World.ref, hslot]
    refine h.setRefs hslot (Nat.succ_pos n) ?_ fun t hne => Multiset.count_cons_of_ne hne T
    rw [Multiset.count_cons_self]
    omega
  | fresh =>
    simp only [hslot, Slot.refs] at hrefs
    omega
  | gone =>
    simp only [hslot, Slot.refs] at hrefs
    omega

theorem acts (h : Owns w T) (hact : w.Acts w') : Owns w' T := by
  obtain ⟨o, hpos, rfl⟩ := hact
  refine (h.ref hpos).setOwned ?_ (fun t hne => (Multiset.count_cons_of_ne hne T).symm) fun _ =>
    Nat.succ_pos _
  rw [Multiset.count_cons_self, World.ref_owned]
  omega

/-- A task takes its references. -/
theorem retain {os : List Obj} (h : Owns w T) (hpos : ∀ o ∈ os, 0 < w.owned o) :
    Owns (os.foldl World.ref w) (taken os + T) ∧ (os.foldl World.ref w).owned = w.owned ∧
      (os.foldl World.ref w).calls = w.calls := by
  induction os generalizing w T with
  | nil => exact ⟨by simpa using h, rfl, rfl⟩
  | cons o os ih =>
    obtain ⟨howns, howned, hcalls⟩ := ih (h.ref (hpos o List.mem_cons_self))
      fun x hx => by simpa using hpos x (List.mem_cons_of_mem _ hx)
    rw [World.ref_owned] at howned
    rw [World.ref_calls] at hcalls
    refine ⟨?_, howned, hcalls⟩
    rwa [Multiset.add_cons, ← Multiset.cons_add] at howns

/-- A blocking call is lent its arguments. -/
theorem lend (h : Owns w T) {bs : List Obj} (hpos : ∀ o ∈ bs, 0 < w.owned o) :
    Owns { w with calls := fun o => w.calls o + bs.count o } (lent bs + T) := by
  have hcount : ∀ t, (∀ o, t ≠ .borrow o) → (lent bs + T).count t = T.count t := by
    intro t ht
    rw [Multiset.count_add, count_lent bs ht, Nat.zero_add]
  refine h.setCalls (fun x => hcount _ (by simp)) (fun x => hcount _ (by simp)) (fun x => ?_)
    (fun x hx => ?_) fun x p hx => ?_
  · rw [Multiset.count_add, count_borrow_lent, h.borrows x, Nat.add_comm]
  · by_cases hmem : x ∈ bs
    · exact hpos x hmem
    · rw [List.count_eq_zero.mpr hmem] at hx
      exact h.backed x hx
  · rw [← Multiset.count_pos, ← hcount _ (by simp)]
    exact Multiset.count_pos.mpr hx

/-- What was lent is given back. -/
theorem giveBack {bs : List Obj} (h : Owns w (lent bs + T)) :
    Owns { w with calls := fun o => w.calls o - bs.count o } T := by
  have hcount : ∀ t, (∀ o, t ≠ .borrow o) → T.count t = (lent bs + T).count t := by
    intro t ht
    rw [Multiset.count_add, count_lent bs ht, Nat.zero_add]
  refine h.setCalls (fun x => hcount _ (by simp)) (fun x => hcount _ (by simp)) (fun x => ?_)
    (fun x hx => ?_) fun x p hx => Multiset.mem_add.mpr (.inr hx)
  · rw [← h.borrows x, Multiset.count_add, count_borrow_lent, Nat.add_sub_cancel_left]
  · exact h.backed x (Nat.lt_of_lt_of_le hx (Nat.sub_le _ _))

/-- A call other than `g_object_unref` starts. -/
theorem begin {c : Call} (h : Owns w T) (hpos : ∀ o ∈ c.borrows ++ c.retains, 0 < w.owned o) :
    Owns { c.retains.foldl World.ref w with calls := fun o => w.calls o + c.borrows.count o }
      (lent c.borrows + taken c.retains + T) := by
  obtain ⟨howns, howned, hcalls⟩ := h.retain fun o ho => hpos o (List.mem_append_right _ ho)
  have hborrows : ∀ o ∈ c.borrows, 0 < (c.retains.foldl World.ref w).owned o := by
    rw [howned]
    exact fun o ho => hpos o (List.mem_append_left _ ho)
  have hlend := howns.lend hborrows
  rw [hcalls, ← add_assoc] at hlend
  exact hlend

/-- A call that starts brings what its caller may hand over. -/
theorem starts {c : Call} (h : Owns w T) (hstart : w.Starts c w') : Owns w' (c.brings + T) := by
  obtain ⟨o, rfl, hlegal, rfl⟩ | ⟨hne, hpos, rfl⟩ := hstart.cases
  · refine h.setOwned ?_ (fun t hne => ?_) fun hcalls => ?_
    · rw [Call.brings, Multiset.singleton_add, Multiset.count_cons_self]
      omega
    · rw [Call.brings, Multiset.singleton_add, Multiset.count_cons_of_ne hne]
    · omega
  · rw [Call.brings_of_ne hne]
    exact h.begin hpos

/-- A call that returns leaves nothing behind. -/
theorem ends {c : Call} {r : Result} (h : Owns w (T + F)) (hpost : c.Post r T)
    (hend : w.Ends c r w') : Owns w' F := by
  obtain ⟨K, hK, rfl⟩ := hpost
  rw [add_assoc, add_assoc] at h
  have hback := (h.forget hK).giveBack
  obtain rfl := hend
  cases hret : c.returns r with
  | none => simpa [hret] using hback
  | some o =>
    rw [hret] at hback
    refine hback.setOwned ?_ (fun t hne => ?_) fun _ => Nat.succ_pos _
    · rw [Option.elim_some, Multiset.singleton_add, Multiset.count_cons_self]
      show _ + (w.owned o + 1) = _ + w.owned o
      omega
    · rw [Option.elim_some, Multiset.singleton_add, Multiset.count_cons_of_ne hne]

end Owns

end GlycinNg.Shim.Threads
