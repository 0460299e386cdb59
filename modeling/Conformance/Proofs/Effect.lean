import Conformance.Proofs.Run
import Mathlib.Order.Defs.Unbundled

namespace Conformance

def Store.Respects (P : Store → Prop) (st st' : Store) : Prop := P st → P st'

instance (P : Store → Prop) : IsPreorder Store (Store.Respects P) where
  refl _ := id
  trans _ _ _ h h' hst := h' (h hst)

namespace Action

variable {α β : Type}

/-- An action that changes the store in a certain way only, whether it fails or not. -/
def Within (R : Store → Store → Prop) (x : Action α) : Prop := ∀ s, R s.store (after x s).store

namespace Within

variable {R : Store → Store → Prop} [IsPreorder Store R]

theorem of_store {x : Action α} (h : ∀ s, (after x s).store = s.store) : Within R x := by
  intro s
  rw [h]
  exact refl s.store

theorem pure (a : α) : Within R (Pure.pure a) := of_store fun _ ↦ rfl

theorem throw (e : Fault) : Within R (MonadExcept.throw e : Action α) := of_store fun _ ↦ rfl

theorem ask (q : Store → Except Fault α) : Within R (Action.ask q) := by
  refine of_store fun s ↦ ?_
  cases hq : q s.store with
  | ok a => rw [after, ask_of_ok hq]
  | error e => rw [after, ask_of_error hq]

theorem check (q : Store → Check α) : Within R (Action.check q) := by
  refine of_store fun s ↦ ?_
  cases hq : q s.store s.session with
  | ok a t => rw [after, check_of_ok hq]
  | error e t => rw [after, check_of_error hq]

omit [IsPreorder Store R] in
theorem update {f : Store → Store} (h : ∀ st, R st (f st)) : Within R (Action.update f) :=
  fun s ↦ h s.store

omit [IsPreorder Store R] in
theorem create {f : Store → α × Store} (h : ∀ st, R st (f st).2) : Within R (Action.create f) :=
  fun s ↦ h s.store

theorem bind {x : Action α} {f : α → Action β} (hx : Within R x) (hf : ∀ a, Within R (f a)) :
    Within R (x >>= f) := by
  intro s
  have h := hx s
  cases hrun : x s with
  | ok a t =>
    rw [after_bind_of_ok hrun]
    rw [after, hrun] at h
    exact trans_of R h (hf a t)
  | error e t =>
    rw [after_bind_of_error hrun]
    rwa [after_of_error hrun] at h

theorem forM {l : List α} {f : α → Action Unit} (hf : ∀ a ∈ l, Within R (f a)) :
    Within R (l.forM f) := by
  induction l with
  | nil => exact pure ()
  | cons a l ih =>
    obtain ⟨ha, hl⟩ := List.forall_mem_cons.1 hf
    exact bind ha fun _ ↦ ih hl

theorem mapM {l : List α} {f : α → Action β} (hf : ∀ a ∈ l, Within R (f a)) :
    Within R (l.mapM f) := by
  induction l with
  | nil => exact pure []
  | cons a l ih =>
    obtain ⟨ha, hl⟩ := List.forall_mem_cons.1 hf
    rw [List.mapM_cons]
    exact bind ha fun b ↦ bind (ih hl) fun bs ↦ pure (b :: bs)

end Within

end Action

end Conformance
