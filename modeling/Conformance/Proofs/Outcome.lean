import Conformance.Outcome
import Conformance.Proofs.Registration.Frame
import Conformance.Proofs.Run
import Mathlib.Data.List.Forall2

namespace Conformance

theorem Violation.eq_of_attributes {v w : Violation} (h : v.attributes = w.attributes) : v = w := by
  cases v
  cases w
  simpa [attributes] using h

namespace Store

/-- An object that says what a violation says. -/
def Restates (st : Store) (w : Value) (v : Violation) : Prop :=
  ∃ id, w = .object (.builtin .violation) id ∧ id.index < st.objects.size ∧
    (st.object id).attributes = v.attributes

/-- An outcome that lists certain violations in their order. -/
def Tells (st : Store) (outcome : Value) (vs : List Violation) : Prop :=
  ∃ id list, outcome = .object (.builtin .result) id ∧
    (st.object id).attributes =
      [(.text "valid", .bool vs.isEmpty), (.text "violations", .list list)] ∧
    List.Forall₂ st.Restates (st.items list) vs

variable {st st' : Store} {v w outcome : Value} {vs ws : List Violation}

theorem Restates.unique {a b : Violation} (h : st.Restates w a) (h' : st.Restates w b) : a = b := by
  obtain ⟨id, rfl, -, ha⟩ := h
  obtain ⟨id', heq, -, hb⟩ := h'
  cases heq
  exact Violation.eq_of_attributes (ha.symm.trans hb)

theorem Tells.unique (h : st.Tells outcome vs) (h' : st.Tells outcome ws) : vs = ws := by
  obtain ⟨id, list, rfl, hattributes, hvs⟩ := h
  obtain ⟨id', list', heq, hattributes', hws⟩ := h'
  cases heq
  have hlist : list = list' := by
    have hsame := hattributes.symm.trans hattributes'
    simp at hsame
    exact hsame.2
  subst hlist
  clear hattributes hattributes'
  generalize st.items list = os at hvs hws
  induction hvs generalizing ws with
  | nil =>
    cases hws
    rfl
  | cons ha _ ih =>
    cases hws with
    | cons hb hws => rw [ha.unique hb, ih hws]

theorem Restates.grow {a : Violation} (h : st.Restates w a) (hgrows : st.Grows st') :
    st'.Restates w a := by
  obtain ⟨id, rfl, hid, hattributes⟩ := h
  refine ⟨id, rfl, Nat.lt_of_lt_of_le hid hgrows.objects_le, ?_⟩
  rw [hgrows.object_eq id hid, hattributes]

end Store

namespace Action

open Store

theorem restate_run (vs : List Violation) (s : State) :
    ∃ ws t, vs.mapM (fun v ↦ newObject (.builtin .violation) v.attributes) s = .ok ws t ∧
      List.Forall₂ t.store.Restates ws vs ∧ s.store.Grows t.store ∧ t.session = s.session := by
  induction vs generalizing s with
  | nil => exact ⟨[], s, rfl, .nil, .refl _, rfl⟩
  | cons v vs ih =>
    let s₁ : State := { s with store := (s.store.newObject ⟨"", v.attributes⟩).2 }
    have hnew : newObject (.builtin .violation) v.attributes s =
        .ok (.object (.builtin .violation) ⟨s.store.objects.size⟩) s₁ := rfl
    have hrestates : s₁.store.Restates (.object (.builtin .violation) ⟨s.store.objects.size⟩) v := by
      refine ⟨_, rfl, ?_, ?_⟩
      · exact Nat.lt_of_lt_of_eq (Nat.lt_succ_self _) (Table.size_add _ _).symm
      · exact congrArg Object.attributes (Table.get_add_size s.store.objects _)
    obtain ⟨ws, t, hrun, hws, hgrows, hsession⟩ := ih s₁
    refine ⟨_ :: ws, t, ?_, .cons (hrestates.grow hgrows) hws,
      (grows_newObject s.store _).trans hgrows, hsession⟩
    rw [List.mapM_cons, bind_of_ok hnew, bind_of_ok hrun]
    rfl

theorem outcomeOf_run (vs : List Violation) (s : State) :
    ∃ outcome t, outcomeOf vs s = .ok outcome t ∧ t.store.Tells outcome vs ∧
      t.session = s.session ∧ s.store.Grows t.store := by
  obtain ⟨ws, s₁, hrun, hws, hgrows, hsession⟩ := restate_run vs s
  let s₂ : State := { s₁ with store := (s₁.store.newList ws).2 }
  have hlist : listOf ws s₁ = .ok (.list ⟨s₁.store.lists.size⟩) s₂ := rfl
  let attributes : Entries Value Value :=
    [ (.text "valid", .bool vs.isEmpty), (.text "violations", .list ⟨s₁.store.lists.size⟩) ]
  let s₃ : State := { s₂ with store := (s₂.store.newObject ⟨"", attributes⟩).2 }
  have hnew : newOutcome (.bool vs.isEmpty) (.list ⟨s₁.store.lists.size⟩) s₂ =
      .ok (.object (.builtin .result) ⟨s₂.store.objects.size⟩) s₃ := rfl
  have hgrows' : s₁.store.Grows s₃.store :=
    (grows_newList s₁.store ws).trans (grows_newObject s₂.store _)
  refine ⟨_, s₃, (bind_of_ok hrun).trans ((bind_of_ok hlist).trans hnew), ?_, hsession,
    hgrows.trans hgrows'⟩
  refine ⟨_, ⟨s₁.store.lists.size⟩, rfl, ?_, ?_⟩
  · exact congrArg Object.attributes (Table.get_add_size s₂.store.objects _)
  · have hitems : s₃.store.items ⟨s₁.store.lists.size⟩ = ws := Table.get_add_size s₁.store.lists ws
    rw [hitems]
    exact hws.imp fun w v h ↦ h.grow hgrows'

end Action

end Conformance
