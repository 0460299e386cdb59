import Conformance.Proofs.Evaluation.Verdict
import Conformance.Proofs.Mutation.Compared
import Conformance.Proofs.Mutation.Text

namespace Conformance

namespace Store

/-- The leaf of a constraint is made of what is fixed, and so is the name of a type. -/
def FixesLeaf (st : Store) : Constraint → Prop
  | .type target => st.Fixed target ∧ ∀ w, st.attributeOf target "__name__" = .ok w → st.Fixed w
  | .literals literals => ∀ literal ∈ literals, st.Fixed literal
  | _ => True

mutual
/-- The arrays into which a constraint looks hold the same in both stores. -/
def SeesAlike (st st' : Store) : Constraint → Value → Prop
  | .array element, v => st'.arrayItems? v = st.arrayItems? v ∧
    ∀ items, st.arrayItems? v = some items → ∀ item ∈ items, SeesAlike st st' element item
  | .union branches, v => AllSeeAlike st st' branches v
  | _, _ => True
termination_by structural c => c
def AllSeeAlike (st st' : Store) : List Constraint → Value → Prop
  | [], _ => True
  | c :: cs, v => SeesAlike st st' c v ∧ AllSeeAlike st st' cs v
termination_by structural cs => cs
end

variable {st st' : Store}

theorem constraintPart_congr (hst : st.Refills st') {v : Value} {part : String}
    {tree tree' : Value → Except Fault Constraint}
    (h : ∀ w, st.attributeOf v part = .ok w → tree' w = tree w) :
    st'.constraintPart v part tree' = st.constraintPart v part tree := by
  rw [constraintPart, constraintPart, hst.attributeOf_eq, bind_congr_of_ok h]

theorem constraintWithin_congr (hst : st.Refills st') (depth : Nat) {v : Value} (hv : st.Fixed v) :
    st'.constraintWithin depth v = st.constraintWithin depth v := by
  induction depth generalizing v with
  | zero => rfl
  | succ depth ih =>
    unfold constraintWithin
    rw [hst.natureOf_eq]
    split
    · exact constraintPart_congr hst fun _ _ ↦ rfl
    · next hnature =>
      refine constraintPart_congr hst fun w hw ↦ ?_
      rw [(hv.of_reads (.part hnature (by decide) hw)).iterate_eq hst]
    · next hnature =>
      refine constraintPart_congr hst fun w hw ↦ ?_
      rw [ih (hv.of_reads (.part hnature (by decide) hw))]
    · next hnature =>
      refine constraintPart_congr hst fun w hw ↦ ?_
      rw [(hv.of_reads (.part hnature (by decide) hw)).iterate_eq hst]
      refine bind_congr_of_ok fun branches hbranches ↦ ?_
      have hmap : branches.map (st'.constraintWithin depth) =
          branches.map (st.constraintWithin depth) :=
        List.map_congr_left fun branch hbranch ↦
          ih (hv.of_reads (.item hnature (.inr rfl) (by decide) hw hbranches hbranch))
      rw [hmap]
    · rw [unsupported, unsupported, written_congr hst hv]

theorem constraint_congr (hst : st.Refills st') {c : Value} (hc : st.Fixed c) :
    st'.constraint c = st.constraint c := by
  rw [constraint, constraint, hst.objects_eq, constraintWithin_congr hst _ hc]

theorem leaves_constraintWithin (depth : Nat) {v : Value} (hv : st.Fixed v) :
    (st.constraintWithin depth v).Leaves st.FixesLeaf := by
  induction depth generalizing v with
  | zero => trivial
  | succ depth ih =>
    unfold constraintWithin
    split
    · next hnature =>
      refine leaves_constraintPart (fun _ _ ↦ trivial) fun target t htarget ht ↦ ?_
      cases ht
      exact ⟨hv.of_reads (.part hnature (by decide) htarget),
        fun w hw ↦ hv.of_reads (.targetName hnature htarget hw)⟩
    · next hnature =>
      refine leaves_constraintPart (fun _ _ ↦ trivial) fun values t hvalues ht ↦ ?_
      obtain ⟨literals, hliterals, ht⟩ := answer_of_bind ht
      cases ht
      exact fun literal hl ↦
        hv.of_reads (.item hnature (.inl rfl) (by decide) hvalues hliterals hl)
    · next hnature =>
      refine leaves_constraintPart (fun _ _ ↦ trivial) fun element t helement ht ↦ ?_
      cases ht
      exact ih (hv.of_reads (.part hnature (by decide) helement))
    · next hnature =>
      refine leaves_constraintPart (fun _ _ ↦ trivial) fun values t hvalues ht ↦ ?_
      obtain ⟨branches, hbranches, ht⟩ := answer_of_bind ht
      cases ht
      exact Constraint.leavesOfAll_map fun branch hb ↦
        ih (hv.of_reads (.item hnature (.inr rfl) (by decide) hvalues hbranches hb))
    · trivial

theorem leaves_constraint {c : Value} (hc : st.Fixed c) :
    (st.constraint c).Leaves st.FixesLeaf := leaves_constraintWithin _ hc

mutual
theorem constraintName_congr (hst : st.Refills st') (t : Constraint) (ht : t.Leaves st.FixesLeaf) :
    st'.constraintName t = st.constraintName t := by
  cases t with
  | type target => exact targetName_congr hst ht.1 ht.2
  | literals literals => exact literalNames_congr hst ht
  | array element =>
    rw [constraintName, constraintName, constraintName_congr hst element ht]
  | union branches =>
    rw [constraintName, constraintName, constraintNames_congr hst branches ht]
  | refused fault => rfl
termination_by structural t
theorem constraintNames_congr (hst : st.Refills st') (ts : List Constraint)
    (hts : Constraint.LeavesOfAll st.FixesLeaf ts) :
    st'.constraintNames ts = st.constraintNames ts := by
  cases ts with
  | nil => rfl
  | cons t ts =>
    rw [constraintNames, constraintNames, constraintName_congr hst t hts.1,
      constraintNames_congr hst ts hts.2]
termination_by structural ts
end

mutual
/-- A constraint whose leaves are fixed judges as before, wherever it sees the same. -/
theorem accepts_congr (hst : st.Refills st') (ev : Evaluator) (t : Constraint)
    (ht : t.Leaves st.FixesLeaf) (v : Value) (hv : st.SeesAlike st' t v) :
    st'.accepts ev t v = st.accepts ev t v := by
  cases t with
  | type target => rw [accepts, accepts, hst.hasType_eq]
  | literals literals => rw [accepts, accepts, isAnyLiteral_congr hst ht v]
  | array element =>
    obtain ⟨hitems, hsees⟩ := hv
    rw [accepts, accepts, hitems]
    cases harray : st.arrayItems? v with
    | none => rfl
    | some items =>
      have hverdicts : items.mapM (fun item ↦ st'.accepts ev element item) =
          items.mapM fun item ↦ st.accepts ev element item :=
        mapM_congr fun item hitem ↦ accepts_congr hst ev element ht item (hsees items harray item hitem)
      dsimp only
      rw [hverdicts]
  | union branches => rw [accepts, accepts, acceptsEach_congr hst ev branches ht v hv]
  | refused fault => rfl
termination_by structural t
theorem acceptsEach_congr (hst : st.Refills st') (ev : Evaluator) (ts : List Constraint)
    (hts : Constraint.LeavesOfAll st.FixesLeaf ts) (v : Value) (hv : st.AllSeeAlike st' ts v) :
    st'.acceptsEach ev ts v = st.acceptsEach ev ts v := by
  cases ts with
  | nil => rfl
  | cons t ts =>
    rw [acceptsEach, acceptsEach, accepts_congr hst ev t hts.1 v hv.1,
      acceptsEach_congr hst ev ts hts.2 v hv.2]
termination_by structural ts
end

end Store

end Conformance
