import Conformance.Proofs.Run
import Conformance.Shorthand
import Mathlib.Data.List.SplitBy

namespace Conformance

namespace Store

variable {st : Store} {specs group : List Value} {spec : Value}

/-- Shorthands stand alone, neighbouring literals go together. -/
def unionGroups (st : Store) (specs : List Value) : List (List Value) :=
  specs.splitBy fun v w ↦ !st.standsForConstraint v && !st.standsForConstraint w

def groupBlueprint (st : Store) (group : List Value) : Except Fault Blueprint :=
  match group with
  | [spec] => if st.standsForConstraint spec then st.shorthand spec else literalBlueprint [spec]
  | literals => literalBlueprint literals

def IsRun (st : Store) (group : List Value) : Prop :=
  ∀ v ∈ group, st.standsForConstraint v = false

theorem isRun_nil (st : Store) : st.IsRun [] := List.forall_mem_nil _

@[simp] theorem flatten_unionGroups (st : Store) (specs : List Value) :
    (st.unionGroups specs).flatten = specs := List.flatten_splitBy _ specs

theorem isChain_unionGroups (st : Store) (specs : List Value) :
    (st.unionGroups specs).IsChain fun g g' ↦ ¬ (st.IsRun g ∧ st.IsRun g') := by
  refine (List.isChain_getLast_head_splitBy _ specs).imp fun g g' h hruns ↦ ?_
  obtain ⟨hg, hg', hends⟩ := h
  simp [hruns.1 _ (List.getLast_mem hg), hruns.2 _ (List.head_mem hg')] at hends

theorem exists_group (st : Store) (hspec : spec ∈ specs) :
    ∃ group ∈ st.unionGroups specs, spec ∈ group := by
  rw [← st.flatten_unionGroups specs] at hspec
  exact List.mem_flatten.1 hspec

theorem mem_of_mem_group (hgroup : group ∈ st.unionGroups specs) (hspec : spec ∈ group) :
    spec ∈ specs := by
  rw [← st.flatten_unionGroups specs]
  exact List.mem_flatten_of_mem hgroup hspec

theorem isRun_of_group {v w : Value} {vs : List Value} (h : v :: w :: vs ∈ st.unionGroups specs) :
    st.IsRun (v :: w :: vs) := by
  have hchain := List.isChain_of_mem_splitBy h
  clear h
  induction vs generalizing v w with
  | nil => simpa [IsRun] using hchain
  | cons x vs ih =>
    rw [List.isChain_cons_cons] at hchain
    obtain ⟨hvw, hchain⟩ := hchain
    intro spec hspec
    rcases List.mem_cons.1 hspec with rfl | hspec
    · simp at hvw
      exact hvw.1
    · exact ih hchain spec hspec

theorem groupBlueprint_of_isRun (hrun : st.IsRun group) (hne : group ≠ []) :
    st.groupBlueprint group = .ok (.literals group) := by
  match group with
  | [] => exact (hne rfl).elim
  | [v] =>
    rw [groupBlueprint, hrun v (List.mem_singleton_self v)]
    rfl
  | _ :: _ :: _ => rfl

theorem groupBlueprint_singleton (hspec : st.standsForConstraint spec = true) :
    st.groupBlueprint [spec] = st.shorthand spec := if_pos hspec

theorem group_cases (hgroup : group ∈ st.unionGroups specs) :
    (group ≠ [] ∧ st.IsRun group ∧ st.groupBlueprint group = .ok (.literals group)) ∨
      ∃ spec, group = [spec] ∧ st.standsForConstraint spec = true ∧
        st.groupBlueprint group = st.shorthand spec := by
  have hne := List.ne_nil_of_mem_splitBy hgroup
  match group with
  | [] => exact (hne rfl).elim
  | [v] =>
    cases hv : st.standsForConstraint v with
    | true => exact .inr ⟨v, rfl, hv, groupBlueprint_singleton hv⟩
    | false =>
      have hrun : st.IsRun [v] := List.forall_mem_singleton.2 hv
      exact .inl ⟨hne, hrun, groupBlueprint_of_isRun hrun hne⟩
  | v :: w :: vs => exact .inl ⟨hne, isRun_of_group hgroup, rfl⟩

theorem unionGroups_of_isRun (hrun : st.IsRun group) (hne : group ≠ []) :
    st.unionGroups group = [group] := by
  apply List.splitBy_of_isChain hne
  apply List.Pairwise.isChain
  exact List.pairwise_of_forall_mem_list fun v hv w hw ↦ by simp [hrun v hv, hrun w hw]

/-- A shorthand ends the run before it, and no other one starts with it. -/
theorem unionGroups_append_cons (hspec : st.standsForConstraint spec = true)
    (literals specs : List Value) :
    st.unionGroups (literals ++ spec :: specs) =
      st.unionGroups literals ++ [spec] :: st.unionGroups specs := by
  have hself : List.splitBy
      (fun v w ↦ !st.standsForConstraint v && !st.standsForConstraint w) [spec] = [[spec]] :=
    List.splitBy_of_isChain (List.cons_ne_nil _ _) (List.isChain_singleton _)
  have halone : st.unionGroups ([spec] ++ specs) = [[spec]] ++ st.unionGroups specs := by
    rw [unionGroups, List.splitBy_append (by simp [hspec]), hself, unionGroups]
  rw [unionGroups, List.splitBy_append_cons _ (by simp [hspec])]
  exact congrArg (st.unionGroups literals ++ ·) halone

theorem close_eq (branches : List Blueprint) (hrun : st.IsRun group) :
    UnionReading.close ⟨branches, group⟩ =
      (branches ++ ·) <$> (st.unionGroups group).mapM st.groupBlueprint := by
  cases group with
  | nil => simp [UnionReading.close, unionGroups]
  | cons v vs =>
    have hne : v :: vs ≠ [] := List.cons_ne_nil _ _
    rw [unionGroups_of_isRun hrun hne, List.mapM_cons, groupBlueprint_of_isRun hrun hne]
    rfl

/-- The loop reads the groups one by one: the branches so far are followed by those of the groups of
what is left, the first of which goes on with the literals that wait. -/
theorem close_foldlM (branches : List Blueprint) (hrun : st.IsRun group) (specs : List Value) :
    (specs.foldlM st.addBranch ⟨branches, group⟩ >>= UnionReading.close) =
      (branches ++ ·) <$> (st.unionGroups (group ++ specs)).mapM st.groupBlueprint := by
  -- the literals that wait are generalized: a literal joins them, a shorthand closes their run
  induction specs generalizing branches group with
  | nil => simpa using close_eq branches hrun
  | cons spec specs ih =>
    rw [List.foldlM_cons, bind_assoc]
    cases hspec : st.standsForConstraint spec with
    | true =>
      rw [unionGroups_append_cons hspec, List.mapM_append, List.mapM_cons,
        groupBlueprint_singleton hspec, addBranch, if_pos hspec, close_eq branches hrun]
      simp [ih _ st.isRun_nil]
    | false =>
      have hrun' : st.IsRun (group ++ [spec]) := by
        simpa [IsRun, or_imp, forall_and, hspec] using hrun
      rw [addBranch, if_neg (by simp [hspec]), pure_bind, ih branches hrun']
      simp

theorem unionBlueprint_eq (hne : specs ≠ []) :
    st.unionBlueprint specs = .union <$> (st.unionGroups specs).mapM st.groupBlueprint := by
  have hloop := close_foldlM [] st.isRun_nil specs
  simp only [List.nil_append, id_map'] at hloop
  rw [← hloop, unionBlueprint, if_neg (by simpa using hne)]
  simp

end Store

end Conformance
