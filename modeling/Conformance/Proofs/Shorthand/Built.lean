import Conformance.Proofs.Content
import Conformance.Proofs.Equality.Reflexive
import Conformance.Proofs.Evaluation.Tree
import Conformance.Proofs.Mutation.Builder

namespace Conformance

def Builtin.isConstraintKind : Builtin → Bool
  | typeConstraint | literalConstraint | arrayConstraint | unionConstraint => true
  | _ => false

mutual
def Constraint.height : Constraint → Nat
  | .type _ | .literals _ => 1
  | .array element => element.height + 1
  | .union branches => Constraint.heightOfAll branches + 1
  | .refused _ => 0
termination_by structural c => c
def Constraint.heightOfAll : List Constraint → Nat
  | [] => 0
  | c :: cs => max c.height (Constraint.heightOfAll cs)
termination_by structural cs => cs
end

namespace Store

/-- No class has anything under the names of the parts of its constraints, so that these show what
they hold themselves. -/
def LeavesParts (st : Store) : Prop :=
  ∀ c b, st.nature c = .record b → b.isConstraintKind → ∀ part ∈ b.parts,
    st.classAttribute? c part = none

mutual
/-- A constraint that has been built from a blueprint, of objects that are none of the first `n`. -/
def IsBuilt (st : Store) (n : Nat) : Blueprint → Value → Prop
  | .given g, c => c = g
  | .type target, c => ∃ id, n ≤ id.index ∧ c = .object (.builtin .typeConstraint) id ∧
    (st.object id).attributes = [(.text "target", target)]
  | .literals values, c => ∃ id, n ≤ id.index ∧ c = .object (.builtin .literalConstraint) id ∧
    (st.object id).attributes = [(.text "values", .tuple values)]
  | .array element, c => ∃ id v, n ≤ id.index ∧ c = .object (.builtin .arrayConstraint) id ∧
    (st.object id).attributes = [(.text "element", v)] ∧ IsBuilt st n element v
  | .union branches, c => ∃ id vs, n ≤ id.index ∧ c = .object (.builtin .unionConstraint) id ∧
    (st.object id).attributes = [(.text "branches", .tuple vs)] ∧ AreBuilt st n branches vs
termination_by structural b => b
def AreBuilt (st : Store) (n : Nat) : List Blueprint → List Value → Prop
  | [], vs => vs = []
  | b :: bs, vs => match vs with
    | [] => False
    | v :: vs => IsBuilt st n b v ∧ AreBuilt st n bs vs
termination_by structural bs => bs
end

mutual
/-- The constraints that are given to a blueprint are whole, and its types are classes. -/
def IsWhole (st : Store) : Blueprint → Prop
  | .given c => st.HasTree (st.constraint c) c
  | .type target => ∃ c, target = .ofClass c
  | .literals _ => True
  | .array element => IsWhole st element
  | .union branches => AreWhole st branches
termination_by structural b => b
def AreWhole (st : Store) : List Blueprint → Prop
  | [] => True
  | b :: bs => IsWhole st b ∧ AreWhole st bs
termination_by structural bs => bs
end

mutual
/-- What an evaluation is to see of a constraint that is built from a blueprint. -/
def treeOf (st : Store) : Blueprint → Constraint
  | .given c => st.constraint c
  | .type target => .type target
  | .literals values => .literals values
  | .array element => .array (treeOf st element)
  | .union branches => .union (treesOf st branches)
termination_by structural b => b
def treesOf (st : Store) : List Blueprint → List Constraint
  | [] => []
  | b :: bs => treeOf st b :: treesOf st bs
termination_by structural bs => bs
end

variable {st st' : Store} {b : Builtin} {c v w : Value} {part : String}

theorem exists_part (hb : b.isConstraintKind) :
    ∃ part ∈ ["target", "values", "element", "branches"], b.parts = [part] := by
  cases b <;> first | cases hb; done | exact ⟨_, by simp, rfl⟩

theorem commonAttribute?_part (hpart : part ∈ ["target", "values", "element", "branches"])
    (v : Value) : st.commonAttribute? v part = none := by
  simp only [List.mem_cons, List.not_mem_nil, or_false] at hpart
  rcases hpart with rfl | rfl | rfl | rfl <;> simp [commonAttribute?]

theorem parts_eq (hparts : st.LeavesParts) {k : ClassId} (hk : st.nature k = .record b)
    (hb : b.isConstraintKind) (hpart : b.parts = [part]) (id : ObjectId) :
    st.parts (.object k id) b = (st.found (.object k id) part
      (st.ownAttribute? (.object k id) part)).map fun v ↦ [v] := by
  obtain ⟨part', hpart', hparts'⟩ := exists_part hb
  cases hpart.symm.trans hparts'
  have hclass := hparts k b hk hb part (hpart ▸ List.mem_singleton_self part)
  have hattribute : st.attributeOf (.object k id) part =
      st.found (.object k id) part (st.ownAttribute? (.object k id) part) := by
    simp [attributeOf, typeOf, hclass, commonAttribute?_part hpart']
  rw [parts, hpart, List.mapM_cons, hattribute]
  cases st.found (.object k id) part (st.ownAttribute? (.object k id) part) <;> rfl

theorem isRecord_of_attributes (hparts : st.LeavesParts) (hb : b.isConstraintKind)
    (hpart : b.parts = [part]) {id : ObjectId}
    (hattributes : (st.object id).attributes = [(.text part, v)]) :
    st.IsRecord (.object (.builtin b) id) b [v] := by
  have hk : st.nature (.builtin b) = .record b := by
    cases b <;> first | cases hb; done | rfl
  have hcell : attributesCell? (.object (.builtin b) id) = some id := by
    cases b <;> first | cases hb; done | rfl
  refine ⟨_, id, rfl, hk, ?_⟩
  rw [parts_eq hparts hk hb hpart, ownAttribute?_single hcell hattributes]
  rfl

theorem LeavesParts.grow (hparts : st.LeavesParts) (hgrows : st.Grows st') : st'.LeavesParts := by
  intro k b hk hb part hpart
  rw [classAttribute?_grown hgrows]
  rw [nature_of_linearization hgrows.keeps.sameHierarchy.linearization_eq] at hk
  exact hparts k b hk hb part hpart

theorem leavesParts_initial : initial.LeavesParts := by
  intro k b hk hb part hpart
  cases k with
  | builtin k =>
    cases k <;> cases hk <;> first | cases hb; done | (cases List.mem_singleton.1 hpart; rfl)
  | defined n =>
    cases n with
    | zero => cases hk
    | succ n =>
      have hlinear : initial.linearization (.defined (n + 1)) = [] :=
        linearization_of_size_le (Nat.le_add_left 1 n)
      rw [nature, hlinear] at hk
      cases hk

theorem ownAttribute?_grown (hgrows : st.Grows st') {k : ClassId} {id : ObjectId}
    (h : st.ownAttribute? (.object k id) part = some v) :
    st'.ownAttribute? (.object k id) part = some v := by
  unfold ownAttribute? at h ⊢
  cases hcell : attributesCell? (.object k id) with
  | none =>
    rw [hcell] at h
    cases h
  | some cell =>
    rw [hcell, Option.bind_some] at h
    have hlt : cell.index < st.objects.size := by
      by_contra hsize
      have hnone : st.objects.cells[cell.index]? = none :=
        Array.getElem?_eq_none (Nat.le_of_not_lt hsize)
      have hobject : (st.object cell).attributes = [] := by
        simp [object, Table.get, hnone]
        rfl
      rw [hobject] at h
      cases h
    rw [Option.bind_some, hgrows.object_eq cell hlt, h]

theorem IsRecord.grow (hparts : st.LeavesParts) (hb : b.isConstraintKind) {vs : List Value}
    (h : st.IsRecord c b vs) (hgrows : st.Grows st') : st'.IsRecord c b vs := by
  obtain ⟨k, id, rfl, hk, hvs⟩ := h
  obtain ⟨part, -, hpart⟩ := exists_part hb
  have hk' : st'.nature k = .record b := by
    rwa [nature_of_linearization hgrows.keeps.sameHierarchy.linearization_eq]
  refine ⟨k, id, rfl, hk', ?_⟩
  rw [parts_eq hparts hk hb hpart] at hvs
  rw [parts_eq (hparts.grow hgrows) hk' hb hpart]
  cases hown : st.ownAttribute? (.object k id) part with
  | none =>
    rw [hown] at hvs
    cases hvs
  | some v =>
    rw [hown] at hvs
    rw [ownAttribute?_grown hgrows hown]
    exact hvs

mutual
theorem hasTree_grow (hparts : st.LeavesParts) (hgrows : st.Grows st') (t : Constraint) {c : Value}
    (h : st.HasTree t c) : st'.HasTree t c := by
  cases t with
  | type target => exact ⟨h.1, h.2.grow hparts rfl hgrows⟩
  | literals ls => exact IsRecord.grow hparts rfl h hgrows
  | array t =>
    obtain ⟨element, hrecord, h⟩ := h
    exact ⟨element, hrecord.grow hparts rfl hgrows, hasTree_grow hparts hgrows t h⟩
  | union ts =>
    obtain ⟨branches, hrecord, h⟩ := h
    exact ⟨branches, hrecord.grow hparts rfl hgrows, haveTrees_grow hparts hgrows ts h⟩
  | refused fault => exact h.elim
termination_by structural t
theorem haveTrees_grow (hparts : st.LeavesParts) (hgrows : st.Grows st') (ts : List Constraint)
    {vs : List Value} (h : st.HaveTrees ts vs) : st'.HaveTrees ts vs := by
  cases ts with
  | nil => exact h
  | cons t ts =>
    cases vs with
    | nil => exact h.elim
    | cons v vs => exact ⟨hasTree_grow hparts hgrows t h.1, haveTrees_grow hparts hgrows ts h.2⟩
termination_by structural ts
end

theorem heightOfAll_le_iff {cs : List Constraint} {n : Nat} :
    Constraint.heightOfAll cs ≤ n ↔ ∀ c ∈ cs, c.height ≤ n := by
  induction cs with
  | nil => simp [Constraint.heightOfAll]
  | cons c cs ih => simp [Constraint.heightOfAll, ih]

theorem height_constraintPart {tree : Value → Except Fault Constraint} {n : Nat}
    (h : ∀ w t, tree w = .ok t → t.height ≤ n) : (st.constraintPart v part tree).height ≤ n := by
  unfold constraintPart
  split
  · next t ht =>
    obtain ⟨w, -, ht⟩ := answer_of_bind ht
    exact h w t ht
  · exact Nat.zero_le n

theorem height_constraintWithin (depth : Nat) (v : Value) :
    (st.constraintWithin depth v).height ≤ depth := by
  induction depth generalizing v with
  | zero => exact Nat.le_refl 0
  | succ depth ih =>
    unfold constraintWithin
    split
    · refine height_constraintPart fun w t ht ↦ ?_
      cases ht
      simp [Constraint.height]
    · refine height_constraintPart fun w t ht ↦ ?_
      obtain ⟨ls, -, ht⟩ := answer_of_bind ht
      cases ht
      simp [Constraint.height]
    · refine height_constraintPart fun w t ht ↦ ?_
      cases ht
      simpa [Constraint.height] using ih w
    · refine height_constraintPart fun w t ht ↦ ?_
      obtain ⟨bs, -, ht⟩ := answer_of_bind ht
      cases ht
      simpa [Constraint.height, heightOfAll_le_iff] using fun b _ ↦ ih b
    · exact Nat.zero_le _

theorem natureOf_of_isRecord {vs : List Value} (h : st.IsRecord c b vs) :
    st.natureOf c = .record b := by
  obtain ⟨k, id, rfl, hk, -⟩ := h
  exact hk

theorem constraintPart_of_isRecord {tree : Value → Except Fault Constraint} {t : Constraint}
    (h : st.IsRecord c b [v]) (hpart : b.parts = [part]) (ht : tree v = .ok t) :
    st.constraintPart c part tree = t := by
  obtain ⟨k, id, rfl, hk, hvs⟩ := h
  rw [parts, hpart, List.mapM_cons] at hvs
  obtain ⟨w, hw, hvs⟩ := answer_of_bind hvs
  cases hvs
  rw [constraintPart, hw]
  simp only [bind, Except.bind, ht]

mutual
/-- The tree of a whole constraint is found at any depth that is not less than its own. -/
theorem constraintWithin_of_hasTree (t : Constraint) {c : Value} (h : st.HasTree t c) {depth : Nat}
    (hdepth : t.height ≤ depth) : st.constraintWithin depth c = t := by
  cases t with
  | type target =>
    obtain ⟨depth, rfl⟩ := Nat.exists_eq_add_of_le' hdepth
    simp only [constraintWithin, Constraint.height, natureOf_of_isRecord h.2]
    exact constraintPart_of_isRecord h.2 rfl rfl
  | literals ls =>
    obtain ⟨depth, rfl⟩ := Nat.exists_eq_add_of_le' hdepth
    have hrecord : st.IsRecord c .literalConstraint [.tuple ls] := h
    simp only [constraintWithin, Constraint.height, natureOf_of_isRecord hrecord]
    exact constraintPart_of_isRecord hrecord rfl rfl
  | array t =>
    obtain ⟨element, hrecord, h⟩ := h
    obtain ⟨depth, rfl⟩ := Nat.exists_eq_add_of_le' (Nat.le_of_add_left_le hdepth)
    have hdepth' : t.height ≤ depth := Nat.le_of_succ_le_succ hdepth
    simp only [constraintWithin, natureOf_of_isRecord hrecord]
    refine constraintPart_of_isRecord hrecord rfl ?_
    rw [constraintWithin_of_hasTree t h hdepth']
    rfl
  | union ts =>
    obtain ⟨branches, hrecord, h⟩ := h
    obtain ⟨depth, rfl⟩ := Nat.exists_eq_add_of_le' (Nat.le_of_add_left_le hdepth)
    have hdepth' : Constraint.heightOfAll ts ≤ depth := Nat.le_of_succ_le_succ hdepth
    simp only [constraintWithin, natureOf_of_isRecord hrecord]
    refine constraintPart_of_isRecord hrecord rfl ?_
    show Except.ok (Constraint.union (branches.map (st.constraintWithin depth))) = _
    rw [constraintsWithin_of_haveTrees ts h hdepth']
  | refused fault => exact h.elim
termination_by structural t
theorem constraintsWithin_of_haveTrees (ts : List Constraint) {vs : List Value}
    (h : st.HaveTrees ts vs) {depth : Nat} (hdepth : Constraint.heightOfAll ts ≤ depth) :
    vs.map (st.constraintWithin depth) = ts := by
  cases ts with
  | nil =>
    cases h
    rfl
  | cons t ts =>
    cases vs with
    | nil => exact h.elim
    | cons v vs =>
      obtain ⟨hhead, htail⟩ := Nat.max_le.1 hdepth
      rw [List.map_cons, constraintWithin_of_hasTree t h.1 hhead,
        constraintsWithin_of_haveTrees ts h.2 htail]
termination_by structural ts
end

theorem constraint_grow (hparts : st.LeavesParts) (hgrows : st.Grows st')
    (h : st.HasTree (st.constraint c) c) : st'.constraint c = st.constraint c := by
  refine constraintWithin_of_hasTree _ (hasTree_grow hparts hgrows _ h) ?_
  exact (height_constraintWithin _ c).trans (Nat.succ_le_succ hgrows.objects_le)

mutual
theorem IsBuilt.mono {m n : Nat} (hmn : m ≤ n) (b : Blueprint) {c : Value} (h : st.IsBuilt n b c) :
    st.IsBuilt m b c := by
  cases b with
  | given g => exact h
  | type target =>
    obtain ⟨id, hid, h⟩ := h
    exact ⟨id, hmn.trans hid, h⟩
  | literals values =>
    obtain ⟨id, hid, h⟩ := h
    exact ⟨id, hmn.trans hid, h⟩
  | array element =>
    obtain ⟨id, v, hid, hc, hattributes, h⟩ := h
    exact ⟨id, v, hmn.trans hid, hc, hattributes, h.mono hmn element⟩
  | union branches =>
    obtain ⟨id, vs, hid, hc, hattributes, h⟩ := h
    exact ⟨id, vs, hmn.trans hid, hc, hattributes, h.mono hmn branches⟩
termination_by structural b
theorem AreBuilt.mono {m n : Nat} (hmn : m ≤ n) (bs : List Blueprint) {vs : List Value}
    (h : st.AreBuilt n bs vs) : st.AreBuilt m bs vs := by
  cases bs with
  | nil => exact h
  | cons b bs =>
    cases vs with
    | nil => exact h.elim
    | cons v vs => exact ⟨h.1.mono hmn b, h.2.mono hmn bs⟩
termination_by structural bs
end

mutual
/-- What is built from whole constraints is whole, and has the tree of its blueprint. -/
theorem hasTree_of_isBuilt (hparts : st.LeavesParts) {n : Nat} (b : Blueprint) {c : Value}
    (hwhole : st.IsWhole b) (h : st.IsBuilt n b c) : st.HasTree (st.treeOf b) c := by
  cases b with
  | given g =>
    cases h
    exact hwhole
  | type target =>
    obtain ⟨id, -, rfl, hattributes⟩ := h
    exact ⟨hwhole, isRecord_of_attributes hparts rfl rfl hattributes⟩
  | literals values =>
    obtain ⟨id, -, rfl, hattributes⟩ := h
    exact isRecord_of_attributes hparts rfl rfl hattributes
  | array element =>
    obtain ⟨id, v, -, rfl, hattributes, h⟩ := h
    exact ⟨v, isRecord_of_attributes hparts rfl rfl hattributes,
      hasTree_of_isBuilt hparts element hwhole h⟩
  | union branches =>
    obtain ⟨id, vs, -, rfl, hattributes, h⟩ := h
    exact ⟨vs, isRecord_of_attributes hparts rfl rfl hattributes,
      haveTrees_of_areBuilt hparts branches hwhole h⟩
termination_by structural b
theorem haveTrees_of_areBuilt (hparts : st.LeavesParts) {n : Nat} (bs : List Blueprint)
    {vs : List Value} (hwhole : st.AreWhole bs) (h : st.AreBuilt n bs vs) : st.HaveTrees (st.treesOf bs) vs := by
  cases bs with
  | nil => exact h
  | cons b bs =>
    cases vs with
    | nil => exact h.elim
    | cons v vs => exact ⟨hasTree_of_isBuilt hparts b hwhole.1 h.1,
        haveTrees_of_areBuilt hparts bs hwhole.2 h.2⟩
termination_by structural bs
end

mutual
theorem treeOf_grow (hparts : st.LeavesParts) (hgrows : st.Grows st') (b : Blueprint)
    (h : st.IsWhole b) : st'.IsWhole b ∧ st'.treeOf b = st.treeOf b := by
  cases b with
  | given c =>
    have hc := constraint_grow hparts hgrows h
    refine ⟨?_, hc⟩
    rw [IsWhole, hc]
    exact hasTree_grow hparts hgrows _ h
  | type target => exact ⟨h, rfl⟩
  | literals values => exact ⟨trivial, rfl⟩
  | array element =>
    obtain ⟨hwhole, htree⟩ := treeOf_grow hparts hgrows element h
    exact ⟨hwhole, congrArg Constraint.array htree⟩
  | union branches =>
    obtain ⟨hwhole, htrees⟩ := treesOf_grow hparts hgrows branches h
    exact ⟨hwhole, congrArg Constraint.union htrees⟩
termination_by structural b
theorem treesOf_grow (hparts : st.LeavesParts) (hgrows : st.Grows st') (bs : List Blueprint)
    (h : st.AreWhole bs) : st'.AreWhole bs ∧ st'.treesOf bs = st.treesOf bs := by
  cases bs with
  | nil => exact ⟨trivial, rfl⟩
  | cons b bs =>
    obtain ⟨hwhole, htree⟩ := treeOf_grow hparts hgrows b h.1
    obtain ⟨hwholes, htrees⟩ := treesOf_grow hparts hgrows bs h.2
    exact ⟨⟨hwhole, hwholes⟩, by rw [treesOf, treesOf, htree, htrees]⟩
termination_by structural bs
end

structure Adds (st st' : Store) : Prop where
  grows : st.Grows st'
  lists_eq : st'.lists = st.lists

theorem Adds.refl (st : Store) : st.Adds st := ⟨.refl st, rfl⟩

theorem Adds.trans {st'' : Store} (h : st.Adds st') (h' : st'.Adds st'') : st.Adds st'' :=
  ⟨h.grows.trans h'.grows, h'.lists_eq.trans h.lists_eq⟩

end Store

namespace Action

open Store

theorem newObject_adds (k : ClassId) (attributes : Entries Value Value) (s : State) :
    ∃ t, newObject k attributes s = .ok (.object k ⟨s.store.objects.size⟩) t ∧
      s.store.Adds t.store ∧ s.store.objects.size < t.store.objects.size ∧
      ∀ st, t.store.Grows st → (st.object ⟨s.store.objects.size⟩).attributes = attributes := by
  obtain ⟨t, hrun, hgrows, hlt⟩ := newObject_run k attributes s
  obtain ⟨id, hid, -, hattributes⟩ := newObject_eq_ok hrun
  cases hid
  have hlists : t.store.lists = s.store.lists := by
    cases hrun
    rfl
  exact ⟨t, hrun, ⟨hgrows, hlists⟩, hlt, hattributes⟩

mutual
/-- What is built is there from then on, and the store has as many more objects as it is deep. -/
theorem build_eq_ok (b : Blueprint) (s : State) :
    ∃ c t, build b s = .ok c t ∧ s.store.Adds t.store ∧
      (∀ st, t.store.Grows st → st.IsBuilt s.store.objects.size b c) ∧
      ∀ st : Store, (∀ g, (st.constraint g).height ≤ s.store.objects.size + 1) →
        (st.treeOf b).height ≤ t.store.objects.size + 1 := by
  cases b with
  | given g => exact ⟨g, s, rfl, .refl _, fun _ _ ↦ rfl, fun st hst ↦ hst g⟩
  | type target =>
    obtain ⟨t, hrun, hadds, -, hid⟩ :=
      newObject_adds (.builtin .typeConstraint) [(.text "target", target)] s
    refine ⟨_, t, hrun, hadds, fun st hst ↦ ⟨_, Nat.le_refl _, rfl, hid st hst⟩, fun st _ ↦ ?_⟩
    simp [treeOf, Constraint.height]
  | literals values =>
    obtain ⟨t, hrun, hadds, -, hid⟩ :=
      newObject_adds (.builtin .literalConstraint) [(.text "values", .tuple values)] s
    refine ⟨_, t, hrun, hadds, fun st hst ↦ ⟨_, Nat.le_refl _, rfl, hid st hst⟩, fun st _ ↦ ?_⟩
    simp [treeOf, Constraint.height]
  -- the element is built first, so that the array is the newest object and one level deeper
  | array element =>
    obtain ⟨v, s₁, hv, hadds, hbuilt, hheight⟩ := build_eq_ok element s
    obtain ⟨t, hrun, hadds', hlt, hid⟩ :=
      newObject_adds (.builtin .arrayConstraint) [(.text "element", v)] s₁
    refine ⟨_, t, (bind_of_ok hv).trans hrun, hadds.trans hadds', fun st hst ↦ ?_, fun st hst ↦ ?_⟩
    · exact ⟨_, v, hadds.grows.objects_le, rfl, hid st hst, hbuilt st (hadds'.grows.trans hst)⟩
    · have := hheight st hst
      simp only [treeOf, Constraint.height]
      omega
  | union branches =>
    obtain ⟨vs, s₁, hvs, hadds, hbuilt, hheight⟩ := buildAll_eq_ok branches s
    obtain ⟨t, hrun, hadds', hlt, hid⟩ :=
      newObject_adds (.builtin .unionConstraint) [(.text "branches", .tuple vs)] s₁
    refine ⟨_, t, (bind_of_ok hvs).trans hrun, hadds.trans hadds', fun st hst ↦ ?_, fun st hst ↦ ?_⟩
    · exact ⟨_, vs, hadds.grows.objects_le, rfl, hid st hst, hbuilt st (hadds'.grows.trans hst)⟩
    · have := hheight st hst
      simp only [treeOf, Constraint.height]
      omega
termination_by structural b
theorem buildAll_eq_ok (bs : List Blueprint) (s : State) :
    ∃ vs t, buildAll bs s = .ok vs t ∧ s.store.Adds t.store ∧
      (∀ st, t.store.Grows st → st.AreBuilt s.store.objects.size bs vs) ∧
      ∀ st : Store, (∀ g, (st.constraint g).height ≤ s.store.objects.size + 1) →
        Constraint.heightOfAll (st.treesOf bs) ≤ t.store.objects.size + 1 := by
  cases bs with
  | nil => exact ⟨[], s, rfl, .refl _, fun _ _ ↦ rfl, fun _ _ ↦ Nat.zero_le _⟩
  | cons b bs =>
    obtain ⟨v, s₁, hv, hadds, hbuilt, hheight⟩ := build_eq_ok b s
    obtain ⟨vs, t, hvs, hadds', hbuilts, hheights⟩ := buildAll_eq_ok bs s₁
    refine ⟨v :: vs, t, ?_, hadds.trans hadds', fun st hst ↦ ?_, fun st hst ↦ ?_⟩
    · rw [buildAll, bind_of_ok hv, bind_of_ok hvs]
      rfl
    · exact ⟨hbuilt st (hadds'.grows.trans hst), (hbuilts st hst).mono hadds.grows.objects_le bs⟩
    · have hle := hadds.grows.objects_le
      have hle' := hadds'.grows.objects_le
      have := hheight st hst
      have := hheights st fun g ↦ (hst g).trans (Nat.succ_le_succ hle)
      simp only [treesOf, Constraint.heightOfAll, Nat.max_le]
      omega
termination_by structural bs
end

/-- An evaluation sees the tree of the blueprint of what was built, from then on. -/
theorem constraint_of_build {b : Blueprint} {s t : State} {st : Store} {c : Value}
    (hparts : s.store.LeavesParts) (hwhole : s.store.IsWhole b) (h : build b s = .ok c t)
    (hgrows : t.store.Grows st) : st.constraint c = st.treeOf b := by
  obtain ⟨c', t', hrun, hadds, hbuilt, hheight⟩ := build_eq_ok b s
  cases hrun.symm.trans h
  have hlater := hadds.grows.trans hgrows
  obtain ⟨hwhole', htree⟩ := treeOf_grow hparts hlater b hwhole
  have hc := hasTree_of_isBuilt (hparts.grow hlater) b hwhole' (hbuilt st hgrows)
  refine constraintWithin_of_hasTree _ hc ?_
  rw [htree]
  have hsize := hheight s.store fun g ↦ height_constraintWithin _ g
  exact hsize.trans (Nat.succ_le_succ hgrows.objects_le)

end Action

namespace Store

variable {st : Store}

theorem orSame_of_isRecord {b : Builtin} {v w : Value} {i j : ObjectId} {depth : Nat}
    (hi : st.IsRecord (.object (.builtin b) i) b [v])
    (hj : st.IsRecord (.object (.builtin b) j) b [w])
    (h : v.orSame w (v.equals (st.equalCells depth) w) = .ok true) :
    (Value.object (.builtin b) i).orSame (.object (.builtin b) j)
      ((Value.object (.builtin b) i).equals (st.equalCells (depth + 1)) (.object (.builtin b) j)) =
        .ok true := by
  have hnature : st.nature (.builtin b) = .record b := natureOf_of_isRecord hi
  have hregistry : st.nature (.builtin b) ≠ .registry := by rw [hnature]; simp
  have hvs : st.parts (.object (.builtin b) i) b = .ok [v] := by
    obtain ⟨k, id, hid, -, hvs⟩ := hi
    exact hvs
  have hws : st.parts (.object (.builtin b) j) b = .ok [w] := by
    obtain ⟨k, id, hid, -, hws⟩ := hj
    exact hws
  have hobjects : st.equalObjects (st.equalCells depth) (.object (.builtin b) i)
      (.object (.builtin b) j) = .ok true := by
    have htype : st.typeOf (.object (.builtin b) i) = st.typeOf (.object (.builtin b) j) := rfl
    have hnature' : st.natureOf (.object (.builtin b) i) = .record b := hnature
    rw [equalObjects, if_neg (not_not_intro htype), hnature']
    simp only [hvs, hws]
    change bothEqual (v.orSame w (v.equals (st.equalCells depth) w)) (pure true) = _
    rw [h]
    rfl
  unfold Value.orSame
  split
  · rfl
  · change st.equalCells (depth + 1) (.object (.builtin b) i) (.object (.builtin b) j) = _
    rw [equalCells, mapping?_object hregistry, mapping?_object hregistry]
    exact hobjects

theorem orSame_tuple {deep : Value → Value → Except Fault Bool} {vs ws : List Value}
    (h : Value.equalLists deep vs ws = .ok true) :
    (Value.tuple vs).orSame (.tuple ws) ((Value.tuple vs).equals deep (.tuple ws)) = .ok true := h

mutual
/-- Two constraints of one blueprint are equal, as far as they are compared level by level. -/
theorem orSame_of_isBuilt (hparts : st.LeavesParts) (st₀ : Store) {m n : Nat} (b : Blueprint)
    {c d : Value} (hc : st.IsBuilt m b c) (hd : st.IsBuilt n b d) {depth : Nat}
    (hdepth : (st₀.treeOf b).height ≤ depth) :
    c.orSame d (c.equals (st.equalCells depth) d) = .ok true := by
  cases b with
  | given g =>
    cases hc
    cases hd
    exact Value.orSame_self _
  | type target =>
    obtain ⟨i, -, rfl, hi⟩ := hc
    obtain ⟨j, -, rfl, hj⟩ := hd
    obtain ⟨depth, rfl⟩ := Nat.exists_eq_add_of_le' hdepth
    exact orSame_of_isRecord (isRecord_of_attributes hparts rfl rfl hi)
      (isRecord_of_attributes hparts rfl rfl hj) (Value.orSame_self _)
  | literals values =>
    obtain ⟨i, -, rfl, hi⟩ := hc
    obtain ⟨j, -, rfl, hj⟩ := hd
    obtain ⟨depth, rfl⟩ := Nat.exists_eq_add_of_le' hdepth
    exact orSame_of_isRecord (isRecord_of_attributes hparts rfl rfl hi)
      (isRecord_of_attributes hparts rfl rfl hj) (Value.orSame_self _)
  | array element =>
    obtain ⟨i, v, -, rfl, hi, hv⟩ := hc
    obtain ⟨j, w, -, rfl, hj, hw⟩ := hd
    obtain ⟨depth, rfl⟩ := Nat.exists_eq_add_of_le' (Nat.le_of_add_left_le hdepth)
    exact orSame_of_isRecord (isRecord_of_attributes hparts rfl rfl hi)
      (isRecord_of_attributes hparts rfl rfl hj)
      (orSame_of_isBuilt hparts st₀ element hv hw (Nat.le_of_succ_le_succ hdepth))
  | union branches =>
    obtain ⟨i, vs, -, rfl, hi, hvs⟩ := hc
    obtain ⟨j, ws, -, rfl, hj, hws⟩ := hd
    obtain ⟨depth, rfl⟩ := Nat.exists_eq_add_of_le' (Nat.le_of_add_left_le hdepth)
    exact orSame_of_isRecord (isRecord_of_attributes hparts rfl rfl hi)
      (isRecord_of_attributes hparts rfl rfl hj) (orSame_tuple
        (equalLists_of_areBuilt hparts st₀ branches hvs hws (Nat.le_of_succ_le_succ hdepth)))
termination_by structural b
theorem equalLists_of_areBuilt (hparts : st.LeavesParts) (st₀ : Store) {m n : Nat}
    (bs : List Blueprint) {vs ws : List Value} (hvs : st.AreBuilt m bs vs) (hws : st.AreBuilt n bs ws) {depth : Nat}
    (hdepth : Constraint.heightOfAll (st₀.treesOf bs) ≤ depth) :
    Value.equalLists (st.equalCells depth) vs ws = .ok true := by
  cases bs with
  | nil =>
    cases hvs
    cases hws
    rfl
  | cons b bs =>
    cases vs with
    | nil => exact hvs.elim
    | cons v vs =>
      cases ws with
      | nil => exact hws.elim
      | cons w ws =>
        obtain ⟨hhead, htail⟩ := Nat.max_le.1 hdepth
        rw [Value.equalLists, orSame_of_isBuilt hparts st₀ b hvs.1 hws.1 hhead]
        exact equalLists_of_areBuilt hparts st₀ bs hvs.2 hws.2 htail
termination_by structural bs
end

end Store

namespace Action

open Store

theorem equal_of_build {b : Blueprint} {s t s' t' : State} {st : Store} {c d : Value}
    (hparts : s.store.LeavesParts) (hc : build b s = .ok c t) (hgrows : t.store.Grows s'.store)
    (hd : build b s' = .ok d t') (hgrows' : t'.store.Grows st) (hne : c ≠ d) :
    st.equal c d = .ok true := by
  obtain ⟨c', t₁, hrun, hadds, hbuilt, -⟩ := build_eq_ok b s
  cases hrun.symm.trans hc
  obtain ⟨d', t₂, hrun', hadds', hbuilt', hheight⟩ := build_eq_ok b s'
  cases hrun'.symm.trans hd
  have hlater := (hgrows.trans hadds'.grows).trans hgrows'
  -- cells are compared as deep as there are cells, and each level that was built is one of them
  have hdepth : (s'.store.treeOf b).height ≤ st.cellCount + 1 := by
    have hsize := hheight s'.store fun g ↦ height_constraintWithin _ g
    have hobjects := hgrows'.objects_le
    have hcells : st.objects.size ≤ st.cellCount := by
      rw [cellCount]
      omega
    omega
  have hsame := orSame_of_isBuilt (hparts.grow (hadds.grows.trans hlater)) s'.store b
    (hbuilt _ hlater) (hbuilt' _ hgrows') hdepth
  unfold Value.orSame at hsame
  split at hsame
  · next h => exact (hne (Value.eq_of_isTwin (Bool.and_eq_true_iff.1 h).2)).elim
  · exact hsame

end Action

end Conformance
