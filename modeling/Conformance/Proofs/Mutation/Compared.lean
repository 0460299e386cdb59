import Conformance.Proofs.Mutation.Fixed

namespace Conformance

theorem someEqual_congr {α : Type} {p q : α → Except Fault Bool} {l : List α}
    (h : ∀ a ∈ l, p a = q a) : someEqual p l = someEqual q l := by
  induction l with
  | nil => rfl
  | cons a l ih =>
    obtain ⟨ha, hl⟩ := List.forall_mem_cons.1 h
    rw [someEqual, someEqual, ha, ih hl]

theorem allM_congr {α : Type} {p q : α → Except Fault Bool} {l : List α} (h : ∀ a ∈ l, p a = q a) :
    l.allM p = l.allM q := by
  induction l with
  | nil => rfl
  | cons a l ih =>
    obtain ⟨ha, hl⟩ := List.forall_mem_cons.1 h
    rw [List.allM, List.allM, ha, ih hl]

theorem anyM_congr {α : Type} {p q : α → Except Fault Bool} {l : List α} (h : ∀ a ∈ l, p a = q a) :
    l.anyM p = l.anyM q := by
  induction l with
  | nil => rfl
  | cons a l ih =>
    obtain ⟨ha, hl⟩ := List.forall_mem_cons.1 h
    rw [List.anyM, List.anyM, ha, ih hl]

namespace Store

variable {st st' : Store}

/-- Two comparisons of cells that give the same for what is fixed. -/
def ComparesAlike (st : Store) (deep deep' : Value → Value → Except Fault Bool) : Prop :=
  ∀ v w, st.Fixed w → deep' v w = deep v w

variable {deep deep' : Value → Value → Except Fault Bool}

theorem equalsAtom_congr (h : st.ComparesAlike deep deep') (v : Value) {w : Value}
    (hw : st.Fixed w) : v.equalsAtom deep' w = v.equalsAtom deep w := by
  unfold Value.equalsAtom
  split
  · rfl
  · split
    all_goals first | rfl | exact h _ _ hw

mutual
theorem equals_congr (h : st.ComparesAlike deep deep') (v : Value) {w : Value} (hw : st.Fixed w) :
    v.equals deep' w = v.equals deep w := by
  have hplain := hw.plain
  cases v with
  | derived c v id => exact equals_congr h v hw
  | tuple vs =>
    rw [Value.equals, Value.equals]
    split
    · next ws htuple =>
      rw [htuple] at hplain
      exact equalLists_congr h vs hplain.of_mem_tuple
    · rfl
  | frozenSet vs =>
    rw [Value.equals, Value.equals]
    split
    · next ws hset =>
      rw [hset] at hplain
      have hincludes : ws.allM (fun w ↦ Value.includes deep' w vs) =
          ws.allM fun w ↦ Value.includes deep w vs :=
        allM_congr fun w hw ↦ includes_congr h (hplain.of_mem_frozenSet w hw) vs
      rw [includedIn_congr h hplain.of_mem_frozenSet vs, hincludes]
    · exact h _ _ hplain
  | _ => exact equalsAtom_congr h _ hplain
termination_by structural v
theorem equalLists_congr (h : st.ComparesAlike deep deep') (vs : List Value) {ws : List Value}
    (hws : ∀ w ∈ ws, st.Fixed w) : Value.equalLists deep' vs ws = Value.equalLists deep vs ws := by
  cases vs with
  | nil => rfl
  | cons v vs =>
    cases ws with
    | nil => rfl
    | cons w ws =>
      obtain ⟨hw, hws⟩ := List.forall_mem_cons.1 hws
      rw [Value.equalLists, Value.equalLists, equals_congr h v hw, equalLists_congr h vs hws]
termination_by structural vs
theorem includedIn_congr (h : st.ComparesAlike deep deep') {ws : List Value}
    (hws : ∀ w ∈ ws, st.Fixed w) (vs : List Value) :
    Value.includedIn deep' ws vs = Value.includedIn deep ws vs := by
  cases vs with
  | nil => rfl
  | cons v vs =>
    have hv : someEqual (fun w ↦ v.orSame w (v.equals deep' w)) ws =
        someEqual (fun w ↦ v.orSame w (v.equals deep w)) ws :=
      someEqual_congr fun w hw ↦ by rw [equals_congr h v (hws w hw)]
    rw [Value.includedIn, Value.includedIn, hv, includedIn_congr h hws vs]
termination_by structural vs
theorem includes_congr (h : st.ComparesAlike deep deep') {w : Value} (hw : st.Fixed w)
    (vs : List Value) : Value.includes deep' w vs = Value.includes deep w vs := by
  cases vs with
  | nil => rfl
  | cons v vs =>
    rw [Value.includes, Value.includes, equals_congr h v hw, includes_congr h hw vs]
termination_by structural vs
end

theorem equalSets_congr (h : st.ComparesAlike deep deep') (vs : List Value) {ws : List Value}
    (hws : ∀ w ∈ ws, st.Fixed w) : Value.equalSets deep' vs ws = Value.equalSets deep vs ws := by
  have hincludes : ws.allM (fun w ↦ Value.includes deep' w vs) =
      ws.allM fun w ↦ Value.includes deep w vs :=
    allM_congr fun w hw ↦ includes_congr h (hws w hw) vs
  rw [Value.equalSets, Value.equalSets, includedIn_congr h hws vs, hincludes]

theorem Fixed.of_mem_parts {c : ClassId} {id : ObjectId} {b : Builtin} {ws : List Value}
    (hw : st.Fixed (.object c id)) (hb : st.nature c = .record b)
    (hws : st.parts (.object c id) b = .ok ws) : ∀ x ∈ ws, st.Fixed x := by
  intro x hx
  obtain ⟨part, hpart, hread⟩ := exists_of_mem_mapM hws x hx
  exact hw.of_reads (.part hb hpart hread)

theorem equalObjects_congr (hst : st.Refills st') (h : st.ComparesAlike deep deep') (v : Value)
    {c : ClassId} {id : ObjectId} (hw : st.Fixed (.object c id)) :
    st'.equalObjects deep' v (.object c id) = st.equalObjects deep v (.object c id) := by
  have hvalidated : st.nature c ≠ .validated := hw.natureOf_ne_validated
  rw [equalObjects, equalObjects, hst.typeOf_eq, hst.natureOf_eq, hst.parts_eq]
  by_cases htype : st.typeOf v = c
  · have hnatureOf : st.natureOf v = st.nature c := congrArg st.nature htype
    have hsame : ¬ st.typeOf v ≠ st.typeOf (.object c id) := fun hne ↦ hne htype
    rw [if_neg hsame, if_neg hsame, hnatureOf]
    split
    · next hc => exact (hvalidated hc).elim
    · next b hc =>
      cases hws : st.parts (.object c id) b with
      | error e => rfl
      | ok ws =>
        cases st.parts v b with
        | error e => rfl
        | ok vs => exact equalLists_congr h vs (hw.of_mem_parts hc hws)
    · rfl
  · have hother : st.typeOf v ≠ st.typeOf (.object c id) := htype
    rw [if_pos hother, if_pos hother]

theorem Fixed.of_mem_setMembers {w : Value} {ws : List Value} (hw : st.Fixed w)
    (h : st.setMembers? w = some ws) : ∀ x ∈ ws, st.Fixed x := by
  have hplain := hw.plain
  unfold setMembers? at h
  split at h
  · next id hset =>
    rw [hset] at hplain
    cases hplain with
    | atom h => cases h
  · next ws' hset =>
    rw [hset] at hplain
    cases h
    exact hplain.of_mem_frozenSet
  · cases h

/-- Equality of cells gives the same for what is fixed, to any depth. -/
theorem equalCells_congr (hst : st.Refills st') (depth : Nat) :
    st.ComparesAlike (st.equalCells depth) (st'.equalCells depth) := by
  induction depth with
  | zero => exact fun v w _ ↦ rfl
  | succ depth ih =>
    intro v w hw
    have hmapping : st.mapping? w = none := hw.mapping?_eq_none
    have hmapping' : st'.mapping? w = none := (hw.refill hst).mapping?_eq_none
    have hsets : st'.setMembers? = st.setMembers? := by
      rw [hst.eq]
      rfl
    have hbytes : st'.bytes? = st.bytes? := by
      rw [hst.eq]
      rfl
    unfold equalCells
    rw [hmapping, hmapping', hsets, hbytes]
    -- a mapping equals no fixed value; then come sets, then data, and last what is seen of both
    cases st'.mapping? v <;> cases st.mapping? v
    all_goals
      cases st.setMembers? v <;> cases hws : st.setMembers? w
      case some.some vs ws => exact equalSets_congr ih vs (hw.of_mem_setMembers hws)
    all_goals
      cases st.bytes? v <;> cases st.bytes? w
      case some.some a b => rfl
    all_goals
      cases v with
      | list i =>
        cases w with
        | list j => exact (Fixed.not_list hw).elim
        | _ => rfl
      | object c i =>
        cases w with
        | object d j => exact equalObjects_congr hst ih _ hw
        | _ => rfl
      | _ => rfl

variable (hst : st.Refills st')

include hst

theorem equal_congr (v : Value) {w : Value} (hw : st.Fixed w) : st'.equal v w = st.equal v w := by
  rw [equal, equal, hst.cellCount_eq]
  exact equals_congr (equalCells_congr hst _) v hw

theorem isLiteral_congr (v : Value) {literal : Value} (h : st.Fixed literal) :
    st'.isLiteral v literal = st.isLiteral v literal := by
  rw [isLiteral, isLiteral, hst.typeOf_eq, equal_congr hst v h]

theorem isAnyLiteral_congr {literals : List Value} (h : ∀ literal ∈ literals, st.Fixed literal)
    (v : Value) : st'.isAnyLiteral literals v = st.isAnyLiteral literals v :=
  anyM_congr fun literal hliteral ↦ isLiteral_congr hst v (h literal hliteral)

end Store

end Conformance
