import Conformance.Evaluator
import Conformance.Proofs.Run
import Mathlib.Logic.Relation

namespace Conformance

namespace Store

/-- The same store, but for what lists and dictionaries hold. -/
structure Refills (st st' : Store) : Prop where
  lists_size : st'.lists.size = st.lists.size
  dictionaries_size : st'.dictionaries.size = st.dictionaries.size
  others_eq : { st' with lists := st.lists, dictionaries := st.dictionaries } = st

/-- An append to a list, or a value put into a list or a dictionary. -/
inductive Mutation (st : Store) : Store → Prop
  | append {list v : Value} {id : ListId} {st' : Store} (hlist : list.plain = .list id)
      (h : st.append list v = .ok st') : Mutation st st'
  | putInList {list key v : Value} {id : ListId} {st' : Store} (hlist : list.plain = .list id)
      (h : st.putItem list key v = .ok st') : Mutation st st'
  | putInDictionary {dictionary key v : Value} {i : Nat} {st' : Store}
      (hdictionary : dictionary.plain = .dictionary (.cell i))
      (h : st.putItem dictionary key v = .ok st') : Mutation st st'

variable {st st' st'' : Store} {v : Value}

namespace Refills

theorem refl (st : Store) : st.Refills st := ⟨rfl, rfl, rfl⟩

variable (h : st.Refills st')

include h

theorem eq : st' = { st with lists := st'.lists, dictionaries := st'.dictionaries } := by
  rw [← h.others_eq]

theorem trans (h' : st'.Refills st'') : st.Refills st'' := by
  refine ⟨h'.lists_size.trans h.lists_size, h'.dictionaries_size.trans h.dictionaries_size, ?_⟩
  rw [h'.eq, h.eq]

theorem objects_eq : st'.objects = st.objects := by
  rw [h.eq]

theorem typeOf_eq : st'.typeOf = st.typeOf := by
  rw [h.eq]
  rfl

theorem nature_eq : st'.nature = st.nature := by
  rw [h.eq]
  rfl

theorem natureOf_eq : st'.natureOf = st.natureOf := by
  rw [h.eq]
  rfl

theorem inherits_eq : st'.inherits = st.inherits := by
  rw [h.eq]
  rfl

theorem isEnum_eq : st'.isEnum = st.isEnum := by
  rw [h.eq]
  rfl

theorem className_eq : st'.className = st.className := by
  rw [h.eq]
  rfl

theorem plainAttribute?_eq : st'.plainAttribute? = st.plainAttribute? := by
  rw [h.eq]
  rfl

theorem attributeOfProperty_eq : st'.attributeOfProperty = st.attributeOfProperty := by
  rw [h.eq]
  rfl

end Refills

theorem refills_setItems (st : Store) (id : ListId) (vs : List Value) :
    st.Refills (st.setItems id vs) := ⟨Table.size_set _ _ _, rfl, rfl⟩

theorem refills_setEntries (st : Store) (i : Nat) (es : Entries Value Value) :
    st.Refills (st.setEntries (.cell i) es) := ⟨rfl, Table.size_set _ _ _, rfl⟩

theorem refills_of_mutation (h : st.Mutation st') : st.Refills st' := by
  cases h with
  | append hlist h =>
    obtain ⟨-, -, h⟩ := answer_of_bind h
    rw [hlist] at h
    cases h
    exact refills_setItems st _ _
  | putInList hlist h =>
    rw [putItem, hlist] at h
    obtain ⟨i, -, h⟩ := answer_of_bind h
    cases h
    exact refills_setItems st _ _
  | putInDictionary hdictionary h =>
    rw [putItem, hdictionary] at h
    obtain ⟨-, -, h⟩ := answer_of_bind h
    cases h
    exact refills_setEntries st _ _

theorem refills_of_mutations (h : Relation.ReflTransGen Mutation st st') : st.Refills st' := by
  induction h with
  | refl => exact .refl st
  | tail _ hstep ih => exact ih.trans (refills_of_mutation hstep)

end Store

mutual
/-- Which part keeps a value from being a key depends on the names of classes and on what is said of
objects. -/
theorem Value.unhashable?_congr {st st' : Store} (h : st'.className = st.className)
    (deep : Value → Option String) (v : Value) :
    v.unhashable? st' deep = v.unhashable? st deep := by
  cases v with
  | tuple vs => exact Value.firstUnhashable?_congr h deep vs
  | frozenSet vs => exact Value.firstUnhashable?_congr h deep vs
  | derived c v id =>
    have hv := Value.unhashable?_congr h deep v
    cases v with
    | byteArray | list | set | dictionary => exact congrArg some (congrFun h c)
    | _ => exact hv
  | _ => rfl
termination_by structural v
theorem Value.firstUnhashable?_congr {st st' : Store} (h : st'.className = st.className)
    (deep : Value → Option String) (vs : List Value) :
    Value.firstUnhashable? st' deep vs = Value.firstUnhashable? st deep vs := by
  cases vs with
  | nil => rfl
  | cons v vs =>
    rw [Value.firstUnhashable?, Value.unhashable?_congr h deep v,
      Value.firstUnhashable?_congr h deep vs]
    rfl
termination_by structural vs
end

namespace Store

namespace Refills

variable {st st' : Store} (h : st.Refills st')

include h

theorem unhashableObject?_eq (depth : Nat) (v : Value) :
    st'.unhashableObject? depth v = st.unhashableObject? depth v := by
  induction depth generalizing v with
  | zero => rfl
  | succ depth ih =>
    have hdeep : st'.unhashableObject? depth = st.unhashableObject? depth := funext ih
    have htypeName : st'.typeName v = st.typeName v := by
      rw [typeName, typeName, h.className_eq, h.typeOf_eq]
    rw [unhashableObject?, unhashableObject?, h.natureOf_eq, h.plainAttribute?_eq, hdeep, htypeName]
    simp only [Value.firstUnhashable?_congr h.className_eq]

theorem hash_eq : st'.hash = st.hash := by
  funext v
  have hdeep : st'.unhashableObject? (st'.objects.size + 1) =
      st.unhashableObject? (st.objects.size + 1) := by
    rw [h.objects_eq]
    exact funext (h.unhashableObject?_eq _)
  rw [hash, hash, hdeep, Value.unhashable?_congr h.className_eq]

theorem attributeOf_eq : st'.attributeOf = st.attributeOf := by
  have hfield : st'.attributeOfField = st.attributeOfField := by
    funext v field
    unfold attributeOfField
    rw [h.hash_eq, h.plainAttribute?_eq]
    rw [h.eq]
    rfl
  funext v name
  unfold attributeOf
  rw [hfield]
  rw [h.eq]
  rfl

theorem parts_eq : st'.parts = st.parts := by
  funext v b
  rw [parts, parts, h.attributeOf_eq]

omit h in
theorem isSome_arrayItems? (v : Value) : (st'.arrayItems? v).isSome = (st.arrayItems? v).isSome := by
  unfold arrayItems?
  split <;> rfl

theorem content_eq : st'.content = st.content := by
  have hwithin (depth : Nat) : st'.contentWithin depth = st.contentWithin depth := by
    induction depth with
    | zero => rfl
    | succ depth ih =>
      funext v
      rw [contentWithin, contentWithin, ih, h.natureOf_eq, h.plainAttribute?_eq]
      rw [h.eq]
      rfl
  funext v
  rw [content, content, h.objects_eq, hwithin]

end Refills

variable {st st' : Store}

mutual
theorem Refills.isOf_eq (h : st.Refills st') (v target : Value) :
    st'.isOf v target = st.isOf v target := by
  cases target with
  | ofClass c => rw [isOf, isOf, h.inherits_eq, h.typeOf_eq]
  | tuple targets => exact Refills.isOfAny_eq h v targets
  | derived c target id =>
    cases target with
    | tuple targets => exact Refills.isOfAny_eq h v targets
    | _ => rfl
  | _ => rfl
termination_by structural target
theorem Refills.isOfAny_eq (h : st.Refills st') (v : Value) (targets : List Value) :
    st'.isOfAny v targets = st.isOfAny v targets := by
  cases targets with
  | nil => rfl
  | cons target targets =>
    rw [isOfAny, isOfAny, Refills.isOf_eq h v target, Refills.isOfAny_eq h v targets]
termination_by structural targets
end

namespace Refills

variable (h : st.Refills st')

include h

theorem hasType_eq (target v : Value) : st'.hasType target v = st.hasType target v := by
  unfold hasType
  rw [h.inherits_eq, h.typeOf_eq]
  split
  · rfl
  · rfl
  · exact congrArg pure (isSome_arrayItems? v)
  · exact congrArg pure (isSome_arrayItems? v)
  · rw [h.isOf_eq]
  · exact h.isOf_eq _ _

theorem cellCount_eq : st'.cellCount = st.cellCount := by
  rw [cellCount, h.lists_size, h.dictionaries_size, h.eq]
  rfl

end Refills

end Store

end Conformance
