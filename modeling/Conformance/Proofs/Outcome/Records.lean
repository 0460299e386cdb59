import Conformance.Proofs.Content
import Conformance.Proofs.Outcome

namespace Conformance

abbrev Value.outcome (id : ObjectId) : Value := .object (.builtin .result) id

abbrev Value.violation (id : ObjectId) : Value := .object (.builtin .violation) id

def outcomeAttributes (valid : Bool) (list : ListId) : Entries Value Value :=
  [(.text "valid", .bool valid), (.text "violations", .list list)]

theorem outcomeAttributes_ne_violation (valid : Bool) (list : ListId) (v : Violation) :
    outcomeAttributes valid list ≠ v.attributes := by
  simp [outcomeAttributes, Violation.attributes]

namespace Store

/-- The classes of outcomes and of violations have the attributes that they start with. -/
structure HasOutcomes (st : Store) : Prop where
  result : st.body (.builtin .result) = Builtin.result.body
  violation : st.body (.builtin .violation) = Builtin.violation.body

/-- An outcome that is valid or not, and keeps its violations in a list. Others may keep theirs in
the same list. -/
structure Records (st : Store) (id : ObjectId) (valid : Bool) (list : ListId)
    (vs : List Violation) : Prop where
  lt_size : id.index < st.objects.size
  attributes : (st.object id).attributes = outcomeAttributes valid list
  list_lt_size : list.index < st.lists.size
  restates : List.Forall₂ st.Restates (st.items list) vs

/-- Nothing that was there has changed but one outcome and one list. -/
structure Revises (st : Store) (id : ObjectId) (list : ListId) (st' : Store) : Prop where
  changedBodies_eq : st'.changedBodies = st.changedBodies
  not_violation (v : Violation) :
    id.index < st.objects.size → (st.object id).attributes ≠ v.attributes
  size_le : st.objects.size ≤ st'.objects.size
  object_eq (o : ObjectId) (ho : o.index < st.objects.size) (hne : o ≠ id) :
    st'.object o = st.object o
  lists_size_le : st.lists.size ≤ st'.lists.size
  items_eq (l : ListId) (hl : l.index < st.lists.size) (hne : l ≠ list) : st'.items l = st.items l

variable {st st' st'' : Store} {id o : ObjectId} {list l : ListId} {valid : Bool} {w : Value}
  {v : Violation} {vs us : List Violation}

theorem HasOutcomes.of_changedBodies_eq (h : st.HasOutcomes)
    (hbodies : st'.changedBodies = st.changedBodies) : st'.HasOutcomes where
  result := by
    rw [← h.result]
    simp only [body, hbodies]
  violation := by
    rw [← h.violation]
    simp only [body, hbodies]

theorem HasOutcomes.classAttribute?_result (h : st.HasOutcomes) (name : String) :
    st.classAttribute? (.builtin .result) name = Builtin.result.body.get? name := by
  have hlinear : st.linearization (.builtin .result) = [.builtin .result, .builtin .object] := rfl
  have hobject : st.body (.builtin .object) = [] := rfl
  rw [classAttribute?, hlinear, List.findSome?_cons, h.result, List.findSome?_cons, hobject]
  cases Builtin.result.body.get? name <;> rfl

theorem HasOutcomes.classAttribute?_violation (h : st.HasOutcomes) (name : String) :
    st.classAttribute? (.builtin .violation) name = none := by
  have hlinear : st.linearization (.builtin .violation) = [.builtin .violation, .builtin .object] :=
    rfl
  have hobject : st.body (.builtin .object) = [] := rfl
  have hviolation : Builtin.violation.body = [] := rfl
  rw [classAttribute?, hlinear, List.findSome?_cons, h.violation, hviolation, List.findSome?_cons,
    hobject]
  rfl

theorem HasOutcomes.classAttribute?_valid (h : st.HasOutcomes) :
    st.classAttribute? (.builtin .result) "valid" = some (.bool true) := by
  rw [h.classAttribute?_result]
  decide

theorem HasOutcomes.classAttribute?_violations (h : st.HasOutcomes) :
    st.classAttribute? (.builtin .result) "violations" = none := by
  rw [h.classAttribute?_result]
  decide

namespace Revises

theorem trans (h : st.Revises id list st') (h' : st'.Revises id list st'') :
    st.Revises id list st'' where
  changedBodies_eq := h'.changedBodies_eq.trans h.changedBodies_eq
  not_violation := h.not_violation
  size_le := Nat.le_trans h.size_le h'.size_le
  object_eq o ho hne :=
    (h'.object_eq o (Nat.lt_of_lt_of_le ho h.size_le) hne).trans (h.object_eq o ho hne)
  lists_size_le := Nat.le_trans h.lists_size_le h'.lists_size_le
  items_eq l hl hne :=
    (h'.items_eq l (Nat.lt_of_lt_of_le hl h.lists_size_le) hne).trans (h.items_eq l hl hne)

variable (hrevises : st.Revises id list st')

include hrevises

theorem hasOutcomes (h : st.HasOutcomes) : st'.HasOutcomes :=
  h.of_changedBodies_eq hrevises.changedBodies_eq

theorem restates (h : st.Restates w v) : st'.Restates w v := by
  obtain ⟨o, rfl, ho, hattributes⟩ := h
  have hne : o ≠ id := by
    intro heq
    subst heq
    exact hrevises.not_violation v ho hattributes
  refine ⟨o, rfl, Nat.lt_of_lt_of_le ho hrevises.size_le, ?_⟩
  rw [hrevises.object_eq o ho hne, hattributes]

theorem records_of_ne (h : st.Records o valid l vs) (ho : o ≠ id) (hl : l ≠ list) :
    st'.Records o valid l vs where
  lt_size := Nat.lt_of_lt_of_le h.lt_size hrevises.size_le
  attributes := by
    rw [hrevises.object_eq o h.lt_size ho]
    exact h.attributes
  list_lt_size := Nat.lt_of_lt_of_le h.list_lt_size hrevises.lists_size_le
  restates := by
    rw [hrevises.items_eq l h.list_lt_size hl]
    exact h.restates.imp fun _ _ ↦ hrevises.restates

theorem records (h : st.Records o valid l vs) (ho : o ≠ id)
    (hlist : List.Forall₂ st'.Restates (st'.items list) us) :
    ∃ vs', st'.Records o valid l vs' := by
  by_cases hl : l = list
  · subst hl
    refine ⟨us, Nat.lt_of_lt_of_le h.lt_size hrevises.size_le, ?_,
      Nat.lt_of_lt_of_le h.list_lt_size hrevises.lists_size_le, hlist⟩
    rw [hrevises.object_eq o h.lt_size ho]
    exact h.attributes
  · exact ⟨vs, hrevises.records_of_ne h ho hl⟩

end Revises

theorem Records.not_violation (h : st.Records id valid list vs) (v : Violation) :
    (st.object id).attributes ≠ v.attributes := by
  rw [h.attributes]
  exact outcomeAttributes_ne_violation valid list v

theorem Records.revises_self (h : st.Records id valid list vs) : st.Revises id list st :=
  ⟨rfl, fun v _ ↦ h.not_violation v, Nat.le_refl _, fun _ _ _ ↦ rfl, Nat.le_refl _,
    fun _ _ _ ↦ rfl⟩

theorem Records.unique {valid' : Bool} {list' : ListId} (h : st.Records id valid list vs)
    (h' : st.Records id valid' list' us) : valid = valid' ∧ list = list' ∧ vs = us := by
  have hsame := h.attributes.symm.trans h'.attributes
  obtain ⟨rfl, rfl⟩ : valid = valid' ∧ list = list' := by simpa [outcomeAttributes] using hsame
  refine ⟨rfl, rfl, ?_⟩
  exact List.right_unique_forall₂' (fun _ _ _ hv hu ↦ hv.unique hu) h.restates h'.restates

section Reading

variable (hclasses : st.HasOutcomes) (h : st.Records id valid list vs)

include h in
theorem Records.ownAttribute?_eq (name : String) :
    st.ownAttribute? (.outcome id) name = (outcomeAttributes valid list).get? (.text name) :=
  congrArg (fun es : Entries Value Value ↦ es.get? (.text name)) h.attributes

include hclasses in
theorem attributeOf_message (id : ObjectId) :
    st.attributeOf (.outcome id) "message" = .ok (.property .message) := by
  have hclass : st.classAttribute? (.builtin .result) "message" = some (.property .message) := by
    rw [hclasses.classAttribute?_result]
    decide
  simp [attributeOf, typeOf, hclass, attributeOfProperty]
  rfl

include hclasses h

theorem attributeOf_valid : st.attributeOf (.outcome id) "valid" = .ok (.bool valid) := by
  have hfield : st.isField (.bool true) = false := by rfl
  have hown : st.ownAttribute? (.outcome id) "valid" = some (.bool valid) := h.ownAttribute?_eq _
  simp [attributeOf, typeOf, hclasses.classAttribute?_valid, hfield, hown]
  rfl

theorem attributeOf_violations : st.attributeOf (.outcome id) "violations" = .ok (.list list) := by
  have hown : st.ownAttribute? (.outcome id) "violations" = some (.list list) :=
    h.ownAttribute?_eq _
  simp [attributeOf, typeOf, hclasses.classAttribute?_violations, commonAttribute?, found, hown]
  rfl

theorem read_valid : st.read (.outcome id) "valid" = Check.ofExcept (.ok (.bool valid)) := by
  simp [read, typeOf, hclasses.classAttribute?_valid, attributeOf_valid hclasses h]

theorem read_violations :
    st.read (.outcome id) "violations" = Check.ofExcept (.ok (.list list)) := by
  simp [read, typeOf, hclasses.classAttribute?_violations, attributeOf_violations hclasses h]

theorem offers_operation {name : String} (hname : name ∈ ["add", "merge"])
    (argument? : Option Value) : st.offers (.outcome id) name argument? = .ok () := by
  have hclass : st.classAttribute? (.builtin .result) name = some (.operation name) := by
    rw [hclasses.classAttribute?_result]
    simp only [List.mem_cons, List.not_mem_nil, or_false] at hname
    rcases hname with rfl | rfl <;> decide
  have hfield : st.isField (.operation name) = false := by rfl
  have hown : st.ownAttribute? (.outcome id) name = none := by
    rw [h.ownAttribute?_eq]
    simp only [List.mem_cons, List.not_mem_nil, or_false] at hname
    rcases hname with rfl | rfl <;> rfl
  have hattribute : st.attributeOf (.outcome id) name = .ok (.operation name) := by
    simp [attributeOf, typeOf, hclass, hfield, hown]
    rfl
  simp [offers, hasOperation, hattribute]
  rfl

theorem writeAttribute_valid (b : Bool) :
    st.writeAttribute (.outcome id) "valid" (.bool b) =
      .ok (st.setAttributes id (outcomeAttributes b list)) := by
  have hfield : st.isField (.bool true) = false := by rfl
  have hplace (f : Property → Fault) : st.placeFor (.outcome id) "valid" f = .ok id := by
    simp [placeFor, typeOf, hclasses.classAttribute?_valid, hfield, attributesCell?]
    rfl
  have hput : (st.object id).attributes.put (.text "valid") (.bool b) =
      outcomeAttributes b list := by
    rw [h.attributes]
    rfl
  simp [writeAttribute, hplace, hput]

omit hclasses in
theorem Records.setAttributes (b : Bool) :
    (st.setAttributes id (outcomeAttributes b list)).Records id b list vs ∧
      st.Revises id list (st.setAttributes id (outcomeAttributes b list)) := by
  have hrevises : st.Revises id list (st.setAttributes id (outcomeAttributes b list)) := by
    refine ⟨rfl, fun v _ ↦ h.not_violation v, ?_, ?_, Nat.le_refl _, fun _ _ _ ↦ rfl⟩
    · simp [Store.setAttributes]
    · intro o _ hne
      exact Table.get_set_of_ne (fun heq ↦ hne (by cases o; cases id; cases heq; rfl)) st.objects _
  refine ⟨⟨?_, ?_, h.list_lt_size, ?_⟩, hrevises⟩
  · exact Nat.lt_of_lt_of_le h.lt_size hrevises.size_le
  · exact congrArg Object.attributes (Table.get_set_self h.lt_size _)
  · exact h.restates.imp fun _ _ ↦ hrevises.restates

omit hclasses in
theorem Records.setItems (hw : st.Restates w v) :
    let st' := st.setItems list (st.items list ++ [w])
    st'.Records id valid list (vs ++ [v]) ∧ st.Revises id list st' ∧
      st'.items list = st.items list ++ [w] := by
  intro st'
  have hitems : st'.items list = st.items list ++ [w] := Table.get_set_self h.list_lt_size _
  have hrevises : st.Revises id list st' := by
    refine ⟨rfl, fun v _ ↦ h.not_violation v, Nat.le_refl _, fun _ _ _ ↦ rfl, ?_, ?_⟩
    · exact Nat.le_of_eq (Table.size_set _ _ _).symm
    · intro l _ hne
      exact Table.get_set_of_ne (fun heq ↦ hne (by cases l; cases list; cases heq; rfl)) st.lists _
  refine ⟨⟨h.lt_size, h.attributes, ?_, ?_⟩, hrevises, hitems⟩
  · exact Nat.lt_of_lt_of_le h.list_lt_size hrevises.lists_size_le
  · rw [hitems]
    exact List.rel_append (h.restates.imp fun _ _ ↦ hrevises.restates)
      (.cons (hrevises.restates hw) .nil)

end Reading

@[simp] theorem append_list (st : Store) (l : ListId) (w : Value) :
    st.append (.list l) w = .ok (st.setItems l (st.items l ++ [w])) := rfl

@[simp] theorem iterate_list (st : Store) (l : ListId) : st.iterate (.list l) = .ok (st.items l) := rfl

@[simp] theorem joined_texts (st : Store) (texts : List String) :
    st.joined (texts.map .text) = .ok ("; ".intercalate texts) := by
  have hjoined : ∃ f : Value × Nat → Except Fault String, (∀ s i, f (.text s, i) = .ok s) ∧
      ∀ vs, st.joined vs = (do return "; ".intercalate (← vs.zipIdx.mapM f)) :=
    ⟨_, fun _ _ ↦ rfl, fun _ ↦ rfl⟩
  obtain ⟨f, hf, hjoined⟩ := hjoined
  have htexts (k : Nat) : ((texts.map Value.text).zipIdx k).mapM f = .ok texts := by
    induction texts generalizing k with
    | nil => rfl
    | cons s texts ih =>
      rw [List.map_cons, List.zipIdx_cons, List.mapM_cons, hf, ih]
      rfl
  rw [hjoined, htexts]
  rfl

theorem message_of_restates (hclasses : st.HasOutcomes) (h : st.Restates w v) (depth : Nat) :
    st.messageWithin (depth + 1) w = .ok (.text v.message) := by
  obtain ⟨o, rfl, -, hattributes⟩ := h
  have hown : st.ownAttribute? (.violation o) "message" = some (.text v.message) :=
    congrArg (fun es : Entries Value Value ↦ es.get? (.text "message")) hattributes
  have hattribute : st.attributeOf (.violation o) "message" = .ok (.text v.message) := by
    simp [attributeOf, typeOf, hclasses.classAttribute?_violation, commonAttribute?, found, hown]
    rfl
  rw [messageWithin, hattribute]
  rfl

theorem messages_of_restates (hclasses : st.HasOutcomes) {ws : List Value}
    (h : List.Forall₂ st.Restates ws vs) (depth : Nat) :
    ws.mapM (st.messageWithin (depth + 1)) = .ok ((vs.map Violation.message).map .text) := by
  induction h with
  | nil => rfl
  | cons hw _ ih =>
    rw [List.mapM_cons, message_of_restates hclasses hw, ih]
    rfl

theorem Records.messageOf_eq (hclasses : st.HasOutcomes) (h : st.Records id valid list vs) :
    st.messageOf (.outcome id) = .ok (.text ("; ".intercalate (vs.map Violation.message))) := by
  obtain ⟨depth, hdepth⟩ := Nat.exists_eq_succ_of_ne_zero (Nat.ne_zero_of_lt h.lt_size)
  have hmessages := messages_of_restates hclasses h.restates depth
  have hrest : (do
      let violations ← st.iterate (← st.attributeOf (.outcome id) "violations")
      return Value.text (← st.joined (← violations.mapM (st.messageWithin (depth + 1))))) =
        Except.ok (Value.text ("; ".intercalate (vs.map Violation.message))) := by
    rw [attributeOf_violations hclasses h]
    simp only [bind, Except.bind, iterate_list, hmessages, joined_texts]
    rfl
  rw [messageOf, messageWithin, attributeOf_message hclasses, hdepth]
  exact hrest

end Store

end Conformance
