import Conformance.Class.Definition
import Conformance.Proofs.Entries

namespace Conformance

theorem Builtin.nodup_keys_body (b : Builtin) : b.body.keys.Nodup := by
  cases b <;> decide +kernel

theorem Builtin.forall_mem_body {P : Value → Prop} (hproperty : ∀ p, P (.property p))
    (hoperation : ∀ name, P (.operation name)) (htext : ∀ text, P (.text text))
    (hbool : ∀ p, P (.bool p)) (b : Builtin) : ∀ e ∈ b.body, P e.2 := by
  have hproperties : ∀ e ∈ b.properties, P e.2 := by
    cases b <;> simp [Builtin.properties, Builtin.partNames, hproperty, htext, hbool]
  intro e he
  rcases List.mem_append.1 he with he | he
  · exact hproperties e he
  · obtain ⟨name, -, rfl⟩ := List.mem_map.1 he
    exact hoperation name

namespace Store

variable (st : Store)

/-- The field that the nearest class declares under a name. -/
def declaredField? (c : ClassId) (n : String) : Option Value :=
  (st.linearization c).findSome? fun d ↦ ((st.body d).get? n).filter st.isField

/-- The names of the fields in the bodies of a linearization, from its far end, each one once. -/
def declaredNames (c : ClassId) : List String :=
  ((st.linearization c).reverse.flatMap fun d ↦ (st.fieldsOf (st.body d)).keys).eraseDups

@[simp] theorem keys_collected (c : ClassId) : (st.collected c).keys = st.declaredNames c := by
  rw [collected, Entries.keys_ofList, declaredNames, Entries.keys, List.map_flatMap]
  rfl

theorem nodup_keys_fieldsOf {body : Entries String Value} (h : body.keys.Nodup) :
    (st.fieldsOf body).keys.Nodup :=
  (List.filter_sublist.map _).nodup h

theorem get?_fieldsOf {body : Entries String Value} (h : body.keys.Nodup) (n : String) :
    Entries.get? (st.fieldsOf body).reverse n = (body.get? n).filter st.isField := by
  rw [Entries.get?_reverse_of_nodup (st.nodup_keys_fieldsOf h), fieldsOf,
    Entries.get?_filter_of_nodup h]

variable {st} {c : ClassId}

/-- The last class that is gone through, which is the nearest one, decides on the field. -/
theorem get?_collected (h : ∀ d ∈ st.linearization c, (st.body d).keys.Nodup) (n : String) :
    (st.collected c).get? n = st.declaredField? c n := by
  rw [collected, Entries.get?_ofList, List.reverse_flatMap, List.reverse_reverse,
    Entries.get?_flatMap, declaredField?]
  generalize st.linearization c = l at h
  induction l with
  | nil => rfl
  | cons d l ih =>
    rw [List.findSome?_cons, List.findSome?_cons, Function.comp_apply, st.get?_fieldsOf (h d (by simp)),
      ih fun e he ↦ h e (by simp [he])]

theorem declaredNames_prefix {b : ClassId} (h : st.linearization c = c :: st.linearization b) :
    st.declaredNames b <+: st.declaredNames c := by
  rw [declaredNames, declaredNames, h, List.reverse_cons, List.flatMap_append, List.eraseDups_append]
  exact List.prefix_append _ _

end Store

end Conformance
