import Conformance.Store.Content

namespace Conformance

def Value.isOfOwnKind : Value → Bool
  | .derived .. | .object .. => false
  | _ => true

namespace Store

variable {st : Store} {v : Value}

theorem natureOf_of_isOfOwnKind (h : v.isOfOwnKind) : st.natureOf v = .plain := by
  cases v with
  | ofClass c =>
    rw [natureOf, typeOf]
    split <;> rfl
  | _ => first | rfl | cases h

theorem isEnum_of_isOfOwnKind (h : v.isOfOwnKind) : st.isEnum (st.typeOf v) = false := by
  cases v with
  | ofClass c =>
    have htype : st.typeOf (.ofClass c) =
        .builtin (if st.isEnum c then .enumMetaclass else .metaclass) := rfl
    rw [htype]
    split <;> rfl
  | _ => first | rfl | cases h

theorem content_eq_self (h : st.natureOf v ≠ .registry) : st.content v = .ok v := by
  rw [content, contentWithin, if_neg h]
  rfl

theorem mapping?_eq_none (h : st.natureOf v ≠ .registry) (hdictionary : ∀ id, v.plain ≠ .dictionary id)
    (hview : ∀ id, v.plain ≠ .mappingView id) : st.mapping? v = none := by
  rw [mapping?, content_eq_self h]
  split
  · next id hv => exact (hdictionary id (Except.ok.inj hv)).elim
  · next id hv => exact (hview id (Except.ok.inj hv)).elim
  · rfl

theorem mapping?_object {c : ClassId} (hc : st.nature c ≠ .registry) (id : ObjectId) :
    st.mapping? (.object c id) = none :=
  mapping?_eq_none hc (by simp [Value.plain]) (by simp [Value.plain])

end Store

end Conformance
