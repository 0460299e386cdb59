import Conformance.Proofs.Name
import Conformance.Validation

namespace Conformance

namespace Store

/-- A registry that lists fields under their names. -/
def Lists (st : Store) (registry : Value) (fields : Entries String Value) : Prop :=
  ∃ id i, registry = .object (.builtin .fieldRegistry) id ∧
    (st.object id).attributes.named? "_fields" = some (.mappingView (.cell i)) ∧
    i < st.dictionaries.size ∧ st.dictionaries.get i = fields.asTexts

variable {st : Store} {registry : Value} {fields : Entries String Value}

theorem object_of_size_le {id : ObjectId} (h : st.objects.size ≤ id.index) :
    st.object id = default := by
  simp only [Table.size] at h
  simp [object, Table.get, h]

theorem lt_size_of_named? {id : ObjectId} {n : String} {v : Value}
    (h : (st.object id).attributes.named? n = some v) : id.index < st.objects.size := by
  by_cases hlt : id.index < st.objects.size
  · exact hlt
  · rw [object_of_size_le (Nat.le_of_not_lt hlt)] at h
    cases h

theorem content_of_lists (h : st.Lists registry fields) :
    ∃ d, st.content registry = .ok (.mappingView d) ∧ st.entries d = fields.asTexts := by
  obtain ⟨id, i, rfl, hfields, -, hentries⟩ := h
  refine ⟨.cell i, ?_, hentries⟩
  have hsize := lt_size_of_named? hfields
  have hattribute : st.plainAttribute? (.object (.builtin .fieldRegistry) id) "_fields" =
      some (.mappingView (.cell i)) := by
    have hown : st.ownAttribute? (.object (.builtin .fieldRegistry) id) "_fields" =
        some (.mappingView (.cell i)) := by
      rw [← hfields]
      exact Entries.get?_text _ Value.comparesNames "_fields"
    rw [plainAttribute?, hown]
    rfl
  have hnature : st.natureOf (.object (.builtin .fieldRegistry) id) = .registry := rfl
  obtain ⟨depth, hdepth⟩ : ∃ depth, st.objects.size = depth + 1 :=
    ⟨st.objects.size - 1, by omega⟩
  rw [content, hdepth, contentWithin, if_pos hnature, hattribute]
  rfl

theorem mapping?_of_lists (h : st.Lists registry fields) :
    st.mapping? registry = some fields.asTexts := by
  obtain ⟨d, hcontent, hentries⟩ := content_of_lists h
  rw [mapping?, hcontent]
  exact congrArg some hentries

theorem iterate_of_lists (h : st.Lists registry fields) :
    st.iterate registry = .ok (fields.keys.map .text) := by
  obtain ⟨d, hcontent, hentries⟩ := content_of_lists h
  rw [iterate, hcontent, ← Entries.keys_asTexts, ← hentries]
  rfl

theorem item?_of_lists (h : st.Lists registry fields) {k : Value} (hk : st.hash k = .ok ()) :
    st.item? registry k = .ok (st.valueAt? fields.asTexts k) := by
  obtain ⟨d, hcontent, hentries⟩ := content_of_lists h
  rw [item?, hcontent, ← hentries]
  change (do st.hash k; return st.valueAt? (st.entries d) k) = _
  rw [hk]
  rfl

theorem item?_text (h : st.Lists registry fields) (n : String) :
    st.item? registry (.text n) = .ok (fields.get? n) := by
  rw [item?_of_lists h rfl, valueAt?_text, Entries.named?_asTexts]

theorem contains_of_lists (h : st.Lists registry fields) {k : Value} (hk : st.hash k = .ok ()) :
    st.contains registry k = .ok (k.isAmong fields.keys) := by
  have hitem := item?_of_lists h hk
  obtain ⟨id, -, rfl, -⟩ := h
  have hnature : st.natureOf (.object (.builtin .fieldRegistry) id) = .registry := rfl
  rw [contains, if_pos hnature, hitem,
    ← Entries.isSome_get?_asTexts st.comparesNames_sameKey fields k]
  rfl

theorem registered_of_lists (h : st.Lists registry fields)
    (hitems : st.offers registry "items" none = .ok ()) :
    st.registered registry = .ok fields.asTexts := by
  rw [registered, hitems]
  change st.entriesOf registry = _
  rw [entriesOf, mapping?_of_lists h]
  rfl

end Store

end Conformance
