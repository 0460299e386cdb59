import Conformance.Proofs.Registration.Binding

open Conformance.Action

namespace Conformance

namespace Store

/-- An object that holds values under names which its class shows fields under. It is none of
these fields itself. -/
structure Holds (st : Store) (c : ClassId) (id : ObjectId) (values : Entries String Value) : Prop where
  lt_size : id.index < st.objects.size
  validated : st.nature c = .validated
  unnamed : st.classAttribute? (.builtin .field) "name" = none
  named : st.NamesFields c
  apart (n : String) (hn : n ≠ registryName) :
    st.classAttribute? c n ≠ some (.object (.builtin .field) id)
  shows (n : String) (v : Value) (hv : values.get? n = some v) : n ≠ registryName ∧
    st.Shows c n ∧ st.ownAttribute? (.object c id) n = some v

variable {st st' : Store} {c d : ClassId} {n m : String} {id : ObjectId}
  {values : Entries String Value}

theorem Rebinds.classAttribute?_builtin (h : Rebinds c n st st')
    (hc : .root ∈ st.linearization c) (b : Builtin) (hm : m ≠ registryName) :
    st'.classAttribute? (.builtin b) m = st.classAttribute? (.builtin b) m := by
  obtain ⟨l, -, rfl⟩ := exists_of_root_mem hc
  unfold classAttribute?
  rw [h.linearization_eq]
  have hsame : ∀ e ∈ st.linearization (.builtin b), (st'.body e).get? m = (st.body e).get? m ∨
      ∃ f, (st'.body e).get? m = some f ∧ False := by
    intro e he
    obtain ⟨b', -, rfl⟩ := List.mem_map.1 he
    rcases h.get?_body (.builtin b') m hm with hsame | ⟨hd, -, -⟩
    · exact .inl hsame
    · cases hd
  rcases findSome?_or hsame with hfound | ⟨f, -, hf⟩
  · exact hfound
  · exact hf.elim

namespace Holds

theorem rebind (h : st.Holds c id values) (hd : .root ∈ st.linearization d)
    (hrebinds : Rebinds d n st st') : st'.Holds c id values := by
  refine ⟨?_, ?_, ?_, ?_, ?_, ?_⟩
  · exact Nat.lt_of_lt_of_le h.lt_size hrebinds.objects_le
  · rw [nature_of_linearization hrebinds.linearization_eq]
    exact h.validated
  · rw [hrebinds.classAttribute?_builtin hd .field (by decide)]
    exact h.unnamed
  · intro k f hk hf hfield
    rcases hrebinds.classAttribute?_or c hk with hsame | ⟨f', hf', hnew⟩
    · rw [hsame] at hf
      rw [isField_of_linearization hrebinds.linearization_eq] at hfield
      exact goesBy_of_object (h.named k f hk hf hfield) hrebinds.object_eq
    · obtain ⟨i, rfl, -, hname⟩ := hnew
      rw [hf] at hf'
      cases hf'
      exact hname
  · intro k hk hf
    rcases hrebinds.classAttribute?_or c hk with hsame | ⟨f', hf', hnew⟩
    · rw [hsame] at hf
      exact h.apart k hk hf
    · obtain ⟨i, rfl, hi, -⟩ := hnew
      rw [hf] at hf'
      cases hf'
      exact Nat.lt_irrefl _ (Nat.lt_of_lt_of_le h.lt_size hi)
  · intro k v hv
    obtain ⟨hk, hshows, hown⟩ := h.shows k v hv
    refine ⟨hk, hrebinds.shows hk hshows, ?_⟩
    rw [← hown, ownAttribute?, ownAttribute?, attributesCell?_of_validated h.validated,
      Option.bind_some, Option.bind_some, hrebinds.object_eq id h.lt_size]

theorem setAttributes (h : st.Holds c id values) {es : Entries Value Value}
    (hes : ∀ k, st.Shows c k → es.named? k = (st.object id).attributes.named? k) :
    (st.setAttributes id es).Holds c id values := by
  have hcell := attributesCell?_of_validated h.validated id
  have hother (i : ObjectId) (hi : i ≠ id) : (st.setAttributes id es).object i = st.object i := by
    refine Table.get_set_of_ne ?_ st.objects _
    intro hindex
    exact hi (by cases i; cases id; cases hindex; rfl)
  have hgoesBy {k : String} {f : Value} (hk : k ≠ registryName)
      (hf : st.classAttribute? c k = some f) (hname : st.GoesBy f k) :
      (st.setAttributes id es).GoesBy f k := by
    obtain ⟨i, rfl, hname⟩ := hname
    refine ⟨i, rfl, ?_⟩
    rw [hother i]
    · exact hname
    · rintro rfl
      exact h.apart k hk hf
  refine ⟨?_, h.validated, h.unnamed, ?_, h.apart, ?_⟩
  · exact Nat.lt_of_lt_of_eq h.lt_size (Table.size_set _ _ _).symm
  · intro k f hk hf hfield
    exact hgoesBy hk hf (h.named k f hk hf hfield)
  · intro k v hv
    obtain ⟨hk, hshows, hown⟩ := h.shows k v hv
    refine ⟨hk, ?_, ?_⟩
    · obtain ⟨f, hf, hname⟩ := hshows
      exact ⟨f, hf, hgoesBy hk hf hname⟩
    · rw [ownAttribute?_eq, attributesOf, hcell] at hown
      rw [ownAttribute?_eq, attributesOf_setAttributes hcell h.lt_size, hes k hshows]
      exact hown

end Holds

end Store

namespace Action

open Store

variable {c : ClassId} {id : ObjectId} {values : Entries String Value} {s : State}

namespace Rebinding

variable {n : String}

theorem getAttribute (v name : Value) : Rebinding c n (Action.getAttribute v name) :=
  bind (ask _) fun _ ↦ check _

theorem requireObject (v : Value) (operation : String) :
    Rebinding c n (Action.requireObject v operation) := by
  apply bind (ask _)
  intro _
  split
  · exact throw _
  · exact pure ()

theorem revalidate (v : Value) : Rebinding c n (Action.revalidate v) := by
  apply bind (requireObject v _)
  intro _
  apply bind (check _)
  intro violations
  apply bind (Within.mapM fun violation _ ↦ newObject _ _)
  intro vs
  have hlist : Rebinding c n (listOf vs) := by
    refine bind (fun s ↦ ?_) fun id ↦ pure _
    exact .of_grows (grows_newList s.store vs) c n
  exact hlist.bind fun list ↦ newObject _ _

theorem report (v : Value) : Rebinding c n (Action.report v) := by
  apply bind (requireObject v _)
  intro _
  apply bind (ask _)
  intro es
  refine bind (fun s ↦ ?_) fun id ↦ pure _
  exact .of_grows (grows_newDictionary s.store es) c n

end Rebinding

end Action

end Conformance
