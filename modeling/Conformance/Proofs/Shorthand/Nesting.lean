import Conformance.Proofs.Mutation.Builder
import Mathlib.Data.List.Nodup
import Mathlib.Data.List.Perm.Subperm

namespace Conformance

def Blueprint.layers : Nat → Blueprint → Blueprint
  | 0, b => b
  | k + 1, b => .array (layers k b)

namespace Store

/-- A value is reached from a shorthand through a number of lists of one element. -/
inductive Reaches (st : Store) : Nat → Value → Value → Prop
  | here (v : Value) : Reaches st 0 v v
  | through {k : Nat} {spec element v : Value} {id : ListId} (hspec : st.IsArrayShorthand spec id)
      (hitems : st.items id = [element]) (h : Reaches st k element v) : Reaches st (k + 1) spec v

/-- Neither a shorthand nor what it is made of holds itself. -/
inductive Acyclic (st : Store) : Value → Prop
  | intro {spec : Value}
      (h : ∀ id, st.IsArrayShorthand spec id → ∀ element ∈ st.items id, Acyclic st element) :
      Acyclic st spec

def IsEnd (st : Store) (v : Value) : Prop :=
  ∀ id, st.IsArrayShorthand v id → (st.items id).length ≠ 1

variable {st : Store} {j k : Nat} {spec u v w : Value} {id : ListId}

theorem IsArrayShorthand.unique {id' : ListId} (h : st.IsArrayShorthand v id)
    (h' : st.IsArrayShorthand v id') : id = id' :=
  Value.list.inj (h.2.symm.trans h'.2)

theorem Reaches.trans (h : st.Reaches j u v) (h' : st.Reaches k v w) : st.Reaches (k + j) u w := by
  induction h with
  | here v => exact h'
  | through hspec hitems _ ih => exact .through hspec hitems (ih h')

theorem Reaches.snoc (h : st.Reaches k u v) (hv : st.IsArrayShorthand v id)
    (hitems : st.items id = [w]) : st.Reaches (k + 1) u w := by
  rw [Nat.add_comm]
  exact h.trans (.through hv hitems (.here w))

theorem lt_size_of_mem_items (h : v ∈ st.items id) : id.index < st.lists.size := by
  by_contra hsize
  have hnone : st.lists.cells[id.index]? = none :=
    Array.getElem?_eq_none (Nat.le_of_not_lt hsize)
  have hitems : st.items id = [] := by
    simp [items, Table.get, hnone]
    rfl
  rw [hitems] at h
  cases h

theorem acyclic_of_not_list (h : ∀ id, v.plain ≠ .list id) : st.Acyclic v :=
  .intro fun id hid ↦ (h id hid.2).elim

theorem Acyclic.of_items (h : st.Acyclic v) (hspec : st.IsArrayShorthand spec id)
    (hitems : st.items id = [v]) : st.Acyclic spec := by
  refine .intro fun id' hspec' element helement ↦ ?_
  cases hspec.unique hspec'
  rw [hitems] at helement
  rwa [List.mem_singleton.1 helement]

theorem Acyclic.element (h : st.Acyclic spec) (hspec : st.IsArrayShorthand spec id)
    (hv : v ∈ st.items id) : st.Acyclic v := by
  cases h with
  | intro h => exact h id hspec v hv

theorem Acyclic.not_reaches_self (h : st.Acyclic v) (k : Nat) : ¬ st.Reaches (k + 1) v v := by
  induction h with
  | @intro v _ ih =>
    intro hself
    cases hself with
    | @through _ _ element _ id hv hitems hrest =>
      -- the element holds the value, and so it holds itself
      exact ih id hv element (hitems ▸ List.mem_singleton_self element) (hrest.snoc hv hitems)

/-- The lists on the way to a value are all different ones. -/
theorem Acyclic.exists_way (h : st.Acyclic u) (hv : st.Reaches k u v) :
    ∃ way : List ListId, way.length = k ∧ way.Nodup ∧ ∀ id ∈ way, id.index < st.lists.size ∧
      ∃ j w element, st.Reaches j u w ∧ st.IsArrayShorthand w id ∧ st.items id = [element] := by
  induction hv with
  | here v => exact ⟨[], rfl, List.nodup_nil, List.forall_mem_nil _⟩
  | @through k spec element v id hspec hitems hrest ih =>
    have helement := h.element hspec (hitems ▸ List.mem_singleton_self element)
    obtain ⟨way, hlength, hnodup, hway⟩ := ih helement
    refine ⟨id :: way, by rw [List.length_cons, hlength], ?_, List.forall_mem_cons.2 ⟨⟨?_, ?_⟩, ?_⟩⟩
    · refine List.nodup_cons.2 ⟨fun hid ↦ ?_, hnodup⟩
      obtain ⟨-, j, w, element', hw, hlist, hitems'⟩ := hway id hid
      cases hitems.symm.trans hitems'
      exact helement.not_reaches_self j (hw.snoc hlist hitems')
    · exact lt_size_of_mem_items (hitems ▸ List.mem_singleton_self element)
    · exact ⟨0, spec, element, .here spec, hspec, hitems⟩
    · intro id' hid'
      obtain ⟨hlt, j, w, element', hw, hlist, hitems'⟩ := hway id' hid'
      exact ⟨hlt, j + 1, w, element', .through hspec hitems hw, hlist, hitems'⟩

theorem Acyclic.depth_le (h : st.Acyclic u) (hv : st.Reaches k u v) : k ≤ st.lists.size := by
  obtain ⟨way, rfl, hnodup, hway⟩ := h.exists_way hv
  have hindexes : (way.map ListId.index).Nodup :=
    hnodup.map fun i j hij ↦ by cases i; cases j; cases hij; rfl
  have hrange : way.map ListId.index ⊆ List.range st.lists.size := by
    intro i hi
    obtain ⟨id, hid, rfl⟩ := List.mem_map.1 hi
    exact List.mem_range.2 (hway id hid).1
  simpa using (List.subperm_of_subset hindexes hrange).length_le

theorem Acyclic.exists_end (h : st.Acyclic spec) : ∃ k v, st.Reaches k spec v ∧ st.IsEnd v := by
  induction h with
  | @intro spec _ ih =>
    by_cases hend : st.IsEnd spec
    · exact ⟨0, spec, .here spec, hend⟩
    · obtain ⟨id, hend⟩ := Classical.not_forall.1 hend
      obtain ⟨hspec, hone⟩ := Classical.not_imp.1 hend
      obtain ⟨element, hitems⟩ := List.length_eq_one_iff.1 (Classical.not_not.1 hone)
      obtain ⟨k, v, hv, hv'⟩ := ih id hspec element (hitems ▸ List.mem_singleton_self element)
      exact ⟨k + 1, v, .through hspec hitems hv, hv'⟩

theorem Reaches.unique (h : st.Reaches j spec u) (hu : st.IsEnd u) (h' : st.Reaches k spec v)
    (hv : st.IsEnd v) : j = k ∧ u = v := by
  induction h generalizing k with
  | here u =>
    cases h' with
    | here => exact ⟨rfl, rfl⟩
    | through hspec hitems _ => exact (hu _ hspec (by rw [hitems]; rfl)).elim
  | through hspec hitems _ ih =>
    cases h' with
    | here => exact (hv _ hspec (by rw [hitems]; rfl)).elim
    | through hspec' hitems' h' =>
      cases hspec.unique hspec'
      cases hitems.symm.trans hitems'
      obtain ⟨rfl, rfl⟩ := ih hu h'
      exact ⟨rfl, rfl⟩

def coreBlueprint? (st : Store) (core : Value) : Option Blueprint :=
  if st.isConstraint core then some (.given core)
  else match core.plain with
    | .ofClass c => some (.type (.ofClass c))
    | _ => none

/-- Why nothing can be built of a value that is neither a constraint nor a class nor a list of one
element: it is a list of another size, or else it is shown. -/
def rejection (st : Store) (v : Value) : Fault :=
  match v.plain with
  | .list id => .shorthandSize (st.items id).length
  | _ => match st.written v with
    | .ok text => .notAShorthand text
    | .error e => e

theorem isEnd_of_core {b : Blueprint} (h : st.coreBlueprint? v = some b) : st.IsEnd v := by
  intro id hlist
  unfold coreBlueprint? at h
  rw [hlist.1, hlist.2] at h
  cases h

theorem shorthandWithin_of_core {b : Blueprint} (h : st.coreBlueprint? v = some b) (depth : Nat) :
    st.shorthandWithin (depth + 1) v = .ok b := by
  unfold coreBlueprint? at h
  rw [shorthandWithin]
  split at h
  · next hconstraint =>
    cases h
    rw [if_pos hconstraint]
    rfl
  · next hconstraint =>
    rw [if_neg hconstraint]
    split at h
    · next c hc =>
      cases h
      rw [hc]
      rfl
    · cases h

theorem shorthandWithin_of_rejected (h : st.coreBlueprint? v = none) (hend : st.IsEnd v)
    (depth : Nat) : st.shorthandWithin (depth + 1) v = .error (st.rejection v) := by
  have hconstraint : st.isConstraint v = false := by
    by_contra hconstraint
    rw [coreBlueprint?, if_pos (Bool.not_eq_false _ ▸ hconstraint)] at h
    cases h
  have hclass (c : ClassId) : v.plain ≠ .ofClass c := by
    intro hc
    rw [coreBlueprint?, hconstraint, hc] at h
    cases h
  rw [shorthandWithin, hconstraint, if_neg Bool.false_ne_true]
  by_cases hlist : ∃ id, v.plain = .list id
  · obtain ⟨id, hid⟩ := hlist
    have hsize := hend id ⟨hconstraint, hid⟩
    simp only [rejection, hid]
    split
    · next hitems => exact (hsize (by rw [hitems]; rfl)).elim
    · rfl
  · unfold rejection
    cases hplain : v.plain with
    | ofClass c => exact (hclass c hplain).elim
    | list id => exact (hlist ⟨id, hplain⟩).elim
    | _ => cases st.written v <;> rfl

theorem shorthandWithin_of_items (hspec : st.IsArrayShorthand spec id) (hitems : st.items id = [v])
    (depth : Nat) :
    st.shorthandWithin (depth + 1) spec = (st.shorthandWithin depth v).map .array := by
  rw [shorthandWithin, if_neg (by rw [hspec.1]; simp)]
  simp only [hspec.2, hitems]
  cases st.shorthandWithin depth v <;> rfl

theorem shorthandWithin_of_reaches (h : st.Reaches k spec v) (depth : Nat) :
    st.shorthandWithin (k + depth) spec = (st.shorthandWithin depth v).map (Blueprint.layers k) := by
  induction h with
  | here v =>
    rw [Nat.zero_add]
    cases st.shorthandWithin depth v <;> rfl
  | @through k spec element v id hspec hitems _ ih =>
    rw [Nat.add_right_comm, shorthandWithin_of_items hspec hitems, ih]
    cases st.shorthandWithin depth v <;> rfl

/-- The depth to which shorthands are read leaves something for what they lead to. -/
theorem Acyclic.shorthand_eq (h : st.Acyclic spec) (hv : st.Reaches k spec v) :
    ∃ depth, st.shorthand spec = (st.shorthandWithin (depth + 1) v).map (Blueprint.layers k) := by
  obtain ⟨depth, hdepth⟩ := Nat.exists_eq_add_of_le (h.depth_le hv)
  refine ⟨depth, ?_⟩
  rw [shorthand, hdepth, Nat.add_assoc, shorthandWithin_of_reaches hv]

theorem Acyclic.shorthand_of_core (h : st.Acyclic spec) (hv : st.Reaches k spec v) {b : Blueprint}
    (hb : st.coreBlueprint? v = some b) : st.shorthand spec = .ok (b.layers k) := by
  obtain ⟨depth, hdepth⟩ := h.shorthand_eq hv
  rw [hdepth, shorthandWithin_of_core hb]
  rfl

theorem Acyclic.shorthand_of_rejected (h : st.Acyclic spec) (hv : st.Reaches k spec v)
    (hend : st.IsEnd v) (hnone : st.coreBlueprint? v = none) :
    st.shorthand spec = .error (st.rejection v) := by
  obtain ⟨depth, hdepth⟩ := h.shorthand_eq hv
  rw [hdepth, shorthandWithin_of_rejected hnone hend]
  rfl

/-- A shorthand can be read if and only if it leads to a constraint or a class. -/
theorem Acyclic.shorthand_ok_iff (h : st.Acyclic spec) {b : Blueprint} :
    st.shorthand spec = .ok b ↔
      ∃ k core b', st.Reaches k spec core ∧ st.coreBlueprint? core = some b' ∧ b = b'.layers k := by
  obtain ⟨k, v, hv, hend⟩ := h.exists_end
  constructor
  · intro hb
    cases hcore : st.coreBlueprint? v with
    | none =>
      rw [h.shorthand_of_rejected hv hend hcore] at hb
      cases hb
    | some b' =>
      rw [h.shorthand_of_core hv hcore] at hb
      cases hb
      exact ⟨k, v, b', hv, hcore, rfl⟩
  · rintro ⟨k, core, b', hcore, hb', rfl⟩
    exact h.shorthand_of_core hcore hb'

theorem Acyclic.shorthand_of_items (h : st.Acyclic v) (hspec : st.IsArrayShorthand spec id)
    (hitems : st.items id = [v]) : st.shorthand spec = st.arrayBlueprint v := by
  have hacyclic := h.of_items hspec hitems
  obtain ⟨k, w, hw, hend⟩ := h.exists_end
  have hspec' := Reaches.through hspec hitems hw
  rw [arrayBlueprint]
  cases hcore : st.coreBlueprint? w with
  | none =>
    rw [h.shorthand_of_rejected hw hend hcore, hacyclic.shorthand_of_rejected hspec' hend hcore]
    rfl
  | some b =>
    rw [h.shorthand_of_core hw hcore, hacyclic.shorthand_of_core hspec' hcore]
    rfl

end Store

end Conformance
