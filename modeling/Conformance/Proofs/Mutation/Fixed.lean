import Conformance.Proofs.Content
import Conformance.Proofs.Mutation.Refill

namespace Conformance

def Value.IsAtom : Value → Prop
  | .nil | .bool _ | .int _ | .float .. | .complex .. | .text _ | .bytes _ | .range .. | .ofClass _
  | .operation _ | .property _ => True
  | _ => False

def Nature.MayBeKey : Nature → Prop
  | .validated | .registry => False
  | .record b => b.isFrozen = true
  | _ => True

namespace Store

/-- What is read of an object to compare it, to use it as a key, to judge by it or to write it. -/
inductive Reads (st : Store) (v : Value) : Value → Prop
  | part {b : Builtin} {part : String} {w : Value} (hv : st.natureOf v = .record b)
      (hpart : part ∈ b.parts) (h : st.attributeOf v part = .ok w) : Reads st v w
  | keyPart {b : Builtin} {part : String} {w : Value} (hv : st.natureOf v = .record b)
      (hpart : part ∈ b.parts) (h : st.plainAttribute? v part = some w) : Reads st v w
  | item {b : Builtin} {part : String} {w x : Value} {ws : List Value}
      (hv : st.natureOf v = .record b) (hb : b = .literalConstraint ∨ b = .unionConstraint)
      (hpart : part ∈ b.parts) (hw : st.attributeOf v part = .ok w) (hws : st.iterate w = .ok ws)
      (h : x ∈ ws) : Reads st v x
  | targetName {target w : Value} (hv : st.natureOf v = .record .typeConstraint)
      (htarget : st.attributeOf v "target" = .ok target)
      (h : st.attributeOf target "__name__" = .ok w) : Reads st v w
  | fieldPart {part : String} {w : Value} (hv : st.natureOf v = .field)
      (hpart : part ∈ ["name", "constraint", "allow_nil"]) (h : st.attributeOf v part = .ok w) :
      Reads st v w
  | memberPart {p : Property} {w : Value} (hv : st.isEnum (st.typeOf v) = true)
      (h : st.attributeOfProperty v p = .ok w) (hp : p = .memberName ∨ p = .memberValue) :
      Reads st v w
  | memberName {w : Value} (hv : st.isEnum (st.typeOf v) = true) (h : st.attributeOf v "name" = .ok w) :
      Reads st v w

/-- A value that cannot be changed by a change of what lists and dictionaries hold. -/
inductive Fixed (st : Store) : Value → Prop
  | atom {v : Value} (h : v.IsAtom) : Fixed st v
  | tuple {vs : List Value} (h : ∀ v ∈ vs, Fixed st v) : Fixed st (.tuple vs)
  | frozenSet {vs : List Value} (h : ∀ v ∈ vs, Fixed st v) : Fixed st (.frozenSet vs)
  | derived {c : ClassId} {v : Value} {id : ObjectId} (hv : Fixed st v)
      (hregistry : st.nature c ≠ .registry) (hvalidated : st.nature c ≠ .validated)
      (hreads : ∀ w, st.Reads (.derived c v id) w → Fixed st w) : Fixed st (.derived c v id)
  | object {c : ClassId} {id : ObjectId} (hnature : (st.nature c).MayBeKey)
      (hreads : ∀ w, st.Reads (.object c id) w → Fixed st w) : Fixed st (.object c id)

variable {st st' : Store} {v w : Value}

theorem not_reads (h : v.isOfOwnKind) : ¬ st.Reads v w := by
  have hnature : st.natureOf v = .plain := natureOf_of_isOfOwnKind h
  have henum : st.isEnum (st.typeOf v) = false := isEnum_of_isOfOwnKind h
  intro hread
  cases hread with
  | part hv => cases hnature.symm.trans hv
  | keyPart hv => cases hnature.symm.trans hv
  | item hv => cases hnature.symm.trans hv
  | targetName hv => cases hnature.symm.trans hv
  | fieldPart hv => cases hnature.symm.trans hv
  | memberPart hv => cases henum.symm.trans hv
  | memberName hv => cases henum.symm.trans hv

theorem isOfOwnKind_of_isAtom (h : v.IsAtom) : v.isOfOwnKind := by
  cases v <;> first | rfl | cases h

namespace Fixed

theorem plain (h : st.Fixed v) : st.Fixed v.plain := by
  induction h with
  | @atom v h => cases v <;> first | exact .atom h | cases h
  | tuple h _ => exact .tuple h
  | frozenSet h _ => exact .frozenSet h
  | derived _ _ _ _ hv _ => exact hv
  | object hnature hreads _ => exact .object hnature hreads

theorem of_mem_tuple {vs : List Value} (h : st.Fixed (.tuple vs)) : ∀ v ∈ vs, st.Fixed v := by
  cases h with
  | atom h => cases h
  | tuple h => exact h

theorem of_mem_frozenSet {vs : List Value} (h : st.Fixed (.frozenSet vs)) : ∀ v ∈ vs, st.Fixed v := by
  cases h with
  | atom h => cases h
  | frozenSet h => exact h

theorem not_list {id : ListId} : ¬ st.Fixed (.list id) := by
  rintro ⟨h⟩
  exact h

theorem not_dictionary {id : DictionaryId} : ¬ st.Fixed (.dictionary id) := by
  rintro ⟨h⟩
  exact h

theorem not_mappingView {id : DictionaryId} : ¬ st.Fixed (.mappingView id) := by
  rintro ⟨h⟩
  exact h

theorem natureOf_ne_registry (h : st.Fixed v) : st.natureOf v ≠ .registry := by
  cases h with
  | atom h =>
    rw [natureOf_of_isOfOwnKind (isOfOwnKind_of_isAtom h)]
    exact nofun
  | tuple _ => exact nofun
  | frozenSet _ => exact nofun
  | derived _ hregistry _ _ => exact hregistry
  | @object c id hnature _ =>
    intro hregistry
    rw [show st.nature c = .registry from hregistry] at hnature
    exact hnature

theorem natureOf_ne_validated (h : st.Fixed v) : st.natureOf v ≠ .validated := by
  cases h with
  | atom h =>
    rw [natureOf_of_isOfOwnKind (isOfOwnKind_of_isAtom h)]
    exact nofun
  | tuple _ => exact nofun
  | frozenSet _ => exact nofun
  | derived _ _ hvalidated _ => exact hvalidated
  | @object c id hnature _ =>
    intro hvalidated
    rw [show st.nature c = .validated from hvalidated] at hnature
    exact hnature

/-- What is read of something fixed is fixed. -/
theorem of_reads (h : st.Fixed v) (hread : st.Reads v w) : st.Fixed w := by
  cases h with
  | atom h => exact (not_reads (isOfOwnKind_of_isAtom h) hread).elim
  | tuple _ => exact (not_reads rfl hread).elim
  | frozenSet _ => exact (not_reads rfl hread).elim
  | derived _ _ _ hreads => exact hreads w hread
  | object _ hreads => exact hreads w hread

theorem yield?_eq (hst : st.Refills st') (h : st.Fixed v) : st'.yield? v = st.yield? v := by
  have hplain := h.plain
  unfold yield?
  cases hv : v.plain with
  | list id =>
    rw [hv] at hplain
    exact (not_list hplain).elim
  | dictionary id =>
    rw [hv] at hplain
    exact (not_dictionary hplain).elim
  | mappingView id =>
    rw [hv] at hplain
    exact (not_mappingView hplain).elim
  | byteArray | set | ofClass =>
    rw [hst.eq]
    rfl
  | _ => rfl

theorem iterate_eq (hst : st.Refills st') (h : st.Fixed v) : st'.iterate v = st.iterate v := by
  have htypeName : st'.typeName v = st.typeName v := by
    rw [typeName, typeName, hst.className_eq, hst.typeOf_eq]
  have hyield := h.yield?_eq hst
  simp only [iterate, hst.content_eq, content_eq_self h.natureOf_ne_registry, Except.bind, bind, hyield, htypeName]

theorem mapping?_eq_none (h : st.Fixed v) : st.mapping? v = none := by
  have hplain := h.plain
  refine Store.mapping?_eq_none h.natureOf_ne_registry (fun id hv ↦ ?_) fun id hv ↦ ?_
  · rw [hv] at hplain
    exact not_dictionary hplain
  · rw [hv] at hplain
    exact not_mappingView hplain

end Fixed

theorem Refills.reads (h : st.Refills st') (hfixed : ∀ w, st.Reads v w → st.Fixed w)
    (hread : st'.Reads v w) : st.Reads v w := by
  cases hread with
  | part hv hpart hw =>
    rw [h.natureOf_eq] at hv
    rw [h.attributeOf_eq] at hw
    exact .part hv hpart hw
  | keyPart hv hpart hw =>
    rw [h.natureOf_eq] at hv
    rw [h.plainAttribute?_eq] at hw
    exact .keyPart hv hpart hw
  | item hv hb hpart hw hws hx =>
    rw [h.natureOf_eq] at hv
    rw [h.attributeOf_eq] at hw
    -- the part is fixed, so that going through it gives what it gave before
    rw [(hfixed _ (.part hv hpart hw)).iterate_eq h] at hws
    exact .item hv hb hpart hw hws hx
  | targetName hv htarget hw =>
    rw [h.natureOf_eq] at hv
    rw [h.attributeOf_eq] at htarget hw
    exact .targetName hv htarget hw
  | fieldPart hv hpart hw =>
    rw [h.natureOf_eq] at hv
    rw [h.attributeOf_eq] at hw
    exact .fieldPart hv hpart hw
  | memberPart hv hw hp =>
    rw [h.isEnum_eq, h.typeOf_eq] at hv
    rw [h.attributeOfProperty_eq] at hw
    exact .memberPart hv hw hp
  | memberName hv hw =>
    rw [h.isEnum_eq, h.typeOf_eq] at hv
    rw [h.attributeOf_eq] at hw
    exact .memberName hv hw

namespace Fixed

/-- What is fixed stays fixed. -/
theorem refill (hst : st.Refills st') (h : st.Fixed v) : st'.Fixed v := by
  induction h with
  | atom h => exact .atom h
  | tuple _ ih => exact .tuple ih
  | frozenSet _ ih => exact .frozenSet ih
  | derived _ hregistry hvalidated hfixed hv hreads =>
    refine .derived hv ?_ ?_ fun w hread ↦ hreads w (hst.reads hfixed hread)
    · rwa [hst.nature_eq]
    · rwa [hst.nature_eq]
  | object hnature hfixed hreads =>
    refine .object ?_ fun w hread ↦ hreads w (hst.reads hfixed hread)
    rwa [hst.nature_eq]

theorem firstUnhashable?_eq_none {deep : Value → Option String} {vs : List Value}
    (h : ∀ v ∈ vs, v.unhashable? st deep = none) : Value.firstUnhashable? st deep vs = none := by
  induction vs with
  | nil => rfl
  | cons v vs ih =>
    obtain ⟨hv, hvs⟩ := List.forall_mem_cons.1 h
    rw [Value.firstUnhashable?, hv, ih hvs]
    rfl

theorem unhashable?_eq_none {deep : Value → Option String}
    (hdeep : ∀ c id, st.Fixed (.object c id) → deep (.object c id) = none) (h : st.Fixed v) :
    v.unhashable? st deep = none := by
  induction h with
  | @atom v h => cases v <;> first | rfl | cases h
  | tuple _ ih => exact firstUnhashable?_eq_none ih
  | frozenSet _ ih => exact firstUnhashable?_eq_none ih
  | @derived c v id _ _ _ _ hv _ => cases v <;> first | exact hv | cases hv
  | object hnature hreads _ => exact hdeep _ _ (.object hnature hreads)

theorem unhashableObject?_eq_none (depth : Nat) {c : ClassId} {id : ObjectId}
    (h : st.Fixed (.object c id)) : st.unhashableObject? depth (.object c id) = none := by
  induction depth generalizing c id with
  | zero => rfl
  | succ depth ih =>
    cases h with
    | atom h => cases h
    | object hnature hreads =>
      have hkey : (st.natureOf (.object c id)).MayBeKey := hnature
      rw [unhashableObject?]
      split
      · next hv => rw [hv] at hkey; exact hkey.elim
      · next hv => rw [hv] at hkey; exact hkey.elim
      · next b hv =>
        rw [hv] at hkey
        have hfrozen : b.isFrozen = true := hkey
        rw [if_pos hfrozen]
        refine firstUnhashable?_eq_none fun w hw ↦ ?_
        obtain ⟨part, hpart, hw⟩ := List.mem_filterMap.1 hw
        exact unhashable?_eq_none (fun _ _ ↦ ih) (hreads w (.keyPart hv hpart hw))
      · rfl

theorem hash_eq_ok (h : st.Fixed v) : st.hash v = .ok () := by
  rw [hash, unhashable?_eq_none (fun _ _ ↦ unhashableObject?_eq_none _) h]
  rfl

end Fixed

end Store

end Conformance
