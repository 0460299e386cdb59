import Conformance.Proofs.Mutation.Fixed

namespace Conformance

namespace Store

variable {st st' : Store}

def WritesAlike (st : Store) (write write' : Value → Except Fault String) : Prop :=
  ∀ v, st.Fixed v → write' v = write v

theorem Refills.typeName_eq (hst : st.Refills st') : st'.typeName = st.typeName := by
  funext v
  rw [typeName, typeName, hst.className_eq, hst.typeOf_eq]

theorem Refills.memberText_eq (hst : st.Refills st') : st'.memberText = st.memberText := by
  funext v name
  rw [memberText, memberText, hst.typeName_eq]

section Write

variable {deep deep' : List Value → Value → Except Fault String}

mutual
theorem write_congr (hst : st.Refills st')
    (h : ∀ entered, st.WritesAlike (deep entered) (deep' entered)) (entered : List Value) (v : Value)
    (hv : st.Fixed v) : v.write st' deep' entered = v.write st deep entered := by
  cases v with
  | derived c v id =>
    have hbase : st.Fixed v := by
      cases hv with
      | atom h => cases h
      | derived hv _ _ _ => exact hv
    rw [Value.write, Value.write, hst.isEnum_eq, h entered _ hv, write_congr hst h entered v hbase]
  | tuple vs =>
    rw [Value.write, Value.write, writeAll_congr hst h _ vs hv.of_mem_tuple]
  | frozenSet vs =>
    rw [Value.write, Value.write, writeAll_congr hst h _ vs hv.of_mem_frozenSet]
  | ofClass c =>
    show pure (st'.classText c) = pure (st.classText c)
    rw [hst.eq]
    rfl
  | byteArray id =>
    show pure (Text.quoteByteArray (st'.byteArray id)) = pure (Text.quoteByteArray (st.byteArray id))
    rw [hst.eq]
    rfl
  | list | set | dictionary | mappingView | object | operation | property => exact h entered _ hv
  | _ => rfl
termination_by structural v
theorem writeAll_congr (hst : st.Refills st')
    (h : ∀ entered, st.WritesAlike (deep entered) (deep' entered)) (entered : List Value)
    (vs : List Value) (hvs : ∀ v ∈ vs, st.Fixed v) :
    Value.writeAll st' deep' entered vs = Value.writeAll st deep entered vs := by
  cases vs with
  | nil => rfl
  | cons v vs =>
    obtain ⟨hv, hvs⟩ := List.forall_mem_cons.1 hvs
    rw [Value.writeAll, Value.writeAll, write_congr hst h entered v hv,
      writeAll_congr hst h entered vs hvs]
termination_by structural vs
end

end Write

section Object

variable {write write' display display' : Value → Except Fault String}

theorem memberName_congr (hst : st.Refills st') (h : st.WritesAlike write write') {v : Value}
    (hv : st.Fixed v) (henum : st.isEnum (st.typeOf v) = true) :
    Value.display.memberName st' write' v = Value.display.memberName st write v := by
  rw [Value.display.memberName, Value.display.memberName, hst.attributeOfProperty_eq,
    hst.memberText_eq]
  refine bind_congr_of_ok fun name hname ↦ ?_
  have hwrite : write' name = write name :=
    h name (hv.of_reads (.memberPart henum hname (.inl rfl)))
  cases name with
  | text s => rfl
  | _ => exact congrArg (· >>= fun written ↦ pure (st.memberText v written)) hwrite

theorem display_derived (st : Store) (write : Value → Except Fault String) (c : ClassId) (v : Value)
    (id : ObjectId) : (Value.derived c v id).display st write =
      if st.inherits c (.builtin .reprEnum) then v.display st write
      else if st.isEnum c then Value.display.memberName st write (.derived c v id)
      else match v with
        | .text s => pure s
        | v => write v := rfl

theorem display_congr (hst : st.Refills st') (h : st.WritesAlike write write') (v : Value)
    (hv : st.Fixed v) : v.display st' write' = v.display st write := by
  cases v with
  | derived c v id =>
    have hbase : st.Fixed v := by
      cases hv with
      | atom h => cases h
      | derived hv _ _ _ => exact hv
    rw [display_derived, display_derived, hst.inherits_eq, hst.isEnum_eq,
      display_congr hst h v hbase]
    split
    · rfl
    · split
      · next henum => exact memberName_congr hst h hv henum
      · cases v with
        | text s => rfl
        | _ => exact h _ hbase
  | object c id =>
    rw [Value.display, Value.display, hst.isEnum_eq]
    split
    · next henum => exact memberName_congr hst h hv henum
    · exact h _ hv
  | text s => rfl
  | mappingView id => exact (Fixed.not_mappingView hv).elim
  | _ => exact h _ hv
termination_by structural v

theorem namedParts_congr (hst : st.Refills st') (h : st.WritesAlike write write') {v : Value}
    {names : List String}
    (hparts : ∀ name ∈ names, ∀ w, st.attributeOf v name = .ok w → st.Fixed w) :
    writeObject.namedParts st' write' v names = writeObject.namedParts st write v names := by
  refine mapM_congr fun name hname ↦ ?_
  rw [hst.attributeOf_eq]
  refine bind_congr_of_ok fun w hw ↦ ?_
  rw [h w (hparts name hname w hw)]

theorem isEnum_of_nature {c : ClassId} (h : st.nature c = .enumeration) : st.isEnum c = true := by
  unfold nature at h
  cases hfound : (st.linearization c).findSome? ClassId.nature? with
  | none =>
    rw [hfound] at h
    cases h
  | some n =>
    rw [hfound] at h
    obtain rfl : n = .enumeration := h
    obtain ⟨d, hd, hnature⟩ := List.exists_of_findSome?_eq_some hfound
    have henum : d = .builtin .enum := by
      cases d with
      | builtin b =>
        revert hnature
        cases b <;> decide
      | defined n => cases n <;> cases hnature
    rw [henum] at hd
    exact List.contains_iff_mem.2 hd

theorem writeObject_congr (hst : st.Refills st') (hwrite : st.WritesAlike write write')
    (hdisplay : st.WritesAlike display display') {v : Value} (hv : st.Fixed v) :
    st'.writeObject write' display' v = st.writeObject write display v := by
  have hlabel : writeObject.label st' v = writeObject.label st v := by
    rw [hst.eq]
    rfl
  have hfullName : st'.fullName = st.fullName := by
    rw [hst.eq]
    rfl
  unfold writeObject
  rw [hst.natureOf_eq, hst.typeName_eq, hst.typeOf_eq, hst.attributeOfProperty_eq,
    hst.memberText_eq, hlabel, hfullName]
  split
  · next hvalidated => exact (hv.natureOf_ne_validated hvalidated).elim
  · next b hrecord =>
    rw [namedParts_congr hst hwrite fun part hpart w hw ↦ hv.of_reads (.part hrecord hpart hw)]
  · next hfield =>
    rw [namedParts_congr hst hwrite fun part hpart w hw ↦ hv.of_reads (.fieldPart hfield hpart hw)]
  · next hregistry => exact (hv.natureOf_ne_registry hregistry).elim
  · next hmember =>
    have henum : st.isEnum (st.typeOf v) = true := isEnum_of_nature hmember
    refine bind_congr_of_ok fun name hname ↦ ?_
    rw [hdisplay name (hv.of_reads (.memberPart henum hname (.inl rfl)))]
    refine bind_congr_of_ok fun shown _ ↦ bind_congr_of_ok fun value hvalue ↦ ?_
    rw [hwrite value (hv.of_reads (.memberPart henum hvalue (.inr rfl)))]
  · rfl

end Object

/-- Cells are reached by writing, but what is fixed is no list, set or dictionary. -/
theorem writeCell_congr (hst : st.Refills st') (depth : Nat) (entered : List Value) :
    st.WritesAlike (st.writeCell depth entered) (st'.writeCell depth entered) := by
  induction depth generalizing entered with
  | zero => exact fun v _ ↦ rfl
  | succ depth ih =>
    intro v hv
    have hinner : st'.innerText? v = st.innerText? v := by
      rw [hst.eq]
      rfl
    have hwithin : st.WritesAlike (fun w ↦ w.write st (st.writeCell depth) (v :: entered))
        (fun w ↦ w.write st' (st'.writeCell depth) (v :: entered)) :=
      fun w hw ↦ write_congr hst ih _ w hw
    have hobject := writeObject_congr hst hwithin (fun w ↦ display_congr hst hwithin w) hv
    unfold writeCell
    rw [hinner, hst.typeName_eq]
    split
    · rfl
    · cases v with
      | list | set | dictionary | mappingView =>
        cases hv with
        | atom h => cases h
      | object c id => exact hobject
      | derived c v id => exact hobject
      | _ => rfl

variable (hst : st.Refills st')

include hst

theorem written_congr {v : Value} (hv : st.Fixed v) : st'.written v = st.written v := by
  have hdepth : st'.writingDepth = st.writingDepth := by
    rw [writingDepth, writingDepth, hst.cellCount_eq]
  rw [written, written, hdepth]
  exact write_congr hst (writeCell_congr hst _) [] v hv

theorem displayed_congr {v : Value} (hv : st.Fixed v) : st'.displayed v = st.displayed v :=
  display_congr hst (fun _ ↦ written_congr hst) v hv

theorem literalName_congr {v : Value} (hv : st.Fixed v) : st'.literalName v = st.literalName v := by
  rw [literalName, literalName, hst.natureOf_eq, hst.attributeOf_eq, hst.memberText_eq,
    written_congr hst hv]
  by_cases hnature : st.natureOf v = .enumeration
  · rw [if_pos hnature, if_pos hnature]
    refine bind_congr_of_ok fun name hname ↦ ?_
    rw [displayed_congr hst (hv.of_reads (.memberName (isEnum_of_nature hnature) hname))]
  · rw [if_neg hnature, if_neg hnature]

theorem literalNames_congr {vs : List Value} (hvs : ∀ v ∈ vs, st.Fixed v) :
    st'.literalNames vs = st.literalNames vs := by
  rw [literalNames, literalNames, mapM_congr fun v hv ↦ literalName_congr hst (hvs v hv)]

theorem targetName_congr {target : Value} (h : st.Fixed target)
    (hname : ∀ w, st.attributeOf target "__name__" = .ok w → st.Fixed w) :
    st'.targetName target = st.targetName target := by
  have hdisplayName : st'.displayName = st.displayName := by
    rw [hst.eq]
    rfl
  unfold targetName
  rw [hst.hash_eq, hst.attributeOf_eq, hdisplayName]
  refine bind_congr_of_ok fun _ _ ↦ ?_
  split
  · rfl
  · rw [written_congr hst h]
    refine bind_congr_of_ok fun written _ ↦ ?_
    split
    · next name hread => exact displayed_congr hst (hname name hread)
    · rfl

end Store

end Conformance
