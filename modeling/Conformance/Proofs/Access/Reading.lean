import Conformance.Access
import Conformance.Proofs.Creation.Assignment
import Conformance.Proofs.Creation.Ending

namespace Conformance

namespace Store

/-- A field goes by the name that it has been given last. -/
def GoesBy (st : Store) (f : Value) (n : String) : Prop :=
  ∃ id, f = .object (.builtin .field) id ∧
    (st.object id).attributes.named? "name" = some (.text n)

def Shows (st : Store) (c : ClassId) (n : String) : Prop :=
  ∃ f, st.classAttribute? c n = some f ∧ st.GoesBy f n

/-- Each field that a class has goes by the name under which it is found there. -/
def NamesFields (st : Store) (c : ClassId) : Prop :=
  ∀ n f, n ≠ registryName → st.classAttribute? c n = some f → st.isField f = true → st.GoesBy f n

variable {st : Store} {c : ClassId} {f v : Value} {n m : String} {id : ObjectId}

theorem isField_of_goesBy (h : st.GoesBy f n) : st.isField f = true := by
  obtain ⟨id, rfl, -⟩ := h
  rfl

theorem ownAttribute?_name (h : st.GoesBy f n) : st.ownAttribute? f "name" = some (.text n) := by
  obtain ⟨id, rfl, hname⟩ := h
  rw [← hname]
  exact Entries.get?_text _ Value.comparesNames "name"

theorem attributeOfField_of_goesBy (h : st.GoesBy f n) (v : Value) :
    st.attributeOfField v f = .ok ((st.ownAttribute? v n).getD .nil) := by
  have hname : st.plainAttribute? f "name" = some (.text n) := by
    rw [plainAttribute?, ownAttribute?_name h]
    rfl
  rw [attributeOfField, hname]
  rfl

/-- What a class has a field under shows what its objects hold under the name of the field. -/
theorem attributeOf_of_goesBy (hf : st.classAttribute? c n = some f) (h : st.GoesBy f m) :
    st.attributeOf (.object c id) n = .ok ((st.ownAttribute? (.object c id) m).getD .nil) := by
  have hfield := isField_of_goesBy h
  have hshown := attributeOfField_of_goesBy h (.object c id)
  have htype : st.classAttribute? (st.typeOf (.object c id)) n = some f := hf
  obtain ⟨i, rfl, -⟩ := h
  rw [attributeOf, htype]
  · simp only [hfield, if_true]
    exact hshown
  · intro d hd
    cases hd

theorem attributeOf_name (hfields : st.classAttribute? (.builtin .field) "name" = none)
    (h : st.GoesBy f n) : st.attributeOf f "name" = .ok (.text n) := by
  have hown := ownAttribute?_name h
  obtain ⟨i, rfl, -⟩ := h
  have htype : st.classAttribute? (st.typeOf (.object (.builtin .field) i)) "name" = none := hfields
  rw [attributeOf, htype]
  · simp only
    rw [hown]
    rfl
  · intro d hd
    cases hd

theorem placeFor_of_goesBy (hfields : st.classAttribute? (.builtin .field) "name" = none)
    (hf : st.classAttribute? c n = some f) (h : st.GoesBy f m) (computed : Property → Fault) :
    st.placeFor (.object c id) n computed =
      .error (.readOnlyField (st.typeName (.object c id)) m) := by
  have htype : st.classAttribute? (st.typeOf (.object c id)) n = some f := hf
  have hfield := isField_of_goesBy h
  have hcalled := attributeOf_name hfields h
  obtain ⟨i, rfl, -⟩ := h
  rw [placeFor, htype]
  simp only [Option.any_some, hfield, if_true, refusedByField, Option.getD_some, hcalled]
  rfl

theorem isFrozen_of_validated (hc : st.nature c = .validated) (n : String) :
    st.isFrozen (.object c id) n = false := by
  have hnature : st.natureOf (.object c id) = .validated := hc
  rw [isFrozen, hnature]

theorem attributesCell?_of_validated (hc : st.nature c = .validated) (id : ObjectId) :
    attributesCell? (.object c id) = some id := by
  cases c with
  | defined n => rfl
  | builtin b => cases b <;> first | rfl | cases hc

def valuesFor (fields : Entries String Value) (attributes : Entries Value Value) :
    Entries String Value :=
  Entries.ofList (fields.keys.map fun n ↦ (n, (attributes.named? n).getD .nil))

theorem get?_valuesFor {fields : Entries String Value} {attributes : Entries Value Value} {n : String}
    (hn : n ∈ fields.keys) :
    (valuesFor fields attributes).get? n = some ((attributes.named? n).getD .nil) := by
  rw [valuesFor, Entries.get?_ofList_map, if_pos hn]

theorem ownAttribute?_newObject (hc : st.nature c = .validated) (values : Entries String Value)
    (n : String) : (st.newObject ⟨"", values.asTexts⟩).2.ownAttribute?
      (.object c ⟨st.objects.size⟩) n = values.get? n := by
  have hcell := attributesCell?_of_validated hc ⟨st.objects.size⟩
  have hnew : (st.newObject ⟨"", values.asTexts⟩).2.object ⟨st.objects.size⟩ =
      ⟨"", values.asTexts⟩ := Table.get_add_size _ _
  have hattributes : (st.newObject ⟨"", values.asTexts⟩).2.attributesOf
      (.object c ⟨st.objects.size⟩) = values.asTexts := by
    rw [attributesOf, hcell]
    exact congrArg Object.attributes hnew
  rw [ownAttribute?_eq, hattributes, Entries.named?_asTexts]

theorem eq_of_soleArgument {argument? : Option Value} {argument : Value}
    (h : st.soleArgument c argument?.toList = .ok argument) : argument = argument?.getD .nil := by
  unfold soleArgument at h
  cases hmarker : st.isMarker c with
  | true =>
    rw [hmarker] at h
    cases h
  | false =>
    cases hinitializer : st.checkInitializer c with
    | error e =>
      rw [hmarker, hinitializer] at h
      cases h
    | ok _ =>
      rw [hmarker, hinitializer] at h
      cases argument? with
      | none => exact (Except.ok.inj h).symm
      | some argument' => exact (Except.ok.inj h).symm

end Store

namespace Action

variable {c : ClassId} {f : Value} {n m : String} {id : ObjectId} {s : State}

theorem getAttribute_of_goesBy (hf : s.store.classAttribute? c n = some f)
    (h : s.store.GoesBy f m) : getAttribute (.object c id) (.text n) s =
      .ok ((s.store.ownAttribute? (.object c id) m).getD .nil) s := by
  have hread : s.store.read (.object c id) n = Check.ofExcept (s.store.attributeOf (.object c id) n) := by
    obtain ⟨i, rfl, -⟩ := h
    have htype : s.store.classAttribute? (s.store.typeOf (.object c id)) n =
        some (.object (.builtin .field) i) := hf
    simp only [Store.read, htype]
  have hname : ask (·.attributeName (.text n)) s = .ok n s := rfl
  rw [getAttribute, bind_of_ok hname]
  refine check_of_ok ?_
  rw [hread]
  exact Check.ofExcept_run (Store.attributeOf_of_goesBy hf h) s.session

theorem setAttribute_eq_attempt (hc : s.store.nature c = .validated) (w : Value) :
    setAttribute (.object c id) (.text n) w s = attempt (·.writeAttribute (.object c id) n w) s := by
  have hname : ask (·.attributeName (.text n)) s = .ok n s := rfl
  have hfrozen : ask (fun st ↦ pure (st.isFrozen (.object c id) n)) s = .ok false s :=
    ask_of_ok (congrArg Except.ok (Store.isFrozen_of_validated hc n))
  rw [setAttribute, bind_of_ok hname, bind_of_ok hfrozen]
  rfl

theorem deleteAttribute_eq_attempt (hc : s.store.nature c = .validated) :
    deleteAttribute (.object c id) (.text n) s = attempt (·.deleteAttribute (.object c id) n) s := by
  have hname : ask (·.attributeName (.text n)) s = .ok n s := rfl
  have hfrozen : ask (fun st ↦ pure (st.isFrozen (.object c id) n)) s = .ok false s :=
    ask_of_ok (congrArg Except.ok (Store.isFrozen_of_validated hc n))
  rw [deleteAttribute, bind_of_ok hname, bind_of_ok hfrozen]
  rfl

section Guard

variable (hfields : s.store.classAttribute? (.builtin .field) "name" = none)
  (hc : s.store.nature c = .validated) (hf : s.store.classAttribute? c n = some f)
  (h : s.store.GoesBy f m)

include hfields hc hf h

theorem setAttribute_of_goesBy (w : Value) : setAttribute (.object c id) (.text n) w s =
    .error (.readOnlyField (s.store.typeName (.object c id)) m) s := by
  have hrefused : s.store.writeAttribute (.object c id) n w =
      .error (.readOnlyField (s.store.typeName (.object c id)) m) := by
    rw [Store.writeAttribute, Store.placeFor_of_goesBy hfields hf h]
    · rfl
    · intro d hd
      cases hd
  rw [setAttribute_eq_attempt hc]
  exact bind_of_error (ask_of_error hrefused)

theorem deleteAttribute_of_goesBy : deleteAttribute (.object c id) (.text n) s =
    .error (.readOnlyField (s.store.typeName (.object c id)) m) s := by
  have hrefused : s.store.deleteAttribute (.object c id) n =
      .error (.readOnlyField (s.store.typeName (.object c id)) m) := by
    rw [Store.deleteAttribute, Store.placeFor_of_goesBy hfields hf h]
    · rfl
    · intro d hd
      cases hd
  rw [deleteAttribute_eq_attempt hc]
  exact bind_of_error (ask_of_error hrefused)

end Guard

/-- What is created is new, and holds a value for each name of the registry. -/
theorem instantiate_eq_ok {argument? : Option Value} {o registry : Value}
    {named : Entries String Value} {s' : State} {fields : Entries String Value}
    (hc : s.store.nature c = .validated)
    (h : instantiate c argument?.toList named s = .ok o s')
    (hregistry : s.store.registry c = .ok registry) (hlists : s.store.Lists registry fields) :
    ∃ attributes session,
      s.store.givenAttributes (s.store.className c) (argument?.getD .nil) named = .ok attributes ∧
      o = .object c ⟨s.store.objects.size⟩ ∧
      s' = ⟨(s.store.newObject ⟨"", (Store.valuesFor fields attributes).asTexts⟩).2, session⟩ := by
  rw [instantiate_validated hc] at h
  obtain ⟨argument, s₀, hsole, hvalidated⟩ := bind_eq_ok h
  obtain ⟨hsole, hsame⟩ := ask_eq_ok hsole
  rw [hsame, Store.eq_of_soleArgument hsole] at hvalidated
  obtain ⟨values, s₁, hcheck, hnew⟩ := bind_eq_ok hvalidated
  obtain ⟨session, hrun, rfl⟩ := check_eq_ok hcheck
  obtain ⟨attributes, t₁, hattributes, hrun⟩ := bind_eq_ok hrun
  obtain ⟨registry', t₂, hregistry', hrun⟩ := bind_eq_ok hrun
  have hgiven := Check.of_ofExcept_run hattributes
  have heq : registry' = registry :=
    Except.ok.inj ((Check.of_ofExcept_run hregistry').symm.trans hregistry)
  subst heq
  have hselected : s.store.selected (s.store.roster registry') (s.store.supplyOf attributes) =
      .ok (Store.valuesFor fields attributes).asTexts :=
    Store.selected_run (fun n ↦ (attributes.named? n).getD .nil) (Store.iterate_of_lists hlists)
      fun n _ ↦ Store.givenBy_text attributes n
  have hvalues := (selected_of_accepted hrun).symm.trans hselected
  cases hvalues
  cases hnew
  exact ⟨attributes, session, hgiven, rfl, rfl⟩

end Action

end Conformance
