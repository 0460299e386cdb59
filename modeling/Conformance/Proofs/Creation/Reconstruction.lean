import Conformance.Proofs.Access.Reading
import Conformance.Proofs.Content
import Conformance.Proofs.Equality.Reflexive
import Conformance.Proofs.Evaluation.Steadiness
import Conformance.Proofs.Outcome
import Conformance.Proofs.Registration.Extension
import Conformance.Proofs.Registration.Registered

namespace Conformance

theorem Entries.putAll_asTexts {ν : Type} {b : BEq Value} (hb : ComparesNames b)
    (es new : Entries String ν) : es.asTexts.putAll new.asTexts = (es.putAll new).asTexts := by
  induction new generalizing es with
  | nil => rfl
  | cons e new ih =>
    rw [asTexts_cons, putAll_cons, put_asTexts hb, ih, putAll_cons]

namespace Store

/-- An object performs an operation of all validated objects: neither an attribute of its class, nor a
field in its registry, nor an attribute of its own takes the place of the operation. -/
structure Performs (st : Store) (c : ClassId) (id : ObjectId) (operation : String) : Prop where
  shared : st.classAttribute? c operation = some (.operation operation)
  undeclared (registry : Value) (h : st.registry c = .ok registry) :
    st.contains registry (.text operation) = .ok false
  unowned : st.ownAttribute? (.object c id) operation = none

variable {st st' : Store} {c : ClassId} {id : ObjectId} {operation : String} {registry : Value}
  {fields : Entries String Value}

theorem hasOperation_of_shared (hshared : st.classAttribute? c operation = some (.operation operation))
    (hown : st.ownAttribute? (.object c id) operation = none) :
    st.hasOperation (.object c id) operation = .ok () := by
  have htype : st.classAttribute? (st.typeOf (.object c id)) operation =
      some (.operation operation) := hshared
  have hattribute : st.attributeOf (.object c id) operation = .ok (.operation operation) := by
    rw [attributeOf, htype]
    · have hfield : st.isField (.operation operation) = false := rfl
      simp only [hfield, hown]
      rfl
    · intro d hd
      cases hd
  rw [hasOperation, hattribute]
  rfl

theorem declared_of_lists (hregistry : st.registry c = .ok registry)
    (hlists : st.Lists registry fields) (id : ObjectId) :
    st.declared (.object c id) =
      .ok (valuesFor fields (st.attributesOf (.object c id))).asTexts := by
  -- names are keys, so no name is refused on the way
  have hhash : (fields.keys.map Value.text).forM st.hash = .ok () := by
    generalize fields.keys = names
    induction names with
    | nil => rfl
    | cons n names ih => exact ih
  have hselected (attributes : Entries Value Value) :
      selectDeclared (fields.keys.map .text) attributes =
        Entries.asTexts (fields.keys.map fun n ↦ (n, (attributes.named? n).getD .nil)) := by
    simp only [selectDeclared, Entries.asTexts, List.map_map]
    refine List.map_congr_left fun n _ ↦ ?_
    simp only [Function.comp_apply, Entries.get?_text _ Value.comparesNames]
  have hofList : Entries.ofList (selectDeclared (fields.keys.map .text)
      (st.attributesOf (.object c id))) =
        (valuesFor fields (st.attributesOf (.object c id))).asTexts := by
    rw [hselected]
    exact Entries.putAll_asTexts Value.comparesNames [] _
  have htype : st.registry (st.typeOf (.object c id)) = .ok registry := hregistry
  rw [declared, htype, ← hofList]
  change (do
    let names ← st.iterate registry
    names.forM st.hash
    return Entries.ofList (selectDeclared names (st.attributesOf (.object c id)))) = _
  rw [iterate_of_lists hlists]
  change (do
    (fields.keys.map Value.text).forM st.hash
    return Entries.ofList (selectDeclared (fields.keys.map .text)
      (st.attributesOf (.object c id)))) = _
  rw [hhash]
  rfl

theorem mem_keys_valuesFor {attributes : Entries Value Value} {n : String}
    (hn : n ∈ (valuesFor fields attributes).keys) : n ∈ fields.keys := by
  obtain ⟨e, he, rfl⟩ := List.mem_map.1 hn
  obtain ⟨m, hm, rfl⟩ := List.mem_map.1 (Entries.mem_ofList he)
  exact hm

@[simp] theorem valuesFor_valuesFor (fields : Entries String Value) (attributes : Entries Value Value) :
    valuesFor fields (valuesFor fields attributes).asTexts = valuesFor fields attributes := by
  refine congrArg Entries.ofList (List.map_congr_left fun n hn ↦ ?_)
  rw [Entries.named?_asTexts, get?_valuesFor hn]
  rfl

/-- What is said of values depends on the values under the names of the fields only. -/
theorem violations_congr {judge : Judge} {fields : Entries Value Value}
    {valueOf valueOf' : Value → Except Fault Value} (h : ∀ e ∈ fields, valueOf e.1 = valueOf' e.1) :
    st.violations judge fields valueOf = st.violations judge fields valueOf' := by
  let verdict (e : Value × Value) (v : Except Fault Value) : Check (Option Violation) := do
    st.violation? judge e.1 e.2 (← Check.ofExcept v)
  have hverdicts : (fields.mapM fun e ↦ verdict e (valueOf e.1)) =
      fields.mapM fun e ↦ verdict e (valueOf' e.1) := by
    induction fields with
    | nil => rfl
    | cons e fields ih =>
      obtain ⟨he, hfields⟩ := List.forall_mem_cons.1 h
      rw [List.mapM_cons, List.mapM_cons, ih hfields, he]
  exact congrArg (· >>= fun verdicts ↦ pure (verdicts.filterMap id)) hverdicts

theorem equal_of_reported (hc : st.nature c = .validated) {i j : ObjectId}
    {es : Entries Value Value} (hi : st.reported (.object c i) = .ok es)
    (hj : st.reported (.object c j) = .ok es) : st.equal (.object c i) (.object c j) = .ok true := by
  have hnature (k : ObjectId) : st.natureOf (.object c k) = .validated := hc
  have htype : st.typeOf (.object c i) = st.typeOf (.object c j) := rfl
  have hobjects : st.equalObjects (st.equalCells st.cellCount) (.object c i) (.object c j) =
      .ok true := by
    rw [equalObjects, if_neg (not_not_intro htype), hnature, hi, hj]
    exact equalEntries_self _ es
  rw [← hobjects]
  change st.equalCells (st.cellCount + 1) (.object c i) (.object c j) = _
  have hregistry : st.nature c ≠ .registry := by
    rw [hc]
    exact nofun
  rw [equalCells, mapping?_object hregistry, mapping?_object hregistry]
  rfl

theorem attributesOf_grown (hgrows : st.Grows st') (hid : id.index < st.objects.size)
    (hc : st.nature c = .validated) :
    st'.attributesOf (.object c id) = st.attributesOf (.object c id) := by
  rw [attributesOf, attributesOf, attributesCell?_of_validated hc]
  exact congrArg Object.attributes (hgrows.object_eq id hid)

theorem registers_grown (hgrows : st.Grows st') (h : st.Registers c fields) :
    st'.Registers c fields :=
  hgrows.keeps.lists.registers (by rw [hgrows.keeps.body_eq]) h

theorem not_mem_keys_of_undeclared {n : String} (hlists : st.Lists registry fields)
    (h : st.contains registry (.text n) = .ok false) : n ∉ fields.keys := by
  intro hn
  have hknown : st.contains registry (.text n) = .ok ((Value.text n).isAmong fields.keys) :=
    contains_of_lists hlists rfl
  have hamong : (Value.text n).isAmong fields.keys = true := by
    simpa [Value.isAmong, Value.text?, Value.plain] using hn
  rw [hamong, h] at hknown
  cases hknown

theorem reported_of_registers (hst : st.HasHierarchy) (hc : .root ∈ st.linearization c)
    (hregisters : st.Registers c fields)
    (hshared : st.classAttribute? c "to_dict" = some (.operation "to_dict"))
    (hown : st.ownAttribute? (.object c id) "to_dict" = none) :
    st.reported (.object c id) =
      .ok (valuesFor fields (st.attributesOf (.object c id))).asTexts := by
  obtain ⟨registry, hregistry, hlists⟩ := exists_registry hst hc hregisters
  have hoffers : st.offers (.object c id) "to_dict" none = .ok () := by
    unfold offers
    rw [hasOperation_of_shared hshared hown]
    rfl
  rw [reported, hoffers]
  exact declared_of_lists hregistry hlists id

theorem Performs.grow (h : st.Performs c id operation) (hgrows : st.Grows st')
    (hst : st.HasHierarchy) (hc : st.nature c = .validated) (hid : id.index < st.objects.size)
    (hregisters : st.Registers c fields) : st'.Performs c id operation where
  shared := by
    rw [classAttribute?_grown hgrows]
    exact h.shared
  undeclared registry' hregistry' := by
    have hroot := root_mem_of_validated hc
    obtain ⟨registry, hregistry, hlists⟩ := exists_registry hst hroot hregisters
    have hundeclared := not_mem_keys_of_undeclared hlists (h.undeclared registry hregistry)
    rw [← hgrows.keeps.sameHierarchy.linearization_eq] at hroot
    obtain ⟨registry'', hregistry'', hlists''⟩ := exists_registry
      (hgrows.keeps.sameHierarchy.hasHierarchy hst) hroot (registers_grown hgrows hregisters)
    cases hregistry'.symm.trans hregistry''
    rw [contains_of_lists hlists'' rfl]
    simpa [Value.isAmong, Value.text?, Value.plain] using hundeclared
  unowned := by
    rw [ownAttribute?_eq, attributesOf_grown hgrows hid hc, ← ownAttribute?_eq]
    exact h.unowned

/-- An object that is created from what another one reports reports the same, and equals it. -/
theorem equal_recreated (hst : st.HasHierarchy) (hc : st.nature c = .validated)
    (hid : id.index < st.objects.size) (hregisters : st.Registers c fields)
    (hreport : st.Performs c id "to_dict") :
    let values := (valuesFor fields (st.attributesOf (.object c id))).asTexts
    let created := (st.newObject ⟨"", values⟩).2
    created.reported (.object c ⟨st.objects.size⟩) = .ok values ∧
      created.reported (.object c id) = .ok values ∧
      created.equal (.object c ⟨st.objects.size⟩) (.object c id) = .ok true := by
  intro values created
  have hgrows : st.Grows created := grows_newObject st ⟨"", values⟩
  have hroot := root_mem_of_validated hc
  have hroot' : .root ∈ created.linearization c := by
    rwa [hgrows.keeps.sameHierarchy.linearization_eq]
  have hst' : created.HasHierarchy := hgrows.keeps.sameHierarchy.hasHierarchy hst
  have hregisters' : created.Registers c fields := registers_grown hgrows hregisters
  have hreport' : created.Performs c id "to_dict" := hreport.grow hgrows hst hc hid hregisters
  have hattributes : created.attributesOf (.object c ⟨st.objects.size⟩) = values := by
    rw [attributesOf, attributesCell?_of_validated hc]
    exact congrArg Object.attributes (Table.get_add_size st.objects _)
  have hold : created.reported (.object c id) = .ok values := by
    rw [reported_of_registers hst' hroot' hregisters' hreport'.shared hreport'.unowned,
      attributesOf_grown hgrows hid hc]
  have hnew : created.reported (.object c ⟨st.objects.size⟩) = .ok values := by
    have hown : created.ownAttribute? (.object c ⟨st.objects.size⟩) "to_dict" = none := by
      obtain ⟨registry, hregistry, hlists⟩ := exists_registry hst hroot hregisters
      have hundeclared := not_mem_keys_of_undeclared hlists (hreport.undeclared registry hregistry)
      rw [ownAttribute?_eq, hattributes, Entries.named?_asTexts, Entries.get?_eq_none_iff]
      exact fun hn ↦ hundeclared (mem_keys_valuesFor hn)
    rw [reported_of_registers hst' hroot' hregisters' hreport'.shared hown, hattributes,
      valuesFor_valuesFor]
  have hc' : created.nature c = .validated := by
    rw [nature_of_linearization hgrows.keeps.sameHierarchy.linearization_eq, hc]
  exact ⟨hnew, hold, equal_of_reported hc' hnew hold⟩

theorem unknownNames_of_listed (hlists : st.Lists registry fields) {names : List String}
    (h : ∀ n ∈ names, n ∈ fields.keys) :
    st.unknownNames (st.roster registry) (names.map .text) = .ok [] := by
  have hfound : (names.map Value.text).mapM (st.unknownName? fields.keys) =
      .ok ((names.map Value.text).map fun _ ↦ none) := by
    refine mapM_ok _ fun k hk ↦ ?_
    obtain ⟨n, hn, rfl⟩ := List.mem_map.1 hk
    have hamong : (Value.text n).isAmong fields.keys = true := by
      simpa [Value.isAmong, Value.text?, Value.plain] using h n hn
    exact if_pos hamong
  have hhash : ∀ k ∈ names.map Value.text, st.hash k = .ok () := by
    simp only [List.mem_map, forall_exists_index, and_imp, forall_apply_eq_imp_iff₂]
    exact fun n _ ↦ hash_text n
  rw [unknownNames_of_lists hlists hhash, hfound]
  simp [Functor.map, Except.map, List.filterMap_map]

theorem givenBy_valuesFor (attributes : Entries Value Value) {n : String} (hn : n ∈ fields.keys) :
    st.givenBy (valuesFor fields attributes).asTexts (.text n) = st.givenBy attributes (.text n) := by
  rw [givenBy_text, givenBy_text, Entries.named?_asTexts, get?_valuesFor hn]
  rfl

theorem registered_eq_ok (hlists : st.Lists registry fields) {fs : Entries Value Value}
    (h : st.registered registry = .ok fs) : fs = fields.asTexts :=
  Except.ok.inj (h.symm.trans (registered_of_lists hlists (offers_of_registered h)))

/-- An object is judged by what it reports. -/
theorem objectViolations_eq (hregistry : st.registry c = .ok registry)
    (hlists : st.Lists registry fields) {fs : Entries Value Value}
    (hfs : st.registered registry = .ok fs) (s : Session) :
    st.objectViolations (.object c id) s = st.violations (.of .shared) fs
      (st.givenBy (valuesFor fields (st.attributesOf (.object c id))).asTexts) s := by
  have hfields : st.registry (st.typeOf (.object c id)) >>= st.registered = .ok fs := by
    have htype : st.registry (st.typeOf (.object c id)) = .ok registry := hregistry
    rw [htype]
    exact hfs
  rw [objectViolations, bind_of_ok (Check.ofExcept_run hfields s)]
  refine congrFun (violations_congr fun e he ↦ ?_) s
  obtain rfl := registered_eq_ok hlists hfs
  obtain ⟨field, hfield, rfl⟩ := List.mem_map.1 he
  exact (givenBy_valuesFor _ (List.mem_map_of_mem hfield)).symm

theorem acceptedValues_of_reported (hlists : st.Lists registry fields)
    (attributes : Entries Value Value) (s : Session) (typeName : String) :
    let values := (valuesFor fields attributes).asTexts
    st.acceptedValues (pure (.of .shared)) typeName (st.roster registry) (st.supplyOf values) s = (do
      st.approve (.of .shared) typeName (← Check.ofExcept (st.registered registry)) values
      return values : Check (Entries Value Value)) s := by
  intro values
  have hnames : (st.supplyOf values).names >>= st.unknownNames (st.roster registry) = .ok [] := by
    have hkeys : (st.supplyOf values).names = .ok ((valuesFor fields attributes).keys.map .text) :=
      congrArg Except.ok (Entries.keys_asTexts _)
    rw [hkeys]
    exact unknownNames_of_listed hlists fun n hn ↦ mem_keys_valuesFor hn
  have hselected : st.selected (st.roster registry) (st.supplyOf values) = .ok values := by
    refine selected_run (fun n ↦ (attributes.named? n).getD .nil) (iterate_of_lists hlists) ?_
    intro n hn
    exact (givenBy_valuesFor attributes hn).trans (givenBy_text attributes n)
  exact acceptedValues_of_selected hnames hselected s typeName

end Store

namespace Action

open Store

variable {c : ClassId} {id : ObjectId} {registry : Value} {fields : Entries String Value} {s : State}

theorem requireObject_run {operation : String} (h : s.store.Performs c id operation) :
    requireObject (.object c id) operation s = .ok () s :=
  bind_of_ok (ask_of_ok (hasOperation_of_shared h.shared h.unowned))

theorem report_run (hregistry : s.store.registry c = .ok registry)
    (hlists : s.store.Lists registry fields) (hperforms : s.store.Performs c id "to_dict") :
    let values := (valuesFor fields (s.store.attributesOf (.object c id))).asTexts
    report (.object c id) s = .ok (.dictionary (s.store.newDictionary values).1)
      { s with store := (s.store.newDictionary values).2 } := by
  intro values
  have hdeclared : ask (·.declared (.object c id)) s = .ok values s :=
    ask_of_ok (declared_of_lists hregistry hlists id)
  exact (bind_of_ok (requireObject_run hperforms)).trans ((bind_of_ok hdeclared).trans rfl)

theorem givenAttributes_of_mapping {st : Store} {d : DictionaryId} {es : Entries Value Value}
    (h : st.entries d = es) (typeName : String) :
    st.givenAttributes typeName (.dictionary d) [] = .ok es := by
  have hmapping : st.mapping? (.dictionary d) = some es := by
    rw [← h]
    rfl
  have hgiven : st.entriesGiven (.dictionary d) = .ok (some es) := by
    have hismapping : st.isMapping (.dictionary d) = true := by
      rw [isMapping, hmapping]
      rfl
    have hne : Value.dictionary d ≠ .nil := fun h ↦ nomatch h
    rw [entriesGiven_of_ne hne, if_pos hismapping, entriesOf, hmapping]
    rfl
  exact givenAttributes_of_entries hgiven typeName

/-- The same fields judge the same values, be it the object that is validated or what it reports from
which another one is to be created. -/
theorem revalidate_agrees_with_instantiate (hc : s.store.nature c = .validated)
    (hregistry : s.store.registry c = .ok registry) (hlists : s.store.Lists registry fields)
    (hperforms : s.store.Performs c id "validate") {d : DictionaryId}
    (hd : s.store.entries d = (valuesFor fields (s.store.attributesOf (.object c id))).asTexts)
    (hsole : s.store.soleArgument c [.dictionary d] = .ok (.dictionary d)) {severity : Severity}
    (hseverity : s.store.severityIn s.session = .ok severity) :
    (∀ e t, revalidate (.object c id) s = .error e t →
      ∃ t', instantiate c [.dictionary d] [] s = .error e t') ∧
    ∀ result t, revalidate (.object c id) s = .ok result t → ∃ vs, t.store.Tells result vs ∧
      (vs ≠ [] → ∃ t', instantiate c [.dictionary d] [] s =
        .error (.invalid (s.store.className c) vs) t') ∧
      (vs = [] → ∃ t', instantiate c [.dictionary d] [] s =
        .ok (.object c ⟨s.store.objects.size⟩) ⟨(s.store.newObject ⟨"", s.store.entries d⟩).2, t'⟩) := by
  let values := (valuesFor fields (s.store.attributesOf (.object c id))).asTexts
  have hattributes : s.store.givenAttributes (s.store.className c) (.dictionary d) [] = .ok values :=
    givenAttributes_of_mapping hd _
  have haccepted : s.store.acceptedValues (pure (.of .shared)) (s.store.className c)
      (s.store.roster registry) (s.store.supplyOf values) s.session = _ :=
    acceptedValues_of_reported hlists _ s.session (s.store.className c)
  have hrevalidate : revalidate (.object c id) s =
      (check (·.objectViolations (.object c id)) >>= outcomeOf) s :=
    bind_of_ok (requireObject_run hperforms)
  rw [instantiate_validated hc, bind_of_ok (ask_of_ok hsole), hd, hrevalidate]
  -- both ask the registry for its fields first, and fail alike if it does not give them
  cases hfs : s.store.registered registry with
  | error e =>
    have hjudged : s.store.objectViolations (.object c id) s.session = .error e s.session := by
      have htype : s.store.registry (s.store.typeOf (.object c id)) = .ok registry := hregistry
      rw [Store.objectViolations, htype]
      exact bind_of_error (congrFun (congrArg Check.ofExcept hfs) _)
    rw [hfs] at haccepted
    rw [bind_of_error (check_of_error hjudged)]
    refine ⟨fun e' t h ↦ ?_, fun result t h ↦ ?_⟩
    · cases h
      exact ⟨_, newValidated_of_refused hattributes hregistry haccepted⟩
    · cases h
  | ok fs =>
    have hjudged : s.store.objectViolations (.object c id) s.session =
        s.store.violations (.of .shared) fs (s.store.givenBy values) s.session :=
      objectViolations_eq hregistry hlists hfs s.session
    rw [bind_of_ok (Check.ofExcept_run hfs s.session)] at haccepted
    cases hrun : s.store.violations (.of .shared) fs (s.store.givenBy values) s.session with
    | error e t =>
      rw [hrun] at hjudged
      rw [bind_of_error (check_of_error hjudged)]
      refine ⟨fun e' t' h ↦ ?_, fun result t' h ↦ ?_⟩
      · cases h
        exact ⟨_, newValidated_of_refused hattributes hregistry
          (haccepted.trans (bind_of_error (bind_of_error hrun)))⟩
      · cases h
    | ok vs t =>
      rw [hrun] at hjudged
      obtain ⟨outcome, t', houtcome, htells, -⟩ := outcomeOf_run vs { s with session := t }
      obtain ⟨hnone, hsome⟩ := approve_of_violations hrun ((steady_violations _ _ _).sameSettings hrun)
        hseverity (s.store.className c)
      rw [bind_of_ok (check_of_ok hjudged), houtcome]
      refine ⟨fun e t'' h ↦ ?_, fun result t'' h ↦ ?_⟩
      · cases h
      · cases h
        refine ⟨vs, htells, fun hvs ↦ ?_, fun hvs ↦ ?_⟩
        · exact ⟨_, newValidated_of_refused hattributes hregistry
            (haccepted.trans (bind_of_error (hsome hvs)))⟩
        · exact ⟨_, newValidated_of_accepted hattributes hregistry
            (haccepted.trans (bind_of_ok (hnone hvs)))⟩

theorem soleArgument_of_usual {st : Store} (hmarker : st.inherits c (.builtin .booleanMarker) = false)
    (hinit : st.classAttribute? c "__init__" = none) (argument : Value) :
    st.soleArgument c [argument] = .ok argument := by
  have hinitializer : st.checkInitializer c = .ok () := by
    rw [Store.checkInitializer, hinit]
    rfl
  rw [Store.soleArgument, isMarker_eq_false hmarker, hinitializer]
  rfl

/-- An object is valid, whatever has become of it and of its class, if and only if another one can be
created from what it reports. If so, the two are equal and report the same; if not, the creation fails
for what the validation has found. -/
theorem reconstruction_agrees {s₀ : State} (hreached : Relation.ReflTransGen Change .initial s₀)
    (hc : s₀.store.nature c = .validated) (hid : id.index < s₀.store.objects.size)
    (hmarker : s₀.store.inherits c (.builtin .booleanMarker) = false)
    (hinit : s₀.store.classAttribute? c "__init__" = none)
    (hvalidate : s₀.store.Performs c id "validate") (hreport : s₀.store.Performs c id "to_dict") :
    let o := Value.object c id
    ∃ d s, report o s₀ = .ok d s ∧ ∀ severity, s.store.severityIn s.session = .ok severity →
      (∀ e t, revalidate o s = .error e t → ∃ t', instantiate c [d] [] s = .error e t') ∧
      ∀ result t, revalidate o s = .ok result t → ∃ vs, t.store.Tells result vs ∧
        (vs ≠ [] → ∃ t', instantiate c [d] [] s =
          .error (.invalid (s.store.className c) vs) t') ∧
        (vs = [] → ∃ o' t', instantiate c [d] [] s = .ok o' t' ∧
          t'.store.equal o' o = .ok true ∧
          ∃ es, t'.store.reported o' = .ok es ∧ t'.store.reported o = .ok es) := by
  intro o
  have hst := hasRegistries_of_changes hreached
  have hroot := root_mem_of_validated hc
  obtain ⟨fields, hregisters⟩ := hst.registers c hroot
  obtain ⟨registry, hregistry, hlists⟩ := exists_registry hst.hierarchy hroot hregisters
  let values := (valuesFor fields (s₀.store.attributesOf o)).asTexts
  let d := (s₀.store.newDictionary values).1
  let s : State := { s₀ with store := (s₀.store.newDictionary values).2 }
  have hgrows : s₀.store.Grows s.store := grows_newDictionary s₀.store values
  refine ⟨.dictionary d, s, report_run hregistry hlists hreport, fun severity hseverity ↦ ?_⟩
  -- all that counts is as it was before the report was made
  have hlin := hgrows.keeps.sameHierarchy.linearization_eq
  have hst' : s.store.HasHierarchy := hgrows.keeps.sameHierarchy.hasHierarchy hst.hierarchy
  have hc' : s.store.nature c = .validated := by
    rw [nature_of_linearization hlin, hc]
  have hroot' : .root ∈ s.store.linearization c := by
    rwa [hlin]
  have hregisters' : s.store.Registers c fields := registers_grown hgrows hregisters
  obtain ⟨registry', hregistry', hlists'⟩ := exists_registry hst' hroot' hregisters'
  have hd : s.store.entries d = (valuesFor fields (s.store.attributesOf o)).asTexts := by
    rw [attributesOf_grown hgrows hid hc]
    exact Table.get_add_size s₀.store.dictionaries values
  have hsole : s.store.soleArgument c [.dictionary d] = .ok (.dictionary d) := by
    refine soleArgument_of_usual ?_ ?_ _
    · rwa [inherits, hlin]
    · rwa [classAttribute?_grown hgrows]
  have hvalidate' : s.store.Performs c id "validate" :=
    hvalidate.grow hgrows hst.hierarchy hc hid hregisters
  have hreport' : s.store.Performs c id "to_dict" :=
    hreport.grow hgrows hst.hierarchy hc hid hregisters
  obtain ⟨hfails, hanswers⟩ := revalidate_agrees_with_instantiate hc' hregistry' hlists' hvalidate' hd
    hsole hseverity
  refine ⟨hfails, fun result t hrun ↦ ?_⟩
  obtain ⟨vs, htells, hrefused, hcreated⟩ := hanswers result t hrun
  refine ⟨vs, htells, hrefused, fun hvs ↦ ?_⟩
  obtain ⟨t', hinstantiate⟩ := hcreated hvs
  have hid' : id.index < s.store.objects.size := Nat.lt_of_lt_of_le hid hgrows.objects_le
  rw [hd] at hinstantiate
  obtain ⟨hnew, hold, hequal⟩ := equal_recreated hst' hc' hid' hregisters' hreport'
  exact ⟨_, _, hinstantiate, hequal, _, hnew, hold⟩

theorem grows_emptyValue? (c : ClassId) : Within Grows (emptyValue? c) := by
  have hcell {α : Type} {f : Store → α × Store} {g : α → Value} (h : ∀ st, Grows st (f st).2) :
      Within Grows (do return some (g (← create f)) : Action (Option Value)) :=
    .bind (.create h) fun _ ↦ .pure _
  unfold emptyValue?
  split
  case h_4 | h_5 | h_8 | h_12 => exact hcell fun _ ↦ grows_of_eq rfl rfl rfl rfl
  case h_9 => exact .bind (.bind (.create fun st ↦ grows_newList st []) fun _ ↦ .pure _) fun _ ↦ .pure _
  case h_11 => exact hcell fun st ↦ grows_newDictionary st []
  all_goals exact .pure _

theorem grows_newEmpty (c : ClassId) : Within Grows (newEmpty c) := by
  refine .bind (grows_emptyValue? c) fun plain? ↦ ?_
  cases plain? with
  | some v => exact .pure v
  | none =>
    refine .bind (.ask _) fun data ↦ .bind (grows_emptyValue? data) fun v? ↦ ?_
    cases v? with
    | some v => exact .bind (.create fun st ↦ grows_newObject st _) fun _ ↦ .pure _
    | none => exact .bind (.create fun st ↦ grows_newObject st _) fun _ ↦ .pure _

theorem grows_instantiate (c : ClassId) (positional : List Value) (named : List (String × Value)) :
    Within Grows (instantiate c positional named) := by
  have hnew (attributes : Entries Value Value) : Within Grows (newObject c attributes) :=
    .bind (.create fun st ↦ grows_newObject st _) fun _ ↦ .pure _
  have hvalidated (argument : Value) : Within Grows (newValidated c argument named) :=
    .bind (.check _) fun values ↦ hnew values
  have hmember (v : Value) : Within Grows (memberOf c v) := by
    refine .bind (.ask _) fun members ↦ .bind (.ask _) fun found? ↦ ?_
    cases found? with
    | some m => exact .pure m
    | none => exact .bind (.ask _) fun _ ↦ .bind (.ask _) fun _ ↦ .throw _
  unfold instantiate
  refine .bind (.ask _) fun isMarker ↦ ?_
  split
  · exact .throw _
  · refine .bind (.ask _) fun _ ↦ .bind (.ask _) fun nature ↦ ?_
    split
    · exact hvalidated .nil
    · exact hvalidated _
    · exact .throw _
    · exact hmember _
    · exact .throw _
    · exact hnew _
    · exact hnew _
    · exact .throw _
    · exact grows_newEmpty c
    · exact .bind (.ask _) fun _ ↦ .throw _

def shelfCreated : State :=
  after (instantiate (.defined 1) [] [("label", .text "kiwi")]) shelfLabelled

def shelfOutdated : State :=
  after (declareOn (.ofClass .root) "validates" (.text "label") (.ofClass (.builtin .integer)) .nil
    false) shelfCreated

def shelfReported : State := after (report (.object (.defined 1) ⟨6⟩)) shelfOutdated

def shelfReport : Value := ((report (.object (.defined 1) ⟨6⟩)).run' shelfOutdated).getD .nil

theorem changes_shelfOutdated : Relation.ReflTransGen Change .initial shelfOutdated := by
  have hname : (Value.text "label").text? ≠ some registryName := by decide
  have hdefined : Change .initial shelfDefined :=
    .define (List.forall_mem_nil _) "Shelf" "store"
  have hlabelled : Change shelfDefined shelfLabelled :=
    .declare hname "validates" (.ofClass (.builtin .text)) .nil false
  have hcreated : Change shelfLabelled shelfCreated :=
    .other (grows_instantiate _ _ _ shelfLabelled).keeps
  have houtdated : Change shelfCreated shelfOutdated :=
    .declare hname "validates" (.ofClass (.builtin .integer)) .nil false
  exact .tail (.tail (.tail (.single hdefined) hlabelled) hcreated) houtdated

theorem undeclared_of_toOption {st : Store} {operation : String}
    (h : ((st.registry c).toOption.map fun registry ↦
      (st.contains registry (.text operation)).toOption) = some (some false)) (registry : Value)
    (hregistry : st.registry c = .ok registry) :
    st.contains registry (.text operation) = .ok false := by
  rw [hregistry] at h
  exact eq_ok_of_toOption (Option.some.inj h)

/-- A shelf whose label is a text is refused as its report is, now that labels are numbers. -/
theorem reconstruction_agrees_shelfOutdated :
    let o := Value.object (.defined 1) ⟨6⟩
    report o shelfOutdated = .ok shelfReport shelfReported ∧
      ∃ result t vs t', vs ≠ [] ∧ revalidate o shelfReported = .ok result t ∧
        t.store.Tells result vs ∧
        instantiate (.defined 1) [shelfReport] [] shelfReported = .error (.invalid "Shelf" vs) t' := by
  intro o
  have hvalidate : shelfOutdated.store.Performs (.defined 1) ⟨6⟩ "validate" :=
    ⟨by decide +kernel, undeclared_of_toOption (by decide +kernel), by decide +kernel⟩
  have hreport : shelfOutdated.store.Performs (.defined 1) ⟨6⟩ "to_dict" :=
    ⟨by decide +kernel, undeclared_of_toOption (by decide +kernel), by decide +kernel⟩
  obtain ⟨d, s, hd, hagrees⟩ := reconstruction_agrees changes_shelfOutdated (by decide +kernel)
    (by decide +kernel) (by decide +kernel) (by decide +kernel) hvalidate hreport
  obtain rfl : shelfReported = s := by rw [shelfReported, after, hd]
  obtain rfl : shelfReport = d := by rw [shelfReport, run'_of_ok hd]; rfl
  have hseverity : shelfReported.store.severityIn shelfReported.session = .ok .debug :=
    eq_ok_of_toOption (by decide +kernel)
  obtain ⟨result, t, hresult⟩ : ∃ result t, revalidate o shelfReported = .ok result t :=
    exists_run_of_isSome (by decide +kernel)
  obtain ⟨-, hanswers⟩ := hagrees _ hseverity
  obtain ⟨vs, htells, hrefused, hcreated⟩ := hanswers result t hresult
  have hvs : vs ≠ [] := by
    intro hvs
    obtain ⟨o', t', hinstantiate, -⟩ := hcreated hvs
    have hnone : ((instantiate (.defined 1) [shelfReport] []).run' shelfReported).isSome = false := by
      decide +kernel
    rw [run'_of_ok hinstantiate] at hnone
    cases hnone
  obtain ⟨t', hinstantiate⟩ := hrefused hvs
  have hname : shelfReported.store.className (.defined 1) = "Shelf" := by decide +kernel
  rw [hname] at hinstantiate
  exact ⟨hd, result, t, vs, t', hvs, hresult, htells, hinstantiate⟩

def oddDefined : State := after (defineClass "Odd" "store" [] [("validate", .int 5)]) .initial

def oddCreated : State := after (instantiate (.defined 1) [] []) oddDefined

def oddReported : State := after (report (.object (.defined 1) ⟨2⟩)) oddCreated

def oddReport : Value := ((report (.object (.defined 1) ⟨2⟩)).run' oddCreated).getD .nil

/-- It is not enough that no field and no attribute of the object takes the place of an operation: a
number in the body of the class cannot be called, while creations from reports go well. -/
theorem not_reconstruction_agrees :
    ¬ ∀ (s₀ : State) (c : ClassId) (id : ObjectId), Relation.ReflTransGen Change .initial s₀ →
      s₀.store.nature c = .validated → id.index < s₀.store.objects.size →
      s₀.store.inherits c (.builtin .booleanMarker) = false →
      s₀.store.classAttribute? c "__init__" = none →
      (∀ operation ∈ ["validate", "to_dict"],
        (∀ registry, s₀.store.registry c = .ok registry →
          s₀.store.contains registry (.text operation) = .ok false) ∧
        s₀.store.ownAttribute? (.object c id) operation = none) →
      ∀ d s, report (.object c id) s₀ = .ok d s →
        ∀ severity, s.store.severityIn s.session = .ok severity →
        (∃ o' t', instantiate c [d] [] s = .ok o' t') →
          ∃ result t, revalidate (.object c id) s = .ok result t := by
  intro h
  have hdefined : Change .initial oddDefined :=
    .define (List.forall_mem_nil _) "Odd" "store"
  have hcreated : Change oddDefined oddCreated := .other (grows_instantiate _ _ _ oddDefined).keeps
  have hnames : ∀ operation ∈ ["validate", "to_dict"],
      (∀ registry, oddCreated.store.registry (.defined 1) = .ok registry →
        oddCreated.store.contains registry (.text operation) = .ok false) ∧
      oddCreated.store.ownAttribute? (.object (.defined 1) ⟨2⟩) operation = none := by
    intro operation hoperation
    simp only [List.mem_cons, List.not_mem_nil, or_false] at hoperation
    rcases hoperation with rfl | rfl
    · exact ⟨undeclared_of_toOption (by decide +kernel), by decide +kernel⟩
    · exact ⟨undeclared_of_toOption (by decide +kernel), by decide +kernel⟩
  obtain ⟨d, s, hreport⟩ : ∃ d s, report (.object (.defined 1) ⟨2⟩) oddCreated = .ok d s :=
    exists_run_of_isSome (by decide +kernel)
  obtain rfl : oddReported = s := by rw [oddReported, after, hreport]
  obtain rfl : oddReport = d := by rw [oddReport, run'_of_ok hreport]; rfl
  have hseverity : oddReported.store.severityIn oddReported.session = .ok .debug :=
    eq_ok_of_toOption (by decide +kernel)
  obtain ⟨result, t, hrevalidate⟩ := h oddCreated (.defined 1) ⟨2⟩ (.tail (.single hdefined) hcreated)
    (by decide +kernel) (by decide +kernel) (by decide +kernel) (by decide +kernel) hnames _ _ hreport
    _ hseverity (exists_run_of_isSome (by decide +kernel))
  have hnone : ((revalidate (.object (.defined 1) ⟨2⟩)).run' oddReported).isSome = false := by
    decide +kernel
  rw [run'_of_ok hrevalidate] at hnone
  cases hnone

end Action

end Conformance
