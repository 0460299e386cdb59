import Conformance.Proofs.Creation.Selection

namespace Conformance

namespace Store

variable {st st' : Store} {target : Value} {values : Entries Value Value} {id : ObjectId}

def storeAll (st : Store) (id : ObjectId) (values : Entries Value Value) : Store :=
  values.foldl (fun st e ↦ st.setAttributes id (st.putAt (st.object id).attributes e.1 e.2)) st

/-- A store in which a target has got values. Where there are none it need not have room for any. -/
def Assigned (st : Store) (target : Value) (values : Entries Value Value) (st' : Store) : Prop :=
  (values = [] ∧ st' = st) ∨ ∃ id, attributesCell? target = some id ∧ st' = st.storeAll id values

@[simp] theorem setAttributes_setAttributes (st : Store) (id : ObjectId) (es es' : Entries Value Value) :
    (st.setAttributes id es).setAttributes id es' = st.setAttributes id es' := by
  simp only [setAttributes, object, Table.get_set, Table.set_set]
  split <;> rfl

theorem storeAll_cons_eq (st : Store) (id : ObjectId) (e : Value × Value)
    (values : Entries Value Value) :
    ∃ es, st.storeAll id (e :: values) = st.setAttributes id es := by
  induction values generalizing st e with
  | nil => exact ⟨_, rfl⟩
  | cons e' values ih =>
    obtain ⟨es, hes⟩ := ih (st.setAttributes id (st.putAt (st.object id).attributes e.1 e.2)) e'
    exact ⟨es, hes.trans (setAttributes_setAttributes _ _ _ _)⟩

theorem Assigned.eq_or (h : st.Assigned target values st') :
    st' = st ∨ ∃ id es, attributesCell? target = some id ∧ st' = st.setAttributes id es := by
  rcases h with ⟨-, h⟩ | ⟨id, hid, h⟩
  · exact .inl h
  · cases values with
    | nil => exact .inl h
    | cons e values =>
      obtain ⟨es, hes⟩ := storeAll_cons_eq st id e values
      exact .inr ⟨id, es, hid, h.trans hes⟩

/-- Values under names are stored as they would be all at once. -/
theorem attributes_storeAll (hid : id.index < st.objects.size) (new : Entries String Value) :
    ((st.storeAll id new.asTexts).object id).attributes =
      st.putAllAt (st.object id).attributes new.asTexts := by
  induction new generalizing st with
  | nil => rfl
  | cons e new ih =>
    let es := st.putAt (st.object id).attributes (.text e.1) e.2
    have hes : ((st.setAttributes id es).object id).attributes = es :=
      congrArg Object.attributes (Table.get_set_self hid _)
    refine (ih (Nat.lt_of_lt_of_eq hid (Table.size_set _ _ _).symm)).trans ?_
    rw [hes, putAllAt_asTexts, putAllAt_asTexts, List.foldl_cons,
      ← Entries.put_text _ st.comparesNames_sameKey]
    rfl

theorem ownAttribute?_eq (v : Value) (n : String) :
    st.ownAttribute? v n = (st.attributesOf v).named? n := by
  unfold ownAttribute? attributesOf
  cases attributesCell? v with
  | none => rfl
  | some id => exact Entries.get?_text _ Value.comparesNames n

theorem attributesOf_setAttributes (h : attributesCell? target = some id)
    (hid : id.index < st.objects.size) (es : Entries Value Value) :
    (st.setAttributes id es).attributesOf target = es := by
  unfold attributesOf
  rw [h]
  exact congrArg Object.attributes (Table.get_set_self hid _)

theorem attributesOf_of_assigned {new : Entries String Value}
    (h : st.Assigned target new.asTexts st')
    (hid : ∀ id, attributesCell? target = some id → id.index < st.objects.size) :
    st'.attributesOf target = st.putAllAt (st.attributesOf target) new.asTexts := by
  rcases h with ⟨hnew, rfl⟩ | ⟨id, hcell, rfl⟩
  · rw [hnew]
    rfl
  · rw [attributesOf, attributesOf, hcell]
    exact attributes_storeAll (hid id hcell) new

end Store

namespace Action

variable {registry target attributes evaluator : Value} {values : Entries Value Value}
  {s s' : State} {id : ObjectId}

theorem assignOne_of_cell {st : Store} (h : Store.attributesCell? target = some id) (name v : Value) :
    st.assignOne target name v =
      .ok (st.setAttributes id (st.putAt (st.object id).attributes name v)) := by
  have hopen : st.openAttributes target = .ok (.attributes id) := by
    unfold Store.openAttributes
    rw [h]
    rfl
  rw [Store.assignOne, hopen]
  rfl

theorem assign_of_cell (h : Store.attributesCell? target = some id) (values : Entries Value Value)
    (s : State) : assign target values s = .ok () { s with store := s.store.storeAll id values } := by
  induction values generalizing s with
  | nil => rfl
  | cons e values ih =>
    have hone := attempt_of_ok (s := s) (f := (·.assignOne target e.1 e.2)) (assignOne_of_cell h e.1 e.2)
    exact (bind_of_ok hone).trans (ih _)

/-- A target that has no room for the first of its values gets none of them, and one that has room for
the first has room for all. -/
theorem assign_cases (target : Value) (values : Entries Value Value) (s : State) :
    (∃ e, assign target values s = .error e s) ∨
      ∃ st', assign target values s = .ok () { s with store := st' } ∧
        s.store.Assigned target values st' := by
  cases hcell : Store.attributesCell? target with
  | some id => exact .inr ⟨_, assign_of_cell hcell values s, .inr ⟨id, hcell, rfl⟩⟩
  | none =>
    cases values with
    | nil => exact .inr ⟨_, rfl, .inl ⟨rfl, rfl⟩⟩
    | cons e values =>
      obtain ⟨fault, hopen⟩ : ∃ fault, s.store.openAttributes target = .error fault := by
        unfold Store.openAttributes
        rw [hcell]
        split
        · next h => cases h
        · exact ⟨_, rfl⟩
        · exact ⟨_, rfl⟩
      have hone : s.store.assignOne target e.1 e.2 = .error fault := by
        rw [Store.assignOne, hopen]
        rfl
      have hattempt : attempt (·.assignOne target e.1 e.2) s = .error fault s :=
        bind_of_error (ask_of_error hone)
      exact .inl ⟨fault, bind_of_error hattempt⟩

theorem store_of_failed_assignment {e : Fault}
    (h : assignValidated registry target attributes evaluator s = .error e s') :
    s'.store = s.store := by
  rcases bind_eq_error h with hcheck | ⟨values, s₁, hcheck, h⟩
  · obtain ⟨session, -, rfl⟩ := check_eq_error hcheck
    rfl
  · obtain ⟨session, -, rfl⟩ := check_eq_ok hcheck
    rcases assign_cases target values ⟨s.store, session⟩ with ⟨e', hassign⟩ | ⟨st', hassign, -⟩
    · rw [bind_of_error hassign] at h
      cases h
      rfl
    · rw [bind_of_ok hassign] at h
      cases h

theorem selected_of_accepted {judge : Except Fault Judge} {typeName : String} {r : Roster}
    {supply : Supply} {values : Entries Value Value} {st : Store} {t t' : Session}
    (h : st.acceptedValues judge typeName r supply t = .ok values t') :
    st.selected r supply = .ok values := by
  obtain ⟨-, t₁, -, h⟩ := bind_eq_ok h
  obtain ⟨values', t₂, hselected, h⟩ := bind_eq_ok h
  obtain ⟨judge', t₃, -, h⟩ := bind_eq_ok h
  obtain ⟨fields, t₄, -, h⟩ := bind_eq_ok h
  obtain ⟨-, t₅, -, h⟩ := bind_eq_ok h
  cases h
  exact Check.of_ofExcept_run hselected

theorem assigned_of_done {v : Value}
    (h : assignValidated registry target attributes evaluator s = .ok v s') :
    v = target ∧ ∃ values, s.store.selected (s.store.roster registry) (s.store.supply attributes) =
      .ok values ∧ s.store.Assigned target values s'.store := by
  obtain ⟨values, s₁, hcheck, h⟩ := bind_eq_ok h
  obtain ⟨session, haccepted, rfl⟩ := check_eq_ok hcheck
  rcases assign_cases target values ⟨s.store, session⟩ with ⟨e, hassign⟩ | ⟨st', hassign, hst'⟩
  · rw [bind_of_error hassign] at h
    cases h
  · rw [bind_of_ok hassign] at h
    cases h
    exact ⟨rfl, values, selected_of_accepted haccepted, hst'⟩

/-- An assignment that fails leaves all values as they are. One that succeeds changes nothing but
the declared attributes of its target, each of which then has the value that is given for it. -/
theorem assignValidated_atomic (registry target attributes evaluator : Value) (s : State) :
    (∀ e s', assignValidated registry target attributes evaluator s = .error e s' →
      s'.store = s.store) ∧
    ∀ v s', assignValidated registry target attributes evaluator s = .ok v s' → v = target ∧
      (∃ values, s.store.selected (s.store.roster registry) (s.store.supply attributes) =
        .ok values ∧ s.store.Assigned target values s'.store) ∧
      ∀ names : List String, s.store.iterate registry = .ok (names.map .text) →
        (∀ id, Store.attributesCell? target = some id → id.index < s.store.objects.size) →
        (∀ n ∈ names, ∃ w, s.store.valueOrNil attributes (.text n) = .ok w ∧
          s'.store.ownAttribute? target n = some w ∧
          ∀ es, s.store.mapping? attributes = some es → w = (es.named? n).getD .nil) ∧
        (∀ n ∉ names, s'.store.ownAttribute? target n = s.store.ownAttribute? target n) ∧
        (s'.store.attributesOf target).filter (fun e ↦ !e.1.isAmong names) =
          (s.store.attributesOf target).filter fun e ↦ !e.1.isAmong names := by
  refine ⟨fun e s' ↦ store_of_failed_assignment, fun v s' h ↦ ?_⟩
  obtain ⟨rfl, values, hvalues, hassigned⟩ := assigned_of_done h
  refine ⟨rfl, ⟨values, hvalues, hassigned⟩, fun names hnames hid ↦ ?_⟩
  obtain ⟨names', hnames', hall⟩ := Store.exists_of_selected hvalues
  obtain rfl : names' = names.map .text := Except.ok.inj (hnames'.symm.trans hnames)
  let value (n : String) : Value := (s.store.valueOrNil attributes (.text n)).toOption.getD .nil
  have hvalue (n : String) (hn : n ∈ names) :
      s.store.valueOrNil attributes (.text n) = .ok (value n) := by
    obtain ⟨w, hw⟩ := hall (.text n) (List.mem_map_of_mem hn)
    have hw : s.store.valueOrNil attributes (.text n) = .ok w := hw
    simp only [value, hw]
    rfl
  have hrun : s.store.selected (s.store.roster registry) (s.store.supply attributes) = _ :=
    Store.selected_run value hnames hvalue
  obtain rfl := Except.ok.inj (hrun.symm.trans hvalues)
  have hnew := Entries.nodup_keys_ofList (names.map fun n ↦ (n, value n))
  have hattributes := Store.attributesOf_of_assigned hassigned hid
  have hread (n : String) : s'.store.ownAttribute? v n =
      (if n ∈ names then some (value n) else none).or (s.store.ownAttribute? v n) := by
    rw [Store.ownAttribute?_eq, hattributes, Store.named?_putAllAt _ _ hnew, Store.ownAttribute?_eq,
      Entries.get?_ofList_map]
  refine ⟨fun n hn ↦ ⟨value n, hvalue n hn, by simp [hread, hn], fun es hes ↦ ?_⟩,
    fun n hn ↦ by simp [hread, hn], ?_⟩
  · exact Store.eq_of_valueOrNil (hvalue n hn) hes
  · rw [hattributes]
    refine s.store.filter_putAllAt (p := fun k ↦ !k.isAmong names) _ _ fun k n hn hk ↦ ?_
    rw [Entries.keys_ofList, List.mem_eraseDups] at hn
    have hn : n ∈ names := by simpa [Entries.keys] using hn
    simp [Value.isAmong, hk, hn]

def withLabel : State where
  store :=
    { Store.initial with
      dictionaries := ⟨#[[], [(.text "label", .object (.builtin .field) ⟨2⟩)],
        [(.text "label", .text "kiwi")]]⟩
      objects := ⟨#[⟨"", [(.text "_fields", .mappingView (.cell 0))]⟩,
        ⟨"", [(.text "target", .ofClass (.builtin .text))]⟩,
        ⟨"", [(.text "constraint", .object (.builtin .typeConstraint) ⟨1⟩),
          (.text "allow_nil", .bool false), (.text "name", .text "label")]⟩,
        ⟨"", [(.text "_fields", .mappingView (.cell 1))]⟩,
        ⟨"", [(.text "label", .text "lime"), (.text "note", .int 7)]⟩]⟩ }
  session := .initial

theorem assignValidated_atomic_withLabel :
    let registry := Value.object (.builtin .fieldRegistry) ⟨3⟩
    let target := Value.object .root ⟨4⟩
    ∃ s', assignValidated registry target (.dictionary (.cell 2)) .nil withLabel = .ok target s' ∧
      s'.store.ownAttribute? target "label" = some (.text "kiwi") ∧
      s'.store.ownAttribute? target "note" = some (.int 7) := by
  intro registry target
  have hrun : ∃ s', assignValidated registry target (.dictionary (.cell 2)) .nil withLabel =
      .ok target s' := ⟨_, rfl⟩
  obtain ⟨s', hrun⟩ := hrun
  obtain ⟨-, -, hnames⟩ :=
    (assignValidated_atomic registry target (.dictionary (.cell 2)) .nil withLabel).2 _ _ hrun
  have hid (id : ObjectId) (h : Store.attributesCell? target = some id) :
      id.index < withLabel.store.objects.size := by cases h; decide
  obtain ⟨hlabel, hother, -⟩ := hnames ["label"] rfl hid
  obtain ⟨w, -, hread, hgiven⟩ := hlabel "label" (by simp)
  rw [hgiven _ rfl] at hread
  exact ⟨s', hrun, hread, hother "note" (by decide)⟩

end Action

end Conformance
