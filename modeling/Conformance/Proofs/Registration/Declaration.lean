import Conformance.Object
import Conformance.Proofs.Effect
import Conformance.Proofs.Registration.Refresh

namespace Conformance

def isDunder (n : String) : Bool :=
  4 < n.length && ['_', '_'].isPrefixOf n.toList && ['_', '_'].isSuffixOf n.toList

/-- A name that has a meaning of its own: that of the refresh, or one between double underscores. -/
def isReserved (n : String) : Bool :=
  n == "_refresh_registry" || isDunder n

theorem isDunder_registryName : isDunder registryName = true := by decide +kernel

theorem ne_of_isDunder {n m : String} (hn : isDunder n = false) (hm : isDunder m = true) : n ≠ m := by
  rintro rfl
  rw [hm] at hn
  cases hn

theorem isReserved_eq_false_iff {n : String} :
    isReserved n = false ↔ n ≠ "_refresh_registry" ∧ isDunder n = false := by
  rw [isReserved, Bool.or_eq_false_iff, beq_eq_false_iff_ne]

/-- What a class body may bind to a name. A value under the name of the refresh would take its place,
and no field has a name between double underscores. -/
structure Store.Suits (st : Store) (e : String × Value) : Prop where
  known : st.Knows e.2
  refresh : e.1 ≠ "_refresh_registry"
  field (h : st.isField e.2 = true) : isDunder e.1 = false

namespace Action

open Store

theorem newObject_run (c : ClassId) (attributes : Entries Value Value) (s : State) :
    ∃ s', newObject c attributes s = .ok (.object c ⟨s.store.objects.size⟩) s' ∧
      s.store.Grows s'.store ∧ s.store.objects.size < s'.store.objects.size :=
  ⟨_, rfl, grows_newObject _ _, Nat.lt_of_lt_of_eq (Nat.lt_succ_self _) (Table.size_add _ _).symm⟩

mutual
theorem build_run (b : Blueprint) (s : State) :
    ∃ v s', build b s = .ok v s' ∧ s.store.Grows s'.store := by
  cases b with
  | given c => exact ⟨c, s, rfl, .refl _⟩
  | type target =>
    obtain ⟨s', hrun, hgrows, -⟩ :=
      newObject_run (.builtin .typeConstraint) [(.text "target", target)] s
    exact ⟨_, s', hrun, hgrows⟩
  | literals values =>
    obtain ⟨s', hrun, hgrows, -⟩ :=
      newObject_run (.builtin .literalConstraint) [(.text "values", .tuple values)] s
    exact ⟨_, s', hrun, hgrows⟩
  | array element =>
    obtain ⟨v, s', hbuild, hgrows⟩ := build_run element s
    obtain ⟨s'', hrun, hgrows', -⟩ :=
      newObject_run (.builtin .arrayConstraint) [(.text "element", v)] s'
    exact ⟨_, s'', (bind_of_ok hbuild).trans hrun, hgrows.trans hgrows'⟩
  | union branches =>
    obtain ⟨vs, s', hbuild, hgrows⟩ := buildAll_run branches s
    obtain ⟨s'', hrun, hgrows', -⟩ :=
      newObject_run (.builtin .unionConstraint) [(.text "branches", .tuple vs)] s'
    exact ⟨_, s'', (bind_of_ok hbuild).trans hrun, hgrows.trans hgrows'⟩
termination_by structural b
theorem buildAll_run (bs : List Blueprint) (s : State) :
    ∃ vs s', buildAll bs s = .ok vs s' ∧ s.store.Grows s'.store := by
  cases bs with
  | nil => exact ⟨[], s, rfl, .refl _⟩
  | cons b bs =>
    obtain ⟨v, s', hbuild, hgrows⟩ := build_run b s
    obtain ⟨vs, s'', hrun, hgrows'⟩ := buildAll_run bs s'
    refine ⟨v :: vs, s'', ?_, hgrows.trans hgrows'⟩
    rw [buildAll, bind_of_ok hbuild, bind_of_ok hrun]
    rfl
termination_by structural bs
end

def YieldsField (x : Action Value) (s : State) : Prop :=
  ∃ id s', x s = .ok (.object (.builtin .field) id) s' ∧ s.store.Grows s'.store ∧
    s.store.objects.size ≤ id.index ∧ id.index < s'.store.objects.size

theorem builtField_run (read : Store → Except Fault Blueprint) (allowNil : Bool) (s : State) :
    (∃ e, (do newField (← built read) allowNil : Action Value) s = .error e s) ∨
    YieldsField (do newField (← built read) allowNil) s := by
  cases hread : read s.store with
  | error e =>
    have hbuilt : built read s = .error e s := bind_of_error (ask_of_error hread)
    exact .inl ⟨e, bind_of_error hbuilt⟩
  | ok b =>
    obtain ⟨v, s', hbuild, hgrows⟩ := build_run b s
    have hbuilt : built read s = .ok v s' := (bind_of_ok (ask_of_ok hread)).trans hbuild
    obtain ⟨s'', hrun, hgrows', hlt⟩ := newObject_run (.builtin .field)
      [ (.text "constraint", v), (.text "allow_nil", .bool allowNil), (.text "name", .nil) ] s'
    exact .inr ⟨_, s'', (bind_of_ok hbuilt).trans hrun, hgrows.trans hgrows', hgrows.objects_le, hlt⟩

theorem verboseField_run (spec elementType : Value) (allowNil : Bool) (s : State) :
    (∃ e, verboseField spec elementType allowNil s = .error e s) ∨
    YieldsField (verboseField spec elementType allowNil) s := by
  unfold verboseField
  split
  · exact builtField_run (·.shorthand spec) allowNil s
  · split
    · exact builtField_run (·.arrayBlueprint elementType) allowNil s
    · refine .inl ?_
      cases hwritten : s.store.written spec with
      | error e => exact ⟨e, bind_of_error (ask_of_error hwritten)⟩
      | ok text => exact ⟨_, (bind_of_ok (ask_of_ok hwritten)).trans rfl⟩

end Action

namespace Store

/-- A change that concerns no class but one and those that extend it. -/
structure ChangedBelow (c : ClassId) (st st' : Store) : Prop where
  coherent : st'.Coherent
  hierarchy : SameHierarchy st st'
  lists : st.KeepsLists st'
  others (e : ClassId) (he : c ∉ st.linearization e) : st'.body e = st.body e

variable {st st' : Store} {n : Nat}

theorem ChangedBelow.of_keeps (h : st.Coherent) (hk : st.Keeps st') (c : ClassId) :
    ChangedBelow c st st' where
  coherent := h.keep hk
  hierarchy := hk.sameHierarchy
  lists := hk.lists
  others e _ := by rw [hk.body_eq]

theorem ChangedBelow.trans_keeps {c : ClassId} {st'' : Store} (h : ChangedBelow c st' st'')
    (hk : st.Keeps st') : ChangedBelow c st st'' where
  coherent := h.coherent
  hierarchy := hk.sameHierarchy.trans h.hierarchy
  lists := hk.lists.trans h.lists
  others e he := by
    rw [← hk.sameHierarchy.linearization_eq] at he
    rw [h.others e he, hk.body_eq]

def withField (st : Store) (n : Nat) (name : String) (field key : Value) : Store :=
  (st.putInBody (.defined n) name field).nameField field key

variable {name : String} {field key : Value}

theorem wellFormed_withField (h : st.WellFormed) (hn : n < st.classes.size)
    (hname : isReserved name = false) (hfield : st.Knows field) :
    (st.withField n name field key).WellFormed := by
  obtain ⟨hrefresh, hdunder⟩ := isReserved_eq_false_iff.1 hname
  have hregistry : name ≠ registryName := ne_of_isDunder hdunder isDunder_registryName
  have hput := h.putInBody hn hrefresh hfield fun heq ↦ (hregistry heq).elim
  exact hput.keep (keeps_nameField _ field key)

theorem sameHierarchy_withField : SameHierarchy st (st.withField n name field key) :=
  (sameHierarchy_putInBody st n name field).trans (keeps_nameField _ field key).sameHierarchy

theorem keepsLists_withField : st.KeepsLists (st.withField n name field key) :=
  (keepsLists_putInBody st (.defined n) name field).trans (keeps_nameField _ field key).lists

theorem body_withField (hn : n < st.classes.size) {c : ClassId} (hc : c ≠ .defined n) :
    (st.withField n name field key).body c = st.body c := by
  rw [withField, (keeps_nameField _ field key).body_eq, body_putInBody hn, if_neg hc]

theorem registers_withField (h : st.Coherent) (hn : n < st.classes.size) {c : ClassId}
    (hroot : .root ∈ st.linearization c) (hmem : .defined n ∉ st.linearization c) :
    (st.withField n name field key).Registers c ((st.withField n name field key).collected c) := by
  have hsame : SameHierarchy st (st.withField n name field key) := sameHierarchy_withField
  obtain ⟨m, hm, rfl⟩ := exists_of_root_mem hroot
  have hself := h.wellFormed.hierarchy.mem_linearization_self (c := .defined m) hm
  have hcollected : (st.withField n name field key).collected (.defined m) =
      st.collected (.defined m) := by
    refine collected_congr (congrFun hsame.linearization_eq _) fun d hd ↦ ?_
    rw [hsame.fieldsOf_eq, body_withField hn]
    rintro rfl
    exact hmem hd
  rw [hcollected]
  refine keepsLists_withField.registers (body_withField hn ?_) (h.registers _ hroot)
  rintro heq
  exact hmem (heq ▸ hself)

/-- The classes that a refresh does not come to do not have the class in their linearization, so
that their fields are what they were. -/
theorem changedBelow_withField (h : st.Coherent) (hn : n < st.classes.size)
    (hrefreshed : Refreshed
      ((st.withField n name field key).InReach (st.withField n name field key).classes.size (.defined n))
      (st.withField n name field key) st') : ChangedBelow (.defined n) st st' := by
  have hsame : SameHierarchy st (st.withField n name field key) := sameHierarchy_withField
  have hout : ∀ e, ¬ (st.withField n name field key).InReach
      (st.withField n name field key).classes.size (.defined n) e →
      .root ∈ st.linearization e → .defined n ∉ st.linearization e := by
    intro e he hroot hmem
    obtain ⟨m, hm, rfl⟩ := exists_of_root_mem hroot
    refine he ?_
    rw [hsame.inReach_eq, hsame.size_eq]
    exact inReach_mono hm (h.wellFormed.hierarchy.inReach_of_mem m hmem)
  refine ⟨hrefreshed.coherent fun e he hroot ↦ ?_, hsame.trans hrefreshed.hierarchy,
    keepsLists_withField.trans hrefreshed.lists, fun e he ↦ ?_⟩
  · rw [hsame.linearization_eq] at hroot
    exact registers_withField h hn hroot (hout e he hroot)
  · have hreach : ¬ (st.withField n name field key).InReach
        (st.withField n name field key).classes.size (.defined n) e := by
      rw [hsame.inReach_eq]
      intro hreach
      exact he (h.wellFormed.hierarchy.mem_of_inReach (c := .defined n) hn hreach).2
    have hne : e ≠ .defined n := by
      rintro rfl
      exact he (h.wellFormed.hierarchy.mem_linearization_self (c := .defined n) hn)
    rw [hrefreshed.others e hreach, body_withField hn hne]

end Store

namespace Action

open Store

variable {c : ClassId} {s : State}

theorem store_recordDeclared (c : ClassId) (name : String) (field : Value) (s : State) :
    (after (recordDeclared c name field) s).store = s.store := by
  refine after_bind_ask (P := fun t ↦ t.store = s.store) rfl fun className _ ↦ ?_
  refine after_bind_ask (P := fun t ↦ t.store = s.store) rfl fun constraint _ ↦ ?_
  refine after_bind_ask (P := fun t ↦ t.store = s.store) rfl fun written _ ↦ ?_
  cases written with
  | ok text => rfl
  | error e => rfl

/-- A declaration changes nothing if the name is no text. Otherwise it goes as far as the refresh,
and what comes afterwards only looks at the field. -/
theorem after_declare {name field : Value} (h : s.store.Coherent)
    (hc : .root ∈ s.store.linearization c)
    (hname : ∀ n, name.text? = some n → isReserved n = false) (hfield : s.store.Knows field) :
    ChangedBelow c s.store (after (declare c name field) s).store := by
  unfold declare
  split
  · have hkept : ChangedBelow c s.store s.store := .of_keeps h (.refl _) c
    exact after_bind_ask (P := fun t ↦ ChangedBelow c s.store t.store) hkept fun typeName _ ↦ hkept
  · next text htext =>
    obtain ⟨n, hn, rfl⟩ := exists_of_root_mem hc
    let s₁ : State := { s with store := s.store.withField n text field name }
    have hwell : s₁.store.WellFormed :=
      wellFormed_withField h.wellFormed hn (hname text htext) hfield
    have hroot : .root ∈ s₁.store.linearization (.defined n) := by
      have hsame : SameHierarchy s.store s₁.store := sameHierarchy_withField
      rwa [hsame.linearization_eq]
    obtain ⟨s₂, hrun, hrefreshed⟩ := refreshWithin_run s₁.store.classes.size (.defined n) s₁ hwell hroot
    have hchanged := changedBelow_withField h hn hrefreshed
    have hput : update (·.putInBody (.defined n) text field) s =
        .ok () { s with store := s.store.putInBody (.defined n) text field } := rfl
    have hnamed : update (·.nameField field name)
        { s with store := s.store.putInBody (.defined n) text field } = .ok () s₁ := rfl
    have hrefresh : refresh (.defined n) s₁ = .ok () s₂ := (bind_of_ok rfl).trans hrun
    rw [after_bind_of_ok hput, after_bind_of_ok hnamed, after_bind_of_ok hrefresh]
    rwa [store_recordDeclared]

theorem declareOn_start (c : ClassId) (operation : String) (name spec elementType : Value)
    (allowNil : Bool) (s : State) :
    (∃ e, declareOn (.ofClass c) operation name spec elementType allowNil s = .error e s) ∨
    declareOn (.ofClass c) operation name spec elementType allowNil s = (do
      let field ← verboseField spec elementType allowNil
      declare c name field
      return field : Action Value) s := by
  cases hoperation : s.store.hasOperation (.ofClass c) operation with
  | error e =>
    have hclass : classWith (.ofClass c) operation s = .error e s :=
      bind_of_error (ask_of_error hoperation)
    exact .inl ⟨e, bind_of_error hclass⟩
  | ok u =>
    have hclass : classWith (.ofClass c) operation s = .ok c s := bind_of_ok (ask_of_ok hoperation)
    exact .inr (bind_of_ok hclass)

theorem declareOn_refused {operation : String} {name spec elementType : Value} {allowNil : Bool}
    {e : Fault} {t : State} (hrefused : verboseField spec elementType allowNil s = .error e t) :
    ∃ e', declareOn (.ofClass c) operation name spec elementType allowNil s = .error e' s := by
  rcases declareOn_start c operation name spec elementType allowNil s with hfail | hstart
  · exact hfail
  · rcases verboseField_run spec elementType allowNil s with ⟨e', hfield⟩ | ⟨id, s', hfield, -⟩
    · exact ⟨e', hstart.trans (bind_of_error hfield)⟩
    · rw [hrefused] at hfield
      cases hfield

theorem after_declareOn {name : Value} (h : s.store.Coherent)
    (hc : .root ∈ s.store.linearization c)
    (hname : ∀ n, name.text? = some n → isReserved n = false) (operation : String)
    (spec elementType : Value) (allowNil : Bool) :
    ChangedBelow c s.store
      (after (declareOn (.ofClass c) operation name spec elementType allowNil) s).store := by
  rcases declareOn_start c operation name spec elementType allowNil s with ⟨e, hfail⟩ | hstart
  · rw [after_of_error hfail]
    exact .of_keeps h (.refl _) c
  · rw [after_congr hstart]
    rcases verboseField_run spec elementType allowNil s with ⟨e, hfield⟩ | ⟨id, s', hfield, hgrows, -⟩
    · rw [after_bind_of_error hfield]
      exact .of_keeps h (.refl _) c
    · have hkeeps := hgrows.keeps
      have hroot : .root ∈ s'.store.linearization c := by
        rwa [hkeeps.sameHierarchy.linearization_eq]
      have hfield' : s'.store.Knows (.object (.builtin .field) id) := trivial
      have hchanged := after_declare (h.keep hkeeps) hroot hname hfield'
      rw [after_bind_of_ok hfield]
      exact (after_bind_pure (declare c name _) _ s') ▸ hchanged.trans_keeps hkeeps

namespace Within

variable {R : Store → Store → Prop}

theorem register {c : ClassId} (h : ∀ st, R st (st.withRegistry c)) : Within R (Action.register c) := by
  intro s
  obtain ⟨s', hrun, hstore⟩ := register_run c s
  rw [after, hrun]
  change R s.store s'.store
  rw [hstore]
  exact h s.store

variable [IsPreorder Store R]

theorem refreshWithin (h : ∀ st c, R st (withRegistry st c)) (k : Nat) (c : ClassId) :
    Within R (Action.refreshWithin k c) := by
  induction k generalizing c with
  | zero => exact pure ()
  | succ k ih =>
    unfold Action.refreshWithin
    refine bind (ask _) fun _ ↦ bind (register fun st ↦ h st c) fun _ ↦ ?_
    exact bind (ask _) fun ds ↦ forM fun d _ ↦ ih d

/-- A declaration makes a field, puts it under its name and collects the fields of classes. -/
theorem declareOn {c : ClassId} {name : Value} (hgrows : ∀ st st', Grows st st' → R st st')
    (hfield : ∀ (st : Store) (id : ObjectId) (n : String), name.text? = some n →
      id.index < st.objects.size → ∀ st₀, st₀.Grows st → st₀.objects.size ≤ id.index →
      R st₀ ((st.putInBody c n (.object (.builtin .field) id)).nameField
        (.object (.builtin .field) id) name))
    (hregistry : ∀ st c, R st (withRegistry st c)) (operation : String) (spec elementType : Value)
    (allowNil : Bool) :
    Within R (Action.declareOn (.ofClass c) operation name spec elementType allowNil) := by
  intro s
  rcases declareOn_start c operation name spec elementType allowNil s with ⟨e, hfail⟩ | hstart
  · rw [after_of_error hfail]
    exact refl s.store
  rw [after_congr hstart]
  rcases verboseField_run spec elementType allowNil s with
    ⟨e, hfail⟩ | ⟨id, s₁, hfielded, hgrown, hid, hid'⟩
  · rw [after_bind_of_error hfail]
    exact refl s.store
  rw [after_bind_of_ok hfielded, after_bind_pure]
  let f := Value.object (.builtin .field) id
  cases htext : name.text? with
  | none =>
    have hdeclare : declare c name f s₁ = (MonadExcept.throw
        (.nameNotText (s₁.store.typeName name)) : Action Unit) s₁ := by
      rw [declare, htext]
      rfl
    rw [after_congr hdeclare]
    exact hgrows _ _ hgrown
  | some n =>
    let s₂ : State := { s₁ with store := s₁.store.putInBody c n f }
    let s₃ : State := { s₂ with store := s₂.store.nameField f name }
    have hput : Action.update (·.putInBody c n f) s₁ = .ok () s₂ := rfl
    have hnamed : Action.update (·.nameField f name) s₂ = .ok () s₃ := rfl
    have hrest : Within R (do refresh c; recordDeclared c n f) :=
      bind (bind (ask _) fun k ↦ refreshWithin hregistry k c) fun _ ↦ of_store (store_recordDeclared c n f)
    have hdeclare : after (declare c name f) s₁ = after (do refresh c; recordDeclared c n f) s₃ := by
      rw [declare, htext]
      exact (after_bind_of_ok hput).trans (after_bind_of_ok hnamed)
    rw [hdeclare]
    exact trans_of R (hfield s₁.store id n htext hid' s.store hgrown hid) (hrest s₃)

end Within

end Action

end Conformance
