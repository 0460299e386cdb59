import Conformance.Proofs.Registration.Coherence
import Conformance.Proofs.Registration.Naming

open Conformance.Action

namespace Conformance

namespace Store

def HasField (st : Store) (f : Value) : Prop :=
  ∃ id, f = .object (.builtin .field) id ∧ id.index < st.objects.size

def IsNamed (bound : Value → String → Prop) (st : Store) (f : Value) : Prop :=
  ∃ m, bound f m ∧ st.GoesBy f m

/-- Every field in a class is bound to the name that it has there, and goes by one of its names. -/
def Named (bound : Value → String → Prop) (st : Store) : Prop :=
  ∀ c n f, (st.body c).get? n = some f → st.isField f = true →
    isDunder n = false ∧ bound f n ∧ st.IsNamed bound f

/-- What is found first under a name is no field. -/
def Overridden (st : Store) (c : ClassId) (n : String) : Prop :=
  ∃ v, st.classAttribute? c n = some v ∧ st.isField v = false

end Store

/-- One step of a run that puts fields into classes, each under names that it is `bound` to. -/
inductive Binding (bound : Value → String → Prop) : State → State → Prop
  | define {s : State} {bases : List ClassId} {attributes : List (String × Value)}
      (hbases : ∀ b ∈ bases, s.store.HasClass b)
      (hattributes : ∀ e ∈ attributes, s.store.Suits e)
      (hfields : ∀ e ∈ attributes, s.store.isField e.2 = true → bound e.2 e.1 ∧ s.store.HasField e.2)
      (name home : String) : Binding bound s (after (defineClass name home bases attributes) s)
  | declare {s : State} {c : ClassId} {n : String} (hc : .root ∈ s.store.linearization c)
      (hn : isReserved n = false) (operation : String) (spec elementType : Value) (allowNil : Bool)
      (hbound : ∀ f,
        let s' := after (declareOn (.ofClass c) operation (.text n) spec elementType allowNil) s
        (s'.store.body c).get? n = some f → s'.store.isField f = true → bound f n) :
      Binding bound s (after (declareOn (.ofClass c) operation (.text n) spec elementType allowNil) s)
  | other {s s' : State} (h : s.store.Keeps s'.store)
      (hnames : ∀ f n, s.store.GoesBy f n → s'.store.GoesBy f n) : Binding bound s s'

theorem Builtin.isField_body (st : Store) (b : Builtin) : ∀ e ∈ b.body, st.isField e.2 = false :=
  b.forall_mem_body (P := fun v ↦ st.isField v = false) (fun _ ↦ rfl) (fun _ ↦ rfl) (fun _ ↦ rfl)
    fun _ ↦ rfl

namespace Store

variable {bound : Value → String → Prop} {st st' : Store} {c : ClassId} {f v : Value} {n : String}

theorem WellFormed.isField_registry (h : st.WellFormed)
    (hv : (st.body c).get? registryName = some v) : st.isField v = false := by
  cases c with
  | builtin b =>
    rw [h.body_builtin] at hv
    exact b.isField_body st _ (Entries.mem_of_get? hv)
  | defined l => exact h.registry l v hv

theorem isNamed_nameField {id : ObjectId} (hbound : bound (.object (.builtin .field) id) n)
    (h : st.IsNamed bound f) :
    (st.nameField (.object (.builtin .field) id) (.text n)).IsNamed bound f := by
  obtain ⟨m, hm, i, rfl, hname⟩ := h
  by_cases hid : id = i
  · subst hid
    exact ⟨n, hbound, goesBy_nameField (lt_size_of_named? hname) n⟩
  · refine ⟨m, hm, i, rfl, ?_⟩
    rwa [object_nameField_of_ne hid]

/-- Fields that are named one after the other come to have names, and so do those that had one: a
field that is named again has its old name no longer, but a new one that it is bound to as well. -/
theorem isNamed_foldl {es : Entries String Value}
    (hes : ∀ e ∈ es, bound e.2 e.1 ∧ st.HasField e.2) :
    let st' := es.foldl (fun st e ↦ st.nameField e.2 (.text e.1)) st
    (∀ f, st.IsNamed bound f → st'.IsNamed bound f) ∧ ∀ e ∈ es, st'.IsNamed bound e.2 := by
  induction es generalizing st with
  | nil => exact ⟨fun f hf ↦ hf, List.forall_mem_nil _⟩
  | cons e es ih =>
    obtain ⟨n, field⟩ := e
    obtain ⟨⟨hbound, id, rfl, hid⟩, htail⟩ := List.forall_mem_cons.1 hes
    let st₁ := st.nameField (.object (.builtin .field) id) (.text n)
    have hself : st₁.IsNamed bound (.object (.builtin .field) id) :=
      ⟨n, hbound, goesBy_nameField hid n⟩
    have hes₁ : ∀ e ∈ es, bound e.2 e.1 ∧ st₁.HasField e.2 := by
      intro e he
      obtain ⟨hbound', i, hi, hlt⟩ := htail e he
      exact ⟨hbound', i, hi, Nat.lt_of_lt_of_eq hlt (size_nameField _ _ _).symm⟩
    obtain ⟨hkept, hall⟩ := ih hes₁
    refine ⟨fun f hf ↦ hkept f (isNamed_nameField hbound hf), ?_⟩
    exact List.forall_mem_cons.2 ⟨hkept _ hself, hall⟩

namespace Named

theorem rebind (h : st.Named bound) (hrebinds : Rebinds c n st st') (hwell : st'.WellFormed)
    (hnew : ∀ f, n ≠ registryName → st'.isField f = true → (st'.body c).get? n = some f →
      isDunder n = false ∧ bound f n) : st'.Named bound := by
  intro d k f hf hfield
  by_cases hk : k = registryName
  · subst hk
    rw [hwell.isField_registry hf] at hfield
    cases hfield
  rcases hrebinds.get?_body d k hk with hsame | ⟨rfl, rfl, f', hf', id, rfl, -, hname⟩
  · rw [hsame] at hf
    rw [isField_of_linearization hrebinds.linearization_eq] at hfield
    obtain ⟨hk, hbound, m, hm, hname⟩ := h d k f hf hfield
    exact ⟨hk, hbound, m, hm, goesBy_of_object hname hrebinds.object_eq⟩
  · rw [hf] at hf'
    cases hf'
    obtain ⟨hk, hbound⟩ := hnew _ hk hfield hf
    exact ⟨hk, hbound, k, hbound, hname⟩

theorem define (h : st.Named bound) (hwell : st.WellFormed) {home : String} {d : ClassDef}
    {attributes : List (String × Value)}
    (hbody : d.body = classBody home (Entries.ofList attributes))
    (hattributes : ∀ e ∈ attributes, st.Suits e)
    (hfields : ∀ e ∈ attributes, st.isField e.2 = true → bound e.2 e.1 ∧ st.HasField e.2) :
    ((st.newClass d).2.nameFields d.body).Named bound := by
  have hkeeps := keeps_nameFields (st.newClass d).2 d.body
  -- the entries that every body has besides are no fields
  have hwritten {e : String × Value} (he : e ∈ d.body)
      (hfield : (st.newClass d).2.isField e.2 = true) : e ∈ attributes := by
    rw [hbody] at he
    rcases mem_classBody home he with he | rfl | rfl
    · exact he
    · cases hfield
    · cases hfield
  have hnames {e : String × Value} (he : e ∈ attributes)
      (hfield : (st.newClass d).2.isField e.2 = true) :
      isDunder e.1 = false ∧ bound e.2 e.1 ∧ st.HasField e.2 := by
    rw [isField_newClass (hattributes e he).known] at hfield
    exact ⟨(hattributes e he).field hfield, hfields e he hfield⟩
  have hes : ∀ e ∈ (st.newClass d).2.fieldsOf d.body,
      bound e.2 e.1 ∧ (st.newClass d).2.HasField e.2 := by
    intro e he
    obtain ⟨he, hfield⟩ := List.mem_filter.1 he
    exact (hnames (hwritten he hfield) hfield).2
  obtain ⟨hkept, hnamed⟩ := isNamed_foldl hes
  intro c n f hf hfield
  rw [hkeeps.body_eq, body_newClass] at hf
  rw [hkeeps.sameHierarchy.isField_eq] at hfield
  split at hf
  · have hmem := Entries.mem_of_get? hf
    obtain ⟨hn, hbound, -⟩ := hnames (hwritten hmem hfield) hfield
    refine ⟨hn, hbound, ?_⟩
    exact hnamed _ (List.mem_filter.2 ⟨hmem, hfield⟩)
  · rw [isField_newClass (hwell.knows_of_mem c _ (Entries.mem_of_get? hf))] at hfield
    obtain ⟨hn, hbound, hname⟩ := h c n f hf hfield
    exact ⟨hn, hbound, hkept f hname⟩

end Named

theorem named_initial : initial.Named bound := by
  intro c n f hf hfield
  have hnone : ∀ e ∈ initial.body c, initial.isField e.2 = false := by
    cases c with
    | builtin b => exact wellFormed_initial.body_builtin b ▸ b.isField_body initial
    | defined l =>
      by_cases hl : l = 0
      · subst hl
        decide +kernel
      · rw [body_initial hl]
        exact List.forall_mem_nil _
  rw [hnone _ (Entries.mem_of_get? hf)] at hfield
  cases hfield

end Store

section Run

variable {bound : Value → String → Prop} {s s' : State}

theorem step_of_binding (h : Binding bound s s') : Step s s' := by
  cases h with
  | define hbases hattributes _ name home => exact .define hbases hattributes name home
  | declare hc hn operation spec elementType allowNil _ =>
    refine .declare hc ?_ operation spec elementType allowNil
    intro m hm
    cases hm
    exact hn
  | other hkeeps _ => exact .other hkeeps

theorem named_of_binding (hs : s.store.Coherent) (hnamed : s.store.Named bound)
    (h : Binding bound s s') : s'.store.Named bound := by
  have hwell' := (coherent_of_step hs (step_of_binding h)).wellFormed
  cases h with
  | @define bases attributes hbases hattributes hfields name home =>
    rcases defineClass_cases name home bases attributes s with hrefused | ⟨l, -, hstore⟩
    · rwa [hrefused]
    · have hdefined := hnamed.define hs.wellFormed (d := definition name home bases l attributes) rfl
        hattributes hfields
      rw [hstore] at hwell' ⊢
      split at hwell'
      · next hroot =>
        rw [if_pos hroot]
        -- the registration binds nothing but a registry, whichever class is said to change
        refine hdefined.rebind (n := registryName) (.of_withRegistry _ _ .root _) hwell' ?_
        intro f hn
        exact (hn rfl).elim
      · next hroot =>
        rwa [if_neg hroot]
  | declare hc hn operation spec elementType allowNil hbound =>
    refine hnamed.rebind (rebinding_declareOn _ _ operation spec elementType allowNil s) hwell' ?_
    exact fun f _ hfield hf ↦ ⟨(isReserved_eq_false_iff.1 hn).2, hbound f hf hfield⟩
  | other hkeeps hnames =>
    intro c n f hf hfield
    rw [hkeeps.body_eq] at hf
    rw [hkeeps.sameHierarchy.isField_eq] at hfield
    obtain ⟨hn, hbound, m, hm, hname⟩ := hnamed c n f hf hfield
    exact ⟨hn, hbound, m, hm, hnames f m hname⟩

theorem named_of_bindings (h : Relation.ReflTransGen (Binding bound) .initial s) :
    s.store.Coherent ∧ s.store.Named bound := by
  induction h with
  | refl => exact ⟨Store.coherent_initial, Store.named_initial⟩
  | tail _ hstep ih =>
    obtain ⟨hs, hnamed⟩ := ih
    exact ⟨coherent_of_step hs (step_of_binding hstep), named_of_binding hs hnamed hstep⟩

end Run

theorem findSome?_of_filter {α β : Type} {g : α → Option β} {p : β → Bool} {l : List α} {b : β}
    (h : l.findSome? (fun a ↦ (g a).filter p) = some b)
    (hp : ∀ b', l.findSome? g = some b' → p b' = true) : l.findSome? g = some b := by
  induction l with
  | nil => cases h
  | cons a l ih =>
    rw [List.findSome?_cons] at h hp ⊢
    cases hg : g a with
    | none =>
      rw [hg] at h hp
      exact ih h hp
    | some b' =>
      rw [hg] at h hp
      have hb' := hp b' rfl
      rw [Option.filter_some, if_pos hb'] at h
      exact h

namespace Store

variable {bound : Value → String → Prop} {st : Store} {c : ClassId} {f : Value} {n : String}

theorem classAttribute?_of_declared (hf : st.declaredField? c n = some f)
    (hshown : ¬ st.Overridden c n) : st.classAttribute? c n = some f := by
  apply findSome?_of_filter hf
  intro v hv
  cases hfield : st.isField v with
  | true => rfl
  | false => exact (hshown ⟨v, hv, hfield⟩).elim

theorem Named.of_declared (h : st.Named bound) (hf : st.declaredField? c n = some f) :
    isDunder n = false ∧ bound f n ∧ st.IsNamed bound f := by
  obtain ⟨d, -, hd⟩ := List.exists_of_findSome?_eq_some hf
  obtain ⟨hd, hfield⟩ := Option.filter_eq_some_iff.1 hd
  exact h d n f hd hfield

theorem WellFormed.unnamed (h : st.WellFormed) :
    st.classAttribute? (.builtin .field) "name" = none := by
  apply List.findSome?_eq_none_iff.2
  intro d hd
  obtain ⟨b, hb, rfl⟩ := List.mem_map.1 hd
  rw [h.body_builtin]
  clear hd
  revert b
  decide +kernel

theorem commonAttributeOfClass?_eq_none (hn : isDunder n = false) :
    st.commonAttributeOfClass? c n = none := by
  unfold commonAttributeOfClass?
  split
  all_goals first | rfl | exact absurd hn (by decide +kernel)

theorem attributeOf_ofClass (hn : isDunder n = false) (hf : st.classAttribute? c n = some f)
    {id : ObjectId} (hid : f = .object (.builtin .field) id) :
    st.attributeOf (.ofClass c) n = .ok f := by
  subst hid
  rw [attributeOf, attributeOfClass, commonAttributeOfClass?_eq_none hn, hf]
  rfl

end Store

namespace Action

open Store

variable {bound : Value → String → Prop} {s : State} {c : ClassId} {f : Value} {n m : String}

/-- What a new object shows under a name of its registry is what it holds under the name that the
field goes by, and nothing there can be changed. -/
theorem shown_of_instantiate {argument? : Option Value} {o registry : Value} {s' : State}
    {named fields : Entries String Value} (hc : s.store.nature c = .validated)
    (hwell : s.store.WellFormed) (hregistry : s.store.registry c = .ok registry)
    (hlists : s.store.Lists registry fields) (hn : n ∈ fields.keys)
    (hf : s.store.classAttribute? c n = some f) (hname : s.store.GoesBy f m)
    (hcreated : instantiate c argument?.toList named s = .ok o s') :
    (∃ attributes, s.store.givenAttributes (s.store.className c) (argument?.getD .nil) named =
        .ok attributes ∧ s'.store.ownAttribute? o n = some ((attributes.named? n).getD .nil)) ∧
      getAttribute o (.text n) s' = .ok ((s'.store.ownAttribute? o m).getD .nil) s' ∧
      (∀ w, setAttribute o (.text n) w s' = .error (.readOnlyField (s'.store.typeName o) m) s') ∧
      deleteAttribute o (.text n) s' = .error (.readOnlyField (s'.store.typeName o) m) s' := by
  obtain ⟨attributes, session, hgiven, rfl, rfl⟩ := instantiate_eq_ok hc hcreated hregistry hlists
  let st' := (s.store.newObject ⟨"", (valuesFor fields attributes).asTexts⟩).2
  let s' : State := ⟨st', session⟩
  have hgrows : s.store.Grows st' := grows_newObject s.store _
  have hname' : st'.GoesBy f m := goesBy_of_object hname hgrows.object_eq
  have hunnamed : st'.classAttribute? (.builtin .field) "name" = none := hwell.unnamed
  have hown : st'.ownAttribute? (.object c ⟨s.store.objects.size⟩) n =
      some ((attributes.named? n).getD .nil) := by
    rw [ownAttribute?_newObject hc]
    exact get?_valuesFor hn
  refine ⟨⟨attributes, hgiven, hown⟩, ?_, fun w ↦ ?_, ?_⟩
  · exact getAttribute_of_goesBy (s := s') hf hname'
  · exact setAttribute_of_goesBy (s := s') hunnamed hc hf hname' w
  · exact deleteAttribute_of_goesBy (s := s') hunnamed hc hf hname'

/-- Whatever is registered under a name is found there on the class too, unless a value that is no
field comes before it, and objects of the class cannot be made to show anything else. A field that is
bound to no other name goes by this one, and objects show the value that they were given for it. -/
theorem registered_fields_agree (h : Relation.ReflTransGen (Binding bound) .initial s)
    (hc : .root ∈ s.store.linearization c) :
    ∃ registry, s.store.registry c = .ok registry ∧
      ∀ n f, s.store.item? registry (.text n) = .ok (some f) →
        ((∀ m, bound f m → m = n) → s.store.attributeOf f "name" = .ok (.text n)) ∧
        (¬ s.store.Overridden c n → s.store.attributeOf (.ofClass c) n = .ok f) ∧
        ∀ (argument? : Option Value) named o s', ¬ s.store.Overridden c n → s.store.nature c = .validated →
          instantiate c argument?.toList named s = .ok o s' →
          (∃ m, bound f m ∧
            (∀ w, setAttribute o (.text n) w s' =
              .error (.readOnlyField (s'.store.typeName o) m) s') ∧
            deleteAttribute o (.text n) s' =
              .error (.readOnlyField (s'.store.typeName o) m) s') ∧
          ((∀ m, bound f m → m = n) → ∃ attributes,
            s.store.givenAttributes (s.store.className c) (argument?.getD .nil) named =
              .ok attributes ∧
            s'.store.ownAttribute? o n = some ((attributes.named? n).getD .nil) ∧
            getAttribute o (.text n) s' = .ok ((attributes.named? n).getD .nil) s') := by
  obtain ⟨hs, hnamed⟩ := named_of_bindings h
  have hhierarchy := hs.wellFormed.hierarchy
  obtain ⟨registry, hr, hlists⟩ := hs.registers c hc
  obtain ⟨l, hl, rfl⟩ := exists_of_root_mem hc
  have hregistry := registry_of_lists (c := .defined l) hhierarchy hl hr hlists
  refine ⟨registry, hregistry, fun n f hitem ↦ ?_⟩
  have hcollected : (s.store.collected (.defined l)).get? n = some f := by
    rw [item?_text hlists] at hitem
    exact Except.ok.inj hitem
  have hn : n ∈ (s.store.collected (.defined l)).keys := by
    rw [← Entries.has_iff_mem_keys, Entries.has, hcollected]
    rfl
  rw [hs.get?_collected] at hcollected
  obtain ⟨hdunder, -, m, hm, hname⟩ := hnamed.of_declared hcollected
  refine ⟨fun hone ↦ ?_, fun hshown ↦ ?_, ?_⟩
  · rw [← hone m hm]
    exact attributeOf_name hs.wellFormed.unnamed hname
  · obtain ⟨id, hid, -⟩ := hname
    exact attributeOf_ofClass hdunder (classAttribute?_of_declared hcollected hshown) hid
  · intro argument? named o s' hshown hnature hcreated
    have hf := classAttribute?_of_declared hcollected hshown
    obtain ⟨⟨attributes, hgiven, hown⟩, hget, hset, hdelete⟩ :=
      shown_of_instantiate hnature hs.wellFormed hregistry hlists hn hf hname hcreated
    refine ⟨⟨m, hm, hset, hdelete⟩, fun hone ↦ ⟨attributes, hgiven, hown, ?_⟩⟩
    rw [hget, hone m hm, hown]
    rfl

def fieldMade : State := after (shorthandField (.ofClass (.builtin .text)) false) .initial

def jarDefined : State :=
  after (defineClass "Jar" "store" [] [("label", .object (.builtin .field) ⟨2⟩)]) fieldMade

theorem bindings_fieldMade {attributes : List (String × Value)}
    (hattributes : ∀ e ∈ attributes, fieldMade.store.Suits e)
    (hfields : ∀ e ∈ attributes,
      fieldMade.store.isField e.2 = true → bound e.2 e.1 ∧ fieldMade.store.HasField e.2)
    (name home : String) :
    Relation.ReflTransGen (Binding bound) .initial
      (after (defineClass name home [] attributes) fieldMade) := by
  have hgrows : State.initial.store.Grows fieldMade.store :=
    (grows_newObject _ _).trans (grows_newObject _ _)
  have hmade : Binding bound .initial fieldMade := by
    apply Binding.other hgrows.keeps
    intro f n hname
    exact goesBy_of_object hname hgrows.object_eq
  exact .tail (.single hmade) (.define (List.forall_mem_nil _) hattributes hfields name home)

theorem bindings_jarDefined :
    Relation.ReflTransGen (Binding fun _ n ↦ n = "label") .initial jarDefined := by
  apply bindings_fieldMade
  · exact List.forall_mem_singleton.2 ⟨trivial, by decide, fun _ ↦ by decide +kernel⟩
  · exact List.forall_mem_singleton.2 fun _ ↦ ⟨rfl, ⟨2⟩, rfl, by decide +kernel⟩

theorem registered_fields_agree_jarDefined :
    let field := Value.object (.builtin .field) ⟨2⟩
    Relation.ReflTransGen (Binding fun _ n ↦ n = "label") .initial jarDefined ∧
      jarDefined.store.attributeOf (.ofClass (.defined 1)) "label" = .ok field ∧
      jarDefined.store.attributeOf field "name" = .ok (.text "label") ∧
      ∃ o s', instantiate (.defined 1) [] [("label", .text "kiwi")] jarDefined = .ok o s' ∧
        getAttribute o (.text "label") s' = .ok (.text "kiwi") s' := by
  intro field
  obtain ⟨registry, hregistry, hfields⟩ := registered_fields_agree (c := .defined 1) bindings_jarDefined
    (by decide +kernel)
  have hitem : jarDefined.store.item? registry (.text "label") = .ok (some field) := by
    cases hregistry
    rfl
  obtain ⟨hname, hfound, hcreated⟩ := hfields "label" field hitem
  have hshown : ¬ jarDefined.store.Overridden (.defined 1) "label" := by
    rintro ⟨v, hv, hfield⟩
    cases hv
    cases hfield
  refine ⟨bindings_jarDefined, hfound hshown, hname fun m hm ↦ hm, ?_⟩
  have hrun : ∃ o s', instantiate (.defined 1) [] [("label", .text "kiwi")] jarDefined = .ok o s' :=
    ⟨_, _, rfl⟩
  obtain ⟨o, s', hrun⟩ := hrun
  obtain ⟨-, hvalue⟩ := hcreated none [("label", .text "kiwi")] o s' hshown rfl hrun
  obtain ⟨attributes, hgiven, -, hget⟩ := hvalue fun m hm ↦ hm
  cases hgiven
  exact ⟨o, s', hrun, hget⟩

def scalesDefined : State :=
  let field := Value.object (.builtin .field) ⟨2⟩
  after (defineClass "Scales" "store" [] [("left", field), ("right", field)]) fieldMade

/-- A field that is put under two names goes by the second one, so that what is stored for the first
one is not what is read there. -/
theorem not_registered_fields_agree :
    ¬ ∀ (bound : Value → String → Prop) (s s' : State) (c : ClassId) (registry f o : Value)
        (n : String) (named : Entries String Value),
      Relation.ReflTransGen (Binding bound) .initial s → s.store.nature c = .validated →
      s.store.registry c = .ok registry → s.store.item? registry (.text n) = .ok (some f) →
      instantiate c [] named s = .ok o s' →
      getAttribute o (.text n) s' = .ok ((s'.store.ownAttribute? o n).getD .nil) s' := by
  intro h
  let field := Value.object (.builtin .field) ⟨2⟩
  have hbindings : Relation.ReflTransGen (Binding fun _ _ ↦ True) .initial scalesDefined := by
    apply bindings_fieldMade
    · exact List.forall_mem_cons.2 ⟨⟨trivial, by decide, fun _ ↦ by decide +kernel⟩,
        List.forall_mem_singleton.2 ⟨trivial, by decide, fun _ ↦ by decide +kernel⟩⟩
    · intro e he _
      have hfield : e.2 = field := by
        rcases List.mem_cons.1 he with rfl | he
        · rfl
        · rw [List.mem_singleton.1 he]
      exact ⟨trivial, ⟨2⟩, hfield, by decide +kernel⟩
  let named : Entries String Value := [("left", .text "kiwi"), ("right", .text "plum")]
  obtain ⟨o, s', hrun⟩ : ∃ o s', instantiate (.defined 1) [] named scalesDefined = .ok o s' :=
    exists_run_of_isSome (by decide +kernel)
  have hregistry : scalesDefined.store.registry (.defined 1) =
      .ok (.object (.builtin .fieldRegistry) ⟨3⟩) := rfl
  have hlists : scalesDefined.store.Lists (.object (.builtin .fieldRegistry) ⟨3⟩)
      [("left", field), ("right", field)] :=
    ⟨⟨3⟩, 1, rfl, rfl, by decide +kernel, rfl⟩
  have hwell := (named_of_bindings hbindings).1.wellFormed
  have hname : scalesDefined.store.GoesBy field "right" := ⟨⟨2⟩, rfl, rfl⟩
  have hcreated : instantiate (.defined 1) (none : Option Value).toList named scalesDefined = .ok o s' :=
    hrun
  obtain ⟨⟨_, hgiven, hleft⟩, hget, -⟩ := shown_of_instantiate (n := "left") rfl hwell hregistry
    hlists (by decide) rfl hname hcreated
  obtain ⟨⟨_, hgiven', hright⟩, -⟩ := shown_of_instantiate (n := "right") rfl hwell hregistry
    hlists (by decide) rfl hname hcreated
  cases hgiven
  cases hgiven'
  have hread := h _ scalesDefined s' (.defined 1) _ field o "left" named hbindings rfl hregistry
    (item?_text hlists "left") hrun
  rw [hget, hleft, hright] at hread
  exact absurd (Value.text.inj (EStateM.Result.ok.inj hread).1) (by decide)

end Action

end Conformance
