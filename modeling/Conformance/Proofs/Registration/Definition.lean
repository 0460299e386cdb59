import Conformance.Proofs.Registration.Declaration

namespace Conformance

namespace Store

theorem knows_body (st : Store) (b : Builtin) : ∀ e ∈ b.body, st.Knows e.2 :=
  b.forall_mem_body (fun _ ↦ trivial) (fun _ ↦ trivial) (fun _ ↦ trivial) fun _ ↦ trivial

theorem WellFormed.knows_of_mem {st : Store} (h : st.WellFormed) (c : ClassId) :
    ∀ e ∈ st.body c, st.Knows e.2 := by
  cases c with
  | builtin b => exact h.body_builtin b ▸ st.knows_body b
  | defined n => exact h.knows n

end Store

section Body

variable {attributes : List (String × Value)} (home : String)

theorem nodup_keys_classBody : (classBody home (Entries.ofList attributes)).keys.Nodup := by
  have hput := Entries.nodup_keys_put (Entries.nodup_keys_ofList attributes) homeName (.text home)
  simp only [classBody]
  split
  · exact hput
  · exact Entries.nodup_keys_put hput "__doc__" .nil

theorem mem_classBody {e : String × Value} (h : e ∈ classBody home (Entries.ofList attributes)) :
    e ∈ attributes ∨ e = (homeName, .text home) ∨ e = ("__doc__", .nil) := by
  have hput {e : String × Value} (h : e ∈ (Entries.ofList attributes).put homeName (.text home)) :
      e ∈ attributes ∨ e = (homeName, .text home) :=
    (Entries.mem_put h).imp_left Entries.mem_ofList
  simp only [classBody] at h
  split at h
  · exact (hput h).imp_right .inl
  · rcases Entries.mem_put h with h | h
    · exact (hput h).imp_right .inl
    · exact .inr (.inr h)

theorem get?_classBody {k : String} (h : ∀ e ∈ attributes, e.1 ≠ k) (hhome : homeName ≠ k)
    (hdoc : "__doc__" ≠ k) : (classBody home (Entries.ofList attributes)).get? k = none := by
  have hnone : (Entries.ofList attributes).get? k = none := by
    rw [Entries.get?_eq_none_iff, Entries.keys_ofList, List.mem_eraseDups]
    intro hk
    obtain ⟨e, he, rfl⟩ := List.mem_map.1 hk
    exact h e he rfl
  have hput : Entries.get? (Entries.put (Entries.ofList attributes) homeName (.text home)) k = none := by
    rw [Entries.get?_put, hnone]
    simp [hhome]
  simp only [classBody]
  split
  · exact hput
  · rw [Entries.get?_put, hput]
    simp [hdoc]

end Body

namespace Store

variable {st st' : Store} {d : ClassDef} {c : ClassId}

theorem linearize_of_nextLinearization {name : String} {bases l : List ClassId}
    (h : st.nextLinearization name bases = .ok l) :
    linearize (.defined st.classes.size) bases st.linearization = some l := by
  obtain ⟨u, -, h⟩ := answer_of_bind h
  obtain ⟨data, -, h⟩ := answer_of_bind h
  split at h
  · cases h
  · split at h
    · next l' hl =>
      cases h
      exact hl
    · cases h

theorem ne_of_hasClass (hc : st.HasClass c) : c ≠ .defined st.classes.size := by
  rintro rfl
  exact Nat.lt_irrefl _ hc

theorem hasClass_newClass (hc : st.HasClass c) : (st.newClass d).2.HasClass c := by
  cases c with
  | builtin b => trivial
  | defined n => exact Nat.lt_of_lt_of_eq (Nat.lt_succ_of_lt hc) (Table.size_add _ _).symm

theorem linearization_newClass (st : Store) (d : ClassDef) (c : ClassId) :
    (st.newClass d).2.linearization c =
      if c = .defined st.classes.size then d.linearization else st.linearization c := by
  cases c with
  | builtin b => rfl
  | defined n =>
    have hget := st.classes.get_add d n
    simp only [newClass, linearization, hget, ClassId.defined.injEq]
    split <;> rfl

theorem bases_newClass (st : Store) (d : ClassDef) (c : ClassId) :
    (st.newClass d).2.bases c = if c = .defined st.classes.size then d.bases else st.bases c := by
  cases c with
  | builtin b => rfl
  | defined n =>
    have hget := st.classes.get_add d n
    simp only [newClass, bases, hget, ClassId.defined.injEq]
    split <;> rfl

theorem body_newClass (st : Store) (d : ClassDef) (c : ClassId) :
    (st.newClass d).2.body c = if c = .defined st.classes.size then d.body else st.body c := by
  cases c with
  | builtin b => rfl
  | defined n =>
    have hget := st.classes.get_add d n
    simp only [newClass, body, hget, ClassId.defined.injEq]
    split <;> rfl

theorem knows_newClass {v : Value} (hv : st.Knows v) : (st.newClass d).2.Knows v := by
  cases v with
  | object c id => exact hasClass_newClass hv
  | derived c w id => exact hasClass_newClass hv
  | _ => trivial

@[simp] theorem isField_ofClass (st : Store) (c : ClassId) : st.isField (.ofClass c) = false := by
  have htype : st.typeOf (.ofClass c) =
      .builtin (if st.isEnum c then .enumMetaclass else .metaclass) := rfl
  rw [isField, htype]
  split <;> rfl

theorem isField_newClass {v : Value} (hv : st.Knows v) :
    (st.newClass d).2.isField v = st.isField v := by
  cases v with
  | object c id =>
    simp only [isField, inherits, typeOf, linearization_newClass, if_neg (ne_of_hasClass hv)]
  | derived c w id =>
    simp only [isField, inherits, typeOf, linearization_newClass, if_neg (ne_of_hasClass hv)]
  | ofClass c => rw [isField_ofClass, isField_ofClass]
  | _ => rfl

theorem fieldsOf_newClass {body : Entries String Value} (hbody : ∀ e ∈ body, st.Knows e.2) :
    (st.newClass d).2.fieldsOf body = st.fieldsOf body :=
  List.filter_congr fun e he ↦ isField_newClass (hbody e he)

theorem keepsLists_newClass : st.KeepsLists (st.newClass d).2 := .of_cells rfl rfl

theorem linearization_newClass_of_hasClass (hc : st.HasClass c) :
    (st.newClass d).2.linearization c = st.linearization c := by
  rw [linearization_newClass, if_neg (ne_of_hasClass hc)]

theorem ne_of_root_mem (h : (st.newClass d).2.Keeps st')
    (hroot : ¬ d.linearization.contains .root = true) (hc : .root ∈ st'.linearization c) :
    c ≠ .defined st.classes.size := by
  rintro rfl
  rw [h.sameHierarchy.linearization_eq, linearization_newClass, if_pos rfl] at hc
  exact hroot (List.contains_iff_mem.2 hc)

theorem isLinear_newClass_of_lt (h : st.HasHierarchy) {n : Nat} (hn : n < st.classes.size) :
    (st.newClass d).2.IsLinear n := by
  have hne : ClassId.defined n ≠ .defined st.classes.size := ne_of_hasClass (c := .defined n) hn
  obtain ⟨hlt, rest, hrest, hnodup, hmem, hone⟩ := h.isLinear n hn
  have hlin (b : ClassId) (hb : b ∈ st.bases (.defined n)) :
      (st.newClass d).2.linearization b = st.linearization b := by
    refine linearization_newClass_of_hasClass ?_
    cases b with
    | builtin b => trivial
    | defined m => exact Nat.lt_trans (hlt m hb) hn
  have hbases : (st.newClass d).2.bases (.defined n) = st.bases (.defined n) := by
    rw [bases_newClass, if_neg hne]
  refine ⟨hbases ▸ hlt, rest, ?_, hnodup, ?_, ?_⟩
  · rw [linearization_newClass, if_neg hne, hrest]
  · intro e
    rw [hbases, hmem]
    refine exists_congr fun b ↦ and_congr_right fun hb ↦ ?_
    rw [hlin b hb]
  · intro b hb
    rw [hbases] at hb
    rw [hlin b (hb ▸ List.mem_singleton_self b)]
    exact hone b hb

theorem isLinear_newClass_size (h : st.HasHierarchy) (hd : ∀ b ∈ d.bases, st.HasClass b)
    (hlinear : linearize (.defined st.classes.size) d.bases st.linearization =
      some d.linearization) : (st.newClass d).2.IsLinear st.classes.size := by
  have hlin (b : ClassId) (hb : b ∈ d.bases) :
      (st.newClass d).2.linearization b = st.linearization b :=
    linearization_newClass_of_hasClass (hd b hb)
  have hbases : (st.newClass d).2.bases (.defined st.classes.size) = d.bases := by
    rw [bases_newClass, if_pos rfl]
  obtain ⟨rest, hrest, hnodup, hmem⟩ := mem_linearize hlinear
  refine ⟨?_, rest, ?_, hnodup, ?_, ?_⟩
  · rw [hbases]
    intro m hm
    exact hd _ hm
  · rw [linearization_newClass, if_pos rfl, hrest]
  · intro e
    rw [hbases, hmem]
    constructor
    · rintro (he | ⟨b, hb, he⟩)
      · refine ⟨e, he, ?_⟩
        rw [hlin e he]
        exact h.mem_linearization_self (hd e he)
      · exact ⟨b, hb, (hlin b hb).symm ▸ he⟩
    · rintro ⟨b, hb, he⟩
      exact .inr ⟨b, hb, hlin b hb ▸ he⟩
  · intro b hb
    rw [hbases] at hb
    have hmem : b ∈ d.bases := hb ▸ List.mem_singleton_self b
    -- with one base the merge has nothing to decide
    obtain ⟨tail, htail, htailnodup⟩ := h.linearization_eq_cons (hd b hmem)
    rw [hb, linearize_singleton htail (htail ▸ htailnodup), hrest] at hlinear
    rw [hlin b hmem]
    exact (List.cons.inj (Option.some.inj hlinear)).2.symm

theorem hasHierarchy_newClass (h : st.HasHierarchy) (hd : ∀ b ∈ d.bases, st.HasClass b)
    (hlinear : linearize (.defined st.classes.size) d.bases st.linearization =
      some d.linearization) : (st.newClass d).2.HasHierarchy := by
  have hsize : (st.newClass d).2.classes.size = st.classes.size + 1 := Table.size_add _ _
  refine ⟨?_, ?_, ?_⟩
  · rw [hsize]
    exact Nat.succ_pos _
  · rw [linearization_newClass_of_hasClass (c := .root) h.size_pos, h.root]
  · intro n hn
    rw [hsize] at hn
    by_cases hnew : n = st.classes.size
    · rw [hnew]
      exact isLinear_newClass_size h hd hlinear
    · exact isLinear_newClass_of_lt h (by omega)

theorem wellFormed_newClass (h : st.WellFormed) (hhierarchy : (st.newClass d).2.HasHierarchy)
    (hnodup : d.body.keys.Nodup) (hknows : ∀ e ∈ d.body, st.Knows e.2)
    (hrefresh : d.body.get? "_refresh_registry" = none)
    (hregistry : ∀ v, d.body.get? registryName = some v → st.isField v = false) :
    (st.newClass d).2.WellFormed := by
  have hroot : ClassId.root ≠ .defined st.classes.size := ne_of_hasClass h.hierarchy.size_pos
  refine ⟨hhierarchy, h.changedBodies, fun n ↦ ?_, fun n e he ↦ ?_, ?_, fun n hn ↦ ?_,
    fun n v hv ↦ ?_⟩
  · rw [body_newClass]
    split
    · exact hnodup
    · exact h.nodup n
  · rw [body_newClass] at he
    split at he
    · exact knows_newClass (hknows e he)
    · exact knows_newClass (h.knows n e he)
  · rw [body_newClass, if_neg hroot]
    exact h.refresher
  · rw [body_newClass]
    split
    · exact hrefresh
    · exact h.notHidden n hn
  · -- what stands under the name of the registry is in a body, and therefore known
    rw [body_newClass] at hv
    split at hv
    · rw [isField_newClass (hknows _ (Entries.mem_of_get? hv))]
      exact hregistry v hv
    · rw [isField_newClass (h.knows n _ (Entries.mem_of_get? hv))]
      exact h.registry n v hv

theorem registers_newClass (h : st.Coherent) (hne : c ≠ .defined st.classes.size)
    (hc : .root ∈ (st.newClass d).2.linearization c) :
    (st.newClass d).2.Registers c ((st.newClass d).2.collected c) := by
  have hwell := h.wellFormed
  have hlin : (st.newClass d).2.linearization c = st.linearization c := by
    rw [linearization_newClass, if_neg hne]
  rw [hlin] at hc
  obtain ⟨n, hn, rfl⟩ := exists_of_root_mem hc
  have hcollected : (st.newClass d).2.collected (.defined n) = st.collected (.defined n) := by
    refine collected_congr hlin fun e he ↦ ?_
    have hclass := hwell.hierarchy.hasClass_of_mem (c := .defined n) hn e he
    rw [body_newClass, if_neg (ne_of_hasClass hclass)]
    exact fieldsOf_newClass (hwell.knows_of_mem e)
  rw [hcollected]
  have hbody : (st.newClass d).2.body (.defined n) = st.body (.defined n) := by
    rw [body_newClass, if_neg hne]
  exact keepsLists_newClass.registers hbody (h.registers _ hc)

theorem wellFormed_defined (h : st.WellFormed) (hbases : ∀ b ∈ d.bases, st.HasClass b)
    (hlinear : linearize (.defined st.classes.size) d.bases st.linearization =
      some d.linearization) {home : String} {attributes : List (String × Value)}
    (hbody : d.body = classBody home (Entries.ofList attributes))
    (hattributes : ∀ e ∈ attributes, st.Suits e) : (st.newClass d).2.WellFormed := by
  refine wellFormed_newClass h (hasHierarchy_newClass h.hierarchy hbases hlinear) ?_ ?_ ?_ ?_
  all_goals rw [hbody]
  · exact nodup_keys_classBody home
  · intro e he
    rcases mem_classBody home he with he | rfl | rfl
    · exact (hattributes e he).known
    · trivial
    · trivial
  · exact get?_classBody home (fun e he ↦ (hattributes e he).refresh) (by decide) (by decide)
  · intro v hv
    rcases mem_classBody home (Entries.mem_of_get? hv) with he | he | he
    · cases hfield : st.isField v with
      | false => rfl
      | true => exact (ne_of_isDunder ((hattributes _ he).field hfield) isDunder_registryName rfl).elim
    · exact absurd (Prod.mk.inj he).1 (by decide)
    · exact absurd (Prod.mk.inj he).1 (by decide)

end Store

namespace Action

open Store

variable {s : State}

def definition (name home : String) (bases linearization : List ClassId)
    (attributes : List (String × Value)) : ClassDef where
  name
  fullName := name
  bases := if bases.isEmpty then [.root] else bases
  linearization
  body := classBody home (Entries.ofList attributes)

/-- A definition that is refused changes nothing. Otherwise there is a new class, the fields of its
body have their names, and it has a registry if it is validated. -/
theorem defineClass_cases (name home : String) (bases : List ClassId)
    (attributes : List (String × Value)) (s : State) :
    after (defineClass name home bases attributes) s = s ∨
      ∃ l, s.store.nextLinearization name (if bases.isEmpty then [.root] else bases) = .ok l ∧
        let d := definition name home bases l attributes
        let st := (s.store.newClass d).2.nameFields d.body
        (after (defineClass name home bases attributes) s).store =
          if l.contains .root then st.withRegistry (.defined s.store.classes.size) else st := by
  let bases' := if bases.isEmpty then [ClassId.root] else bases
  cases hlinear : s.store.nextLinearization name bases' with
  | error e =>
    have hrefused : defineClass name home bases attributes s = .error e s :=
      bind_of_error (ask_of_error hlinear)
    exact .inl (after_of_error hrefused)
  | ok l =>
    refine .inr ⟨l, rfl, ?_⟩
    let d := definition name home bases l attributes
    let s₁ : State := { s with store := (s.store.newClass d).2 }
    let s₂ : State := { s with store := s₁.store.nameFields d.body }
    have hcreate : create (·.newClass d) s = .ok (.defined s.store.classes.size) s₁ := rfl
    have hnamed : update (·.nameFields d.body) s₁ = .ok () s₂ := rfl
    have hrest : after (defineClass name home bases attributes) s = after (do
        if l.contains .root then register (.defined s.store.classes.size)
        return .defined s.store.classes.size : Action ClassId) s₂ :=
      (after_bind_of_ok (ask_of_ok hlinear)).trans
        ((after_bind_of_ok hcreate).trans (after_bind_of_ok hnamed))
    rw [hrest]
    cases l.contains .root with
    | true =>
      obtain ⟨s₃, hregister, hstore⟩ := register_run (.defined s.store.classes.size) s₂
      rw [if_pos rfl, after_bind_of_ok hregister]
      exact hstore
    | false => rfl

theorem hasClass_definition {name home : String} {bases l : List ClassId}
    {attributes : List (String × Value)} (h : s.store.HasHierarchy)
    (hbases : ∀ b ∈ bases, s.store.HasClass b) :
    ∀ b ∈ (definition name home bases l attributes).bases, s.store.HasClass b := by
  simp only [definition]
  split
  · exact List.forall_mem_singleton.2 h.size_pos
  · exact hbases

theorem after_defineClass (h : s.store.Coherent) {bases : List ClassId}
    (hbases : ∀ b ∈ bases, s.store.HasClass b) {attributes : List (String × Value)}
    (hattributes : ∀ e ∈ attributes, s.store.Suits e) (name home : String) :
    (after (defineClass name home bases attributes) s).store.Coherent := by
  rcases defineClass_cases name home bases attributes s with hrefused | ⟨l, hl, hstore⟩
  · rwa [hrefused]
  let d := definition name home bases l attributes
  let st := (s.store.newClass d).2.nameFields d.body
  have hbases' : ∀ b ∈ d.bases, s.store.HasClass b :=
    hasClass_definition h.wellFormed.hierarchy hbases
  have hwell : (s.store.newClass d).2.WellFormed :=
    wellFormed_defined h.wellFormed hbases' (linearize_of_nextLinearization hl) rfl hattributes
  have hkeeps : (s.store.newClass d).2.Keeps st := keeps_nameFields _ d.body
  have hrefreshed := Refreshed.of_keeps hwell hkeeps
  have hold (c : ClassId) (hne : c ≠ .defined s.store.classes.size)
      (hc : .root ∈ st.linearization c) : st.Registers c (st.collected c) := by
    rw [hkeeps.sameHierarchy.linearization_eq] at hc
    rw [hrefreshed.collected_eq]
    exact hkeeps.lists.registers (by rw [hkeeps.body_eq]) (registers_newClass h hne hc)
  rw [hstore]
  split
  · have hnew : s.store.classes.size < st.classes.size := by
      rw [hkeeps.sameHierarchy.size_eq]
      exact Nat.lt_of_lt_of_eq (Nat.lt_succ_self _) (Table.size_add _ _).symm
    exact (refreshed_withRegistry hrefreshed.wellFormed hnew).coherent hold
  · next hroot =>
    exact ⟨hrefreshed.wellFormed, fun c hc ↦ hold c (ne_of_root_mem hkeeps hroot hc) hc⟩

end Action

end Conformance
