import Conformance.Proofs.Registration.Coherence
import Conformance.Proofs.Registration.Naming

open Conformance.Action

namespace Conformance

/-- A change of the classes or of anything else that leaves the registries to the library. -/
inductive Change : State → State → Prop
  | define {s : State} {bases : List ClassId} {attributes : List (String × Value)}
      (hbases : ∀ b ∈ bases, s.store.HasClass b)
      (name home : String) : Change s (after (defineClass name home bases attributes) s)
  | enumerate {s : State} {bases : List ClassId}
      (hbases : ∀ b ∈ bases, s.store.HasClass b ∧ .root ∉ s.store.linearization b)
      (name home : String) (values : List (String × Value)) :
      Change s (after (defineEnumeration name home bases values) s)
  | declare {s : State} {c : ClassId} {name : Value}
      (hname : name.text? ≠ some registryName) (operation : String)
      (spec elementType : Value) (allowNil : Bool) :
      Change s (after (declareOn (.ofClass c) operation name spec elementType allowNil) s)
  | other {s s' : State} (h : s.store.Keeps s'.store) : Change s s'

namespace Store

/-- Each validated class has a registry of its own. -/
structure HasRegistries (st : Store) : Prop where
  hierarchy : st.HasHierarchy
  registers (c : ClassId) (hc : .root ∈ st.linearization c) : ∃ fields, st.Registers c fields

variable {st st' : Store} {c d : ClassId} {k : String}

theorem hasHierarchy_putInBody (h : st.HasHierarchy) (c : ClassId) (k : String) (v : Value) :
    (st.putInBody c k v).HasHierarchy := by
  cases c with
  | defined n => exact (st.sameHierarchy_putInBody n k v).hasHierarchy h
  | builtin b => exact ⟨h.size_pos, h.root, h.isLinear⟩

theorem hasRegistries_initial : initial.HasRegistries where
  hierarchy := hasHierarchy_initial
  registers c hc := ⟨_, coherent_initial.registers c hc⟩

namespace HasRegistries

variable (h : st.HasRegistries)

include h

theorem keep (hk : st.Keeps st') : st'.HasRegistries where
  hierarchy := hk.sameHierarchy.hasHierarchy h.hierarchy
  registers c hc := by
    rw [hk.sameHierarchy.linearization_eq] at hc
    obtain ⟨fields, hfields⟩ := h.registers c hc
    exact ⟨fields, hk.lists.registers (by rw [hk.body_eq]) hfields⟩

theorem putInBody (hk : k ≠ registryName ∨ .root ∉ st.linearization c) (v : Value) :
    (st.putInBody c k v).HasRegistries where
  hierarchy := hasHierarchy_putInBody h.hierarchy c k v
  registers d hd := by
    rw [linearization_putInBody] at hd
    obtain ⟨fields, registry, hregistry, hlists⟩ := h.registers d hd
    refine ⟨fields, registry, ?_, keepsLists_putInBody st c k v registry fields hlists⟩
    rcases get?_body_putInBody st c k v d registryName with hsame | ⟨hdc, hname, -⟩
    · rw [hsame, hregistry]
    · rcases hk with hk | hroot
      · exact absurd hname.symm hk
      · exact absurd (hdc ▸ hd) hroot

theorem registers_newClass (d : ClassDef) (hne : c ≠ .defined st.classes.size)
    (hc : .root ∈ (st.newClass d).2.linearization c) :
    ∃ fields, (st.newClass d).2.Registers c fields := by
  rw [linearization_newClass, if_neg hne] at hc
  obtain ⟨fields, hfields⟩ := h.registers c hc
  exact ⟨fields, keepsLists_newClass.registers (by rw [body_newClass, if_neg hne]) hfields⟩

end HasRegistries

theorem hasRegistries_withRegistry (h : st.HasHierarchy)
    (hothers : ∀ d, d ≠ c → .root ∈ st.linearization d → ∃ fields, st.Registers d fields) :
    (st.withRegistry c).HasRegistries := by
  have hkeeps := (st.grows_newRegistry (st.collected c)).keeps
  have hlists := st.lists_newRegistry (st.collected c)
  have hkept := keepsLists_putInBody (st.newRegistry (st.collected c)).2 c registryName
    (st.newRegistry (st.collected c)).1
  have hhierarchy := hkeeps.sameHierarchy.hasHierarchy h
  refine ⟨hasHierarchy_putInBody hhierarchy c _ _, fun d hd ↦ ?_⟩
  rw [withRegistry, linearization_putInBody, hkeeps.sameHierarchy.linearization_eq] at hd
  by_cases hdc : d = c
  · subst hdc
    obtain ⟨n, hn, rfl⟩ := exists_of_root_mem hd
    rw [← hkeeps.sameHierarchy.size_eq] at hn
    refine ⟨_, _, ?_, hkept _ _ hlists⟩
    rw [withRegistry, body_putInBody hn, if_pos rfl, Entries.get?_put]
    simp
  · obtain ⟨fields, hfields⟩ := hothers d hdc hd
    obtain ⟨registry, hregistry, hold⟩ := hkeeps.lists.registers (by rw [hkeeps.body_eq]) hfields
    refine ⟨fields, registry, ?_, hkept _ _ hold⟩
    rcases get?_body_putInBody (st.newRegistry (st.collected c)).2 c registryName
      (st.newRegistry (st.collected c)).1 d registryName with hsame | ⟨hdc', -⟩
    · exact hsame.trans hregistry
    · exact absurd hdc' hdc

theorem HasRegistries.withRegistry (h : st.HasRegistries) (c : ClassId) :
    (st.withRegistry c).HasRegistries :=
  hasRegistries_withRegistry h.hierarchy fun d _ ↦ h.registers d

end Store

namespace Action

open Store

variable {s : State}

theorem hasRegistries_declareOn (h : s.store.HasRegistries) {c : ClassId} {name : Value}
    (hname : name.text? ≠ some registryName) (operation : String) (spec elementType : Value)
    (allowNil : Bool) :
    (after (declareOn (.ofClass c) operation name spec elementType allowNil) s).store.HasRegistries := by
  have hwithin : Within (Respects HasRegistries)
      (declareOn (.ofClass c) operation name spec elementType allowNil) := by
    refine Within.declareOn (fun st st' hgrows hst ↦ hst.keep hgrows.keeps) ?_
      (fun st c hst ↦ hst.withRegistry c) operation spec elementType allowNil
    intro st id n hn _ st₀ hgrows _ hst₀
    have hk : n ≠ registryName := by
      rintro rfl
      exact hname hn
    exact ((hst₀.keep hgrows.keeps).putInBody (.inl hk) _).keep (keeps_nameField _ _ _)
  exact hwithin s h

theorem hasRegistries_defineClass (h : s.store.HasRegistries) {bases : List ClassId}
    (hbases : ∀ b ∈ bases, s.store.HasClass b) (attributes : List (String × Value))
    (name home : String) :
    (after (defineClass name home bases attributes) s).store.HasRegistries := by
  rcases defineClass_cases name home bases attributes s with hrefused | ⟨l, hl, hstore⟩
  · rwa [hrefused]
  let d := definition name home bases l attributes
  let st := (s.store.newClass d).2.nameFields d.body
  have hkeeps : (s.store.newClass d).2.Keeps st := keeps_nameFields _ d.body
  have hhierarchy : st.HasHierarchy := hkeeps.sameHierarchy.hasHierarchy <|
    hasHierarchy_newClass h.hierarchy (hasClass_definition h.hierarchy hbases)
      (linearize_of_nextLinearization hl)
  have hold (c : ClassId) (hne : c ≠ .defined s.store.classes.size)
      (hc : .root ∈ st.linearization c) : ∃ fields, st.Registers c fields := by
    rw [hkeeps.sameHierarchy.linearization_eq] at hc
    obtain ⟨fields, hfields⟩ := h.registers_newClass d hne hc
    exact ⟨fields, hkeeps.lists.registers (by rw [hkeeps.body_eq]) hfields⟩
  rw [hstore]
  split
  · exact hasRegistries_withRegistry hhierarchy hold
  · next hroot => exact ⟨hhierarchy, fun c hc ↦ hold c (ne_of_root_mem hkeeps hroot hc) hc⟩

theorem hasRegistries_addMember {enum : ClassId} (mixed : Bool) (name : String) (value : Value) :
    Within (Respects fun st ↦ st.HasRegistries ∧ .root ∉ st.linearization enum)
      (addMember enum mixed name value) := by
  have hput (v : Value) : Within (Respects fun st ↦
      st.HasRegistries ∧ .root ∉ st.linearization enum) (update (·.putInBody enum name v)) := by
    refine .update fun st ⟨hst, hroot⟩ ↦ ⟨hst.putInBody (.inr hroot) v, ?_⟩
    rwa [linearization_putInBody]
  unfold addMember
  refine .bind (.ask _) fun members ↦ .bind (.ask _) fun holder? ↦ ?_
  cases holder? with
  | some member => exact hput member
  | none =>
    refine .bind (.create fun st ⟨hst, hroot⟩ ↦ ?_) fun id ↦ hput _
    have hgrows := grows_newObject st ⟨"", memberAttributes enum name value members.length⟩
    refine ⟨hst.keep hgrows.keeps, ?_⟩
    rwa [hgrows.keeps.sameHierarchy.linearization_eq]

theorem hasRegistries_defineEnumeration (h : s.store.HasRegistries) {bases : List ClassId}
    (hbases : ∀ b ∈ bases, s.store.HasClass b ∧ .root ∉ s.store.linearization b)
    (name home : String) (values : List (String × Value)) :
    (after (defineEnumeration name home bases values) s).store.HasRegistries := by
  unfold defineEnumeration
  refine after_bind_ask (P := fun t ↦ t.store.HasRegistries) h fun l hl ↦ ?_
  let d : ClassDef := { name, fullName := name, bases, linearization := l, body := classBody home [] }
  let enum := ClassId.defined s.store.classes.size
  let s₁ : State := { s with store := (s.store.newClass d).2 }
  have hcreate : create (·.newClass d) s = .ok enum s₁ := rfl
  have hlinear := linearize_of_nextLinearization hl
  have hroot : .root ∉ s₁.store.linearization enum := by
    have hnew : s₁.store.linearization enum = l := by rw [linearization_newClass, if_pos rfl]
    obtain ⟨rest, hrest, -, hmem⟩ := mem_linearize hlinear
    rw [hnew, hrest, List.mem_cons, hmem]
    rintro (hself | hbase | ⟨b, hb, hbase⟩)
    · exact ne_of_hasClass (c := .root) h.hierarchy.size_pos hself
    · exact (hbases .root hbase).2 (h.hierarchy.mem_linearization_self (c := .root) h.hierarchy.size_pos)
    · exact (hbases b hb).2 hbase
  have hdefined : s₁.store.HasRegistries := by
    refine ⟨hasHierarchy_newClass h.hierarchy (fun b hb ↦ (hbases b hb).1) hlinear, fun c hc ↦ ?_⟩
    refine h.registers_newClass d ?_ hc
    rintro rfl
    exact hroot hc
  have hmembers : Within (Respects fun st ↦ st.HasRegistries ∧ .root ∉ st.linearization enum)
      (values.forM fun e ↦ addMember enum (l.any fun c ↦ c = .builtin .integer ∨ c = .builtin .text)
        e.1 e.2) := .forM fun e _ ↦ hasRegistries_addMember _ e.1 e.2
  rw [after_bind_of_ok hcreate, after_bind_pure]
  exact (hmembers s₁ ⟨hdefined, hroot⟩).1

end Action

theorem hasRegistries_of_change {s s' : State} (hs : s.store.HasRegistries) (h : Change s s') :
    s'.store.HasRegistries := by
  cases h with
  | @define bases attributes hbases name home => exact hasRegistries_defineClass hs hbases attributes name home
  | enumerate hbases name home values =>
    exact hasRegistries_defineEnumeration hs hbases name home values
  | declare hname operation spec elementType allowNil =>
    exact hasRegistries_declareOn hs hname operation spec elementType allowNil
  | other hkeeps => exact hs.keep hkeeps

theorem hasRegistries_of_changes {s : State} (h : Relation.ReflTransGen Change .initial s) :
    s.store.HasRegistries := by
  induction h with
  | refl => exact Store.hasRegistries_initial
  | tail _ hstep ih => exact hasRegistries_of_change ih hstep

end Conformance
