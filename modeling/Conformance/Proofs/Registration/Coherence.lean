import Conformance.Proofs.Registration.Definition
import Mathlib.Logic.Relation

open Conformance.Action

namespace Conformance

/-- One step of a run. Fields stay clear of the names with a meaning of their own, and class bodies of
that of the refresh. -/
inductive Step : State → State → Prop
  | define {s : State} {bases : List ClassId} {attributes : List (String × Value)}
      (hbases : ∀ b ∈ bases, s.store.HasClass b)
      (hattributes : ∀ e ∈ attributes, s.store.Suits e)
      (name home : String) : Step s (after (defineClass name home bases attributes) s)
  | declare {s : State} {c : ClassId} {name : Value} (hc : .root ∈ s.store.linearization c)
      (hname : ∀ n, name.text? = some n → isReserved n = false) (operation : String)
      (spec elementType : Value) (allowNil : Bool) :
      Step s (after (declareOn (.ofClass c) operation name spec elementType allowNil) s)
  | other {s s' : State} (h : s.store.Keeps s'.store) : Step s s'

def Reachable : State → Prop := Relation.ReflTransGen Step .initial

namespace Store

variable {st st' : Store} {c : ClassId} {fields : Entries String Value}

theorem body_initial {n : Nat} (hn : n ≠ 0) : initial.body (.defined n) = [] := by
  obtain ⟨n, rfl⟩ := Nat.exists_eq_succ_of_ne_zero hn
  rfl

theorem hasHierarchy_initial : initial.HasHierarchy := by
  refine ⟨Nat.one_pos, rfl, ?_⟩
  intro n hn
  obtain rfl : n = 0 := Nat.lt_one_iff.1 hn
  have hbases : initial.bases (.defined 0) = [.builtin .object] := rfl
  refine ⟨?_, [.builtin .object], rfl, List.pairwise_singleton _ _, ?_, ?_⟩
  · intro m hm
    cases List.mem_singleton.1 hm
  · intro e
    rw [hbases]
    simp [linearization, Builtin.linearization]
  · intro b hb
    cases hb
    rfl

theorem wellFormed_initial : initial.WellFormed where
  hierarchy := hasHierarchy_initial
  changedBodies := rfl
  refresher := rfl
  nodup n := by
    by_cases hn : n = 0
    · subst hn
      decide +kernel
    · rw [body_initial hn]
      exact List.nodup_nil
  knows n := by
    by_cases hn : n = 0
    · subst hn
      change ∀ e ∈ rootBody rootRegistry, initial.Knows e.2
      simp [rootBody, rootRegistry, Knows, HasClass]
    · rw [body_initial hn]
      exact List.forall_mem_nil _
  notHidden n hn := by
    rw [body_initial hn]
    rfl
  registry n v hv := by
    by_cases hn : n = 0
    · subst hn
      cases hv
      rfl
    · rw [body_initial hn] at hv
      cases hv

theorem coherent_initial : initial.Coherent := by
  refine ⟨wellFormed_initial, ?_⟩
  intro c hc
  obtain ⟨n, hn, rfl⟩ := exists_of_root_mem hc
  obtain rfl : n = 0 := Nat.lt_one_iff.1 hn
  exact ⟨rootRegistry, rfl, ⟨0⟩, 0, rfl, rfl, Nat.one_pos, by rfl⟩

/-- What stands in the body of a class comes before all that it inherits. -/
theorem registry_of_lists (h : st.HasHierarchy) (hc : st.HasClass c) {r : Value}
    (hr : (st.body c).get? registryName = some r) (hlists : st.Lists r fields) :
    st.registry c = .ok r := by
  obtain ⟨rest, hlin, -⟩ := h.linearization_eq_cons hc
  obtain ⟨id, -, rfl, -⟩ := hlists
  have hcommon : st.commonAttributeOfClass? c registryName = none := rfl
  rw [registry, attributeOfClass, hcommon, classAttribute?, hlin, List.findSome?_cons, hr]
  rfl

theorem exists_registry (hst : st.HasHierarchy) (hc : .root ∈ st.linearization c)
    (h : st.Registers c fields) :
    ∃ registry, st.registry c = .ok registry ∧ st.Lists registry fields := by
  obtain ⟨registry, hr, hlists⟩ := h
  obtain ⟨n, hn, rfl⟩ := exists_of_root_mem hc
  exact ⟨registry, registry_of_lists (c := .defined n) hst hn hr hlists, hlists⟩

theorem Coherent.get?_collected (h : st.Coherent) (n : String) :
    (st.collected c).get? n = st.declaredField? c n := by
  refine Store.get?_collected ?_ n
  intro d _
  cases d with
  | builtin b => exact h.wellFormed.body_builtin b ▸ b.nodup_keys_body
  | defined l => exact h.wellFormed.nodup l

theorem ChangedBelow.exists_registry {d : ClassId} (h : st.Coherent) (h' : ChangedBelow d st st')
    (hc : .root ∈ st.linearization c) (hd : d ∉ st.linearization c) :
    ∃ r, st.registry c = .ok r ∧ st'.registry c = .ok r ∧
      st.Lists r (st.collected c) ∧ st'.Lists r (st.collected c) := by
  obtain ⟨r, hr, hlists⟩ := h.registers c hc
  obtain ⟨n, hn, rfl⟩ := exists_of_root_mem hc
  have hlists' := h'.lists r _ hlists
  have hr' : (st'.body (.defined n)).get? registryName = some r := by
    rw [h'.others _ hd, hr]
  have hn' : st'.HasClass (.defined n) := by
    rw [h'.hierarchy.hasClass_eq]
    exact hn
  have hregistry := registry_of_lists (c := .defined n) h.wellFormed.hierarchy hn hr hlists
  have hregistry' := registry_of_lists h'.coherent.wellFormed.hierarchy hn' hr' hlists'
  exact ⟨r, hregistry, hregistry', hlists, hlists'⟩

end Store

theorem coherent_of_step {s s' : State} (hs : s.store.Coherent) (h : Step s s') :
    s'.store.Coherent := by
  cases h with
  | define hbases hattributes name home => exact after_defineClass hs hbases hattributes name home
  | declare hc hname operation spec elementType allowNil =>
    exact (after_declareOn hs hc hname operation spec elementType allowNil).coherent
  | other hkeeps => exact hs.keep hkeeps

theorem coherent_of_reachable {s : State} (h : Reachable s) : s.store.Coherent := by
  induction h with
  | refl => exact Store.coherent_initial
  | tail _ hstep ih => exact coherent_of_step ih hstep

/-- At every point of a run the registry of a validated class has the names of the fields that its
linearization declares, far end first, each with the field of the nearest class. A declaration that
is refused changes nothing, one on another class changes nothing for a class that does not extend
it, and a class goes on where its only base left off. -/
theorem registries_of_reachable {s : State} (h : Reachable s) :
    (∀ c, .root ∈ s.store.linearization c →
      ∃ registry, s.store.registry c = .ok registry ∧
        s.store.iterate registry = .ok ((s.store.declaredNames c).map .text) ∧
        ∀ n, s.store.item? registry (.text n) = .ok (s.store.declaredField? c n)) ∧
    (∀ c operation name spec elementType allowNil e t,
      verboseField spec elementType allowNil s = .error e t →
      ∃ e', declareOn (.ofClass c) operation name spec elementType allowNil s = .error e' s) ∧
    (∀ c k operation name spec elementType allowNil, .root ∈ s.store.linearization c →
      (∀ n, name.text? = some n → isReserved n = false) → .root ∈ s.store.linearization k →
      c ∉ s.store.linearization k →
      let s' := after (declareOn (.ofClass c) operation name spec elementType allowNil) s
      ∃ registry, s.store.registry k = .ok registry ∧ s'.store.registry k = .ok registry ∧
        s'.store.iterate registry = s.store.iterate registry ∧
        ∀ n, s'.store.item? registry (.text n) = s.store.item? registry (.text n)) ∧
    ∀ k b, .root ∈ s.store.linearization k → s.store.bases k = [b] →
      s.store.declaredNames b <+: s.store.declaredNames k := by
  have hs := coherent_of_reachable h
  have hhierarchy := hs.wellFormed.hierarchy
  refine ⟨?_, fun c operation name spec elementType allowNil e t ↦ declareOn_refused, ?_, ?_⟩
  · intro c hc
    obtain ⟨r, hr, hlists⟩ := hs.registers c hc
    obtain ⟨n, hn, rfl⟩ := Store.exists_of_root_mem hc
    refine ⟨r, Store.registry_of_lists (c := .defined n) hhierarchy hn hr hlists, ?_, ?_⟩
    · rw [Store.iterate_of_lists hlists, Store.keys_collected]
    · intro m
      rw [Store.item?_text hlists, hs.get?_collected]
  · intro c k operation name spec elementType allowNil hc hname hk hck s'
    have hchanged := after_declareOn hs hc hname operation spec elementType allowNil
    obtain ⟨r, hr, hr', hlists, hlists'⟩ := hchanged.exists_registry hs hk hck
    refine ⟨r, hr, hr', ?_, ?_⟩
    · rw [Store.iterate_of_lists hlists, Store.iterate_of_lists hlists']
    · intro m
      rw [Store.item?_text hlists, Store.item?_text hlists']
  · intro k b hk hb
    obtain ⟨n, hn, rfl⟩ := Store.exists_of_root_mem hk
    obtain ⟨-, rest, hlin, -, -, hone⟩ := hhierarchy.isLinear n hn
    rw [hone b hb] at hlin
    exact Store.declaredNames_prefix hlin

def shelfDefined : State := after (defineClass "Shelf" "store" [] []) .initial

def shelfLabelled : State :=
  after (declareOn (.ofClass .root) "validates" (.text "label") (.ofClass (.builtin .text)) .nil false)
    shelfDefined

theorem registries_of_reachable_shelfLabelled :
    Reachable shelfLabelled ∧ ∃ registry, shelfLabelled.store.registry (.defined 1) = .ok registry ∧
      shelfLabelled.store.iterate registry = .ok [.text "label"] := by
  have hdefine : Step .initial shelfDefined :=
    .define (List.forall_mem_nil _) (List.forall_mem_nil _) "Shelf" "store"
  have hname : ∀ n, (Value.text "label").text? = some n → isReserved n = false := by
    intro n hn
    cases hn
    decide +kernel
  have hroot : ClassId.root ∈ shelfDefined.store.linearization .root := by decide +kernel
  have hdeclare : Step shelfDefined shelfLabelled :=
    .declare hroot hname "validates" (.ofClass (.builtin .text)) .nil false
  have hreachable : Reachable shelfLabelled := .tail (.single hdefine) hdeclare
  have hshelf : ClassId.root ∈ shelfLabelled.store.linearization (.defined 1) := by decide +kernel
  obtain ⟨hregistries, -⟩ := registries_of_reachable hreachable
  obtain ⟨registry, hregistry, hnames, -⟩ := hregistries (.defined 1) hshelf
  have hdeclared : shelfLabelled.store.declaredNames (.defined 1) = ["label"] := by decide +kernel
  rw [hdeclared] at hnames
  exact ⟨hreachable, registry, hregistry, hnames⟩

/-- It is not enough that the fields stay clear of the reserved names: a number under the name of
the refresh hides it, and the class does not come to know the field that is declared on it. -/
theorem not_registries_of_fields :
    ¬ ∀ (attributes : List (String × Value)) (name : String),
      (∀ e ∈ attributes, State.initial.store.isField e.2 = true → isReserved e.1 = false) →
      isReserved name = false →
      let s := after (defineClass "Shelf" "store" [] attributes) .initial
      let t := after (declareOn (.ofClass (.defined 1)) "validates" (.text name)
        (.ofClass (.builtin .text)) .nil false) s
      ∃ registry, t.store.registry (.defined 1) = .ok registry ∧
        t.store.iterate registry = .ok ((t.store.declaredNames (.defined 1)).map .text) := by
  intro h
  have hfields : ∀ e ∈ [("_refresh_registry", Value.int 5)],
      State.initial.store.isField e.2 = true → isReserved e.1 = false :=
    List.forall_mem_singleton.2 fun hfield ↦ nomatch hfield
  obtain ⟨registry, hregistry, hnames⟩ := h _ "label" hfields (by decide +kernel)
  let t := after (declareOn (.ofClass (.defined 1)) "validates" (.text "label")
    (.ofClass (.builtin .text)) .nil false)
    (after (defineClass "Shelf" "store" [] [("_refresh_registry", .int 5)]) .initial)
  have hlisted : (t.store.registry (.defined 1) >>= t.store.iterate).toOption.map List.length =
      some 0 := by decide +kernel
  have hdeclared : t.store.declaredNames (.defined 1) = ["label"] := by decide +kernel
  rw [hregistry] at hlisted
  change (t.store.iterate registry).toOption.map List.length = some 0 at hlisted
  rw [hnames, hdeclared] at hlisted
  cases hlisted

end Conformance
