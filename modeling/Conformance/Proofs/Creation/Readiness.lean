import Conformance.Proofs.Creation.Ending
import Conformance.Proofs.Registration.Coherence

namespace Conformance

namespace Store

variable {st : Store} {c : ClassId}

theorem exists_declared {fields : Entries String Value}
    (h : ∀ e ∈ fields, ∃ constraint allowsNil, st.Asks ⟨e.1, e.2, constraint, allowsNil⟩) :
    ∃ ds, fieldsOfDeclared ds = fields ∧ ∀ d ∈ ds, st.Asks d := by
  induction fields with
  | nil => exact ⟨[], rfl, List.forall_mem_nil _⟩
  | cons e fields ih =>
    obtain ⟨⟨constraint, allowsNil, he⟩, hfields⟩ := List.forall_mem_cons.1 h
    obtain ⟨ds, rfl, hds⟩ := ih hfields
    exact ⟨⟨e.1, e.2, constraint, allowsNil⟩ :: ds, rfl, List.forall_mem_cons.2 ⟨he, hds⟩⟩

theorem Coherent.declaredField?_of_mem (h : st.Coherent) {n : String} {f : Value}
    (hf : (n, f) ∈ st.collected c) : st.declaredField? c n = some f := by
  have hnodup : (st.collected c).keys.Nodup := Entries.nodup_keys_ofList _
  rw [← h.get?_collected]
  exact Entries.get?_of_mem hnodup hf

end Store

open Store

/-- After any run of definitions and declarations a class of validated objects creates them in the
usual way, from the attributes that its linearization declares, unless something takes the place of
its initializer or of what registries answer, and as long as its fields are asked for constraints. -/
theorem creates_of_reachable {s : State} (h : Reachable s) {c : ClassId}
    (hc : s.store.nature c = .validated)
    (hmarker : s.store.inherits c (.builtin .booleanMarker) = false)
    (hinit : s.store.checkInitializer c = .ok ())
    (hitems : ∀ registry, s.store.registry c = .ok registry →
      s.store.offers registry "items" none = .ok ())
    (hfields : ∀ n f, s.store.declaredField? c n = some f →
      ∃ constraint allowsNil, s.store.Asks ⟨n, f, constraint, allowsNil⟩) :
    ∃ ds, s.store.Creates c ds ∧ ds.map Declared.name = s.store.declaredNames c ∧
      ∀ d ∈ ds, s.store.declaredField? c d.name = some d.field := by
  have hs := coherent_of_reachable h
  have hroot := root_mem_of_validated hc
  obtain ⟨registry, hregistry, hlists⟩ :=
    exists_registry hs.wellFormed.hierarchy hroot (hs.registers c hroot)
  obtain ⟨ds, hds, hasks⟩ := exists_declared fun e he ↦
    hfields e.1 e.2 (hs.declaredField?_of_mem he)
  have hnames : ds.map Declared.name = (s.store.collected c).keys := by
    rw [← keys_fieldsOfDeclared, hds]
  have hnodup : (ds.map Declared.name).Nodup := hnames ▸ Entries.nodup_keys_ofList _
  refine ⟨ds, ?_, hnames.trans (keys_collected ..), fun d hd ↦ ?_⟩
  · exact
      { isValidated := hc
        isNoMarker := hmarker
        initializer := hinit
        registry := ⟨registry, hregistry, hds ▸ hlists, hitems registry hregistry⟩
        nodup := hnodup
        asks := hasks }
  · apply hs.declaredField?_of_mem
    rw [← hds]
    exact List.mem_map_of_mem hd

end Conformance
