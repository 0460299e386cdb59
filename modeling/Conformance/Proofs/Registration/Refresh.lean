import Conformance.Proofs.Registration.Frame
import Conformance.Proofs.Run

namespace Conformance

theorem Builtin.get?_body_refresh (b : Builtin) : b.body.get? "_refresh_registry" = none := by
  cases b <;> decide +kernel

namespace Store

/-- A class table in which all values are known, and in which the operation that refreshes a class
is found on the root and hidden nowhere. -/
structure WellFormed (st : Store) : Prop where
  hierarchy : st.HasHierarchy
  changedBodies : st.changedBodies = []
  nodup (n : Nat) : (st.body (.defined n)).keys.Nodup
  knows (n : Nat) : ∀ e ∈ st.body (.defined n), st.Knows e.2
  refresher : (st.body .root).get? "_refresh_registry" = some (.operation "_refresh_registry")
  notHidden (n : Nat) (hn : n ≠ 0) : (st.body (.defined n)).get? "_refresh_registry" = none
  registry (n : Nat) (v : Value) (hv : (st.body (.defined n)).get? registryName = some v) :
    st.isField v = false

/-- Every validated class has a registry of the fields that its linearization declares. -/
structure Coherent (st : Store) : Prop where
  wellFormed : st.WellFormed
  registers (c : ClassId) (hc : .root ∈ st.linearization c) : st.Registers c (st.collected c)

/-- What a refresh of the classes in `P` amounts to. -/
structure Refreshed (P : ClassId → Prop) (st st' : Store) : Prop where
  hierarchy : SameHierarchy st st'
  fields (c : ClassId) : st'.fieldsOf (st'.body c) = st.fieldsOf (st.body c)
  others (c : ClassId) (hc : ¬ P c) : st'.body c = st.body c
  registers (c : ClassId) (hc : P c) : st'.Registers c (st.collected c)
  lists : st.KeepsLists st'
  wellFormed : st'.WellFormed

variable {st st' st'' : Store} {c : ClassId} {n : Nat}

theorem collected_congr (hlin : st'.linearization c = st.linearization c)
    (hfields : ∀ d ∈ st.linearization c, st'.fieldsOf (st'.body d) = st.fieldsOf (st.body d)) :
    st'.collected c = st.collected c := by
  rw [collected, collected, hlin]
  refine congrArg Entries.ofList ?_
  simp only [List.flatMap]
  refine congrArg List.flatten (List.map_congr_left fun d hd ↦ ?_)
  exact hfields d (List.mem_reverse.1 hd)

theorem fieldsOf_put {body : Entries String Value} {k : String} {v : Value}
    (hv : st.isField v = false) (hold : ∀ w, body.get? k = some w → st.isField w = false) :
    st.fieldsOf (body.put k v) = st.fieldsOf body := by
  induction body with
  | nil => simp [fieldsOf, Entries.put, hv]
  | cons e body ih =>
    rw [Entries.put]
    by_cases hk : e.1 = k
    · have he : st.isField e.2 = false := hold e.2 (by simp [Entries.get?, hk])
      simp [fieldsOf, hk, hv, he]
    · have hbody : st.fieldsOf (Entries.put body k v) = st.fieldsOf body :=
        ih fun w hw ↦ hold w (by simpa [Entries.get?, hk] using hw)
      unfold fieldsOf at hbody
      simp [fieldsOf, hk, List.filter_cons, hbody]

theorem body_putInBody (hn : n < st.classes.size) (k : String) (v : Value) (c : ClassId) :
    (st.putInBody (.defined n) k v).body c =
      if c = .defined n then (st.body c).put k v else st.body c := by
  cases c with
  | builtin b => rfl
  | defined m =>
    have hget := st.classes.get_set n
      { st.classes.get n with body := (st.classes.get n).body.put k v } m
    simp only [putInBody, setBody, body, hget, ClassId.defined.injEq, hn, and_true]
    split
    · next h => rw [h]
    · rfl

theorem sameHierarchy_putInBody (st : Store) (n : Nat) (k : String) (v : Value) :
    SameHierarchy st (st.putInBody (.defined n) k v) where
  size_eq := Table.size_set _ _ _
  bases_eq := by
    funext c
    cases c with
    | builtin b => rfl
    | defined m =>
      simp only [putInBody, setBody, bases, Table.get_set]
      split
      · next h => rw [h.1]
      · rfl
  linearization_eq := by
    funext c
    cases c with
    | builtin b => rfl
    | defined m =>
      simp only [putInBody, setBody, linearization, Table.get_set]
      split
      · next h => rw [h.1]
      · rfl
  changedBodies_eq := rfl

theorem keepsLists_putInBody (st : Store) (c : ClassId) (k : String) (v : Value) :
    st.KeepsLists (st.putInBody c k v) := by
  cases c <;> exact .of_cells rfl rfl

namespace WellFormed

theorem keep (h : st.WellFormed) (hk : st.Keeps st') : st'.WellFormed where
  hierarchy := hk.sameHierarchy.hasHierarchy h.hierarchy
  changedBodies := hk.changedBodies_eq.trans h.changedBodies
  nodup n := hk.body_eq ▸ h.nodup n
  knows n := by
    rw [hk.body_eq, hk.sameHierarchy.knows_eq]
    exact h.knows n
  refresher := hk.body_eq ▸ h.refresher
  notHidden n hn := hk.body_eq ▸ h.notHidden n hn
  registry n v hv := by
    rw [hk.sameHierarchy.isField_eq]
    exact h.registry n v (hk.body_eq ▸ hv)

variable (h : st.WellFormed)

include h

theorem putInBody (hn : n < st.classes.size) {k : String} (hk : k ≠ "_refresh_registry") {v : Value}
    (hv : st.Knows v) (hregistry : k = registryName → st.isField v = false) :
    (st.putInBody (.defined n) k v).WellFormed := by
  -- only the entry that is written can be another one, and its name is none that matters
  have hsame := st.sameHierarchy_putInBody n k v
  have hbody := body_putInBody hn k v
  refine ⟨hsame.hasHierarchy h.hierarchy, h.changedBodies, fun m ↦ ?_, fun m ↦ ?_, ?_,
    fun m hm ↦ ?_, fun m w hw ↦ ?_⟩
  · rw [hbody]
    split
    · exact Entries.nodup_keys_put (h.nodup m) k v
    · exact h.nodup m
  · rw [hbody, hsame.knows_eq]
    split
    · exact Entries.forall_put (h.knows m) hv k
    · exact h.knows m
  · rw [hbody]
    split
    · rw [Entries.get?_put]
      simpa [hk] using h.refresher
    · exact h.refresher
  · rw [hbody]
    split
    · rw [Entries.get?_put]
      simpa [hk] using h.notHidden m hm
    · exact h.notHidden m hm
  · rw [hbody] at hw
    rw [hsame.isField_eq]
    split at hw
    · rw [Entries.get?_put] at hw
      split at hw
      · next heq =>
        cases hw
        exact hregistry (beq_iff_eq.1 heq)
      · exact h.registry m w hw
    · exact h.registry m w hw

@[simp] theorem body_builtin (b : Builtin) : st.body (.builtin b) = b.body := by
  rw [body, h.changedBodies]
  split <;> rfl

/-- The root is the only class that says how to refresh. -/
theorem classAttribute?_refresh (hc : .root ∈ st.linearization c) :
    st.classAttribute? c "_refresh_registry" = some (.operation "_refresh_registry") := by
  rw [classAttribute?]
  cases hfound : (st.linearization c).findSome? fun d ↦ (st.body d).get? "_refresh_registry" with
  | none =>
    have hroot := List.findSome?_eq_none_iff.1 hfound .root hc
    rw [h.refresher] at hroot
    cases hroot
  | some v =>
    obtain ⟨d, -, hd⟩ := List.exists_of_findSome?_eq_some hfound
    cases d with
    | builtin b =>
      rw [h.body_builtin, b.get?_body_refresh] at hd
      cases hd
    | defined n =>
      by_cases hn : n = 0
      · subst hn
        exact hd.symm.trans h.refresher
      · rw [h.notHidden n hn] at hd
        cases hd

theorem hasOperation_refresh (hc : .root ∈ st.linearization c) :
    st.hasOperation (.ofClass c) "_refresh_registry" = .ok () := by
  have hcommon : st.commonAttributeOfClass? c "_refresh_registry" = none := rfl
  have hattribute : st.attributeOf (.ofClass c) "_refresh_registry" =
      .ok (.operation "_refresh_registry") := by
    rw [attributeOf, attributeOfClass, hcommon, h.classAttribute?_refresh hc]
    rfl
  rw [hasOperation, hattribute]
  rfl

end WellFormed

def newRegistry (st : Store) (fields : Entries String Value) : Value × Store :=
  let (entries, st) := st.newDictionary fields.asTexts
  let (id, st) := st.newObject ⟨"", [(.text "_fields", .mappingView entries)]⟩
  (.object (.builtin .fieldRegistry) id, st)

def withRegistry (st : Store) (c : ClassId) : Store :=
  let (registry, st) := st.newRegistry (st.collected c)
  st.putInBody c registryName registry

theorem grows_newRegistry (st : Store) (fields : Entries String Value) :
    st.Grows (st.newRegistry fields).2 :=
  (st.grows_newDictionary _).trans (grows_newObject _ _)

theorem lists_newRegistry (st : Store) (fields : Entries String Value) :
    (st.newRegistry fields).2.Lists (st.newRegistry fields).1 fields := by
  refine ⟨⟨st.objects.size⟩, st.dictionaries.size, rfl, ?_, ?_, Table.get_add_size _ _⟩
  · have hobject : (st.newRegistry fields).2.object ⟨st.objects.size⟩ =
        ⟨"", [(.text "_fields", .mappingView (.cell st.dictionaries.size))]⟩ :=
      Table.get_add_size _ _
    rw [hobject, Entries.named?_cons]
    rfl
  · exact Nat.lt_of_lt_of_eq (Nat.lt_succ_self _) (Table.size_add _ _).symm

namespace Refreshed

variable {P Q : ClassId → Prop}

theorem of_keeps (h : st.WellFormed) (hk : st.Keeps st') : Refreshed (fun _ ↦ False) st st' where
  hierarchy := hk.sameHierarchy
  fields c := by rw [hk.sameHierarchy.fieldsOf_eq, hk.body_eq]
  others c _ := by rw [hk.body_eq]
  registers _ hc := hc.elim
  lists := hk.lists
  wellFormed := h.keep hk

theorem collected_eq (h : Refreshed P st st') : st'.collected c = st.collected c :=
  collected_congr (congrFun h.hierarchy.linearization_eq c) fun d _ ↦ h.fields d

theorem trans (h : Refreshed P st st') (h' : Refreshed Q st' st'') :
    Refreshed (fun c ↦ P c ∨ Q c) st st'' where
  hierarchy := h.hierarchy.trans h'.hierarchy
  fields c := (h'.fields c).trans (h.fields c)
  others c hc := (h'.others c fun hQ ↦ hc (.inr hQ)).trans (h.others c fun hP ↦ hc (.inl hP))
  registers c hc := by
    by_cases hQ : Q c
    · have hregisters := h'.registers c hQ
      rwa [h.collected_eq] at hregisters
    · exact h'.lists.registers (h'.others c hQ) (h.registers c (hc.resolve_right hQ))
  lists := h.lists.trans h'.lists
  wellFormed := h'.wellFormed

theorem congr (h : Refreshed P st st') (hP : ∀ c, P c ↔ Q c) : Refreshed Q st st' where
  hierarchy := h.hierarchy
  fields := h.fields
  others c hc := h.others c fun hPc ↦ hc ((hP c).1 hPc)
  registers c hc := h.registers c ((hP c).2 hc)
  lists := h.lists
  wellFormed := h.wellFormed

/-- A refresh leaves all in order if it comes to the classes that were not. -/
theorem coherent (h : Refreshed P st st')
    (hst : ∀ c, ¬ P c → .root ∈ st.linearization c → st.Registers c (st.collected c)) :
    st'.Coherent := by
  refine ⟨h.wellFormed, fun c hc ↦ ?_⟩
  rw [h.collected_eq]
  by_cases hP : P c
  · exact h.registers c hP
  · rw [h.hierarchy.linearization_eq] at hc
    exact h.lists.registers (h.others c hP) (hst c hP hc)

end Refreshed

theorem Coherent.keep (h : st.Coherent) (hk : st.Keeps st') : st'.Coherent :=
  (Refreshed.of_keeps h.wellFormed hk).coherent fun c _ ↦ h.registers c

theorem refreshed_withRegistry (h : st.WellFormed) (hn : n < st.classes.size) :
    Refreshed (fun c ↦ c = .defined n) st (st.withRegistry (.defined n)) := by
  have hkeeps := (st.grows_newRegistry (st.collected (.defined n))).keeps
  have hlists := st.lists_newRegistry (st.collected (.defined n))
  have hkept := h.keep hkeeps
  have hfield : st.isField (st.newRegistry (st.collected (.defined n))).1 = false := rfl
  have hfield' : (st.newRegistry (st.collected (.defined n))).2.isField
      (st.newRegistry (st.collected (.defined n))).1 = false := rfl
  have hsize : n < (st.newRegistry (st.collected (.defined n))).2.classes.size :=
    hkeeps.sameHierarchy.size_eq ▸ hn
  have hbody := body_putInBody hsize registryName (st.newRegistry (st.collected (.defined n))).1
  have hsame : SameHierarchy st (st.withRegistry (.defined n)) :=
    hkeeps.sameHierarchy.trans (sameHierarchy_putInBody _ n _ _)
  refine ⟨hsame, fun c ↦ ?_, fun c hc ↦ ?_, fun c hc ↦ ?_,
    hkeeps.lists.trans (keepsLists_putInBody _ (.defined n) _ _),
    hkept.putInBody hsize (by decide) trivial fun _ ↦ hfield'⟩
  · rw [hsame.fieldsOf_eq, withRegistry, hbody, hkeeps.body_eq]
    split
    · next hc =>
      subst hc
      exact fieldsOf_put hfield fun w hw ↦ h.registry n w hw
    · rfl
  · rw [withRegistry, hbody, if_neg hc, hkeeps.body_eq]
  · subst hc
    refine ⟨(st.newRegistry (st.collected (.defined n))).1, ?_, keepsLists_putInBody _ (.defined n) _ _ _ _ hlists⟩
    rw [withRegistry, hbody, if_pos rfl, Entries.get?_put]
    simp

end Store

namespace Action

open Store

variable {c : ClassId} {s : State}

theorem register_run (c : ClassId) (s : State) :
    ∃ s', register c s = .ok () s' ∧ s'.store = s.store.withRegistry c := ⟨_, rfl, rfl⟩

theorem refreshAll_run {k : Nat}
    (hk : ∀ (c : ClassId) (s : State), s.store.WellFormed → .root ∈ s.store.linearization c →
      ∃ s', refreshWithin k c s = .ok () s' ∧ Refreshed (s.store.InReach k c) s.store s'.store)
    (l : List ClassId) (s : State) (h : s.store.WellFormed)
    (hl : ∀ c ∈ l, .root ∈ s.store.linearization c) :
    ∃ s', l.forM (refreshWithin k) s = .ok () s' ∧
      Refreshed (fun e ↦ ∃ c ∈ l, s.store.InReach k c e) s.store s'.store := by
  induction l generalizing s with
  | nil => exact ⟨s, rfl, (Refreshed.of_keeps h (.refl _)).congr fun e ↦ by simp⟩
  | cons c l ih =>
    obtain ⟨hc, hl⟩ := List.forall_mem_cons.1 hl
    obtain ⟨s', hrun, hrefreshed⟩ := hk c s h hc
    have hl' : ∀ d ∈ l, .root ∈ s'.store.linearization d := by
      rw [hrefreshed.hierarchy.linearization_eq]
      exact hl
    obtain ⟨s'', hrun', hrefreshed'⟩ := ih s' hrefreshed.wellFormed hl'
    refine ⟨s'', ?_, (hrefreshed.trans hrefreshed').congr fun e ↦ ?_⟩
    · exact (bind_of_ok hrun).trans hrun'
    · rw [hrefreshed.hierarchy.inReach_eq]
      simp

theorem refreshWithin_run (k : Nat) (c : ClassId) (s : State) (h : s.store.WellFormed)
    (hc : .root ∈ s.store.linearization c) :
    ∃ s', refreshWithin k c s = .ok () s' ∧
      Refreshed (s.store.InReach k c) s.store s'.store := by
  induction k generalizing c s with
  | zero => exact ⟨s, rfl, .of_keeps h (.refl _)⟩
  | succ k ih =>
    obtain ⟨n, hn, rfl⟩ := exists_of_root_mem hc
    obtain ⟨s', hregister, hstore⟩ := register_run (.defined n) s
    have hself := refreshed_withRegistry h hn
    rw [← hstore] at hself
    have hsub : ∀ d ∈ s'.store.subclasses (.defined n), .root ∈ s'.store.linearization d := by
      intro d hd
      rw [hself.hierarchy.subclasses_eq] at hd
      rw [hself.hierarchy.linearization_eq]
      obtain ⟨m, hm, rfl, hbase⟩ := mem_subclasses.1 hd
      exact (h.hierarchy.mem_linearization_defined hm).2 (.inr ⟨_, hbase, hc⟩)
    obtain ⟨s'', hall, hrest⟩ := refreshAll_run ih _ s' hself.wellFormed hsub
    refine ⟨s'', ?_, (hself.trans hrest).congr fun e ↦ ?_⟩
    · rw [refreshWithin, bind_of_ok (ask_of_ok (h.hasOperation_refresh hc)), bind_of_ok hregister]
      exact hall
    · rw [hself.hierarchy.subclasses_eq, hself.hierarchy.inReach_eq]
      rfl

end Action

end Conformance
