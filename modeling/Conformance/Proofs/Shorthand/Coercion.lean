import Conformance.Declaration
import Conformance.Proofs.Evaluation.Agreement
import Conformance.Proofs.Evaluation.Lockstep
import Conformance.Proofs.Shorthand.Built
import Conformance.Proofs.Shorthand.Nesting

namespace Conformance

def Constraint.layers : Nat → Constraint → Constraint
  | 0, t => t
  | k + 1, t => .array (layers k t)

/-- A fault of a definition, and not of the code that a definition happens to run. -/
def Fault.concernsDefinition : Fault → Bool
  | .notAClass _ | .notAShorthand _ | .shorthandSize _ | .noLiterals | .noBranches
  | .notAConstraint _ | .notAnArrayType _ => true
  | _ => false

namespace Store

/-- Lists and tuples, nested so many levels deep, whose innermost members have a property. -/
def Nests (st : Store) (P : Value → Prop) : Nat → Value → Prop
  | 0, v => P v
  | k + 1, v => ∃ items, st.arrayItems? v = some items ∧ ∀ item ∈ items, Nests st P k item

variable {st st' : Store} {spec c v : Value} {b : Blueprint} {k : Nat} {id : ListId}

@[simp] theorem treeOf_layers (st : Store) (b : Blueprint) (k : Nat) :
    st.treeOf (b.layers k) = (st.treeOf b).layers k := by
  induction k with
  | zero => rfl
  | succ k ih => exact congrArg Constraint.array ih

theorem isWhole_layers (h : st.IsWhole b) (k : Nat) : st.IsWhole (b.layers k) := by
  induction k with
  | zero => exact h
  | succ k ih => exact ih

theorem concernsDefinition_rejection (st : Store) (v : Value) :
    (st.rejection v).concernsDefinition = true ∨ st.written v = .error (st.rejection v) := by
  unfold rejection
  split
  · exact .inl rfl
  · cases st.written v with
    | ok text => exact .inl rfl
    | error e => exact .inr rfl

theorem Grows.isConstraint_eq (h : st.Grows st') : st'.isConstraint = st.isConstraint := by
  funext v
  have hlinear := h.keeps.sameHierarchy.linearization_eq
  cases v <;> simp [isConstraint, inherits, typeOf, isEnum, hlinear]

theorem Adds.items_eq (h : st.Adds st') : st'.items = st.items := by
  funext id
  rw [items, items, h.lists_eq]

theorem Adds.shorthandWithin_eq_ok (h : st.Adds st') (depth : Nat) {spec : Value} {b : Blueprint}
    (hb : st.shorthandWithin depth spec = .ok b) : st'.shorthandWithin depth spec = .ok b := by
  induction depth generalizing spec b with
  | zero => cases hb
  | succ depth ih =>
    unfold shorthandWithin at hb ⊢
    rw [h.grows.isConstraint_eq, h.items_eq]
    split at hb
    · next hspec => rwa [if_pos hspec]
    · next hspec =>
      rw [if_neg hspec]
      split at hb
      · exact hb
      · split at hb
        · obtain ⟨b', hb', hb⟩ := answer_of_bind hb
          simp only [ih hb']
          exact hb
        · cases hb
      · obtain ⟨text, -, hb⟩ := answer_of_bind hb
        cases hb

theorem Adds.shorthand_eq_ok (h : st.Adds st') (hb : st.shorthand spec = .ok b) :
    st'.shorthand spec = .ok b := by
  rw [shorthand, h.lists_eq]
  exact h.shorthandWithin_eq_ok _ hb

theorem isConstraint_of_isBuilt {n : Nat} (hgrows : st.Grows st')
    (hcore : st.coreBlueprint? v = some b) (h : st'.IsBuilt n (b.layers k) c) : st'.isConstraint c = true := by
  cases k with
  | succ k =>
    obtain ⟨id, w, -, rfl, -⟩ := h
    rfl
  | zero =>
    unfold coreBlueprint? at hcore
    split at hcore
    · next hv =>
      cases hcore
      cases h
      rwa [hgrows.isConstraint_eq]
    · split at hcore
      · cases hcore
        obtain ⟨id, -, rfl, -⟩ := h
        rfl
      · cases hcore

theorem shorthand_of_isConstraint (h : st.isConstraint c = true) :
    st.shorthand c = .ok (.given c) := by
  rw [shorthand, shorthandWithin, if_pos h]
  rfl

section Accepting

variable {ev : Evaluator} (hev : ev.IsIntact)

include hev

theorem exists_run_of_call {method : Method} {t : Constraint} {rest : Check Bool} {verdict : Bool}
    (h : (do ev.call method t; rest).Answers verdict) : ∃ s s', rest s = .ok verdict s' := by
  obtain ⟨s', h⟩ := h .initial
  rw [bind_of_ok (Evaluator.call_run hev ..)] at h
  exact ⟨_, s', h⟩

theorem accepts_array_iff (t : Constraint) (v : Value) :
    (st.accepts ev (.array t) v).Answers true ↔
      ∃ items, st.arrayItems? v = some items ∧
        ∀ item ∈ items, (st.accepts ev t item).Answers true := by
  rw [accepts]
  constructor
  · intro h
    obtain ⟨s, s', h⟩ := exists_run_of_call hev h
    cases hitems : st.arrayItems? v with
    | none =>
      simp only [hitems] at h
      cases h
    | some items =>
      simp only [hitems] at h
      obtain ⟨-, s₁, -, h⟩ := bind_eq_ok h
      exact ⟨items, rfl, Check.forall_answers_of_all (accepts_ignoresSettings hev t) h⟩
  · rintro ⟨items, hitems, hall⟩
    refine .bind (answers_call hev _ _) ?_
    simp only [hitems]
    exact .bind (.ofExcept (hev _ (by decide))) (.all hall)

/-- What layers of arrays accept are as many layers of lists and tuples around what the core
accepts. -/
theorem accepts_layers_iff (t : Constraint) (k : Nat) (v : Value) :
    (st.accepts ev (t.layers k) v).Answers true ↔
      st.Nests (fun w ↦ (st.accepts ev t w).Answers true) k v := by
  induction k generalizing v with
  | zero => rfl
  | succ k ih =>
    rw [Constraint.layers, accepts_array_iff hev, Nests]
    simp only [ih]

end Accepting

def IsNewField (st : Store) (field constraint : Value) (allowNil : Bool) : Prop :=
  ∃ id, field = .object (.builtin .field) id ∧ (st.object id).attributes =
    [(.text "constraint", constraint), (.text "allow_nil", .bool allowNil), (.text "name", .nil)]

end Store

namespace Action

open Store

/-- One action and then another fail in the same way and leave everything as it was, or else what
they give is related from then on. -/
def Agree (R : Store → Value → Value → Prop) (x y : Action Value) (s : State) : Prop :=
  (∃ e, x s = .error e s ∧ y s = .error e s) ∨
    ∃ v t w t', x s = .ok v t ∧ y t = .ok w t' ∧ R t'.store v w

variable {s t s' t' : State} {read : Store → Except Fault Blueprint} {b : Blueprint} {c d : Value}

theorem built_of_ok (h : read s.store = .ok b) : built read s = build b s :=
  bind_of_ok (ask_of_ok h)

theorem built_of_error {e : Fault} (h : read s.store = .error e) : built read s = .error e s :=
  bind_of_error (ask_of_error h)

theorem newField_adds (c : Value) (allowNil : Bool) (s : State) :
    ∃ f t, newField c allowNil s = .ok f t ∧ s.store.Adds t.store ∧
      ∀ st, t.store.Grows st → st.IsNewField f c allowNil := by
  obtain ⟨t, hrun, hadds, -, hattributes⟩ := newObject_adds (.builtin .field)
    [(.text "constraint", c), (.text "allow_nil", .bool allowNil), (.text "name", .nil)] s
  exact ⟨_, t, hrun, hadds, fun st hst ↦ ⟨_, rfl, hattributes st hst⟩⟩

theorem index_of_build_array {element : Blueprint} (h : build (.array element) s = .ok c t) :
    ∃ n, c = .object (.builtin .arrayConstraint) ⟨n⟩ ∧ s.store.objects.size ≤ n ∧
      n < t.store.objects.size := by
  obtain ⟨v, s₁, hv, hadds, -⟩ := build_eq_ok element s
  obtain ⟨t', hrun, -, hlt, -⟩ :=
    newObject_adds (.builtin .arrayConstraint) [(.text "element", v)] s₁
  cases ((bind_of_ok hv).trans hrun).symm.trans h
  exact ⟨_, rfl, hadds.grows.objects_le, hlt⟩

theorem equal_of_build_array {element : Blueprint} {st : Store} (hparts : s.store.LeavesParts)
    (hc : build (.array element) s = .ok c t) (hgrows : t.store.Grows s'.store)
    (hd : build (.array element) s' = .ok d t') (hst : t'.store.Grows st) :
    st.equal c d = .ok true := by
  refine equal_of_build hparts hc hgrows hd hst ?_
  obtain ⟨m, rfl, -, hm⟩ := index_of_build_array hc
  obtain ⟨n, rfl, hn, -⟩ := index_of_build_array hd
  have hle := hgrows.objects_le
  simp only [ne_eq, Value.object.injEq, ObjectId.mk.injEq, true_and]
  omega

section Shorthand

variable {spec : Value}

theorem exists_arrayBlueprint {st : Store} (hspec : st.Acyclic spec) {l : ListId}
    (hl : st.items l = [spec]) :
    (∃ e, st.arrayBlueprint spec = .error e ∧ st.shorthand (.list l) = .error e) ∨
      ∃ element, st.arrayBlueprint spec = .ok (.array element) ∧
        st.shorthand (.list l) = .ok (.array element) := by
  rw [hspec.shorthand_of_items ⟨rfl, rfl⟩ hl, arrayBlueprint]
  cases st.shorthand spec with
  | error e => exact .inl ⟨e, rfl, rfl⟩
  | ok element => exact .inr ⟨element, rfl, rfl⟩

theorem agree_array (hparts : s.store.LeavesParts) (hspec : s.store.Acyclic spec) {l : ListId}
    (hl : s.store.items l = [spec]) :
    Agree (fun st c d ↦ st.equal c d = .ok true) (Building.arrayOf spec).run
      (Building.coercion (.list l)).run s := by
  rcases exists_arrayBlueprint hspec hl with ⟨e, harray, hshort⟩ | ⟨element, harray, hshort⟩
  · exact .inl ⟨e, built_of_error harray, built_of_error hshort⟩
  · obtain ⟨c, t, hc, hadds, -⟩ := build_eq_ok (.array element) s
    obtain ⟨d, t', hd, -⟩ := build_eq_ok (.array element) t
    refine .inr ⟨c, t, d, t', (built_of_ok harray).trans hc, ?_, ?_⟩
    · exact (built_of_ok (hadds.shorthand_eq_ok hshort)).trans hd
    · exact equal_of_build_array hparts hc (.refl _) hd (.refl _)

theorem agree_fields (hparts : s.store.LeavesParts) (hspec : s.store.Acyclic spec) {l : ListId}
    (hl : s.store.items l = [spec]) {array : Value} (harray : isArrayClass array = true)
    (hne : spec ≠ .nil) (allowNil : Bool) :
    Agree (fun st f g ↦ ∃ c d, st.IsNewField f c allowNil ∧ st.IsNewField g d allowNil ∧
        st.equal c d = .ok true)
      (verboseField array spec allowNil) (shorthandField (.list l) allowNil) s := by
  have hverbose : verboseField array spec allowNil =
      built (·.arrayBlueprint spec) >>= fun c ↦ newField c allowNil := by
    unfold verboseField
    split
    · exact (hne rfl).elim
    · rw [if_pos harray]
  rw [hverbose]
  rcases exists_arrayBlueprint hspec hl with ⟨e, hread, hshort⟩ | ⟨element, hread, hshort⟩
  · exact .inl ⟨e, bind_of_error (built_of_error hread), bind_of_error (built_of_error hshort)⟩
  · obtain ⟨c, t, hc, hadds, -⟩ := build_eq_ok (.array element) s
    obtain ⟨f, t₁, hf, hadds₁, hfield⟩ := newField_adds c allowNil t
    -- the second constraint is built once the first field has been made
    obtain ⟨d, t₂, hd, hadds₂, -⟩ := build_eq_ok (.array element) t₁
    obtain ⟨g, t', hg, hadds', hfield'⟩ := newField_adds d allowNil t₂
    refine .inr ⟨f, t₁, g, t', ?_, ?_, c, d, ?_, hfield' _ (.refl _), ?_⟩
    · exact (bind_of_ok ((built_of_ok hread).trans hc)).trans hf
    · have hshort' := (hadds.trans hadds₁).shorthand_eq_ok hshort
      exact (bind_of_ok ((built_of_ok hshort').trans hd)).trans hg
    · exact hfield _ (hadds₂.grows.trans hadds'.grows)
    · exact equal_of_build_array hparts hc hadds₁.grows hd hadds'.grows

theorem built_eq_ok (h : built read s = .ok c t) :
    ∃ b, read s.store = .ok b ∧ build b s = .ok c t := by
  obtain ⟨b, s', hask, hbuild⟩ := bind_eq_ok h
  obtain ⟨hread, rfl⟩ := ask_eq_ok hask
  exact ⟨b, hread, hbuild⟩

theorem coercion_ok_iff (hspec : s.store.Acyclic spec) :
    (∃ c t, (Building.coercion spec).run s = .ok c t) ↔
      ∃ k core, s.store.Reaches k spec core ∧ (s.store.coreBlueprint? core).isSome := by
  constructor
  · rintro ⟨c, t, h⟩
    obtain ⟨b, hread, -⟩ := built_eq_ok h
    obtain ⟨k, core, b', hcore, hb', -⟩ := hspec.shorthand_ok_iff.1 hread
    exact ⟨k, core, hcore, by rw [hb']; rfl⟩
  · rintro ⟨k, core, hcore, hsome⟩
    obtain ⟨b, hb⟩ := Option.isSome_iff_exists.1 hsome
    obtain ⟨c, t, hrun, -⟩ := build_eq_ok (b.layers k) s
    exact ⟨c, t, (built_of_ok (hspec.shorthand_of_core hcore hb)).trans hrun⟩

theorem coerced_again {st : Store} {core : Value} {k n : Nat} {u : State}
    (hcore : st.coreBlueprint? core = some b) (hgrows : st.Grows u.store)
    (h : u.store.IsBuilt n (b.layers k) c) : (Building.coercion c).run u = .ok c u := by
  have hread := shorthand_of_isConstraint (isConstraint_of_isBuilt hgrows hcore h)
  show built (·.shorthand c) u = build (.given c) u
  exact built_of_ok hread

theorem accepts_coerced_iff {k : Nat} {st : Store} (hparts : s.store.LeavesParts)
    (hwhole : s.store.IsWhole b) (h : build (b.layers k) s = .ok c t) (hgrows : t.store.Grows st)
    {ev : Evaluator} (hev : ev.IsIntact) (v : Value) :
    (st.accepts ev (st.constraint c) v).Answers true ↔
      st.Nests (fun w ↦ (st.accepts ev (st.treeOf b) w).Answers true) k v := by
  rw [constraint_of_build hparts (isWhole_layers hwhole k) h hgrows, treeOf_layers]
  exact accepts_layers_iff hev _ k v

theorem coercion_error (hspec : s.store.Acyclic spec) {e : Fault}
    (h : (Building.coercion spec).run s = .error e t) :
    t = s ∧ ∃ k v, s.store.Reaches k spec v ∧ s.store.IsEnd v ∧
      s.store.coreBlueprint? v = none ∧ e = s.store.rejection v := by
  obtain ⟨k, v, hv, hend⟩ := hspec.exists_end
  cases hcore : s.store.coreBlueprint? v with
  | some b =>
    obtain ⟨c, t', hrun⟩ := (coercion_ok_iff hspec).2 ⟨k, v, hv, by rw [hcore]; rfl⟩
    rw [h] at hrun
    cases hrun
  | none =>
    have hread := hspec.shorthand_of_rejected hv hend hcore
    have hrun : built (·.shorthand spec) s = .error (s.store.rejection v) s := built_of_error hread
    cases hrun.symm.trans h
    exact ⟨rfl, k, v, hv, hend, hcore, rfl⟩

/-- A shorthand can be coerced if and only if it is a constraint or a class with lists of one
element each around it. It stands for as many arrays around this very constraint, or around the
instances of the class, and what it stands for stands for itself. Values fit it if they are lists and
tuples nested as deep, with members that fit the core. If it cannot be coerced it is rejected for the
value to which the lists lead: unless this cannot be shown, there is a fault of the definition.

An array of what a shorthand stands for is what a list stands for that holds the shorthand, also as
the type of a field. -/
theorem coercion_of_acyclic (hspec : s.store.Acyclic spec) :
    ((∃ c t, (Building.coercion spec).run s = .ok c t) ↔
      ∃ k core, s.store.Reaches k spec core ∧ (s.store.coreBlueprint? core).isSome) ∧
    (∀ c t, (Building.coercion spec).run s = .ok c t →
      ∃ k core b, s.store.Reaches k spec core ∧ s.store.coreBlueprint? core = some b ∧
        s.store.Adds t.store ∧ ∀ u : State, t.store.Grows u.store →
          u.store.IsBuilt s.store.objects.size (b.layers k) c ∧ (Building.coercion c).run u = .ok c u ∧
          (s.store.LeavesParts → s.store.IsWhole b → ∀ ev v, ev.IsIntact →
            ((u.store.accepts ev (u.store.constraint c) v).Answers true ↔
              u.store.Nests (fun w ↦ (u.store.accepts ev (u.store.treeOf b) w).Answers true)
                k v))) ∧
    (∀ e t, (Building.coercion spec).run s = .error e t →
      t = s ∧ ∃ k v, s.store.Reaches k spec v ∧ s.store.IsEnd v ∧
        s.store.coreBlueprint? v = none ∧ e = s.store.rejection v ∧
        (e.concernsDefinition = true ∨ s.store.written v = .error e)) ∧
    ∀ l, s.store.LeavesParts → s.store.items l = [spec] →
      Agree (fun st c d ↦ st.equal c d = .ok true) (Building.arrayOf spec).run
        (Building.coercion (.list l)).run s ∧
      ∀ array allowNil, isArrayClass array = true → spec ≠ .nil →
        Agree (fun st f g ↦ ∃ c d, st.IsNewField f c allowNil ∧ st.IsNewField g d allowNil ∧
            st.equal c d = .ok true)
          (verboseField array spec allowNil) (shorthandField (.list l) allowNil) s := by
  refine ⟨coercion_ok_iff hspec, fun c t h ↦ ?_, fun e t h ↦ ?_, fun l hparts hl ↦ ⟨?_, ?_⟩⟩
  · obtain ⟨b', hread, hbuild⟩ := built_eq_ok h
    obtain ⟨k, core, b, hreaches, hcore, rfl⟩ := hspec.shorthand_ok_iff.1 hread
    obtain ⟨c', t', hrun, hadds, hbuilt, -⟩ := build_eq_ok (b.layers k) s
    cases hrun.symm.trans hbuild
    refine ⟨k, core, b, hreaches, hcore, hadds, fun u hu ↦ ⟨hbuilt _ hu, ?_, ?_⟩⟩
    · exact coerced_again hcore (hadds.grows.trans hu) (hbuilt _ hu)
    · exact fun hparts hwhole ev v hev ↦ accepts_coerced_iff hparts hwhole hbuild hu hev v
  · obtain ⟨rfl, k, v, hv, hend, hcore, rfl⟩ := coercion_error hspec h
    exact ⟨rfl, k, v, hv, hend, hcore, rfl, concernsDefinition_rejection _ v⟩
  · exact agree_array hparts hspec hl
  · exact fun array allowNil harray hne ↦ agree_fields hparts hspec hl harray hne allowNil

end Shorthand

def withNesting : Store :=
  { Store.initial with lists := ⟨#[[.ofClass (.builtin .integer)], [.list ⟨0⟩]]⟩ }

/-- Two numbers are an array of integers. That integers are the elements can be said of a tuple or in
a list. -/
theorem coercion_of_acyclic_integers :
    let s : State := ⟨withNesting, .initial⟩
    let spec := Value.list ⟨0⟩
    s.store.Acyclic spec ∧ s.store.LeavesParts ∧ s.store.items ⟨1⟩ = [spec] ∧
    (∃ c t, (Building.coercion spec).run s = .ok c t ∧ (Building.coercion c).run t = .ok c t ∧
      (t.store.accepts .shared (t.store.constraint c) (.tuple [.int 1, .int 2])).Answers true) ∧
    Agree (fun st c d ↦ st.equal c d = .ok true) (Building.arrayOf spec).run
      (Building.coercion (.list ⟨1⟩)).run s ∧
    Agree (fun st f g ↦ ∃ c d, st.IsNewField f c true ∧ st.IsNewField g d true ∧
        st.equal c d = .ok true)
      (verboseField (.ofClass (.builtin .tuple)) spec true) (shorthandField (.list ⟨1⟩) true) s := by
  intro s spec
  have hreaches : s.store.Reaches 1 spec (.ofClass (.builtin .integer)) :=
    .through ⟨rfl, rfl⟩ rfl (.here _)
  have hspec : s.store.Acyclic spec :=
    (acyclic_of_not_list (by simp [Value.plain])).of_items ⟨rfl, rfl⟩ rfl
  have hparts : s.store.LeavesParts := Store.leavesParts_initial
  obtain ⟨hiff, hcoerced, -, hforms⟩ := coercion_of_acyclic hspec
  obtain ⟨harrays, hfields⟩ := hforms ⟨1⟩ hparts rfl
  obtain ⟨c, t, hrun⟩ := hiff.2 ⟨1, _, hreaches, rfl⟩
  obtain ⟨k, core, b, hcore, hb, -, hlater⟩ := hcoerced c t hrun
  obtain ⟨rfl, rfl⟩ := hcore.unique (isEnd_of_core hb) hreaches (isEnd_of_core rfl)
  cases hb
  obtain ⟨-, hagain, haccepts⟩ := hlater t (.refl _)
  refine ⟨hspec, hparts, rfl, ⟨c, t, hrun, hagain, ?_⟩, harrays, ?_⟩
  · refine (haccepts hparts ⟨_, rfl⟩ .shared _ (Evaluator.isIntact_ofPolicy none)).2
      ⟨_, rfl, fun item hitem ↦ ?_⟩
    simp only [List.mem_cons, List.not_mem_nil, or_false] at hitem
    rcases hitem with rfl | rfl <;> exact fun _ ↦ ⟨_, rfl⟩
  · exact hfields _ true rfl (by simp [spec])

/-- Of a note that cannot be shown it is not said that nothing can be built of it. -/
theorem not_coercion_concernsDefinition :
    ¬ ∀ (s : State) (spec : Value), s.store.Acyclic spec → ∀ e t,
      (Building.coercion spec).run s = .error e t → e.concernsDefinition = true := by
  intro h
  let note := Value.object (.defined 1) ⟨4⟩
  have hnote : withNotes.Acyclic note := acyclic_of_not_list (by simp [note, Value.plain])
  have hrun : (Building.coercion note).run ⟨withNotes, .initial⟩ =
      .error (.notCallable "int") ⟨withNotes, .initial⟩ := rfl
  cases h _ _ hnote _ _ hrun

end Action

end Conformance
