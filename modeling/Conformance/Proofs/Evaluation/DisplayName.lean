import Conformance.Proofs.Evaluation.Enclosing
import Conformance.Proofs.Evaluation.Lockstep
import Conformance.Proofs.Registration.Coherence

namespace Conformance

namespace Builtin

def namesakes : List (List Builtin) := [[boolean, booleanMarker], [list, tuple], [set, frozenSet]]

def all : List Builtin :=
  [ object, metaclass, enumMetaclass, nothing, boolean, integer, float, complex, text, bytes,
    byteArray, range, list, tuple, dictionary, set, frozenSet, mappingView, enum, reprEnum, intEnum,
    booleanMarker, constraint, typeConstraint, literalConstraint, arrayConstraint, unionConstraint,
    field, fieldRegistry, violation, result, evaluator, settings, operation, property ]

theorem mem_all (b : Builtin) : b ∈ all := by
  cases b <;> decide

theorem eq_or_of_displayName {b b' : Builtin} (h : b.displayName = b'.displayName) :
    b = b' ∨ ∃ group ∈ namesakes, b ∈ group ∧ b' ∈ group := by
  have hall : ∀ b ∈ all, ∀ b' ∈ all, b.displayName = b'.displayName →
      b = b' ∨ ∃ group ∈ namesakes, b ∈ group ∧ b' ∈ group := by
    decide +kernel
  exact hall b b.mem_all b' b'.mem_all h

end Builtin

def ClassId.areSets (c d : ClassId) : Bool :=
  (c, d) = (.builtin .set, .builtin .frozenSet) || (c, d) = (.builtin .frozenSet, .builtin .set)

namespace Store

/-- Two classes under one name, one of which has been defined under it. -/
def AreNamesakes (st : Store) (c d : ClassId) : Prop :=
  c ≠ d ∧ st.displayName c = st.displayName d ∧ ∃ n, c = .defined n ∨ d = .defined n

/-- A value as values are made: classes with data and the marker class, which has no objects, have no
plain objects themselves, and only defined classes extend the types of other values. -/
def IsMade (st : Store) : Value → Prop
  | .object c _ => st.HasClass c ∧ ∀ b, c = .builtin b → b.hasData = false ∧ b ≠ .booleanMarker
  | .derived c _ _ => ∃ n < st.classes.size, c = .defined n
  | _ => True

variable {st : Store} {ev : Evaluator} {T : ClassId} {v : Value}

theorem hasClass_of_isMade (hv : st.IsMade v) : st.HasClass (st.typeOf v) := by
  cases v with
  | object c id => exact hv.1
  | derived c v id =>
    obtain ⟨n, hn, rfl⟩ := hv
    exact hn
  | _ => trivial

theorem typeOf_ne_booleanMarker (hv : st.IsMade v) : st.typeOf v ≠ .builtin .booleanMarker := by
  cases v with
  | object c id => exact fun hc ↦ (hv.2 .booleanMarker hc).2 rfl
  | derived c v id =>
    obtain ⟨n, -, rfl⟩ := hv
    simp [typeOf]
  | ofClass c => cases h : st.isEnum c <;> simp [typeOf, h]
  | _ => simp [typeOf]

theorem isSome_arrayItems? (hv : st.IsMade v)
    (h : st.typeOf v = .builtin .list ∨ st.typeOf v = .builtin .tuple) :
    (st.arrayItems? v).isSome = true := by
  cases v with
  | list id => rfl
  | tuple vs => rfl
  | object c id =>
    rcases h with h | h
    · cases (hv.2 .list h).1
    · cases (hv.2 .tuple h).1
  | derived c v id =>
    obtain ⟨n, -, rfl⟩ := hv
    simp [typeOf] at h
  | ofClass c => cases he : st.isEnum c <;> simp [typeOf, he] at h
  | _ => simp [typeOf] at h

theorem hasType_typeOf (hst : st.HasHierarchy) (hv : st.IsMade v) :
    st.hasType (.ofClass (st.typeOf v)) v = .ok true := by
  have hself : st.inherits (st.typeOf v) (st.typeOf v) = true := by
    simpa [inherits] using hst.mem_linearization_self (hasClass_of_isMade hv)
  have hmarker := typeOf_ne_booleanMarker hv
  have hitems := isSome_arrayItems? hv
  generalize hc : st.typeOf v = c at hself hmarker hitems
  cases c with
  | defined n => simp [hasType, isOf, hc, hself, pure, Except.pure]
  | builtin b =>
    cases b with
    | booleanMarker => exact absurd rfl hmarker
    | list => simp [hasType, hitems, pure, Except.pure]
    | tuple => simp [hasType, hitems, pure, Except.pure]
    | integer =>
      have hbool : st.inherits (.builtin .integer) (.builtin .boolean) = false := rfl
      simp [hasType, isOf, hc, hbool, hself, pure, Except.pure]
    | _ => simp [hasType, isOf, hc, hself, pure, Except.pure]

theorem hasType_of_displayName (hst : st.HasHierarchy) (hv : st.IsMade v)
    (hnames : ¬ st.AreNamesakes (st.typeOf v) T) (hsets : (st.typeOf v).areSets T = false)
    (h : st.displayName (st.typeOf v) = st.displayName T) :
    st.hasType (.ofClass T) v = .ok true := by
  by_cases hT : st.typeOf v = T
  · rw [← hT]
    exact hasType_typeOf hst hv
  have hitems := isSome_arrayItems? hv
  have hmarker := typeOf_ne_booleanMarker hv
  generalize hc : st.typeOf v = c at *
  cases c with
  | defined n => exact absurd ⟨hT, h, n, .inl rfl⟩ hnames
  | builtin b =>
    cases T with
    | defined n => exact absurd ⟨hT, h, n, .inr rfl⟩ hnames
    | builtin b' =>
      have hne : b ≠ b' := fun hb ↦ hT (congrArg ClassId.builtin hb)
      obtain ⟨group, hgroup, hb, hb'⟩ := (Builtin.eq_or_of_displayName h).resolve_left hne
      simp only [Builtin.namesakes, List.mem_cons, List.not_mem_nil, or_false] at hgroup
      rcases hgroup with rfl | rfl | rfl <;>
        simp only [List.mem_cons, List.not_mem_nil, or_false] at hb hb'
      · -- the marker has no values, so that the value is one of the two truth values
        obtain rfl : b = .boolean := hb.resolve_right fun hb ↦ hmarker (congrArg _ hb)
        obtain rfl : b' = .booleanMarker := hb'.resolve_left fun hb' ↦ hne hb'.symm
        rw [hasType, hc]
        rfl
      · have hitems := hitems (hb.imp (congrArg _) (congrArg _))
        rcases hb' with rfl | rfl <;> simp [hasType, hitems, pure, Except.pure]
      · rcases hb with rfl | rfl <;> rcases hb' with rfl | rfl <;> simp_all [ClassId.areSets]

theorem accepts_type_run (hev : ev.IsIntact) {b : Bool} (h : st.hasType (.ofClass T) v = .ok b)
    (s : Session) : ∃ t, st.accepts ev (.type (.ofClass T)) v s = .ok b t := by
  rw [accepts, bind_of_ok (Evaluator.call_run hev ..)]
  exact ⟨_, Check.ofExcept_run h _⟩

/-- A diagnostic of a type speaks of the type under the name that it has. -/
theorem notA_of_diagnose {label diagnostic : String} {s t : Session}
    (h : st.diagnose ev (.type (.ofClass T)) v label s = .ok (some diagnostic) t) :
    diagnostic = st.notA v label (st.displayName T) := by
  obtain ⟨name, hname, hdiagnostic⟩ := wording_of_diagnose rfl h
  cases hname
  exact hdiagnostic

/-- A diagnostic of a type, or of a union of nothing else, names the value's type and the type that
was asked for, under different names; a value of a type that goes by the same name is accepted. -/
theorem type_diagnostics_differ (hst : st.HasHierarchy) (hev : ev.IsIntact) (hv : st.IsMade v)
    (hnames : ¬ st.AreNamesakes (st.typeOf v) T) (hsets : (st.typeOf v).areSets T = false) :
    (st.targetName (.ofClass T) = .ok (st.kindName v) →
      ∀ s, ∃ t, st.accepts ev (.type (.ofClass T)) v s = .ok true t) ∧
    (∀ s t, st.accepts ev (.type (.ofClass T)) v s = .ok false t →
      st.targetName (.ofClass T) ≠ .ok (st.kindName v)) ∧
    ∀ k label diagnostic s t,
      st.diagnose ev ((Constraint.type (.ofClass T)).enclosed k) v label s = .ok (some diagnostic) t →
      ∃ expected, st.targetName (.ofClass T) = .ok expected ∧ expected ≠ st.kindName v ∧
        diagnostic =
          if k = 0 then st.notA v label expected else st.notOneOf v label expected := by
  have haccepts (hname : st.targetName (.ofClass T) = .ok (st.kindName v)) (s : Session) :
      ∃ t, st.accepts ev (.type (.ofClass T)) v s = .ok true t := by
    have hsame : st.displayName (st.typeOf v) = st.displayName T := (Except.ok.inj hname).symm
    exact accepts_type_run hev (hasType_of_displayName hst hv hnames hsets hsame) s
  have hrejects {s t : Session} (h : st.accepts ev (.type (.ofClass T)) v s = .ok false t) :
      st.targetName (.ofClass T) ≠ .ok (st.kindName v) := by
    intro hname
    obtain ⟨t', htrue⟩ := haccepts hname s
    rw [h] at htrue
    cases htrue
  refine ⟨haccepts, fun s t ↦ hrejects, fun k label diagnostic s t h ↦ ?_⟩
  have hdiffers {diagnostic : String} {s t : Session}
      (h : st.diagnose ev (.type (.ofClass T)) v label s = .ok (some diagnostic) t) :
      st.displayName T ≠ st.kindName v := by
    obtain ⟨t', hfalse⟩ := answers_of_diagnose hev hev _ h s
    exact fun hname ↦ hrejects hfalse (congrArg Except.ok hname)
  refine ⟨st.displayName T, rfl, ?_⟩
  cases k with
  | zero => exact ⟨hdiffers h, notA_of_diagnose h⟩
  | succ k =>
    rcases diagnose_enclosed_cases st hev (.type (.ofClass T)) v label k s with
      ⟨e, t₁, t₂, -, henclosed⟩ | ⟨alone?, t₁, t₂, halone, henclosed⟩
    · rw [henclosed] at h
      cases h
    · rw [henclosed] at h
      cases alone? with
      | none => cases h
      | some alone =>
        cases h
        refine ⟨hdiffers halone, ?_⟩
        rw [notA_of_diagnose halone, withAlternatives_notA, if_neg (Nat.succ_ne_zero k)]

/-- Truth values are no integers, and are not called so. -/
theorem type_diagnostics_differ_boolean :
    let c := Constraint.type (.ofClass (.builtin .integer))
    initial.HasHierarchy ∧ Evaluator.shared.IsIntact ∧ initial.IsMade (.bool true) ∧
      ¬ initial.AreNamesakes (.builtin .boolean) (.builtin .integer) ∧
      (ClassId.builtin .boolean).areSets (.builtin .integer) = false ∧
      ∃ t expected, initial.diagnose .shared (c.enclosed 1) (.bool true) "Count" .initial =
          .ok (some "Count is a Boolean, not one of Integer") t ∧
        initial.targetName (.ofClass (.builtin .integer)) = .ok expected ∧
        expected ≠ initial.kindName (.bool true) ∧
        "Count is a Boolean, not one of Integer" =
          initial.notOneOf (.bool true) "Count" expected := by
  intro c
  have hev : Evaluator.shared.IsIntact := Evaluator.isIntact_ofPolicy none
  have hnames : ¬ initial.AreNamesakes (.builtin .boolean) (.builtin .integer) := by
    rintro ⟨-, -, n, h | h⟩ <;> cases h
  have hrun : ∃ t, initial.diagnose .shared (c.enclosed 1) (.bool true) "Count" .initial =
      .ok (some "Count is a Boolean, not one of Integer") t := ⟨_, rfl⟩
  obtain ⟨t, hrun⟩ := hrun
  obtain ⟨-, -, hdiffers⟩ := type_diagnostics_differ (v := .bool true) (T := .builtin .integer)
    hasHierarchy_initial hev trivial hnames rfl
  obtain ⟨expected, hname, hne, htext⟩ := hdiffers 1 "Count" _ _ _ hrun
  exact ⟨hasHierarchy_initial, hev, trivial, hnames, rfl, t, expected, hrun, hname, hne, htext⟩

def withStringClass : Store :=
  (initial.newClass
    { name := "String", fullName := "String", bases := [.builtin .object]
      linearization := [.defined 1, .builtin .object], body := classBody "shelves" [] }).2

/-- A text is no object of a class that has been defined under the name `String`, but the diagnostic
says that it is a String, not a String. -/
theorem not_type_diagnostics_differ :
    ¬ ∀ (st : Store) (ev : Evaluator) (T : ClassId) (v : Value) (s t : Session), st.HasHierarchy →
      ev.IsIntact → st.IsMade v → st.accepts ev (.type (.ofClass T)) v s = .ok false t →
      st.targetName (.ofClass T) ≠ .ok (st.kindName v) := by
  intro h
  have hst : withStringClass.HasHierarchy := by
    refine hasHierarchy_newClass hasHierarchy_initial ?_ (by decide +kernel)
    intro b hb
    cases List.mem_singleton.1 hb
    trivial
  have hrejects : ∃ t, withStringClass.accepts .shared (.type (.ofClass (.defined 1))) (.text "x")
      .initial = .ok false t := ⟨_, rfl⟩
  obtain ⟨t, hrejects⟩ := hrejects
  exact h withStringClass .shared (.defined 1) (.text "x") .initial t hst
    (Evaluator.isIntact_ofPolicy none) trivial hrejects rfl

end Store

end Conformance
