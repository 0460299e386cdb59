import Conformance.Proofs.Creation.Ending
import Conformance.Proofs.Evaluation.Parallel

namespace Conformance

namespace Store

variable {st : Store}

theorem violation?_parallel (name field value : Value) :
    st.Parallel (fun a b ↦ a.map Violation.cause = b.map Violation.cause)
      (st.violation? (.of .shared) name field value)
      (st.violation? (.of .shared) name field value) := by
  refine .bind (.ofExcept _) ?_
  rintro unseen _ ⟨-, rfl⟩
  cases unseen with
  | true => exact .pure rfl
  | false =>
    refine .bind (.ofExcept _) ?_
    rintro ev? _ ⟨hev?, rfl⟩
    refine .bind (.ofExcept _) ?_
    rintro constraint _ ⟨-, rfl⟩
    refine .bind (.ofExcept _) ?_
    rintro label _ ⟨-, rfl⟩
    cases hev?
    refine .bind (.ofExcept _) ?_
    rintro ev _ ⟨hev, rfl⟩
    cases hev
    refine .bind (diagnose_parallel _ value label) ?_
    rintro a b ⟨hsome, -⟩
    cases a <;> cases b
    · exact .pure rfl
    · cases hsome
    · cases hsome
    · exact .pure rfl

theorem map_filterMap_of_map {α β : Type} {f : α → β} {as bs : List (Option α)}
    (h : as.map (Option.map f) = bs.map (Option.map f)) :
    (as.filterMap id).map f = (bs.filterMap id).map f := by
  have hf (os : List (Option α)) :
      (os.filterMap id).map f = (os.map (Option.map f)).filterMap id := by
    rw [List.map_filterMap, List.filterMap_map]
    rfl
  rw [hf, hf, h]

theorem violations_parallel (fields : Entries Value Value) (valueOf : Value → Except Fault Value) :
    st.Parallel (fun vs ws ↦ vs.map Violation.cause = ws.map Violation.cause)
      (st.violations (.of .shared) fields valueOf) (st.violations (.of .shared) fields valueOf) := by
  refine .bind (.mapM (Option.map Violation.cause) fun field _ ↦ ?_) fun as bs h ↦ ?_
  · refine .bind (.ofExcept _) ?_
    rintro value _ ⟨-, rfl⟩
    exact violation?_parallel field.1 field.2 value
  · exact .pure (map_filterMap_of_map h)

theorem approve_parallel (typeName : String) (fields values : Entries Value Value) :
    st.Parallel (· = ·) (st.approve (.of .shared) typeName fields values)
      (st.approve (.of .shared) typeName fields values) := by
  refine .bind (violations_parallel fields _) fun vs ws h ↦ ?_
  refine .bind (.noteAll _ _) fun _ _ _ ↦ ?_
  have hlength : vs.length = ws.length := by simpa using congrArg List.length h
  cases vs with
  | nil =>
    obtain rfl := List.length_eq_zero_iff.1 hlength.symm
    exact .pure rfl
  | cons v vs =>
    obtain ⟨w, ws, rfl⟩ := List.exists_cons_of_length_eq_add_one hlength.symm
    refine .bind severityInForce_parallel fun _ _ _ ↦ ?_
    refine .bind (.record _ _) fun _ _ _ ↦ ?_
    exact .throw (.invalid h)

theorem acceptedValues_parallel (typeName : String) (r : Roster) (supply : Supply) :
    st.Parallel (· = ·) (st.acceptedValues (pure (.of .shared)) typeName r supply)
      (st.acceptedValues (pure (.of .shared)) typeName r supply) := by
  have hreject : st.Parallel (· = ·) (st.rejectUnknown typeName r supply)
      (st.rejectUnknown typeName r supply) := by
    refine .bind (.ofExcept _) ?_
    rintro unknown _ ⟨-, rfl⟩
    cases unknown with
    | nil => exact .pure rfl
    | cons name names =>
      exact .bind (.record _ _) fun _ _ _ ↦ .throw (.same _)
  refine .bind hreject fun _ _ _ ↦ ?_
  refine .bind (.ofExcept _) ?_
  rintro values _ ⟨-, rfl⟩
  refine .bind (.ofExcept _) ?_
  rintro judge _ ⟨hjudge, rfl⟩
  cases hjudge
  refine .bind (.ofExcept _) ?_
  rintro fields _ ⟨-, rfl⟩
  refine .bind (approve_parallel typeName fields values) fun _ _ _ ↦ ?_
  exact .pure rfl

end Store

namespace Action

variable {c : ClassId} {s t : State}

/-- How two creations end that end alike: in the same value and store, or in the same kind of fault
with the store as it was. -/
inductive SameEnding (s t : State) :
    EStateM.Result Fault State Value → EStateM.Result Fault State Value → Prop
  | created (v : Value) {s' t' : State} (h : t'.store = s'.store) :
      SameEnding s t (.ok v s') (.ok v t')
  | failed {e e' : Fault} {s' t' : State} (h : e.SameKind e') (hs : s'.store = s.store)
      (ht : t'.store = t.store) : SameEnding s t (.error e s') (.error e' t')

def FailsForSettings (s : State) (r : EStateM.Result Fault State Value) : Prop :=
  ∃ e s', r = .error e s' ∧ s.store.SettingsFail s.session e ∧ s'.store = s.store

theorem create_run {α : Type} (f : Store → α × Store) (s : State) :
    create f s = .ok (f s.store).1 { s with store := (f s.store).2 } := rfl

theorem newValidated_environment (c : ClassId) (argument : Value) (named : List (String × Value))
    (h : t.store = s.store) :
    SameEnding s t (newValidated c argument named s) (newValidated c argument named t) ∨
      FailsForSettings s (newValidated c argument named s) ∨
      FailsForSettings t (newValidated c argument named t) := by
  let accepted (st : Store) : Check (Entries Value Value) := do
    let typeName := st.className c
    let attributes ← Check.ofExcept (st.givenAttributes typeName argument named)
    let registry ← Check.ofExcept (st.registry c)
    st.acceptedValues (pure (.of .shared)) typeName (st.roster registry) (st.supplyOf attributes)
  have hrun (s : State) : newValidated c argument named s = (check accepted >>= newObject c) s := rfl
  have hparallel : s.store.Parallel (· = ·) (accepted s.store) (accepted s.store) := by
    refine .bind (.ofExcept _) ?_
    rintro attributes _ ⟨-, rfl⟩
    refine .bind (.ofExcept _) ?_
    rintro registry _ ⟨-, rfl⟩
    exact Store.acceptedValues_parallel _ _ _
  have hends := hparallel s.session t.session
  rw [hrun s, hrun t]
  generalize hs : accepted s.store s.session = r at hends
  generalize ht : accepted s.store t.session = r' at hends
  rw [← h] at ht
  -- a new object is made of the accepted values alone
  cases hends with
  | answers hvalues _ _ =>
    subst hvalues
    rw [bind_of_ok (check_of_ok hs), bind_of_ok (check_of_ok ht)]
    left
    unfold newObject
    rw [bind_of_ok (create_run _ _), bind_of_ok (create_run _ _), h]
    exact .created _ rfl
  | faults he =>
    rw [bind_of_error (check_of_error hs), bind_of_error (check_of_error ht)]
    exact .inl (.failed he rfl rfl)
  | left he r =>
    rw [bind_of_error (check_of_error hs)]
    exact .inr (.inl ⟨_, _, rfl, he, rfl⟩)
  | right he r =>
    rw [bind_of_error (check_of_error ht)]
    refine .inr (.inr ⟨_, _, rfl, ?_, rfl⟩)
    rwa [h]

/-- Two creations from one store end alike, whatever the two environments are and whatever of them
has been read, unless one of them fails because it cannot tell its settings. -/
theorem instantiate_environment (c : ClassId) (positional : List Value)
    (named : List (String × Value)) (hc : s.store.nature c = .validated) (h : t.store = s.store) :
    SameEnding s t (instantiate c positional named s) (instantiate c positional named t) ∨
      FailsForSettings s (instantiate c positional named s) ∨
      FailsForSettings t (instantiate c positional named t) := by
  rw [instantiate_validated hc, instantiate_validated (h ▸ hc)]
  cases hq : Store.soleArgument s.store c positional with
  | error e =>
    rw [bind_of_error (ask_of_error hq), bind_of_error (ask_of_error (h ▸ hq))]
    exact .inl (.failed (.same e) rfl rfl)
  | ok argument =>
    rw [bind_of_ok (ask_of_ok hq), bind_of_ok (ask_of_ok (h ▸ hq))]
    exact newValidated_environment c argument named h

def withTag (environment : Environment) : State where
  store :=
    let type := Value.object (.builtin .typeConstraint)
    let union := Value.object (.builtin .unionConstraint)
    let field := Value.object (.builtin .field)
    { Store.initial with
      classes := ⟨#[.root, { name := "Tag", fullName := "Tag", bases := [.root]
                             linearization := [.defined 1, .root, .builtin .object]
                             body := [("id", field ⟨6⟩), (homeName, .text "store"),
                               ("__doc__", .nil),
                               (registryName, .object (.builtin .fieldRegistry) ⟨7⟩)] }]⟩
      dictionaries := ⟨#[[], [(.text "id", field ⟨6⟩)]]⟩
      objects := ⟨#[⟨"", [(.text "_fields", .mappingView (.cell 0))]⟩,
        ⟨"", [(.text "target", .ofClass (.builtin .integer))]⟩,
        ⟨"", [(.text "target", .ofClass (.builtin .float))]⟩,
        ⟨"", [(.text "target", .ofClass (.builtin .text))]⟩,
        ⟨"", [(.text "branches", .tuple [type ⟨1⟩, type ⟨2⟩])]⟩,
        ⟨"", [(.text "branches", .tuple [union ⟨4⟩, type ⟨3⟩])]⟩,
        ⟨"", [(.text "constraint", union ⟨5⟩), (.text "allow_nil", .bool false),
          (.text "name", .text "id")]⟩,
        ⟨"", [(.text "_fields", .mappingView (.cell 1))]⟩]⟩ }
  session := { Session.initial with environment }

/-- In two environments that can be read a tag with a list for its number fails alike. -/
theorem instantiate_environment_withTag :
    let s := withTag ⟨none, none⟩
    let t := withTag ⟨some "generic", some "yes"⟩
    s.store.nature (.defined 1) = .validated ∧ t.store = s.store ∧
      SameEnding s t (instantiate (.defined 1) [] [("id", .tuple [])] s)
        (instantiate (.defined 1) [] [("id", .tuple [])] t) := by
  intro s t
  refine ⟨rfl, rfl, ?_⟩
  rcases instantiate_environment (s := s) (t := t) (.defined 1) [] [("id", .tuple [])] rfl rfl with
    h | ⟨e, s', -, he, -⟩ | ⟨e, s', -, he, -⟩
  · exact h
  · rcases he with he | he <;> cases he
  · rcases he with he | he <;> cases he

/-- A tag that is a text is a text or a number in every environment. Where the environment has no
valid policy, the tag is refused for it: no number is found, and the policy is asked for. -/
theorem not_instantiate_environment :
    ¬ ∀ (c : ClassId) (ds : List Declared) (named : Entries String Value) (s t : State),
      s.store.Creates c ds → t.store = s.store →
      SameEnding s t (instantiate c [] named s) (instantiate c [] named t) := by
  intro h
  let s := withTag ⟨none, none⟩
  let t := withTag ⟨some "loud", none⟩
  let id : Declared := ⟨"id", .object (.builtin .field) ⟨6⟩,
    .object (.builtin .unionConstraint) ⟨5⟩, false⟩
  have hcreates : s.store.Creates (.defined 1) [id] :=
    { isValidated := rfl
      isNoMarker := rfl
      initializer := rfl
      registry :=
        ⟨.object (.builtin .fieldRegistry) ⟨7⟩, rfl, ⟨⟨7⟩, 1, rfl, rfl, by decide, rfl⟩, rfl⟩
      nodup := by decide
      asks := List.forall_mem_singleton.2 ⟨rfl, rfl, ⟨trivial, trivial, trivial⟩, trivial, trivial⟩ }
  have hsame := h (.defined 1) [id] [("id", .text "x")] s t hcreates rfl
  have hcreated : ∃ v s', instantiate (.defined 1) [] [("id", .text "x")] s = .ok v s' := ⟨_, _, rfl⟩
  have hrefused : ∃ t', instantiate (.defined 1) [] [("id", .text "x")] t =
      .error (.unknownPolicy "loud") t' := ⟨_, rfl⟩
  obtain ⟨v, s', hcreated⟩ := hcreated
  obtain ⟨t', hrefused⟩ := hrefused
  rw [hcreated, hrefused] at hsame
  cases hsame

end Action

end Conformance
