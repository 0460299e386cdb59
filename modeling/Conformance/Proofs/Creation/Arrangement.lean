import Conformance.Proofs.Creation.Ending

namespace Conformance

theorem Value.unhashable?_of_text? {st : Store} {deep : Value → Option String} (v : Value)
    (h : v.text?.isSome) : v.unhashable? st deep = none := by
  match v with
  | .text s => rfl
  | .derived c (.text s) id => rfl
  | .derived c (.derived d w i) id => exact unhashable?_of_text? (.derived d w i) h
termination_by structural v

namespace Store

variable {st : Store} {registry : Value} {ds : List Declared} {es es' : Entries Value Value}
  {named named' : Entries String Value}

theorem hash_of_isAmong {k : Value} {names : List String} (h : k.isAmong names = true) :
    st.hash k = .ok () := by
  have hk : k.text?.isSome := by
    cases htext : k.text? with
    | none =>
      rw [Value.isAmong, htext] at h
      cases h
    | some s => rfl
  rw [hash, Value.unhashable?_of_text? k hk]
  rfl

theorem isAmong_of_unknownKeys (h : unknownKeys ds es named = []) {k : Value}
    (hk : k ∈ givenKeys es named) : k.isAmong (ds.map Declared.name) = true := by
  have hdeclared := List.filter_eq_nil_iff.1 h k hk
  simpa using hdeclared

theorem unknownNames_of_known (hlists : st.Lists registry (fieldsOfDeclared ds))
    (h : unknownKeys ds es named = []) :
    st.unknownNames (st.roster registry) (givenKeys es named) = .ok [] := by
  have hkeys : ((givenKeys es named).filter fun k ↦ !k.isAmong (ds.map Declared.name)) = [] := h
  rw [unknownNames_eq hlists, hkeys]
  · rfl
  · intro k hk
    exact hash_of_isAmong (isAmong_of_unknownKeys h hk)
  · intro k hk
    rw [hkeys] at hk
    cases hk

theorem mem_unknownKeys {k : Value} : k ∈ unknownKeys ds es named ↔
    k ∈ givenKeys es named ∧ k.isAmong (ds.map Declared.name) = false := by
  simp [unknownKeys, List.mem_filter]

theorem unknownNames_error (hlists : st.Lists registry (fieldsOfDeclared ds))
    (hhash : ∀ k ∈ givenKeys es named, st.hash k = .ok ())
    (h : ∃ k ∈ unknownKeys ds es named, ∃ e, st.displayed k = .error e) :
    ∃ k ∈ unknownKeys ds es named, ∃ e, st.displayed k = .error e ∧
      st.unknownNames (st.roster registry) (givenKeys es named) = .error e := by
  obtain ⟨k, hk, e, he⟩ := h
  obtain ⟨hk, hunknown⟩ := mem_unknownKeys.1 hk
  obtain ⟨k', hk', e', he', hrun⟩ :=
    mapM_error ⟨k, hk, e, unknownName?_eq_error.2 ⟨hunknown, he⟩⟩
  obtain ⟨hunknown', hdisplayed⟩ := unknownName?_eq_error.1 he'
  refine ⟨k', mem_unknownKeys.2 ⟨hk', hunknown'⟩, e', hdisplayed, ?_⟩
  rw [unknownNames_of_lists hlists hhash, keys_fieldsOfDeclared, hrun]
  rfl

theorem declaredValues_congr
    (h : ∀ d ∈ ds, givenUnder es named d.name = givenUnder es' named' d.name) :
    declaredValues ds es named = declaredValues ds es' named' := by
  refine List.map_congr_left fun d hd ↦ ?_
  rw [h d hd]

end Store

namespace Action

variable {c : ClassId} {ds : List Declared} {argument argument' : Value}
  {argument? argument?' : Option Value} {es es' : Entries Value Value}
  {named named' : Entries String Value} {s : State} {registry : Value}

def refusing (s : State) (c : ClassId) (unknown : List String) : State :=
  { s with session := s.session.refusing (s.store.className c) unknown }

def created (s : State) (c : ClassId) :
    EStateM.Result Fault Session (Entries Value Value) → EStateM.Result Fault State Value
  | .ok values session =>
    .ok (.object c ⟨s.store.objects.size⟩) ⟨(s.store.newObject ⟨"", values⟩).2, session⟩
  | .error e session => .error e { s with session }

theorem newValidated_eq_created (hgiven : s.store.entriesGiven argument = .ok (some es))
    (hregistry : s.store.registry c = .ok registry) :
    newValidated c argument named s = created s c (s.store.acceptedValues (pure (.of .shared))
      (s.store.className c) (s.store.roster registry)
      (s.store.supplyOf (s.store.putAllAt es named.asTexts)) s.session) := by
  have hattributes : s.store.givenAttributes (s.store.className c) argument named =
      .ok (s.store.putAllAt es named.asTexts) := givenAttributes_of_entries hgiven _
  cases haccepted : s.store.acceptedValues (pure (.of .shared)) (s.store.className c)
      (s.store.roster registry) (s.store.supplyOf (s.store.putAllAt es named.asTexts)) s.session with
  | ok values t => exact newValidated_of_accepted hattributes hregistry haccepted
  | error e t => exact newValidated_of_refused hattributes hregistry haccepted

/-- Where all attributes are declared, a creation is a matter of the declared values. -/
theorem newValidated_of_known (hlists : s.store.Lists registry (fieldsOfDeclared ds))
    (hitems : s.store.offers registry "items" none = .ok ()) (hnodup : (ds.map Declared.name).Nodup)
    (hregistry : s.store.registry c = .ok registry) (hnamed : named.keys.Nodup)
    (hgiven : s.store.entriesGiven argument = .ok (some es))
    (hunknown : unknownKeys ds es named = []) :
    newValidated c argument named s = created s c ((do
      s.store.approve (.of .shared) (s.store.className c) (fieldsOfDeclared ds).asTexts
        (declaredValues ds es named).asTexts
      return (declaredValues ds es named).asTexts : Check (Entries Value Value)) s.session) := by
  rw [newValidated_eq_created hgiven hregistry]
  exact congrArg (created s c) (Store.acceptedValues_of_known hlists hitems hnodup hnamed
    (Store.unknownNames_of_known hlists hunknown) s.session (s.store.className c))

theorem newValidated_of_unknown (hlists : s.store.Lists registry (fieldsOfDeclared ds))
    (hregistry : s.store.registry c = .ok registry) (hnamed : named.keys.Nodup)
    (hgiven : s.store.entriesGiven argument = .ok (some es))
    (hhash : ∀ k ∈ es.keys, s.store.hash k = .ok ()) (hne : unknownKeys ds es named ≠ [])
    (htext : ∀ k ∈ unknownKeys ds es named, ∃ text, s.store.displayed k = .ok text) :
    let unknown := (unknownKeys ds es named).map s.store.keyText
    newValidated c argument named s =
      .error (.unknownAttributes (s.store.className c) unknown) (refusing s c unknown) := by
  intro unknown
  have hunknown : s.store.unknownNames (s.store.roster registry) (givenKeys es named) =
      .ok unknown :=
    Store.unknownNames_eq hlists (fun k hk ↦ Store.hash_givenKeys hhash hk)
      fun k hk ↦ Store.displayed_eq_keyText (htext k hk)
  have hnames : (s.store.supplyOf (s.store.putAllAt es named.asTexts)).names >>=
      s.store.unknownNames (s.store.roster registry) = .ok unknown :=
    (Store.unknownNames_supplyOf _ es hnamed).trans hunknown
  have hrejected := (Store.rejectUnknown_run hnames s.session (s.store.className c)).2
    (by simpa [unknown] using hne)
  rw [newValidated_eq_created hgiven hregistry]
  exact congrArg (created s c) (bind_of_error hrejected)

theorem newValidated_of_unshown (hlists : s.store.Lists registry (fieldsOfDeclared ds))
    (hregistry : s.store.registry c = .ok registry) (hnamed : named.keys.Nodup)
    (hgiven : s.store.entriesGiven argument = .ok (some es))
    (hhash : ∀ k ∈ es.keys, s.store.hash k = .ok ())
    (h : ∃ k ∈ unknownKeys ds es named, ∃ e, s.store.displayed k = .error e) :
    ∃ k ∈ unknownKeys ds es named, ∃ e, s.store.displayed k = .error e ∧
      newValidated c argument named s = .error e s := by
  obtain ⟨k, hk, e, he, hunknown⟩ :=
    Store.unknownNames_error hlists (fun k hk ↦ Store.hash_givenKeys hhash hk) h
  refine ⟨k, hk, e, he, ?_⟩
  have hnames : (s.store.supplyOf (s.store.putAllAt es named.asTexts)).names >>=
      s.store.unknownNames (s.store.roster registry) = .error e :=
    (Store.unknownNames_supplyOf _ es hnamed).trans hunknown
  rw [newValidated_eq_created hgiven hregistry]
  refine congrArg (created s c) (bind_of_error (e := e) (t := s.session) (bind_of_error ?_))
  rw [hnames]
  rfl

/-- Two creations from the same attributes in other arrangements. -/
theorem instantiate_arrangement (h : s.store.Creates c ds) (hnamed : named.keys.Nodup)
    (hnamed' : named'.keys.Nodup)
    (hgiven : s.store.entriesGiven (argument?.getD .nil) = .ok (some es))
    (hgiven' : s.store.entriesGiven (argument?'.getD .nil) = .ok (some es'))
    (hunknown : (unknownKeys ds es named).Perm (unknownKeys ds es' named'))
    (hvalues : ∀ d ∈ ds, givenUnder es named d.name = givenUnder es' named' d.name) :
    let run := instantiate c argument?.toList named s
    let run' := instantiate c argument?'.toList named' s
    (unknownKeys ds es named = [] → run = run' ∧
      ∀ p severity, s.store.policyIn .shared s.session = .ok p →
        s.store.severityIn s.session = .ok severity →
        (∀ d ∈ ds, s.store.CanJudge d (givenUnder es named d.name)) →
        (∃ s', run = .ok (.object c ⟨s.store.objects.size⟩) s' ∧
          s'.store = (s.store.newObject ⟨"", (declaredValues ds es named).asTexts⟩).2) ∨
        ∃ s', run = .error
          (.invalid (s.store.className c) (s.store.violationsOf p ds es named)) s') ∧
    (unknownKeys ds es named ≠ [] → (∀ k ∈ es.keys ++ es'.keys, s.store.hash k = .ok ()) →
      ((∀ k ∈ unknownKeys ds es named, ∃ text, s.store.displayed k = .ok text) →
        ∃ unknown unknown', unknown.Perm unknown' ∧
          run = .error (.unknownAttributes (s.store.className c) unknown) (refusing s c unknown) ∧
          run' = .error (.unknownAttributes (s.store.className c) unknown')
            (refusing s c unknown')) ∧
      ((∃ k ∈ unknownKeys ds es named, ∃ e, s.store.displayed k = .error e) →
        ∃ e e', run = .error e s ∧ run' = .error e' s)) := by
  obtain ⟨registry, hregistry, hlists, hitems⟩ := h.registry
  intro run run'
  have hrun : run = newValidated c (argument?.getD .nil) named s := instantiate_eq_newValidated h
  have hrun' : run' = newValidated c (argument?'.getD .nil) named' s := instantiate_eq_newValidated h
  -- declared names are selected in their own order, undeclared keys are shown as they come
  constructor
  · intro hnone
    have hnone' : unknownKeys ds es' named' = [] := by
      rw [hnone] at hunknown
      exact List.nil_perm.1 hunknown
    have hknown := newValidated_of_known hlists hitems h.nodup hregistry hnamed hgiven hnone
    have hknown' := newValidated_of_known hlists hitems h.nodup hregistry hnamed' hgiven' hnone'
    refine ⟨?_, ?_⟩
    · rw [hrun, hrun', hknown, hknown', Store.declaredValues_congr hvalues]
    · intro p severity hp hseverity hjudge
      obtain ⟨happroved, hinvalid⟩ := Store.approve_run h.asks (givenUnder es named)
        (fun d hd ↦ Store.givenBy_declaredValues es named hd) hjudge hp hseverity
        (s.store.className c)
      rw [hrun, hknown]
      by_cases hviolations : s.store.violationsOf p ds es named = []
      · obtain ⟨t, happrove⟩ := happroved hviolations
        left
        rw [bind_of_ok happrove]
        exact ⟨_, rfl, rfl⟩
      · obtain ⟨t, happrove⟩ := hinvalid hviolations
        right
        rw [bind_of_error happrove]
        exact ⟨_, rfl⟩
  · intro hsome hhash
    have hsome' : unknownKeys ds es' named' ≠ [] := by
      intro hnone
      rw [hnone] at hunknown
      exact hsome (List.perm_nil.1 hunknown)
    have hhash₁ (k : Value) (hk : k ∈ es.keys) := hhash k (List.mem_append_left _ hk)
    have hhash₂ (k : Value) (hk : k ∈ es'.keys) := hhash k (List.mem_append_right _ hk)
    rw [hrun, hrun']
    constructor
    · intro htext
      refine ⟨_, _, hunknown.map s.store.keyText, ?_, ?_⟩
      · exact newValidated_of_unknown hlists hregistry hnamed hgiven hhash₁ hsome htext
      · apply newValidated_of_unknown hlists hregistry hnamed' hgiven' hhash₂ hsome'
        intro k hk
        exact htext k (hunknown.mem_iff.2 hk)
    · rintro ⟨k, hk, he⟩
      obtain ⟨-, -, e, -, hfails⟩ :=
        newValidated_of_unshown hlists hregistry hnamed hgiven hhash₁ ⟨k, hk, he⟩
      obtain ⟨-, -, e', -, hfails'⟩ := newValidated_of_unshown hlists hregistry hnamed' hgiven'
        hhash₂ ⟨k, hunknown.mem_iff.1 hk, he⟩
      exact ⟨e, e', hfails, hfails'⟩

def withBoxes : State :=
  { withBox with store := { withBox.store with
      dictionaries := withBox.store.dictionaries.add [(.text "note", .object (.defined 1) ⟨5⟩)] } }

def boxedNote : Declared :=
  ⟨"note", .object (.builtin .field) ⟨9⟩, .object (.builtin .unionConstraint) ⟨8⟩, false⟩

theorem creates_withBoxes : withBoxes.store.Creates (.defined 2) [boxedNote] where
  isValidated := rfl
  isNoMarker := rfl
  initializer := rfl
  registry :=
    ⟨.object (.builtin .fieldRegistry) ⟨10⟩, rfl, ⟨⟨10⟩, 2, rfl, rfl, by decide, rfl⟩, rfl⟩
  nodup := by decide
  asks := List.forall_mem_singleton.2 ⟨rfl, rfl, trivial, trivial, trivial⟩

/-- The second note of the mapping is overridden by the first one, which is then all that counts. -/
theorem instantiate_arrangement_withBoxes :
    let first := Value.object (.defined 1) ⟨4⟩
    instantiate (.defined 2) [.dictionary (.cell 3)] [("note", first)] withBoxes =
      instantiate (.defined 2) [] [("note", first)] withBoxes := by
  intro first
  have hnamed : (Entries.keys [("note", first)]).Nodup := by decide
  have hgiven : withBoxes.store.entriesGiven ((some (.dictionary (.cell 3))).getD .nil) =
      .ok (some [(.text "note", .object (.defined 1) ⟨5⟩)]) := rfl
  have hnone : withBoxes.store.entriesGiven ((none : Option Value).getD .nil) = .ok (some []) := rfl
  obtain ⟨hknown, -⟩ := instantiate_arrangement creates_withBoxes hnamed hnamed hgiven hnone
    (List.Perm.refl []) (List.forall_mem_singleton.2 rfl)
  exact (hknown rfl).1

/-- The second note cannot be compared with the first one, however it is given. -/
theorem not_instantiate_arrangement :
    ¬ ∀ (c : ClassId) (ds : List Declared) (argument? argument?' : Option Value)
        (es es' : Entries Value Value) (named named' : Entries String Value) (s : State),
      s.store.Creates c ds → named.keys.Nodup → named'.keys.Nodup →
      s.store.entriesGiven (argument?.getD .nil) = .ok (some es) →
      s.store.entriesGiven (argument?'.getD .nil) = .ok (some es') →
      (unknownKeys ds es named).Perm (unknownKeys ds es' named') →
      (∀ d ∈ ds, givenUnder es named d.name = givenUnder es' named' d.name) →
      s.store.policyIn .shared s.session = .ok .element →
      s.store.severityIn s.session = .ok .debug →
      (∃ v s', instantiate c argument?.toList named s = .ok v s') ∨
      ∃ e s', instantiate c argument?.toList named s = .error e s' ∧
        ((∃ names, e = .unknownAttributes (s.store.className c) names) ∨
          ∃ violations, e = .invalid (s.store.className c) violations) := by
  intro h
  have hfault : ∃ s', instantiate (.defined 2) [.dictionary (.cell 3)] [] withBoxes =
      .error (.notCallable "int") s' := ⟨_, rfl⟩
  obtain ⟨s', hfault⟩ := hfault
  have hends := h (.defined 2) [boxedNote] (some (.dictionary (.cell 3))) none
    [(.text "note", .object (.defined 1) ⟨5⟩)] [] [] [("note", .object (.defined 1) ⟨5⟩)] withBoxes
    creates_withBoxes (by decide) (by decide) rfl rfl (List.Perm.refl [])
    (List.forall_mem_singleton.2 rfl) rfl rfl
  rcases hends with ⟨v, t, hrun⟩ | ⟨e, t, hrun, hform⟩
  · have hrun : instantiate (.defined 2) [.dictionary (.cell 3)] [] withBoxes = .ok v t := hrun
    rw [hfault] at hrun
    cases hrun
  · have hrun : instantiate (.defined 2) [.dictionary (.cell 3)] [] withBoxes = .error e t := hrun
    rw [hfault] at hrun
    cases hrun
    rcases hform with ⟨_, he⟩ | ⟨_, he⟩ <;> cases he

end Action

end Conformance
