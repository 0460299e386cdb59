import Conformance.Proofs.Creation.Declared
import Conformance.Proofs.Evaluation.Agreement

namespace Conformance

def Session.refusing (s : Session) (typeName : String) (unknown : List String) : Session :=
  { s with journal := s.journal ++ [.record (.unknownRejected typeName unknown)] }

def Session.counting (s : Session) (typeName : String) (violations : List Violation) : Session :=
  { s with journal :=
      s.journal ++ creationEntries (.text typeName) (violations.map Violation.name) }

namespace Store

/-- A class whose objects are created in the usual way, from the attributes that it declares. -/
structure Creates (st : Store) (c : ClassId) (ds : List Declared) : Prop where
  isValidated : st.nature c = .validated
  isNoMarker : st.inherits c (.builtin .booleanMarker) = false
  initializer : st.checkInitializer c = .ok ()
  registry : ∃ registry, st.registry c = .ok registry ∧
    st.Lists registry (fieldsOfDeclared ds) ∧ st.offers registry "items" none = .ok ()
  nodup : (ds.map Declared.name).Nodup
  asks : ∀ d ∈ ds, st.Asks d

def entriesGiven (st : Store) (argument : Value) : Except Fault (Option (Entries Value Value)) :=
  if argument matches .nil then pure (some [])
  else if st.isMapping argument then some <$> st.entriesOf argument
  else pure none

/-- Nothing fails that a creation asks of what is given: the keys can be looked up, those that are not
declared can be shown, and if there are none, the values can be judged. -/
structure Answers (st : Store) (ds : List Declared) (es : Entries Value Value)
    (named : Entries String Value) : Prop where
  hash : ∀ k ∈ es.keys, st.hash k = .ok ()
  displayed : ∀ k ∈ unknownKeys ds es named, ∃ text, st.displayed k = .ok text
  canJudge : unknownKeys ds es named = [] → ∀ d ∈ ds, st.CanJudge d (givenUnder es named d.name)

def keyText (st : Store) (k : Value) : String := (st.displayed k).toOption.getD ""

def unknownName? (st : Store) (names : List String) (k : Value) : Except Fault (Option String) :=
  if k.isAmong names then pure none else some <$> st.displayed k

def violationsOf (st : Store) (p : Policy) (ds : List Declared) (es : Entries Value Value)
    (named : Entries String Value) : List Violation :=
  ds.filterMap fun d ↦ st.violationOf p d (givenUnder es named d.name)

variable {st : Store} {c : ClassId} {ds : List Declared} {es : Entries Value Value}
  {named : Entries String Value} {s : Session} {p : Policy} {registry : Value}

@[simp] theorem keys_fieldsOfDeclared (ds : List Declared) :
    (fieldsOfDeclared ds).keys = ds.map Declared.name := by
  simp [fieldsOfDeclared, Entries.keys]

theorem hash_givenKeys (h : ∀ k ∈ es.keys, st.hash k = .ok ()) {k : Value}
    (hk : k ∈ givenKeys es named) : st.hash k = .ok () := by
  rcases List.mem_append.1 hk with hk | hk
  · exact h k hk
  · obtain ⟨n, -, rfl⟩ := List.mem_map.1 hk
    exact hash_text n

theorem displayed_eq_keyText {k : Value} (h : ∃ text, st.displayed k = .ok text) :
    st.displayed k = .ok (st.keyText k) := by
  obtain ⟨text, htext⟩ := h
  rw [keyText, htext]
  rfl

theorem filterMap_unless {α β : Type} (p : α → Bool) (f : α → β) (l : List α) :
    (l.map fun a ↦ if p a then none else some (f a)).filterMap id =
      (l.filter fun a ↦ !p a).map f := by
  induction l with
  | nil => rfl
  | cons a l ih =>
    rw [List.map_cons, List.filterMap_cons, List.filter_cons, ih]
    cases p a <;> rfl

theorem unknownNames_of_lists {fields : Entries String Value} (hlists : st.Lists registry fields)
    {ks : List Value} (hhash : ∀ k ∈ ks, st.hash k = .ok ()) :
    st.unknownNames (st.roster registry) ks =
      List.filterMap id <$> ks.mapM (st.unknownName? fields.keys) := by
  have hfound : ks.mapM (fun k ↦ do
      if ← (st.roster registry).knows k then return none
      else return some (← st.displayed k)) = ks.mapM (st.unknownName? fields.keys) := by
    refine mapM_congr fun k hk ↦ ?_
    have hknows : (st.roster registry).knows k = .ok (k.isAmong fields.keys) :=
      contains_of_lists hlists (hhash k hk)
    rw [hknows, unknownName?]
    cases k.isAmong fields.keys with
    | true => rfl
    | false => cases st.displayed k <;> rfl
  rw [unknownNames, hfound]
  cases ks.mapM (st.unknownName? fields.keys) <;> rfl

theorem unknownName?_eq_error {names : List String} {k : Value} {e : Fault} :
    st.unknownName? names k = .error e ↔ k.isAmong names = false ∧ st.displayed k = .error e := by
  rw [unknownName?]
  cases k.isAmong names with
  | true => exact ⟨fun h ↦ (by cases h), fun h ↦ (by cases h.1)⟩
  | false => cases st.displayed k <;> simp [Functor.map, Except.map]

theorem unknownNames_eq (hlists : st.Lists registry (fieldsOfDeclared ds)) {ks : List Value}
    (hhash : ∀ k ∈ ks, st.hash k = .ok ())
    (htext : ∀ k ∈ ks.filter fun k ↦ !k.isAmong (ds.map Declared.name),
      st.displayed k = .ok (st.keyText k)) :
    st.unknownNames (st.roster registry) ks =
      .ok ((ks.filter fun k ↦ !k.isAmong (ds.map Declared.name)).map st.keyText) := by
  have hfound : ks.mapM (st.unknownName? (ds.map Declared.name)) = .ok (ks.map fun k ↦
      if k.isAmong (ds.map Declared.name) then none else some (st.keyText k)) := by
    refine mapM_ok _ fun k hk ↦ ?_
    rw [unknownName?]
    cases hdeclared : k.isAmong (ds.map Declared.name) with
    | true => rfl
    | false =>
      rw [htext k (List.mem_filter.2 ⟨hk, by simp [hdeclared]⟩)]
      rfl
  rw [unknownNames_of_lists hlists hhash, keys_fieldsOfDeclared, hfound, ← filterMap_unless]
  rfl

theorem rejectUnknown_run {r : Roster} {supply : Supply} {unknown : List String}
    (h : supply.names >>= st.unknownNames r = .ok unknown) (s : Session) (typeName : String) :
    (unknown = [] → st.rejectUnknown typeName r supply s = .ok () s) ∧
    (unknown ≠ [] → st.rejectUnknown typeName r supply s =
      .error (.unknownAttributes typeName unknown) (s.refusing typeName unknown)) := by
  have hstart : st.rejectUnknown typeName r supply s = (do
      unless unknown.isEmpty do
        Check.record (.unknownRejected typeName unknown)
        throw (.unknownAttributes typeName unknown) : Check Unit) s := by
    rw [rejectUnknown, bind_of_ok (Check.ofExcept_run h s)]
  constructor
  · rintro rfl
    exact hstart
  · intro hne
    have hsome : unknown.isEmpty = false := by simpa using hne
    rw [hstart]
    simp only [hsome]
    rfl

theorem approve_of_violations {judge : Judge} {fields values : Entries Value Value}
    {violations : List Violation} {t : Session}
    (hrun : st.violations judge fields (st.givenBy values) s = .ok violations t)
    (hsame : s.SameSettings t) {severity : Severity}
    (hseverity : st.severityIn s = .ok severity) (typeName : String) :
    let counted := t.counting typeName violations
    let reason := failureReason typeName (violations.map Violation.message)
    (violations = [] → st.approve judge typeName fields values s = .ok () counted) ∧
    (violations ≠ [] → st.approve judge typeName fields values s =
      .error (.invalid typeName violations) { counted.loaded with
        journal := counted.loaded.journal ++ [.record (.validationFailed severity reason)] }) := by
  intro counted reason
  have hstart : st.approve judge typeName fields values s = (do
      unless violations.isEmpty do
        Check.record (.validationFailed (← st.severityInForce) reason)
        throw (.invalid typeName violations) : Check Unit) counted := by
    rw [approve, bind_of_ok hrun]
    exact bind_of_ok rfl
  constructor
  · intro hnone
    have hempty : violations.isEmpty = true := List.isEmpty_iff.2 hnone
    rw [hstart]
    simp only [hempty]
    rfl
  · intro hne
    have hsome : violations.isEmpty = false := by simpa using hne
    have hcounted : s.SameSettings counted := ⟨hsame.inForce, hsame.settingsRecord⟩
    have hforce : st.severityInForce counted = .ok severity counted.loaded :=
      severityInForce_run ((severityIn_of_sameSettings hcounted).trans hseverity)
    rw [hstart]
    simp only [hsome, Bool.false_eq_true, if_false]
    rw [bind_of_ok hforce]
    rfl

/-- A creation is approved if no declared attribute fails. -/
theorem approve_run (hasks : ∀ d ∈ ds, st.Asks d) {values : Entries Value Value}
    (value : String → Value) (hvalue : ∀ d ∈ ds, st.givenBy values (.text d.name) = .ok (value d.name))
    (hjudge : ∀ d ∈ ds, st.CanJudge d (value d.name)) (hp : st.policyIn .shared s = .ok p)
    {severity : Severity} (hseverity : st.severityIn s = .ok severity) (typeName : String) :
    let violations := ds.filterMap fun d ↦ st.violationOf p d (value d.name)
    (violations = [] → ∃ t,
      st.approve (.of .shared) typeName (fieldsOfDeclared ds).asTexts values s = .ok () t) ∧
    (violations ≠ [] → ∃ t, st.approve (.of .shared) typeName (fieldsOfDeclared ds).asTexts values s =
      .error (.invalid typeName violations) t) := by
  intro violations
  obtain ⟨t, hrun, hsame⟩ := violations_run hasks value hvalue hjudge hp
  obtain ⟨hnone, hsome⟩ := approve_of_violations hrun hsame hseverity typeName
  exact ⟨fun h ↦ ⟨_, hnone h⟩, fun h ↦ ⟨_, hsome h⟩⟩

theorem declaredValues_eq_map (ds : List Declared) (es : Entries Value Value)
    (named : Entries String Value) : declaredValues ds es named =
      (ds.map Declared.name).map fun n ↦ (n, givenUnder es named n) := by
  simp [declaredValues]

theorem declaredValues_run (hlists : st.Lists registry (fieldsOfDeclared ds))
    (hnodup : (ds.map Declared.name).Nodup) (hnamed : named.keys.Nodup) :
    st.selected (st.roster registry) (st.supplyOf (st.putAllAt es named.asTexts)) =
      .ok (declaredValues ds es named).asTexts := by
  have hnames : (st.roster registry).names = .ok ((ds.map Declared.name).map .text) := by
    rw [← keys_fieldsOfDeclared]
    exact iterate_of_lists hlists
  have hkeys : (declaredValues ds es named).keys.Nodup := by
    simpa [declaredValues, Entries.keys, Function.comp_def] using hnodup
  have hrun : st.selected (st.roster registry) (st.supplyOf (st.putAllAt es named.asTexts)) = _ :=
    selected_run (givenUnder es named) hnames fun n _ ↦ givenBy_putAllAt es hnamed n
  rw [hrun, ← declaredValues_eq_map, Entries.ofList_of_nodup hkeys]

theorem givenBy_declaredValues (es : Entries Value Value) (named : Entries String Value)
    {d : Declared} (hd : d ∈ ds) :
    st.givenBy (declaredValues ds es named).asTexts (.text d.name) =
      .ok (givenUnder es named d.name) := by
  have hmem : d.name ∈ ds.map Declared.name := List.mem_map_of_mem hd
  rw [givenBy_text, Entries.named?_asTexts, declaredValues_eq_map, Entries.get?_map, if_pos hmem]
  rfl

theorem unknownNames_supplyOf (r : Roster) (es : Entries Value Value) (hnamed : named.keys.Nodup) :
    (st.supplyOf (st.putAllAt es named.asTexts)).names >>= st.unknownNames r =
      st.unknownNames r (givenKeys es named) := by
  rw [← keys_putAllAt es hnamed]
  rfl

theorem acceptedValues_of_selected {r : Roster} {supply : Supply} {values : Entries Value Value}
    (hnames : supply.names >>= st.unknownNames r = .ok [])
    (hselected : st.selected r supply = .ok values) (s : Session) (typeName : String) :
    st.acceptedValues (pure (.of .shared)) typeName r supply s = (do
      st.approve (.of .shared) typeName (← Check.ofExcept r.fields) values
      return values : Check (Entries Value Value)) s := by
  have hjudge : Check.ofExcept (pure (Judge.of .shared)) s = .ok (Judge.of .shared) s := rfl
  rw [acceptedValues, bind_of_ok ((rejectUnknown_run hnames s typeName).1 rfl),
    bind_of_ok (Check.ofExcept_run hselected s), bind_of_ok hjudge]

theorem acceptedValues_of_known (hlists : st.Lists registry (fieldsOfDeclared ds))
    (hitems : st.offers registry "items" none = .ok ()) (hnodup : (ds.map Declared.name).Nodup)
    (hnamed : named.keys.Nodup) (hknown : st.unknownNames (st.roster registry) (givenKeys es named) =
      .ok []) (s : Session) (typeName : String) :
    st.acceptedValues (pure (.of .shared)) typeName (st.roster registry)
      (st.supplyOf (st.putAllAt es named.asTexts)) s = (do
        st.approve (.of .shared) typeName (fieldsOfDeclared ds).asTexts
          (declaredValues ds es named).asTexts
        return (declaredValues ds es named).asTexts : Check (Entries Value Value)) s := by
  have hnames : (st.supplyOf (st.putAllAt es named.asTexts)).names >>=
      st.unknownNames (st.roster registry) = .ok [] :=
    (unknownNames_supplyOf _ es hnamed).trans hknown
  have hfields : (st.roster registry).fields = .ok (fieldsOfDeclared ds).asTexts :=
    registered_of_lists hlists hitems
  rw [acceptedValues_of_selected hnames (declaredValues_run hlists hnodup hnamed),
    bind_of_ok (Check.ofExcept_run hfields s)]

/-- Unknown attributes are refused first, then values that fail. -/
theorem acceptedValues_run (hlists : st.Lists registry (fieldsOfDeclared ds))
    (hitems : st.offers registry "items" none = .ok ()) (hnodup : (ds.map Declared.name).Nodup)
    (hasks : ∀ d ∈ ds, st.Asks d) (hnamed : named.keys.Nodup) (hanswers : st.Answers ds es named)
    (hp : st.policyIn .shared s = .ok p) {severity : Severity}
    (hseverity : st.severityIn s = .ok severity) (typeName : String) :
    let unknown := unknownKeys ds es named
    let violations := st.violationsOf p ds es named
    let accepted := st.acceptedValues (pure (.of .shared)) typeName (st.roster registry)
      (st.supplyOf (st.putAllAt es named.asTexts)) s
    (unknown ≠ [] → ∃ t, accepted =
      .error (.unknownAttributes typeName (unknown.map st.keyText)) t) ∧
    (unknown = [] → violations ≠ [] → ∃ t, accepted = .error (.invalid typeName violations) t) ∧
    (unknown = [] → violations = [] → ∃ t, accepted =
      .ok (declaredValues ds es named).asTexts t) := by
  intro unknown violations accepted
  have hunknown : st.unknownNames (st.roster registry) (givenKeys es named) =
      .ok (unknown.map st.keyText) :=
    unknownNames_eq hlists (fun k hk ↦ hash_givenKeys hanswers.hash hk)
      fun k hk ↦ displayed_eq_keyText (hanswers.displayed k hk)
  have hnames : (st.supplyOf (st.putAllAt es named.asTexts)).names >>=
      st.unknownNames (st.roster registry) = .ok (unknown.map st.keyText) :=
    (unknownNames_supplyOf _ es hnamed).trans hunknown
  have happroved (h : unknown = []) := approve_run hasks (givenUnder es named)
    (fun d hd ↦ givenBy_declaredValues es named hd) (hanswers.canJudge h) hp hseverity typeName
  have hrest (h : unknown = []) := acceptedValues_of_known hlists hitems hnodup hnamed
    (by rw [hunknown, h]; rfl) s typeName
  refine ⟨fun h ↦ ?_, fun h hviolations ↦ ?_, fun h hviolations ↦ ?_⟩
  · exact ⟨_, bind_of_error ((rejectUnknown_run hnames s typeName).2 (by simpa using h))⟩
  · obtain ⟨t, hrun⟩ := (happroved h).2 hviolations
    exact ⟨t, (hrest h).trans (bind_of_error hrun)⟩
  · obtain ⟨t, hrun⟩ := (happroved h).1 hviolations
    exact ⟨t, (hrest h).trans (bind_of_ok hrun)⟩

theorem isMarker_eq_false (h : st.inherits c (.builtin .booleanMarker) = false) :
    st.isMarker c = false := by
  rw [isMarker, beq_eq_false_iff_ne]
  intro hfound
  have hmem := List.mem_of_find?_eq_some hfound
  simp [inherits, hmem] at h

def soleArgument (st : Store) (c : ClassId) (positional : List Value) :
    Except Fault Value := do
  if st.isMarker c then throw .markerInstance
  st.checkInitializer c
  match positional with
  | [] => return .nil
  | [argument] => return argument
  | positional =>
    throw (.positionalArguments "ValidatedObject.__init__" (positional.length + 1))

end Store

namespace Action

variable {c : ClassId} {ds : List Declared} {argument : Value} {argument? : Option Value}
  {named : Entries String Value} {s : State}

theorem entriesGiven_of_ne {st : Store} (h : argument ≠ .nil) : st.entriesGiven argument =
    if st.isMapping argument then some <$> st.entriesOf argument else pure none := by
  cases argument <;> first | exact absurd rfl h | rfl

theorem givenAttributes_of_ne {st : Store} (h : argument ≠ .nil) (typeName : String) :
    st.givenAttributes typeName argument named =
      if st.isMapping argument then (do return st.putAllAt (← st.entriesOf argument) named.asTexts)
      else throw (.notAMapping typeName (st.kindName argument)) := by
  cases argument <;> first | exact absurd rfl h | rfl

theorem givenAttributes_of_entries {st : Store} {es : Entries Value Value}
    (h : st.entriesGiven argument = .ok (some es)) (typeName : String) :
    st.givenAttributes typeName argument named = .ok (st.putAllAt es named.asTexts) := by
  by_cases hnil : argument = .nil
  · subst hnil
    cases h
    rfl
  · rw [entriesGiven_of_ne hnil] at h
    rw [givenAttributes_of_ne hnil]
    by_cases hmapping : st.isMapping argument = true
    · rw [if_pos hmapping] at h ⊢
      cases hentries : st.entriesOf argument with
      | error e => rw [hentries] at h; cases h
      | ok es' => rw [hentries] at h; cases h; rfl
    · rw [if_neg hmapping] at h
      cases h

theorem givenAttributes_of_none {st : Store} (h : st.entriesGiven argument = .ok none)
    (typeName : String) : st.givenAttributes typeName argument named =
      .error (.notAMapping typeName (st.kindName argument)) := by
  by_cases hnil : argument = .nil
  · subst hnil
    cases h
  · rw [entriesGiven_of_ne hnil] at h
    rw [givenAttributes_of_ne hnil]
    by_cases hmapping : st.isMapping argument = true
    · rw [if_pos hmapping] at h
      cases hentries : st.entriesOf argument with
      | error e => rw [hentries] at h; cases h
      | ok es => rw [hentries] at h; cases h
    · rw [if_neg hmapping]
      rfl

theorem instantiate_validated (hc : s.store.nature c = .validated) (positional : List Value)
    (named : List (String × Value)) : instantiate c positional named s =
      (ask (·.soleArgument c positional) >>= fun argument ↦ newValidated c argument named) s := by
  have hnature : ask (fun st ↦ pure (st.nature c)) s = .ok Nature.validated s :=
    ask_of_ok (congrArg Except.ok hc)
  have hmarker : ask (fun st ↦ pure (st.isMarker c)) s = .ok (s.store.isMarker c) s := rfl
  rw [instantiate, bind_of_ok hmarker]
  -- the checks come in the order in which the sole argument is taken
  cases h : s.store.isMarker c with
  | true =>
    have hsole : s.store.soleArgument c positional = .error .markerInstance := by
      unfold Store.soleArgument
      rw [h]
      rfl
    rw [bind_of_error (ask_of_error hsole)]
    rfl
  | false =>
    simp only [Bool.false_eq_true, if_false]
    cases hinit : s.store.checkInitializer c with
    | error e =>
      have hsole : s.store.soleArgument c positional = .error e := by
        unfold Store.soleArgument
        rw [h, hinit]
        rfl
      rw [bind_of_error (ask_of_error hinit), bind_of_error (ask_of_error hsole)]
    | ok _ =>
      have hinitializer : ask (·.checkInitializer c) s = .ok () s := ask_of_ok hinit
      have hask : ask (·.soleArgument c positional) s = ask (fun _ ↦ match positional with
          | [] => pure .nil
          | [argument] => pure argument
          | positional => throw
            (.positionalArguments "ValidatedObject.__init__" (positional.length + 1))) s := by
        simp only [ask, Store.soleArgument, h, hinit]
        rfl
      rw [bind_of_ok hinitializer, bind_of_ok hnature]
      simp only [bind, EStateM.bind, hask]
      rcases positional with _ | ⟨argument, _ | ⟨_, _⟩⟩
      · rfl
      · rfl
      · rfl

theorem instantiate_eq_newValidated (h : s.store.Creates c ds) :
    instantiate c argument?.toList named s = newValidated c (argument?.getD .nil) named s := by
  have hsole : s.store.soleArgument c argument?.toList = .ok (argument?.getD .nil) := by
    unfold Store.soleArgument
    rw [Store.isMarker_eq_false h.isNoMarker, h.initializer]
    cases argument? <;> rfl
  rw [instantiate_validated h.isValidated, bind_of_ok (ask_of_ok hsole)]

theorem newValidated_of_accepted {registry : Value} {attributes values : Entries Value Value}
    {t : Session} (hattributes : s.store.givenAttributes (s.store.className c) argument named =
      .ok attributes) (hregistry : s.store.registry c = .ok registry)
    (haccepted : s.store.acceptedValues (pure (.of .shared)) (s.store.className c)
      (s.store.roster registry) (s.store.supplyOf attributes) s.session = .ok values t) :
    newValidated c argument named s = .ok (.object c ⟨s.store.objects.size⟩)
      ⟨(s.store.newObject ⟨"", values⟩).2, t⟩ := by
  refine (bind_of_ok (a := values) (t := { s with session := t }) (check_of_ok ?_)).trans rfl
  exact (bind_of_ok (Check.ofExcept_run hattributes _)).trans
    ((bind_of_ok (Check.ofExcept_run hregistry _)).trans haccepted)

theorem newValidated_of_refused {registry : Value} {attributes : Entries Value Value} {e : Fault}
    {t : Session} (hattributes : s.store.givenAttributes (s.store.className c) argument named =
      .ok attributes) (hregistry : s.store.registry c = .ok registry)
    (hrefused : s.store.acceptedValues (pure (.of .shared)) (s.store.className c)
      (s.store.roster registry) (s.store.supplyOf attributes) s.session = .error e t) :
    newValidated c argument named s = .error e { s with session := t } := by
  refine bind_of_error (check_of_error ?_)
  exact (bind_of_ok (Check.ofExcept_run hattributes _)).trans
    ((bind_of_ok (Check.ofExcept_run hregistry _)).trans hrefused)

theorem newValidated_of_none (h : s.store.entriesGiven argument = .ok none) :
    newValidated c argument named s = .error
      (.notAMapping (s.store.className c) (s.store.kindName argument)) s := by
  refine bind_of_error (check_of_error ?_)
  refine bind_of_error ?_
  rw [givenAttributes_of_none h]
  rfl

/-- The attributes must be a mapping, then all declared, then all pass. If so there is a new object
of the declared values, and otherwise nothing has changed. -/
theorem instantiate_ends (h : s.store.Creates c ds) (hnamed : named.keys.Nodup) {p : Policy}
    (hp : s.store.policyIn .shared s.session = .ok p) {severity : Severity}
    (hseverity : s.store.severityIn s.session = .ok severity)
    {es? : Option (Entries Value Value)}
    (hgiven : s.store.entriesGiven (argument?.getD .nil) = .ok es?) :
    (es? = none → ∃ s', instantiate c argument?.toList named s = .error (.notAMapping
      (s.store.className c) (s.store.kindName (argument?.getD .nil))) s' ∧ s'.store = s.store) ∧
    ∀ es, es? = some es → s.store.Answers ds es named →
      let unknown := unknownKeys ds es named
      let violations := s.store.violationsOf p ds es named
      (unknown ≠ [] → ∃ s', instantiate c argument?.toList named s = .error
        (.unknownAttributes (s.store.className c) (unknown.map s.store.keyText)) s' ∧
        s'.store = s.store) ∧
      (unknown = [] → violations ≠ [] → ∃ s', instantiate c argument?.toList named s =
        .error (.invalid (s.store.className c) violations) s' ∧ s'.store = s.store ∧
        (Fault.invalid (s.store.className c) violations).message =
          "; ".intercalate (violations.map Violation.message)) ∧
      (unknown = [] → violations = [] → ∃ s', instantiate c argument?.toList named s =
        .ok (.object c ⟨s.store.objects.size⟩) s' ∧
        s'.store = (s.store.newObject ⟨"", (declaredValues ds es named).asTexts⟩).2) ∧
      (unknown = [] → ∀ d ∈ ds, ∀ v, v = givenUnder es named d.name →
        (s.store.violationOf p d v = none ↔ d.passes v = true ∨
          ∃ t, s.store.accepts .shared (s.store.constraint d.constraint) v s.session =
            .ok true t) ∧
        ∀ violation, s.store.violationOf p d v = some violation ↔ d.passes v = false ∧
          ∃ message t, s.store.diagnose .shared (s.store.constraint d.constraint) v
            (readableName d.name) s.session = .ok (some message) t ∧
            violation = ⟨.text d.name, d.constraint, v, message⟩) := by
  rw [instantiate_eq_newValidated h]
  refine ⟨?_, ?_⟩
  · rintro rfl
    exact ⟨s, newValidated_of_none hgiven, rfl⟩
  · rintro es rfl hanswers unknown violations
    obtain ⟨registry, hregistry, hlists, hitems⟩ := h.registry
    have hattributes : s.store.givenAttributes (s.store.className c) (argument?.getD .nil) named =
        .ok (s.store.putAllAt es named.asTexts) :=
      givenAttributes_of_entries hgiven (s.store.className c)
    obtain ⟨hunknown, hinvalid, hcreated⟩ := Store.acceptedValues_run hlists hitems h.nodup h.asks
      hnamed hanswers hp hseverity (s.store.className c)
    refine ⟨fun hu ↦ ?_, fun hu hv ↦ ?_, fun hu hv ↦ ?_, fun hu d hd v hv ↦ ?_⟩
    · obtain ⟨t, hrun⟩ := hunknown hu
      exact ⟨_, newValidated_of_refused hattributes hregistry hrun, rfl⟩
    · obtain ⟨t, hrun⟩ := hinvalid hu hv
      exact ⟨_, newValidated_of_refused hattributes hregistry hrun, rfl, rfl⟩
    · obtain ⟨t, hrun⟩ := hcreated hu hv
      exact ⟨_, newValidated_of_accepted hattributes hregistry hrun, rfl⟩
    · subst hv
      have hjudge := hanswers.canJudge hu d hd
      exact ⟨Store.violationOf_eq_none_iff (h.asks d hd) hjudge p s.session,
        Store.violationOf_eq_some_iff (h.asks d hd) hjudge hp⟩

def withCrate : State where
  store :=
    let field := Value.object (.builtin .field)
    let type := Value.object (.builtin .typeConstraint)
    { Store.initial with
      classes := ⟨#[.root, { name := "Crate", fullName := "Crate", bases := [.root]
                             linearization := [.defined 1, .root, .builtin .object]
                             body := [("label", field ⟨3⟩), ("weight", field ⟨4⟩),
                               (homeName, .text "store"), ("__doc__", .nil),
                               (registryName, .object (.builtin .fieldRegistry) ⟨5⟩)] }]⟩
      dictionaries := ⟨#[[], [(.text "label", field ⟨3⟩), (.text "weight", field ⟨4⟩)],
        [(.text "weight", .int 3), (.text "label", .text "kiwi")]]⟩
      objects := ⟨#[⟨"", [(.text "_fields", .mappingView (.cell 0))]⟩,
        ⟨"", [(.text "target", .ofClass (.builtin .text))]⟩,
        ⟨"", [(.text "target", .ofClass (.builtin .integer))]⟩,
        ⟨"", [(.text "constraint", type ⟨1⟩), (.text "allow_nil", .bool false),
          (.text "name", .text "label")]⟩,
        ⟨"", [(.text "constraint", type ⟨2⟩), (.text "allow_nil", .bool true),
          (.text "name", .text "weight")]⟩,
        ⟨"", [(.text "_fields", .mappingView (.cell 1))]⟩]⟩ }
  session := .initial

/-- The weight that is given by name replaces the one in the mapping, and fails. -/
theorem instantiate_ends_withCrate :
    let weight : Declared := ⟨"weight", .object (.builtin .field) ⟨4⟩,
      .object (.builtin .typeConstraint) ⟨2⟩, true⟩
    ∃ s', instantiate (.defined 1) [.dictionary (.cell 2)] [("weight", .text "heavy")] withCrate =
      .error (.invalid "Crate" [⟨.text "weight", weight.constraint, .text "heavy",
        "Weight is a String, not a Integer"⟩]) s' ∧ s'.store = withCrate.store := by
  intro weight
  let label : Declared := ⟨"label", .object (.builtin .field) ⟨3⟩,
    .object (.builtin .typeConstraint) ⟨1⟩, false⟩
  let es : Entries Value Value := [(.text "weight", .int 3), (.text "label", .text "kiwi")]
  have hcreates : withCrate.store.Creates (.defined 1) [label, weight] :=
    { isValidated := rfl
      isNoMarker := rfl
      initializer := rfl
      registry := ⟨.object (.builtin .fieldRegistry) ⟨5⟩, rfl, ⟨⟨5⟩, 1, rfl, rfl, by decide, rfl⟩, rfl⟩
      nodup := by decide
      asks := List.forall_mem_cons.2
        ⟨⟨rfl, rfl, trivial⟩, List.forall_mem_singleton.2 ⟨rfl, rfl, trivial⟩⟩ }
  have hanswers : withCrate.store.Answers [label, weight] es [("weight", .text "heavy")] :=
    { hash := List.forall_mem_cons.2 ⟨rfl, List.forall_mem_singleton.2 rfl⟩
      displayed := List.forall_mem_nil _
      canJudge := fun _ ↦ List.forall_mem_cons.2 ⟨fun _ ↦ ⟨trivial, trivial⟩,
        List.forall_mem_singleton.2 fun _ ↦ ⟨trivial, trivial⟩⟩ }
  have hgiven : withCrate.store.entriesGiven
      ((some (.dictionary (.cell 2)) : Option Value).getD .nil) = .ok (some es) := rfl
  have hnamed : (Entries.keys [("weight", Value.text "heavy")]).Nodup := by decide
  obtain ⟨-, hends⟩ := instantiate_ends hcreates hnamed (p := .element) rfl rfl hgiven
  obtain ⟨-, hinvalid, -⟩ := hends es rfl hanswers
  have hviolations : withCrate.store.violationsOf .element [label, weight] es
      [("weight", .text "heavy")] = [⟨.text "weight", weight.constraint, .text "heavy",
        "Weight is a String, not a Integer"⟩] := by
    have hdiagnosis : withCrate.store.diagnosis .element (.type (.ofClass (.builtin .integer)))
        (.text "heavy") (readableName "weight") = some "Weight is a String, not a Integer" := by
      decide +kernel
    exact congrArg (fun message ↦ (message.map fun message ↦
      (⟨.text "weight", weight.constraint, .text "heavy", message⟩ : Violation)).toList) hdiagnosis
  rw [hviolations] at hinvalid
  obtain ⟨s', hrun, hstore, -⟩ := hinvalid rfl (List.cons_ne_nil _ _)
  exact ⟨s', hrun, hstore⟩

def withBox : State where
  store :=
    let field := Value.object (.builtin .field)
    { Store.withNotes with
      classes := Store.withNotes.classes.add
        { name := "Box", fullName := "Box", bases := [.root]
          linearization := [.defined 2, .root, .builtin .object]
          body := [("note", field ⟨9⟩), (homeName, .text "notes"), ("__doc__", .nil),
            (registryName, .object (.builtin .fieldRegistry) ⟨10⟩)] }
      dictionaries := Store.withNotes.dictionaries.add [(.text "note", field ⟨9⟩)]
      objects := ⟨Store.withNotes.objects.cells ++ #[
        ⟨"", [(.text "values", .tuple [.object (.defined 1) ⟨4⟩])]⟩,
        ⟨"", [(.text "target", .ofClass (.defined 1))]⟩,
        ⟨"", [(.text "branches", .tuple [.object (.builtin .literalConstraint) ⟨6⟩,
          .object (.builtin .typeConstraint) ⟨7⟩])]⟩,
        ⟨"", [(.text "constraint", .object (.builtin .unionConstraint) ⟨8⟩),
          (.text "allow_nil", .bool false), (.text "name", .text "note")]⟩,
        ⟨"", [(.text "_fields", .mappingView (.cell 2))]⟩]⟩ }
  session := .initial

/-- No box can be created for the second note, for it cannot be compared with the first one. -/
theorem not_instantiate_total :
    ¬ ∀ (c : ClassId) (ds : List Declared) (named : Entries String Value) (s : State),
      s.store.Creates c ds → named.keys.Nodup → s.store.policyIn .shared s.session = .ok .element →
      s.store.severityIn s.session = .ok .debug →
      (∃ v s', instantiate c [] named s = .ok v s') ∨
      ∃ e s', instantiate c [] named s = .error e s' ∧
        ((∃ received, e = .notAMapping (s.store.className c) received) ∨
        (∃ names, e = .unknownAttributes (s.store.className c) names) ∨
        ∃ violations, e = .invalid (s.store.className c) violations) := by
  intro h
  let note : Declared := ⟨"note", .object (.builtin .field) ⟨9⟩,
    .object (.builtin .unionConstraint) ⟨8⟩, false⟩
  have hcreates : withBox.store.Creates (.defined 2) [note] :=
    { isValidated := rfl
      isNoMarker := rfl
      initializer := rfl
      registry :=
        ⟨.object (.builtin .fieldRegistry) ⟨10⟩, rfl, ⟨⟨10⟩, 2, rfl, rfl, by decide, rfl⟩, rfl⟩
      nodup := by decide
      asks := List.forall_mem_singleton.2 ⟨rfl, rfl, trivial, trivial, trivial⟩ }
  have hfault : ∃ s', instantiate (.defined 2) [] [("note", .object (.defined 1) ⟨5⟩)] withBox =
      .error (.notCallable "int") s' := ⟨_, rfl⟩
  obtain ⟨s', hfault⟩ := hfault
  have hnamed : (Entries.keys [("note", Value.object (.defined 1) ⟨5⟩)]).Nodup := by decide
  have hends := h (.defined 2) [note] _ withBox hcreates hnamed rfl rfl
  rw [hfault] at hends
  rcases hends with ⟨v, t, hrun⟩ | ⟨e, t, hrun, hform⟩
  · cases hrun
  · cases hrun
    rcases hform with ⟨_, he⟩ | ⟨_, he⟩ | ⟨_, he⟩ <;> cases he

end Action

end Conformance
