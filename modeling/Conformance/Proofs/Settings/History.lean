import Conformance.Proofs.Evaluation.Script

namespace Conformance

/-- What one who asks for the settings gets: their attributes, or why there are none. -/
abbrev Reading := Except Fault (Entries Value Value)

inductive SettingsEvent
  | set (v : Variable) (text : Option String)
  | forgotten
  | loaded (r : Reading)
  | read (r : Reading)

def environmentAfter (env : Environment) (past : List SettingsEvent) : Environment :=
  past.foldl (fun env e ↦ match e with
    | .set v text => env.set v text
    | _ => env) env

@[simp] theorem environmentAfter_append (env : Environment) (past es : List SettingsEvent) :
    environmentAfter env (past ++ es) = environmentAfter (environmentAfter env past) es :=
  List.foldl_append

def Environment.reading (env : Environment) : Reading := Settings.attributes <$> Settings.parse env

/-- Since the settings were last forgotten, a reading has succeeded. -/
def Remembers (past : List SettingsEvent) (a : Entries Value Value) : Prop :=
  ∃ before between, past = before ++ .read (.ok a) :: between ∧ .forgotten ∉ between

/-- The first reading that has succeeded since the settings were last forgotten, and what there was
before it. -/
def FirstRead (past before : List SettingsEvent) (a : Entries Value Value) : Prop :=
  (∃ between, past = before ++ .read (.ok a) :: between ∧ .forgotten ∉ between) ∧
    ∀ b, ¬ Remembers before b

/-- What an event may say. Settings are loaded from the environment as it is. They are read from the
environment as it was at the first reading that succeeded, and from the environment as it is if
there has been none since they were forgotten. -/
def SettingsEvent.Follows (env : Environment) (past : List SettingsEvent) : SettingsEvent → Prop
  | .loaded r => r = (environmentAfter env past).reading
  | .read r =>
    (∀ before a, FirstRead past before a →
      r = .ok a ∧ (environmentAfter env before).reading = .ok a) ∧
    ((∀ a, ¬ Remembers past a) → r = (environmentAfter env past).reading)
  | _ => True

/-- A history that goes on from a past, and in which every event says what it may. -/
def Snapshot (env : Environment) (past history : List SettingsEvent) : Prop :=
  ∀ before e after, history = before ++ e :: after → e.Follows env (past ++ before)

namespace Snapshot

variable {env : Environment} {past es fs : List SettingsEvent} {e : SettingsEvent}

theorem nil (env : Environment) (past : List SettingsEvent) : Snapshot env past [] := by
  intro before e after h
  simp at h

theorem append (h : Snapshot env past es) (h' : Snapshot env (past ++ es) fs) :
    Snapshot env past (es ++ fs) := by
  intro before e after heq
  rcases List.append_eq_append_iff.1 heq with ⟨mid, rfl, hfs⟩ | ⟨mid, hes, hrest⟩
  · rw [← List.append_assoc]
    exact h' mid e after hfs
  · cases mid with
    | nil =>
      rw [List.append_nil] at hes
      subst hes
      have hfirst := h' [] e after hrest.symm
      rwa [List.append_nil] at hfirst
    | cons e' mid =>
      obtain ⟨rfl, -⟩ := List.cons.inj hrest
      exact h before e mid hes

theorem singleton (h : e.Follows env past) : Snapshot env past [e] := by
  intro before e' after heq
  cases before with
  | nil =>
    obtain ⟨rfl, -⟩ := List.cons.inj heq
    rwa [List.append_nil]
  | cons e'' before => simp at heq

theorem cons (h : e.Follows env past) (h' : Snapshot env (past ++ [e]) es) :
    Snapshot env past (e :: es) := (singleton h).append h'

end Snapshot

section Remembers

variable {past before between : List SettingsEvent} {e e' : SettingsEvent}
  {a : Entries Value Value}

theorem append_singleton_eq (h : past ++ [e] = before ++ e' :: between) :
    (before = past ∧ e' = e ∧ between = []) ∨
      ∃ mid, between = mid ++ [e] ∧ past = before ++ e' :: mid := by
  rcases List.eq_nil_or_concat between with rfl | ⟨mid, last, rfl⟩
  · obtain ⟨rfl, he⟩ := List.append_inj' h rfl
    exact .inl ⟨rfl, (List.cons.inj he).1.symm, rfl⟩
  · rw [List.concat_eq_append, ← List.cons_append, ← List.append_assoc] at h
    obtain ⟨rfl, he⟩ := List.append_inj' h rfl
    obtain ⟨rfl, -⟩ := List.cons.inj he
    exact .inr ⟨mid, List.concat_eq_append, rfl⟩

theorem remembers_append_iff : Remembers (past ++ [e]) a ↔
    e = .read (.ok a) ∨ (e ≠ .forgotten ∧ Remembers past a) := by
  constructor
  · rintro ⟨before, between, heq, hbetween⟩
    rcases append_singleton_eq heq with ⟨-, he, -⟩ | ⟨mid, rfl, hpast⟩
    · exact .inl he.symm
    · simp only [List.mem_append, List.mem_singleton, not_or] at hbetween
      exact .inr ⟨Ne.symm hbetween.2, before, mid, hpast, hbetween.1⟩
  · rintro (rfl | ⟨he, before, between, rfl, hbetween⟩)
    · exact ⟨past, [], rfl, List.not_mem_nil⟩
    · exact ⟨before, between ++ [e], by simp, by simp [hbetween, he.symm]⟩

theorem FirstRead.remembers (h : FirstRead past before a) : Remembers past a := by
  obtain ⟨⟨between, heq, hbetween⟩, -⟩ := h
  exact ⟨before, between, heq, hbetween⟩

theorem firstRead_append (h : FirstRead (past ++ [e]) before a) :
    FirstRead past before a ∨ (before = past ∧ e = .read (.ok a) ∧ ∀ b, ¬ Remembers past b) := by
  obtain ⟨⟨between, heq, hbetween⟩, hnone⟩ := h
  rcases append_singleton_eq heq with ⟨rfl, he, -⟩ | ⟨mid, rfl, hpast⟩
  · exact .inr ⟨rfl, he.symm, hnone⟩
  · exact .inl ⟨⟨mid, hpast, fun h ↦ hbetween (List.mem_append_left _ h)⟩, hnone⟩

end Remembers

/-- A session after a history: it has the environment, and has kept what the history remembers,
which is what the first reading has got from the environment of its time. -/
structure Session.Agrees (env : Environment) (past : List SettingsEvent) (s : Session) : Prop where
  environment_eq : s.environment = environmentAfter env past
  remembers_iff (a : Entries Value Value) :
    Remembers past a ↔ s.settings.map Settings.attributes = some a
  first {before : List SettingsEvent} {a : Entries Value Value} (h : FirstRead past before a) :
    (environmentAfter env before).reading = .ok a

def Store.ShowsSettings (st : Store) (s : Session) : Prop :=
  ∀ id, s.settingsRecord = some id → ∃ settings, s.settings = some settings ∧
    id.index < st.objects.size ∧ (st.object id).attributes = settings.attributes

/-- The settings as they are shown to one who asks for them: by their record, once there is one. -/
def Store.shownSettings (st : Store) (settings : Settings) (record? : Option ObjectId) :
    Entries Value Value :=
  match record? with
  | none => settings.attributes
  | some id => (st.object id).attributes

namespace Session

variable {env : Environment} {past : List SettingsEvent} {s t : Session} {e : SettingsEvent}

theorem Agrees.append (h : s.Agrees env past) (hread : ∀ a, e ≠ .read (.ok a))
    (hforgotten : e ≠ .forgotten)
    (henvironment : t.environment = environmentAfter env (past ++ [e]))
    (hsettings : t.settings = s.settings) : t.Agrees env (past ++ [e]) where
  environment_eq := henvironment
  remembers_iff a := by
    rw [remembers_append_iff, hsettings, ← h.remembers_iff]
    simp [hread, hforgotten]
  first hfirst := by
    rcases firstRead_append hfirst with hpast | ⟨-, he, -⟩
    · exact h.first hpast
    · exact absurd he (hread _)

theorem Agrees.of_session (h : s.Agrees env past) (henvironment : t.environment = s.environment)
    (hsettings : t.settings = s.settings) : t.Agrees env past where
  environment_eq := henvironment.trans h.environment_eq
  remembers_iff a := by rw [hsettings, h.remembers_iff]
  first hfirst := h.first hfirst

theorem agrees_nil (h : s.settings = none) : s.Agrees s.environment [] where
  environment_eq := rfl
  remembers_iff a := by
    rw [h]
    exact ⟨fun ⟨before, _, heq, _⟩ ↦ by simp at heq, nofun⟩
  first hfirst := by
    obtain ⟨⟨_, heq, -⟩, -⟩ := hfirst
    simp at heq

theorem Agrees.forget (h : s.Agrees env past) (henvironment : t.environment = s.environment)
    (hsettings : t.settings = none) : t.Agrees env (past ++ [.forgotten]) where
  environment_eq := by
    rw [henvironment, h.environment_eq, environmentAfter_append]
    rfl
  remembers_iff a := by
    rw [remembers_append_iff, hsettings]
    simp
  first hfirst := by
    rcases firstRead_append hfirst with hpast | ⟨-, he, -⟩
    · exact h.first hpast
    · cases he

def reading (s : Session) : Reading := Settings.attributes <$> s.settingsInForce

theorem reading_of_some {settings : Settings} (h : s.settings = some settings) :
    s.reading = .ok settings.attributes := by
  rw [reading, settingsInForce, h]
  rfl

theorem reading_of_none (h : s.settings = none) : s.reading = s.environment.reading := by
  rw [reading, settingsInForce, h]
  rfl

theorem Agrees.follows (h : s.Agrees env past) :
    (SettingsEvent.read s.reading).Follows env past := by
  constructor
  · intro before a hfirst
    refine ⟨?_, h.first hfirst⟩
    have hkept := (h.remembers_iff a).1 hfirst.remembers
    cases hs : s.settings with
    | none => rw [hs] at hkept; cases hkept
    | some settings =>
      rw [hs] at hkept
      rw [reading_of_some hs, Option.some.inj hkept]
  · intro hnone
    cases hs : s.settings with
    | none => rw [reading_of_none hs, h.environment_eq]
    | some settings =>
      exact absurd ((h.remembers_iff settings.attributes).2 (by rw [hs]; rfl)) (hnone _)

/-- A reading that succeeds finds what is kept, or is the first of its kind; one that fails leaves
nothing to be kept. -/
theorem Agrees.read (h : s.Agrees env past) :
    s.loaded.Agrees env (past ++ [.read s.reading]) := by
  have henvironment : environmentAfter env (past ++ [.read s.reading]) = s.environment := by
    rw [environmentAfter_append, h.environment_eq]
    rfl
  -- settings that are kept are read again; otherwise the environment decides
  cases hs : s.settings with
  | some settings =>
    have hkept := h.remembers_iff
    rw [hs] at hkept
    rw [reading_of_some hs] at henvironment ⊢
    rw [loaded_of_some hs]
    refine ⟨henvironment.symm, fun a ↦ ?_, fun hfirst ↦ ?_⟩
    · rw [remembers_append_iff, hkept, hs]
      simp
    · rcases firstRead_append hfirst with hpast | ⟨-, -, hnone⟩
      · exact h.first hpast
      · exact absurd ((hkept settings.attributes).2 rfl) (hnone _)
  | none =>
    have hreading := reading_of_none hs
    cases hparse : Settings.parse s.environment with
    | error e =>
      have herror : s.reading = .error e := by rw [hreading, Environment.reading, hparse]; rfl
      rw [loaded_of_error hparse]
      exact h.append (by simp [herror]) nofun henvironment.symm rfl
    | ok settings =>
      have hok : s.reading = .ok settings.attributes := by
        rw [hreading, Environment.reading, hparse]
        rfl
      have hnone (a : Entries Value Value) : ¬ Remembers past a := by
        rw [h.remembers_iff, hs]
        exact nofun
      rw [loaded_of_ok hs hparse]
      refine ⟨henvironment.symm, fun a ↦ ?_, fun hfirst ↦ ?_⟩
      · rw [remembers_append_iff, hok]
        simp [hnone]
      · rcases firstRead_append hfirst with hpast | ⟨rfl, he, -⟩
        · exact h.first hpast
        · rw [← h.environment_eq, ← hreading]
          exact SettingsEvent.read.inj he

end Session

namespace Store.ShowsSettings

variable {st st' : Store} {s t : Session} {settings : Settings}

theorem shown_eq (h : st.ShowsSettings s) (hs : s.settingsInForce = .ok settings) :
    st.shownSettings settings s.settingsRecord = settings.attributes := by
  unfold shownSettings
  split
  · rfl
  · next id hid =>
    obtain ⟨kept, hkept, -, hattributes⟩ := h id hid
    rw [Session.settingsInForce, hkept] at hs
    cases hs
    exact hattributes

theorem of_session (h : st.ShowsSettings s) (hsettings : t.settings = s.settings)
    (hrecord : t.settingsRecord = s.settingsRecord) : st.ShowsSettings t := by
  intro id hid
  rw [hsettings]
  exact h id (hrecord ▸ hid)

theorem loaded (h : st.ShowsSettings s) : st.ShowsSettings s.loaded := by
  intro id hid
  rw [s.settingsRecord_loaded] at hid
  obtain ⟨kept, hkept, hrest⟩ := h id hid
  rw [Session.loaded_of_some hkept]
  exact ⟨kept, hkept, hrest⟩

end Store.ShowsSettings

def Script.readings {α : Type} (st : Store) : Script α → Session → List Reading
  | ends _, _ => []
  | notes e next, s => next.readings st { s with journal := s.journal ++ [e] }
  | calls call next, s => next.readings st { s with calls := s.calls ++ [call] }
  | looks next, s => match lookUp s with
    | .ok (settings, record?) t =>
      .ok (st.shownSettings settings record?) :: (next settings record?).readings st t
    | .error e _ => [.error e]

theorem Script.snapshot {α : Type} {st : Store} {env : Environment} (sc : Script α)
    {past : List SettingsEvent} {s : Session} (hs : s.Agrees env past) (hst : st.ShowsSettings s) :
    Snapshot env past ((sc.readings st s).map .read) ∧
      (Check.after sc.run s).Agrees env (past ++ (sc.readings st s).map .read) ∧
      st.ShowsSettings (Check.after sc.run s) ∧
      (Check.after sc.run s).settingsRecord = s.settingsRecord := by
  -- the past grows with each look, and what is shown at the next one depends on it
  induction sc generalizing past s with
  | ends r =>
    have hafter : Check.after (ends r).run s = s := by cases r <;> rfl
    rw [hafter, readings, List.map_nil, List.append_nil]
    exact ⟨.nil env past, hs, hst, rfl⟩
  | notes e next ih => exact ih (hs.of_session rfl rfl) (hst.of_session rfl rfl)
  | calls call next ih => exact ih (hs.of_session rfl rfl) (hst.of_session rfl rfl)
  | looks next ih =>
    cases hforce : s.settingsInForce with
    | error e =>
      have hrun : (looks next).run s = .error e s := bind_of_error (lookUp_error hforce)
      have hafter : Check.after (looks next).run s = s := by rw [Check.after, hrun]
      have hreading : s.reading = .error e := by rw [Session.reading, hforce]; rfl
      have hread := hs.read
      have hfollows := hs.follows
      rw [Session.loaded_of_force hforce, hreading] at hread
      rw [hreading] at hfollows
      rw [hafter, readings, lookUp_error hforce]
      exact ⟨.singleton hfollows, hread, hst, rfl⟩
    | ok settings =>
      have hrun : (looks next).run s = (next settings s.settingsRecord).run s.loaded :=
        bind_of_ok (lookUp_run hforce)
      have hafter : Check.after (looks next).run s =
          Check.after (next settings s.settingsRecord).run s.loaded := by
        rw [Check.after, hrun, Check.after]
      have hreading : s.reading = .ok settings.attributes := by rw [Session.reading, hforce]; rfl
      have hread := hs.read
      have hfollows := hs.follows
      rw [hreading] at hread hfollows
      obtain ⟨hsnapshot, hagrees, hshows, hrecord⟩ := ih settings s.settingsRecord hread hst.loaded
      have hreadings : (looks next).readings st s = .ok settings.attributes ::
          (next settings s.settingsRecord).readings st s.loaded := by
        rw [readings, lookUp_run hforce, ← hst.shown_eq hforce]
      rw [hafter, hreadings, List.map_cons, List.append_cons]
      exact ⟨.cons hfollows hsnapshot, hagrees, hshows, hrecord.trans s.settingsRecord_loaded⟩

end Conformance
