import Conformance.Proofs.Creation.Accounting
import Conformance.Proofs.Creation.Assignment
import Conformance.Proofs.Creation.Reconstruction
import Conformance.Proofs.Settings.History

namespace Conformance

open Conformance.Action

/-- What goes on with the settings as they are. -/
inductive Activity
  | readPolicy (evaluator : Value)
  | diagnose (ev : Evaluator) (constraint value : Value) (label : String)
  | accept (ev : Evaluator) (constraint value : Value)
  | judge (registry values evaluator : Value)
  | create (c : ClassId) (positional : List Value) (named : List (String × Value))
  | assign (registry target attributes evaluator : Value)

inductive Operation
  | setVariable (v : Variable) (text : Option String)
  | getSettings
  | loadSettings
  | resetSettings
  | other (u : Activity)

def Activity.run : Activity → Action Unit
  | .readPolicy evaluator => do
    let _ ← check (·.policyShown evaluator)
    return
  | .diagnose ev c v label => do
    let _ ← check fun st ↦ st.diagnose ev (st.constraint c) v label
    return
  | .accept ev c v => do
    let _ ← check fun st ↦ st.accepts ev (st.constraint c) v
    return
  | .judge registry values evaluator => do
    let _ ← judgeFields registry values evaluator
    return
  | .create c positional named => do
    let _ ← instantiate c positional named
    return
  | .assign registry target attributes evaluator => do
    let _ ← assignValidated registry target attributes evaluator
    return

def Operation.run : Operation → Action Unit
  | .setVariable v text => check fun _ ↦ Conformance.setVariable v text
  | .getSettings => do
    let _ ← sharedSettings
    return
  | .loadSettings => do
    let _ ← Action.loadSettings
    return
  | .resetSettings => check fun _ ↦ forgetSettings
  | .other u => u.run

def Action.handedOut (x : Action Value) (s : State) : Reading :=
  match x s with
  | .ok v t => .ok (t.store.attributesOf v)
  | .error e _ => .error e

/-- What an action gets in turn that asks for the settings: it runs a script first, and what comes
after that has no part in the session. -/
def Action.Reads (x : Action Unit) (s : State) (rs : List Reading) : Prop :=
  ∃ (α : Type) (sc : Script α) (finish : α → Action Unit),
    x s = (check (fun _ ↦ sc.run) >>= finish) s ∧
    (∀ a t, (after (finish a) t).session = t.session) ∧ rs = sc.readings s.store s.session

def Operation.Yields (s : State) (es : List SettingsEvent) : Operation → Prop
  | .setVariable v text => es = [.set v text]
  | .getSettings => es = [.read (handedOut sharedSettings s)]
  | .loadSettings => es = [.loaded (handedOut Action.loadSettings s)]
  | .resetSettings => es = [.forgotten]
  | .other u => ∃ rs, u.run.Reads s rs ∧ es = rs.map .read

inductive History : State → List Operation → List SettingsEvent → Prop
  | nil (s : State) : History s [] []
  | cons {s : State} {op : Operation} {ops : List Operation} {es history : List SettingsEvent}
      (h : op.Yields s es) (rest : History (after op.run s) ops history) :
      History s (op :: ops) (es ++ history)

def Operation.IsProper (s : State) : Operation → Prop
  | .other (.create c _ _) => s.store.nature c = .validated
  | .other (.assign _ target _ _) =>
    ∀ id, s.session.settingsRecord = some id → Store.attributesCell? target ≠ some id
  | _ => True

def AllProper : State → List Operation → Prop
  | _, [] => True
  | s, op :: ops => op.IsProper s ∧ AllProper (after op.run s) ops

theorem exists_reads_of_scripted {α : Type} {x : Action Unit} {s : State} {q : Store → Check α}
    {finish : α → Action Unit} (hx : x s = (check q >>= finish) s)
    (hq : Scripted (fun _ ↦ True) (fun _ ↦ True) (q s.store))
    (hfinish : ∀ a t, (after (finish a) t).session = t.session) : ∃ rs, x.Reads s rs := by
  obtain ⟨sc, hsc, -⟩ := hq
  have hcheck : check q s = check (fun _ ↦ sc.run) s := by rw [check, check, hsc]
  refine ⟨_, α, sc, finish, hx.trans ?_, hfinish, rfl⟩
  simp only [bind, EStateM.bind, hcheck]

namespace Store

variable (st : Store)

theorem scripted_policyShown (v : Value) :
    Scripted (fun _ ↦ True) (fun _ ↦ True) (st.policyShown v) := by
  apply Scripted.bind (.ofExcept (.all _))
  intro w
  cases w
  case nil => exact scripted_setting .all _ _ fun _ ↦ .pure _
  all_goals exact .pure _

theorem scripted_newValues (c : ClassId) (argument : Value) (named : List (String × Value)) :
    Scripted (fun _ ↦ True) (fun _ ↦ True) (st.newValues c argument named) := by
  apply Scripted.bind (.ofExcept (.all _))
  intro es
  apply Scripted.bind (.ofExcept (.all _))
  exact fun registry ↦ scripted_acceptedValues _ _ _ _

theorem scripted_judged (registry values evaluator : Value) :
    Scripted (fun _ ↦ True) (fun _ ↦ True) (do
      let judge ← Check.ofExcept (st.judge evaluator Method.diagnose.name)
      let fields ← Check.ofExcept (st.registered registry)
      st.violations judge fields (st.valueOrNil values)) := by
  apply Scripted.bind (.ofExcept (.all _))
  intro judge
  apply Scripted.bind (.ofExcept (.all _))
  exact fun fields ↦ scripted_violations .all (.all judge) fields fun _ ↦ .all _

end Store

/-- Whatever goes on with the settings as they are reads them by a script. -/
theorem Activity.exists_reads {u : Activity} {s : State}
    (hu : ∀ c positional named, u = .create c positional named → s.store.nature c = .validated) :
    ∃ rs, u.run.Reads s rs := by
  have hreturn {α : Type} (a : α) (t : State) :
      (after (pure () : Action Unit) t).session = t.session := rfl
  cases u with
  | readPolicy evaluator =>
    exact exists_reads_of_scripted rfl (s.store.scripted_policyShown evaluator) hreturn
  | diagnose ev c v label =>
    refine exists_reads_of_scripted rfl ?_ hreturn
    exact Store.scripted_diagnose .all (.all ev) _ (Constraint.refusesWithin_all _) v label
  | accept ev c v =>
    refine exists_reads_of_scripted rfl ?_ hreturn
    exact Store.scripted_accepts .all (.all ev) _ (Constraint.refusesWithin_all _) v
  | judge registry values evaluator =>
    refine exists_reads_of_scripted (congrFun (bind_assoc _ _ _) s)
      (s.store.scripted_judged registry values evaluator) fun vs t ↦ ?_
    obtain ⟨outcome, t', hrun, -, hsession, -⟩ := outcomeOf_run vs t
    rw [after_bind_pure, after, hrun]
    exact hsession
  | create c positional named =>
    have hstart := instantiate_validated (s := s) (hu c positional named rfl) positional named
    -- arguments are checked before the session is looked at, so a bad call reads nothing
    cases hsole : s.store.soleArgument c positional with
    | error e =>
      have hrun : (Activity.create c positional named).run s = .error e s :=
        bind_of_error (hstart.trans (bind_of_error (ask_of_error hsole)))
      exact ⟨_, Unit, .ends (.error e), fun _ ↦ pure (), hrun, hreturn, rfl⟩
    | ok argument =>
      have hnew : instantiate c positional named s =
          (check (·.newValues c argument named) >>= newObject c) s :=
        hstart.trans (bind_of_ok (ask_of_ok hsole))
      have hrun : (Activity.create c positional named).run s =
          ((check (·.newValues c argument named) >>= newObject c) >>= fun _ ↦ pure ()) s := by
        simp only [run, bind, EStateM.bind, hnew]
      exact exists_reads_of_scripted (hrun.trans (congrFun (bind_assoc _ _ _) s))
        (s.store.scripted_newValues c argument named) fun _ _ ↦ rfl
  | assign registry target attributes evaluator =>
    refine exists_reads_of_scripted (congrFun (bind_assoc _ _ _) s)
      (Store.scripted_acceptedValues _ _ _ _) fun values t ↦ ?_
    rw [after_bind_pure, after_bind_pure]
    rcases assign_cases target values t with ⟨e, hassign⟩ | ⟨st', hassign, -⟩
    · rw [after_of_error hassign]
    · rw [after, hassign]

namespace Store.ShowsSettings

variable {st st' : Store} {s : Session}

theorem grow (h : st.ShowsSettings s) (hgrows : st.Grows st') : st'.ShowsSettings s := by
  intro id hid
  obtain ⟨settings, hsettings, hsize, hattributes⟩ := h id hid
  refine ⟨settings, hsettings, Nat.lt_of_lt_of_le hsize hgrows.objects_le, ?_⟩
  rw [hgrows.object_eq id hsize, hattributes]

theorem assigned (h : st.ShowsSettings s) {target : Value} {values : Entries Value Value}
    (hassigned : st.Assigned target values st')
    (htarget : ∀ id, s.settingsRecord = some id → attributesCell? target ≠ some id) :
    st'.ShowsSettings s := by
  rcases hassigned.eq_or with rfl | ⟨id, es, hid, rfl⟩
  · exact h
  · intro record hrecord
    obtain ⟨settings, hsettings, hsize, hattributes⟩ := h record hrecord
    refine ⟨settings, hsettings, Nat.lt_of_lt_of_eq hsize (Table.size_set _ _ _).symm, ?_⟩
    have hne : id.index ≠ record.index := by
      intro heq
      refine htarget record hrecord (hid.trans (congrArg some ?_))
      cases id
      cases record
      cases heq
      rfl
    rw [← hattributes]
    exact congrArg Object.attributes (Table.get_set_of_ne hne st.objects _)

end Store.ShowsSettings

theorem Activity.grows {u : Activity} (hu : ∀ registry target attributes evaluator,
    u ≠ .assign registry target attributes evaluator) : Within Store.Grows u.run := by
  cases u with
  | readPolicy | diagnose | accept => exact .bind (.check _) fun _ ↦ .pure _
  | judge registry values evaluator =>
    have houtcome (vs : List Violation) : Within Store.Grows (outcomeOf vs) := by
      intro s
      obtain ⟨outcome, t, hrun, -, -, hgrows⟩ := outcomeOf_run vs s
      rw [after, hrun]
      exact hgrows
    exact .bind (.bind (.check _) houtcome) fun _ ↦ .pure _
  | create c positional named => exact .bind (grows_instantiate c positional named) fun _ ↦ .pure _
  | assign registry target attributes evaluator => exact absurd rfl (hu _ _ _ _)

theorem Activity.showsSettings {u : Activity} {s : State} {t : Session}
    (hu : (Operation.other u).IsProper s) (hrecord : t.settingsRecord = s.session.settingsRecord)
    (h : s.store.ShowsSettings t) :
    (after u.run s).store.ShowsSettings t := by
  cases u with
  | assign registry target attributes evaluator =>
    rw [run, after_bind_pure]
    cases hrun : assignValidated registry target attributes evaluator s with
    | error e s' =>
      rw [after_of_error hrun, store_of_failed_assignment hrun]
      exact h
    | ok v s' =>
      obtain ⟨-, values, -, hassigned⟩ := assigned_of_done hrun
      rw [after, hrun]
      exact h.assigned hassigned fun id hid ↦ hu id (hrecord ▸ hid)
  | _ => exact h.grow (Activity.grows (by simp) s)

section HandedOut

variable {s : State} {settings : Settings} {e : Fault}

theorem attributesOf_newSettings (st : Store) (es : Entries Value Value) :
    (st.newObject ⟨"", es⟩).2.attributesOf (.object (.builtin .settings) ⟨st.objects.size⟩) = es :=
  congrArg Object.attributes (Table.get_add_size st.objects _)

theorem loadSettings_error (h : Settings.parse s.session.environment = .error e) :
    Action.loadSettings s = .error e s := bind_of_error (check_of_error (readSettings_error h))

theorem loadSettings_run (h : Settings.parse s.session.environment = .ok settings) :
    Action.loadSettings s = .ok (.object (.builtin .settings) ⟨s.store.objects.size⟩)
      ⟨(s.store.newObject ⟨"", settings.attributes⟩).2, { s.session with
        journal := s.session.journal ++ [.record (.settingsLoaded settings)] }⟩ :=
  (bind_of_ok (check_of_ok (readSettings_run h))).trans rfl

theorem sharedSettings_error (h : s.session.settingsInForce = .error e) :
    sharedSettings s = .error e s := bind_of_error (check_of_error (currentSettings_error h))

theorem sharedSettings_of_record (h : s.session.settingsInForce = .ok settings) {id : ObjectId}
    (hrecord : s.session.settingsRecord = some id) :
    sharedSettings s =
      .ok (.object (.builtin .settings) id) { s with session := s.session.loaded } := by
  rw [sharedSettings, bind_of_ok (check_of_ok (currentSettings_run h)), bind_of_ok (get_run _),
    s.session.settingsRecord_loaded, hrecord]
  rfl

theorem sharedSettings_of_no_record (h : s.session.settingsInForce = .ok settings)
    (hrecord : s.session.settingsRecord = none) :
    sharedSettings s = .ok (.object (.builtin .settings) ⟨s.store.objects.size⟩)
      ⟨(s.store.newObject ⟨"", settings.attributes⟩).2,
        { s.session.loaded with settingsRecord := some ⟨s.store.objects.size⟩ }⟩ := by
  rw [sharedSettings, bind_of_ok (check_of_ok (currentSettings_run h)), bind_of_ok (get_run _),
    s.session.settingsRecord_loaded, hrecord]
  rfl

end HandedOut

/-- A state after a history: the session agrees with it, and the record of the settings with the
session. -/
structure State.Agrees (env : Environment) (past : List SettingsEvent) (s : State) : Prop where
  session : s.session.Agrees env past
  shows : s.store.ShowsSettings s.session

section Steps

variable {env : Environment} {past es : List SettingsEvent} {s : State}

theorem Activity.step {u : Activity} (h : s.Agrees env past) (hu : (Operation.other u).IsProper s)
    {rs : List Reading} (hreads : u.run.Reads s rs) :
    Snapshot env past (rs.map .read) ∧ (after u.run s).Agrees env (past ++ rs.map .read) := by
  obtain ⟨α, sc, finish, hrun, hfinish, rfl⟩ := hreads
  obtain ⟨hsnapshot, hagrees, hshows, hrecord⟩ := sc.snapshot h.session h.shows
  have hsession : (after u.run s).session = Check.after sc.run s.session := by
    rw [after_congr hrun]
    cases hsc : sc.run s.session with
    | ok a t =>
      rw [after_bind_of_ok (check_of_ok hsc), hfinish, Check.after, hsc]
    | error e t =>
      rw [after_bind_of_error (check_of_error hsc), Check.after, hsc]
  refine ⟨hsnapshot, ?_, ?_⟩
  · rw [hsession]
    exact hagrees
  · rw [hsession]
    exact Activity.showsSettings hu hrecord hshows

theorem loadSettings_step (h : s.Agrees env past) :
    (SettingsEvent.loaded (handedOut Action.loadSettings s)).Follows env past ∧
      (after Action.loadSettings s).Agrees env
        (past ++ [.loaded (handedOut Action.loadSettings s)]) := by
  have henvironment (r : Reading) :
      s.session.environment = environmentAfter env (past ++ [.loaded r]) := by
    rw [environmentAfter_append, h.session.environment_eq]
    rfl
  cases hparse : Settings.parse s.session.environment with
  | error e =>
    have hrun := loadSettings_error hparse
    have hreading : handedOut Action.loadSettings s = (environmentAfter env past).reading := by
      rw [handedOut, hrun, Environment.reading, ← h.session.environment_eq, hparse]
      rfl
    rw [after_of_error hrun]
    exact ⟨hreading, h.session.append (by simp) (by simp) (henvironment _) rfl, h.shows⟩
  | ok settings =>
    have hrun := loadSettings_run hparse
    have hreading : handedOut Action.loadSettings s = (environmentAfter env past).reading := by
      rw [handedOut, hrun, Environment.reading, ← h.session.environment_eq, hparse]
      exact congrArg Except.ok (attributesOf_newSettings s.store settings.attributes)
    rw [after, hrun]
    exact ⟨hreading, h.session.append (by simp) (by simp) (henvironment _) rfl,
      (h.shows.of_session rfl rfl).grow (Store.grows_newObject _ _)⟩

theorem handedOut_sharedSettings (h : s.store.ShowsSettings s.session) :
    handedOut sharedSettings s = s.session.reading := by
  cases hforce : s.session.settingsInForce with
  | error e =>
    rw [handedOut, sharedSettings_error hforce, Session.reading, hforce]
    rfl
  | ok settings =>
    have hreading : s.session.reading = .ok settings.attributes := by
      rw [Session.reading, hforce]
      rfl
    rw [hreading]
    cases hrecord : s.session.settingsRecord with
    | some id =>
      have hshown := h.shown_eq hforce
      rw [hrecord] at hshown
      rw [handedOut, sharedSettings_of_record hforce hrecord]
      exact congrArg Except.ok hshown
    | none =>
      rw [handedOut, sharedSettings_of_no_record hforce hrecord]
      exact congrArg Except.ok (attributesOf_newSettings s.store settings.attributes)

theorem getSettings_step (h : s.Agrees env past) :
    (SettingsEvent.read (handedOut sharedSettings s)).Follows env past ∧
      (after sharedSettings s).Agrees env (past ++ [.read (handedOut sharedSettings s)]) := by
  rw [handedOut_sharedSettings h.shows]
  refine ⟨h.session.follows, ?_⟩
  have hread := h.session.read
  cases hforce : s.session.settingsInForce with
  | error e =>
    rw [Session.loaded_of_force hforce] at hread
    rw [after_of_error (sharedSettings_error hforce)]
    exact ⟨hread, h.shows⟩
  | ok settings =>
    cases hrecord : s.session.settingsRecord with
    | some id =>
      rw [after, sharedSettings_of_record hforce hrecord]
      exact ⟨hread, h.shows.loaded⟩
    | none =>
      rw [after, sharedSettings_of_no_record hforce hrecord]
      refine ⟨hread.of_session rfl rfl, ?_⟩
      rintro _ ⟨⟩
      refine ⟨settings, Session.settings_loaded hforce, ?_,
        attributesOf_newSettings s.store settings.attributes⟩
      exact Nat.lt_of_lt_of_eq (Nat.lt_succ_self _) (Table.size_add _ _).symm

theorem Operation.step {op : Operation} (h : s.Agrees env past) (hop : op.IsProper s)
    (hes : op.Yields s es) :
    Snapshot env past es ∧ (after op.run s).Agrees env (past ++ es) := by
  cases op with
  | setVariable v text =>
    cases hes
    have henvironment : (s.session.environment.set v text) =
        environmentAfter env (past ++ [.set v text]) := by
      rw [environmentAfter_append, ← h.session.environment_eq]
      rfl
    exact ⟨.singleton trivial, h.session.append nofun nofun henvironment rfl,
      h.shows.of_session rfl rfl⟩
  | getSettings =>
    cases hes
    obtain ⟨hfollows, hagrees⟩ := getSettings_step h
    rw [run, after_bind_pure]
    exact ⟨.singleton hfollows, hagrees⟩
  | loadSettings =>
    cases hes
    obtain ⟨hfollows, hagrees⟩ := loadSettings_step h
    rw [run, after_bind_pure]
    exact ⟨.singleton hfollows, hagrees⟩
  | resetSettings =>
    cases hes
    exact ⟨.singleton trivial, h.session.forget rfl rfl, nofun⟩
  | other u =>
    obtain ⟨rs, hreads, rfl⟩ := hes
    exact Activity.step h hop hreads

theorem Operation.exists_yields {op : Operation} (hop : op.IsProper s) : ∃ es, op.Yields s es := by
  cases op with
  | other u =>
    have hvalidated (c : ClassId) (positional : List Value) (named : List (String × Value))
        (h : u = .create c positional named) : s.store.nature c = .validated := by
      subst h
      exact hop
    obtain ⟨rs, hreads⟩ := Activity.exists_reads hvalidated
    exact ⟨_, rs, hreads, rfl⟩
  | _ => exact ⟨_, rfl⟩

end Steps

theorem exists_history {s : State} {ops : List Operation} (h : AllProper s ops) :
    ∃ history, History s ops history := by
  induction ops generalizing s with
  | nil => exact ⟨[], .nil s⟩
  | cons op ops ih =>
    obtain ⟨es, hes⟩ := Operation.exists_yields h.1
    obtain ⟨history, hrest⟩ := ih h.2
    exact ⟨es ++ history, .cons hes hrest⟩

theorem snapshot_of_history {env : Environment} {past history : List SettingsEvent} {s : State}
    {ops : List Operation} (hs : s.Agrees env past) (hops : AllProper s ops)
    (h : History s ops history) : Snapshot env past history := by
  induction h generalizing past with
  | nil s => exact .nil env past
  | cons hes rest ih =>
    obtain ⟨hsnapshot, hagrees⟩ := Operation.step hs hops.1 hes
    exact hsnapshot.append (ih hagrees hops.2)

/-- A run from a state in which no settings are kept has a history, and the settings that are read
in its course are a snapshot: they are read from the environment of the first reading that succeeds,
however they are asked for, until they are forgotten. To load them is not to read them. -/
theorem settings_snapshot {s : State} (hsettings : s.session.settings = none)
    (hrecord : s.session.settingsRecord = none) {ops : List Operation} (hops : AllProper s ops) :
    (∃ history, History s ops history) ∧
      ∀ history, History s ops history → Snapshot s.session.environment [] history := by
  have hshows : s.store.ShowsSettings s.session := by
    intro id hid
    rw [hrecord] at hid
    cases hid
  exact ⟨exists_history hops,
    fun _ h ↦ snapshot_of_history ⟨Session.agrees_nil hsettings, hshows⟩ hops h⟩

/-- The settings are read by the creation that is refused, so that they are as they were then when
they are asked for, until they are forgotten. -/
theorem settings_snapshot_withCrate :
    let ops : List Operation := [.setVariable .logViolations (some "yes"),
      .other (.create (.defined 1) [.dictionary (.cell 2)] [("weight", .text "heavy")]),
      .setVariable .logViolations none]
    let s := ops.foldl (fun s op ↦ after op.run s) withCrate
    (∃ history, History withCrate (ops ++ [.getSettings, .resetSettings, .getSettings]) history ∧
      Snapshot ⟨none, none⟩ [] history) ∧
    handedOut sharedSettings s = .ok (Settings.attributes ⟨.element, true⟩) ∧
    handedOut sharedSettings (after Operation.resetSettings.run (after sharedSettings s)) =
      .ok (Settings.attributes ⟨.element, false⟩) := by
  intro ops s
  have hvalidated : (after (Operation.setVariable .logViolations (some "yes")).run
      withCrate).store.nature (.defined 1) = .validated := by decide +kernel
  have hproper : AllProper withCrate (ops ++ [.getSettings, .resetSettings, .getSettings]) :=
    ⟨trivial, hvalidated, trivial, trivial, trivial, trivial, trivial⟩
  obtain ⟨⟨history, hhistory⟩, hsnapshot⟩ := settings_snapshot rfl rfl hproper
  exact ⟨⟨history, hhistory, hsnapshot history hhistory⟩, eq_ok_of_toOption (by decide +kernel),
    eq_ok_of_toOption (by decide +kernel)⟩

def withPolicyField : State where
  store :=
    { Store.initial with
      dictionaries := ⟨#[[], [(.text "union_array_messages", .object (.builtin .field) ⟨2⟩)],
        [(.text "union_array_messages", .text "generic")]]⟩
      objects := ⟨#[⟨"", [(.text "_fields", .mappingView (.cell 0))]⟩,
        ⟨"", [(.text "target", .ofClass (.builtin .text))]⟩,
        ⟨"", [(.text "constraint", .object (.builtin .typeConstraint) ⟨1⟩),
          (.text "allow_nil", .bool false), (.text "name", .text "union_array_messages")]⟩,
        ⟨"", [(.text "_fields", .mappingView (.cell 1))]⟩]⟩ }
  session := .initial

/-- An assignment to the record of the settings is seen by all who ask for the settings later. -/
theorem not_settings_snapshot :
    let record := Value.object (.builtin .settings) ⟨4⟩
    let ops : List Operation := [.getSettings,
      .other (.assign (.object (.builtin .fieldRegistry) ⟨3⟩) record (.dictionary (.cell 2)) .nil),
      .getSettings]
    ∃ history, History withPolicyField ops history ∧ ¬ Snapshot ⟨none, none⟩ [] history := by
  intro record ops
  let u : Activity :=
    .assign (.object (.builtin .fieldRegistry) ⟨3⟩) record (.dictionary (.cell 2)) .nil
  let s₁ := after Operation.getSettings.run withPolicyField
  let s₂ := after u.run s₁
  have hfirst : handedOut sharedSettings withPolicyField =
      .ok (Settings.attributes ⟨.element, false⟩) := eq_ok_of_toOption (by decide +kernel)
  have hlast : handedOut sharedSettings s₂ = .ok (Settings.attributes ⟨.generic, false⟩) :=
    eq_ok_of_toOption (by decide +kernel)
  obtain ⟨rs, hreads⟩ := Activity.exists_reads (u := u) (s := s₁) nofun
  have hget (s : State) : Operation.getSettings.Yields s [.read (handedOut sharedSettings s)] := rfl
  have hassign : (Operation.other u).Yields s₁ (rs.map .read) := ⟨rs, hreads, rfl⟩
  have hhistory : History withPolicyField ops
      (.read (handedOut sharedSettings withPolicyField) ::
        (rs.map .read ++ [.read (handedOut sharedSettings s₂)])) :=
    .cons (hget _) (.cons hassign (.cons (hget _) (.nil _)))
  refine ⟨_, hhistory, fun hsnapshot ↦ ?_⟩
  rw [hfirst, hlast] at hsnapshot
  obtain ⟨hkept, -⟩ := hsnapshot
    (.read (.ok (Settings.attributes ⟨.element, false⟩)) :: rs.map .read)
    (.read (.ok (Settings.attributes ⟨.generic, false⟩))) [] rfl
  have hread : FirstRead (.read (.ok (Settings.attributes ⟨.element, false⟩)) :: rs.map .read) []
      (Settings.attributes ⟨.element, false⟩) := by
    refine ⟨⟨rs.map .read, rfl, by simp⟩, ?_⟩
    rintro b ⟨before, between, heq, -⟩
    simp at heq
  obtain ⟨hsame, -⟩ := hkept [] _ hread
  have hdiffer : Settings.attributes ⟨.generic, false⟩ ≠ Settings.attributes ⟨.element, false⟩ := by
    decide +kernel
  exact hdiffer (Except.ok.inj hsame)

end Conformance
