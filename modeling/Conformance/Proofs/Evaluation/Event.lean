import Conformance.Proofs.Run
import Conformance.Evaluator

namespace Conformance

/-- What an evaluation does besides answering. -/
inductive Event
  | called (call : Call)
  | recorded (r : Record)
  | consulted

namespace Session

def settingsInForce (s : Session) : Except Fault Settings :=
  match s.settings with
  | some settings => pure settings
  | none => Settings.parse s.environment

def loaded (s : Session) : Session :=
  match s.settings, Settings.parse s.environment with
  | none, .ok settings => { s with
    settings := some settings, journal := s.journal ++ [.record (.settingsLoaded settings)] }
  | _, _ => s

/-- A session after an event in the evaluation of an evaluator. -/
def perform (ev : Evaluator) (s : Session) : Event → Session
  | .called call => { s with calls := s.calls ++ [call] }
  | .recorded r => { s with journal := s.journal ++ [.record r] }
  | .consulted => match ev.policy? with
    | .ok none => s.loaded
    | _ => s

def performAll (ev : Evaluator) (s : Session) (events : List Event) : Session :=
  events.foldl (perform ev) s

variable (ev : Evaluator) (s : Session)

@[simp] theorem performAll_nil : s.performAll ev [] = s := rfl

@[simp] theorem performAll_cons (e : Event) (es : List Event) :
    s.performAll ev (e :: es) = (s.perform ev e).performAll ev es := rfl

@[simp] theorem performAll_append (es fs : List Event) :
    s.performAll ev (es ++ fs) = (s.performAll ev es).performAll ev fs := List.foldl_append

theorem performAll_called (calls : List Call) :
    s.performAll ev (calls.map .called) = { s with calls := s.calls ++ calls } := by
  induction calls generalizing s with
  | nil => simp
  | cons call calls ih => simp [perform, ih]

@[simp] theorem settingsInForce_loaded : s.loaded.settingsInForce = s.settingsInForce := by
  unfold loaded
  split
  · next h hp => simp only [settingsInForce, h, hp]; rfl
  · rfl

@[simp] theorem settingsRecord_loaded : s.loaded.settingsRecord = s.settingsRecord := by
  unfold loaded
  split <;> rfl

variable {s}

theorem loaded_of_some {settings : Settings} (h : s.settings = some settings) : s.loaded = s := by
  unfold loaded
  rw [h]

theorem loaded_of_error {e : Fault} (h : Settings.parse s.environment = .error e) :
    s.loaded = s := by
  unfold loaded
  rw [h]
  cases s.settings <;> rfl

theorem loaded_of_ok {settings : Settings} (h : s.settings = none)
    (hparse : Settings.parse s.environment = .ok settings) : s.loaded = { s with
      settings := some settings, journal := s.journal ++ [.record (.settingsLoaded settings)] } := by
  unfold loaded
  rw [h, hparse]

theorem loaded_of_force {e : Fault} (h : s.settingsInForce = .error e) : s.loaded = s := by
  unfold settingsInForce at h
  cases hs : s.settings with
  | some settings => exact loaded_of_some hs
  | none =>
    rw [hs] at h
    exact loaded_of_error h

theorem settings_loaded {settings : Settings} (h : s.settingsInForce = .ok settings) :
    s.loaded.settings = some settings := by
  unfold settingsInForce at h
  cases hs : s.settings with
  | some kept =>
    rw [hs] at h
    cases h
    rw [loaded_of_some hs, hs]
  | none =>
    rw [hs] at h
    rw [loaded_of_ok hs h]

end Session

theorem readSettings_run {s : Session} {settings : Settings}
    (h : Settings.parse s.environment = .ok settings) :
    readSettings s = .ok settings
      { s with journal := s.journal ++ [.record (.settingsLoaded settings)] } := by
  rw [readSettings, bind_of_ok (get_run s), bind_of_ok (Check.ofExcept_run h s)]
  rfl

theorem readSettings_error {s : Session} {e : Fault} (h : Settings.parse s.environment = .error e) :
    readSettings s = .error e s := by
  rw [readSettings, bind_of_ok (get_run s), h]
  rfl

theorem currentSettings_run {s : Session} {settings : Settings}
    (h : s.settingsInForce = .ok settings) : currentSettings s = .ok settings s.loaded := by
  rw [currentSettings, bind_of_ok (get_run s)]
  unfold Session.settingsInForce at h
  unfold Session.loaded
  cases hs : s.settings with
  | some x =>
    simp only [hs] at h ⊢
    cases h
    rfl
  | none =>
    simp only [hs] at h ⊢
    simp only [h]
    rw [bind_of_ok (readSettings_run h)]
    rfl

theorem currentSettings_error {s : Session} {e : Fault} (h : s.settingsInForce = .error e) :
    currentSettings s = .error e s := by
  rw [currentSettings, bind_of_ok (get_run s)]
  unfold Session.settingsInForce at h
  cases hs : s.settings with
  | some settings => simp only [hs] at h; cases h
  | none =>
    simp only [hs] at h ⊢
    exact bind_of_error (readSettings_error h)

namespace Session

structure SameSettings (s t : Session) : Prop where
  inForce : t.settingsInForce = s.settingsInForce
  settingsRecord : t.settingsRecord = s.settingsRecord

theorem SameSettings.refl (s : Session) : SameSettings s s := ⟨rfl, rfl⟩

theorem SameSettings.trans {s t u : Session} (h : SameSettings s t) (h' : SameSettings t u) :
    SameSettings s u :=
  ⟨h'.inForce.trans h.inForce, h'.settingsRecord.trans h.settingsRecord⟩

theorem sameSettings_loaded (s : Session) : SameSettings s s.loaded :=
  ⟨s.settingsInForce_loaded, s.settingsRecord_loaded⟩

theorem sameSettings_perform (ev : Evaluator) (s : Session) (e : Event) :
    SameSettings s (s.perform ev e) := by
  cases e with
  | called call => exact ⟨rfl, rfl⟩
  | recorded r => exact ⟨rfl, rfl⟩
  | consulted =>
    simp only [perform]
    split
    · exact s.sameSettings_loaded
    · exact .refl s

theorem sameSettings_performAll (ev : Evaluator) (s : Session) (es : List Event) :
    SameSettings s (s.performAll ev es) := by
  induction es generalizing s with
  | nil => exact .refl s
  | cons e es ih => exact (s.sameSettings_perform ev e).trans (ih (s.perform ev e))

end Session

namespace Store

variable (st : Store)

def settingIn {α : Type} (part : String) (asRead : Settings → α)
    (asRecorded : Value → Except Fault α) (s : Session) : Except Fault α := do
  let settings ← s.settingsInForce
  match s.settingsRecord with
  | none => return asRead settings
  | some id => st.attributeOf (.object (.builtin .settings) id) part >>= asRecorded

def policyIn (ev : Evaluator) (s : Session) : Except Fault Policy := do
  match ← ev.policy? with
  | some p => return p
  | none => st.settingIn "union_array_messages" Settings.policy (fun v ↦ pure (policyOf v)) s

def severityIn (s : Session) : Except Fault Severity := do
  let logging ← st.settingIn "log_violations" Settings.logViolations st.isTrue s
  return if logging then .warning else .debug

variable {st} {s t : Session}

theorem settingIn_of_sameSettings (h : s.SameSettings t) {α : Type} (part : String)
    (asRead : Settings → α) (asRecorded : Value → Except Fault α) :
    st.settingIn part asRead asRecorded t = st.settingIn part asRead asRecorded s := by
  rw [settingIn, h.inForce, h.settingsRecord, settingIn]

theorem policyIn_of_sameSettings (h : s.SameSettings t) (ev : Evaluator) :
    st.policyIn ev t = st.policyIn ev s := by
  rw [policyIn, settingIn_of_sameSettings h, policyIn]

theorem severityIn_of_sameSettings (h : s.SameSettings t) : st.severityIn t = st.severityIn s := by
  rw [severityIn, settingIn_of_sameSettings h, severityIn]

theorem setting_run {α : Type} {part : String} {asRead : Settings → α}
    {asRecorded : Value → Except Fault α} {a : α}
    (h : st.settingIn part asRead asRecorded s = .ok a) :
    st.setting part asRead asRecorded s = .ok a s.loaded := by
  obtain ⟨settings, hs, h⟩ := answer_of_bind h
  rw [setting, bind_of_ok (currentSettings_run hs), bind_of_ok (get_run s.loaded),
    Session.settingsRecord_loaded]
  cases hr : s.settingsRecord with
  | none => rw [hr] at h; cases h; rfl
  | some id => rw [hr] at h; exact Check.ofExcept_run h _

theorem setting_error {α : Type} {part : String} {asRead : Settings → α}
    {asRecorded : Value → Except Fault α} {e : Fault}
    (h : st.settingIn part asRead asRecorded s = .error e) :
    st.setting part asRead asRecorded s = .error e s.loaded := by
  cases hs : s.settingsInForce with
  | error e' =>
    rw [settingIn, hs] at h
    cases h
    rw [Session.loaded_of_force hs]
    exact bind_of_error (currentSettings_error hs)
  | ok settings =>
    rw [settingIn, hs] at h
    rw [setting, bind_of_ok (currentSettings_run hs), bind_of_ok (get_run s.loaded),
      Session.settingsRecord_loaded]
    cases hr : s.settingsRecord with
    | none => rw [hr] at h; cases h
    | some id =>
      rw [hr] at h
      have hrecorded : st.attributeOf (.object (.builtin .settings) id) part >>= asRecorded =
          .error e := h
      simp only [hrecorded]
      rfl

theorem policyFor_run {ev : Evaluator} {p : Policy} (h : st.policyIn ev s = .ok p) :
    st.policyFor ev s = .ok p (s.perform ev .consulted) := by
  obtain ⟨p?, hp, h⟩ := answer_of_bind h
  rw [policyFor, bind_of_ok (Check.ofExcept_run hp s), Session.perform, hp]
  cases p? with
  | some q => cases h; rfl
  | none => exact setting_run h

theorem severityInForce_run {severity : Severity} (h : st.severityIn s = .ok severity) :
    st.severityInForce s = .ok severity s.loaded := by
  obtain ⟨logging, hlogging, h⟩ := answer_of_bind h
  cases h
  rw [severityInForce, bind_of_ok (setting_run hlogging)]
  rfl

end Store

end Conformance
