import Conformance.Constraint
import Conformance.Journal

namespace Conformance

inductive Method
  | diagnose | accept
  deriving DecidableEq

def Method.name : Method → String
  | diagnose => "evaluate"
  | accept => "matches"

structure Call where
  method : Method
  constraint : Constraint

/-- The settings are kept from the first time that they are read. The record that shows them to
others is made when it is first asked for. -/
structure Session where
  environment : Environment
  settings : Option Settings
  settingsRecord : Option ObjectId
  journal : List Entry
  calls : List Call

def Session.initial : Session where
  environment := ⟨none, none⟩
  settings := none
  settingsRecord := none
  journal := []
  calls := []

/-- What checks do: they read the store, and change the session only. -/
abbrev Check := EStateM Fault Session

namespace Check

def ofExcept {α : Type} : Except Fault α → Check α
  | .ok a => pure a
  | .error e => throw e

def note (e : Entry) : Check Unit := modify fun s ↦ { s with journal := s.journal ++ [e] }

def noteAll (es : List Entry) : Check Unit := modify fun s ↦ { s with journal := s.journal ++ es }

def record (r : Record) : Check Unit := note (.record r)

def called (method : Method) (c : Constraint) : Check Unit :=
  modify fun s ↦ { s with calls := s.calls ++ [⟨method, c⟩] }

end Check

def setVariable (v : Variable) (text : Option String) : Check Unit :=
  modify fun s ↦ { s with environment := s.environment.set v text }

def readSettings : Check Settings := do
  let settings ← Check.ofExcept (Settings.parse (← get).environment)
  Check.record (.settingsLoaded settings)
  return settings

/-- The settings as they were first read. Settings that cannot be read are not kept. -/
def currentSettings : Check Settings := do
  match (← get).settings with
  | some settings => return settings
  | none =>
    let settings ← readSettings
    modify fun s ↦ { s with settings := some settings }
    return settings

def forgetSettings : Check Unit :=
  modify fun s ↦ { s with settings := none, settingsRecord := none }

namespace Store

variable (st : Store)

/-- A setting that is in force: as first read, or as the record of the settings has it since. -/
def setting {α : Type} (part : String) (asRead : Settings → α)
    (asRecorded : Value → Except Fault α) : Check α := do
  let settings ← currentSettings
  match (← get).settingsRecord with
  | none => return asRead settings
  | some id =>
    let v := Value.object (.builtin .settings) id
    Check.ofExcept (st.attributeOf v part >>= asRecorded)

def policyOf (v : Value) : Policy :=
  if v == .text Policy.element.name then .element else .generic

def policyInForce : Check Policy :=
  st.setting "union_array_messages" Settings.policy fun v ↦ pure (policyOf v)

def policyValueInForce : Check Value :=
  st.setting "union_array_messages" (fun s ↦ .text s.policy.name) pure

def severityInForce : Check Severity := do
  let logging ← st.setting "log_violations" Settings.logViolations st.isTrue
  return if logging then .warning else .debug

end Store

end Conformance
