import Conformance.Settings
import Conformance.Store.Written

namespace Conformance

def failureReason (typeName : String) (messages : List String) : String :=
  "\n".intercalate (s!"Validation failed for {typeName}:" :: messages.map (" - " ++ ·))

inductive Severity
  | debug | warning
  deriving DecidableEq

inductive Record
  | settingsLoaded (s : Settings)
  | fieldsRegistered (className : String) (names : List String)
  | fieldDeclared (className name constraint : String)
  | unknownRejected (typeName : String) (names : List String)
  | validationFailed (severity : Severity) (reason : String)
  | elementsMismatch (label : String) (indexes : List Nat) (element : String)
  deriving DecidableEq

namespace Record

def channel : Record → String
  | settingsLoaded _ => "validated_object.config"
  | fieldsRegistered .. => "validated_object.fields"
  | fieldDeclared .. => "validated_object.base"
  | unknownRejected .. | validationFailed .. => "validated_object.runtime.construction"
  | elementsMismatch .. => "validated_object.validation.constraints"

def severity : Record → Severity
  | validationFailed severity _ => severity
  | _ => .debug

def message : Record → String
  | settingsLoaded s =>
    "Loaded settings: " ++ recordText Builtin.settings.name
      [ ("union_array_messages", Text.quote s.policy.name),
        ("log_violations", boolText s.logViolations) ]
  | fieldsRegistered className names =>
    s!"Registered fields for {className}: {commaSeparated names}"
  | fieldDeclared className name constraint => s!"Declared {className}.{name} as {constraint}"
  | unknownRejected typeName names =>
    s!"Rejected unknown attributes for {typeName}: " ++
      s!"[{commaSeparated (names.map Text.quote)}]"
  | validationFailed _ reason => reason
  | elementsMismatch label indexes element =>
    s!"{label}: element(s) at index {commaSeparated (indexes.map toString)} do not match {element}"

end Record

/-- What a run reports besides its results: log records, typed by what they report, and counts. -/
inductive Entry
  | record (r : Record)
  | created (typeName : Value) (valid : Bool)
  | violated (typeName name : Value)
  deriving DecidableEq

/-- The counters' account of one creation: one count of the creation, then one of each
violation. -/
def creationEntries (typeName : Value) (violated : List Value) : List Entry :=
  .created typeName violated.isEmpty :: violated.map (.violated typeName)

end Conformance
