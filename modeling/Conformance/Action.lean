import Conformance.Session
import Conformance.Store.Collection

namespace Conformance

structure State where
  store : Store
  session : Session

def State.initial : State := ⟨.initial, .initial⟩

/-- What may change the store. An action that fails leaves behind what it did before it failed. -/
abbrev Action := EStateM Fault State

namespace Action

variable {α : Type}

def check (c : Store → Check α) : Action α := fun s ↦
  match c s.store s.session with
  | .ok a t => .ok a { s with session := t }
  | .error e t => .error e { s with session := t }

def ask (q : Store → Except Fault α) : Action α := fun s ↦
  match q s.store with
  | .ok a => .ok a s
  | .error e => .error e s

def update (f : Store → Store) : Action Unit := modify fun s ↦ { s with store := f s.store }

def attempt (f : Store → Except Fault Store) : Action Unit := do
  let store ← ask f
  update fun _ ↦ store

def create (f : Store → α × Store) : Action α := modifyGet fun s ↦
  let (a, store) := f s.store
  (a, { s with store })

def record (r : Record) : Action Unit := check fun _ ↦ Check.record r

def listOf (vs : List Value) : Action Value := return .list (← create (·.newList vs))

def newObject (c : ClassId) (attributes : Entries Value Value) : Action Value :=
  return .object c (← create (·.newObject ⟨"", attributes⟩))

def newSettings (unionArrayMessages logViolations : Value) : Action Value :=
  newObject (.builtin .settings)
    [ (.text "union_array_messages", unionArrayMessages), (.text "log_violations", logViolations) ]

def loadSettings : Action Value := do
  newObject (.builtin .settings) (← check fun _ ↦ readSettings).attributes

def sharedSettings : Action Value := do
  let settings ← check fun _ ↦ currentSettings
  match (← get).session.settingsRecord with
  | some id => return .object (.builtin .settings) id
  | none =>
    let id ← create (·.newObject ⟨"", settings.attributes⟩)
    modify fun s ↦ { s with session := { s.session with settingsRecord := some id } }
    return .object (.builtin .settings) id

end Action

end Conformance
