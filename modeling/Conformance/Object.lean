import Conformance.Class.Definition
import Conformance.Outcome

namespace Conformance

namespace Action

def classWith (v : Value) (operation : String) : Action ClassId := do
  ask (·.hasOperation v operation)
  match v with
  | .ofClass c => return c
  | v => ask fun st ↦ pure (st.typeOf v)

/-- Nothing, if a value is an object that has an operation under a name. A class has it as well, but
is no object of itself. -/
def requireObject (v : Value) (operation : String) : Action Unit := do
  ask (·.hasOperation v operation)
  match v with
  | .ofClass _ => throw (.noSubject operation)
  | _ => pure ()

def declareOn (v : Value) (operation : String) (name spec elementType : Value) (allowNil : Bool) :
    Action Value := do
  let c ← classWith v operation
  let field ← verboseField spec elementType allowNil
  declare c name field
  return field

def registryOf (v : Value) : Action Value := do
  let c ← classWith v "fields"
  ask (·.registry c)

def revalidate (v : Value) : Action Value := do
  requireObject v "validate"
  outcomeOf (← check (·.objectViolations v))

def report (v : Value) : Action Value := do
  requireObject v "to_dict"
  return .dictionary (← create (·.newDictionary (← ask (·.declared v))))

end Action

end Conformance
