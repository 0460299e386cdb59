import Conformance.Shorthand

namespace Conformance

namespace Action

def newField (constraint : Value) (allowNil : Bool) : Action Value :=
  newObject (.builtin .field)
    [ (.text "constraint", constraint), (.text "allow_nil", .bool allowNil), (.text "name", .nil) ]

def fieldOf (constraint : Value) (allowNil : Bool) : Action Value := do
  if ← ask fun st ↦ pure (st.isConstraint constraint) then newField constraint allowNil
  else throw (.notAConstraint (← ask (·.written constraint)))

def shorthandField (spec : Value) (allowNil : Bool) : Action Value := do
  newField (← built (·.shorthand spec)) allowNil

end Action

def isArrayClass : Value → Bool
  | .ofClass (.builtin .list) | .ofClass (.builtin .tuple) => true
  | _ => false

namespace Action

def verboseField (spec elementType : Value) (allowNil : Bool) : Action Value :=
  match elementType with
  | .nil => shorthandField spec allowNil
  | element => do
    if isArrayClass spec then newField (← built (·.arrayBlueprint element)) allowNil
    else throw (.notAnArrayType (← ask (·.written spec)))

end Action

def Store.registryFrom (st : Store) (pairs : Value) : Except Fault (Entries Value Value) := do
  (← st.iterate pairs).foldlM (fun es p ↦ do
    let (name, field) ← st.pair p
    st.hash name
    return st.putAt es name field) []

def Action.newRegistry (es : Entries Value Value) : Action Value := do
  let id ← create (·.newDictionary es)
  newObject (.builtin .fieldRegistry) [(.text "_fields", .mappingView id)]

end Conformance
