import Conformance.Access

namespace Conformance

def Violation.attributes (v : Violation) : Entries Value Value :=
  [ (.text "attribute", v.name), (.text "constraint", v.constraint), (.text "actual", v.actual),
    (.text "message", .text v.message) ]

namespace Store

variable (st : Store)

def outcomeReason (typeName : String) (result : Value) : Except Fault String := do
  let violations ← st.iterate (← st.attributeOf result "violations")
  let messages ← violations.mapM fun v ↦ do st.displayed (← st.messageOf v)
  return failureReason typeName messages

def shareViolations (v w : Value) : Bool :=
  match (st.attributeOf v "violations").map Value.plain,
    (st.attributeOf w "violations").map Value.plain with
  | .ok (.list i), .ok (.list j) => i == j
  | _, _ => false

end Store

namespace Action

def newOutcome (valid violations : Value) : Action Value :=
  newObject (.builtin .result) [(.text "valid", valid), (.text "violations", violations)]

def outcomeOf (violations : List Violation) : Action Value := do
  let vs ← violations.mapM fun v ↦ newObject (.builtin .violation) v.attributes
  newOutcome (.bool violations.isEmpty) (← listOf vs)

def extendOutcome (result violation : Value) : Action Unit := do
  ask (·.offers result "add" (some violation))
  attempt (·.writeAttribute result "valid" (.bool false))
  let violations ← check (·.read result "violations")
  attempt (·.append violations violation)

def add (collection v : Value) : Action Unit := do
  if ← ask fun st ↦ pure (st.natureOf collection == .record .result) then
    extendOutcome collection v
  else
    ask (·.offers collection "add" (some v))
    attempt (·.addMember collection v)

/-- Adds the violations of another outcome; the sum is valid if both are. A list cannot be appended
to itself member by member: as it grows, there is always one more to append. -/
def merge (result other : Value) : Action Unit := do
  ask (·.offers result "merge" (some other))
  let new ← ask (·.iterate (← check (·.read other "violations")))
  if ← ask fun st ↦ pure (!new.isEmpty && st.shareViolations result other) then throw .unending
  new.forM (extendOutcome result)
  let valid ← check (·.read result "valid")
  if ← ask (·.isTrue valid) then
    attempt (·.writeAttribute result "valid" (← check (·.read other "valid")))
  else attempt (·.writeAttribute result "valid" valid)

def reason (typeName result : Value) : Action String := do
  let typeName ← ask (·.displayed typeName)
  ask (·.outcomeReason typeName result)

end Action

end Conformance
