import Conformance.Evaluator

namespace Conformance

namespace Store

variable (st : Store)

def attributeLabel (name : Value) : Except Fault String := do
  st.offers name "replace" (some (.text "_"))
  match name.text?, st.bytes? name with
  | some s, _ => return readableName s
  | none, some _ => throw (.notBytes Builtin.text.name)
  | none, none => st.refusal name "replace"

def passesUnseen (field value : Value) : Except Fault Bool :=
  match value with
  | .nil => do st.isTrue (← st.attributeOf field "allow_nil")
  | _ => pure false

def violation? (judge : Judge) (name field value : Value) : Check (Option Violation) := do
  if ← Check.ofExcept (st.passesUnseen field value) then return none
  let evaluator ← Check.ofExcept judge
  let constraint ← Check.ofExcept (st.attributeOf field "constraint")
  let label ← Check.ofExcept (st.attributeLabel name)
  let ev ← Check.ofExcept evaluator
  let message ← st.diagnose ev (st.constraint constraint) value label
  return message.map fun message ↦ ⟨name, constraint, value, message⟩

def violations (judge : Judge) (fields : Entries Value Value)
    (valueOf : Value → Except Fault Value) : Check (List Violation) := do
  let verdicts ← fields.mapM fun (name, field) ↦ do
    st.violation? judge name field (← Check.ofExcept (valueOf name))
  return verdicts.filterMap id

def registered (registry : Value) : Except Fault (Entries Value Value) := do
  st.offers registry "items" none
  st.entriesOf registry

def objectViolations (v : Value) : Check (List Violation) := do
  let fields ← Check.ofExcept (st.registry (st.typeOf v) >>= st.registered)
  st.violations (.of .shared) fields (st.givenBy (st.attributesOf v))

end Store

end Conformance
