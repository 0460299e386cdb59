import Conformance.Validation

namespace Conformance

namespace Store

variable (st : Store)

def joined (vs : List Value) : Except Fault String := do
  let texts ← vs.zipIdx.mapM fun (v, i) ↦
    match v.text? with
    | some s => pure s
    | none => throw (.notJoinable i (st.typeName v))
  return "; ".intercalate texts

/-- What a violation says. Where an outcome stands in place of a violation, it is what the outcome
says, with outcomes nested less than `depth` deep. -/
def messageWithin : Nat → Value → Except Fault Value
  | 0, _ => throw .tooDeep
  | depth + 1, v => do
    match ← st.attributeOf v "message" with
    | .property .message =>
      let violations ← st.iterate (← st.attributeOf v "violations")
      return .text (← st.joined (← violations.mapM (messageWithin depth)))
    | message => return message

def messageOf (v : Value) : Except Fault Value := st.messageWithin (st.objects.size + 1) v

def isValid (v : Value) : Check Bool := do
  Check.ofExcept (st.offers v "validate" none)
  return (← st.objectViolations v).isEmpty

/-- What a value has under a name, computed if its class computes it. What it holds itself is shown as
it is, and a class has its properties as they are. -/
def read (v : Value) (name : String) : Check Value :=
  match v, st.classAttribute? (st.typeOf v) name with
  | .ofClass _, _ => Check.ofExcept (st.attributeOf v name)
  | v, some (.property .message) => Check.ofExcept (st.messageOf v)
  | v, some (.property .policy) => st.policyShown v
  | v, some (.property .validity) => return .bool (← st.isValid v)
  | v, _ => Check.ofExcept (st.attributeOf v name)

end Store

end Conformance
