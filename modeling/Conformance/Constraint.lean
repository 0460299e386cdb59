import Conformance.Store.Collection

namespace Conformance

/-- What an evaluation sees of a constraint. As constraints can be built unchecked, anything may stand
where a class or a constraint is expected. -/
inductive Constraint
  | type (target : Value)
  | literals (values : List Value)
  | array (element : Constraint)
  | union (branches : List Constraint)
  | refused (fault : Fault)

instance : Inhabited Constraint := ⟨.literals []⟩

namespace Store

variable (st : Store)

def unsupported (v : Value) : Fault :=
  match st.written v with
  | .ok s => .unsupportedConstraint s
  | .error e => e

def constraintPart (v : Value) (part : String) (tree : Value → Except Fault Constraint) :
    Constraint :=
  match st.attributeOf v part >>= tree with
  | .ok c => c
  | .error e => .refused e

def constraintWithin : Nat → Value → Constraint
  | 0, _ => .refused .tooDeep
  | depth + 1, v =>
    match st.natureOf v with
    | .record .typeConstraint => st.constraintPart v "target" fun target ↦ pure (.type target)
    | .record .literalConstraint => st.constraintPart v "values" fun values ↦
      return .literals (← st.iterate values)
    | .record .arrayConstraint => st.constraintPart v "element" fun element ↦
      pure (.array (constraintWithin depth element))
    | .record .unionConstraint => st.constraintPart v "branches" fun branches ↦
      return .union ((← st.iterate branches).map (constraintWithin depth))
    | _ => .refused (st.unsupported v)

/-- The tree of a constraint. Constraints that do not hold themselves are nested at most as deep as
there are objects. -/
def constraint (v : Value) : Constraint := st.constraintWithin (st.objects.size + 1) v

end Store

end Conformance
