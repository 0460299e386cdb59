import Conformance.Action

namespace Conformance

/-- What is to be built: nothing but the constraint that is given, or a new one. -/
inductive Blueprint
  | given (constraint : Value)
  | type (target : Value)
  | literals (values : List Value)
  | array (element : Blueprint)
  | union (branches : List Blueprint)

namespace Store

variable (st : Store)

def typeBlueprint (target : Value) : Except Fault Blueprint :=
  match target with
  | .ofClass _ => pure (.type target)
  | v => do throw (.notAClass (← st.written v))

def shorthandWithin : Nat → Value → Except Fault Blueprint
  | 0, _ => throw .tooDeep
  | depth + 1, spec =>
    if st.isConstraint spec then pure (.given spec)
    else match spec.plain with
      | .ofClass c => pure (.type (.ofClass c))
      | .list id =>
        match st.items id with
        | [element] => return .array (← shorthandWithin depth element)
        | items => throw (.shorthandSize items.length)
      | _ => do throw (.notAShorthand (← st.written spec))

/-- The constraint of a shorthand. Lists that do not hold themselves are nested at most as deep as
there are lists. -/
def shorthand (spec : Value) : Except Fault Blueprint :=
  st.shorthandWithin (st.lists.size + 1) spec

def arrayBlueprint (element : Value) : Except Fault Blueprint :=
  return .array (← st.shorthand element)

end Store

def literalBlueprint (literals : List Value) : Except Fault Blueprint :=
  if literals.isEmpty then throw .noLiterals else pure (.literals literals)

namespace Store

variable (st : Store)

/-- Whether a value in a union stands for a constraint rather than for itself. -/
def standsForConstraint (spec : Value) : Bool :=
  st.isConstraint spec || match spec.plain with
    | .ofClass _ | .list _ => true
    | _ => false

end Store

/-- A union that is being read: its branches, and the literals since the last of them, which are to be
a branch of their own. -/
structure UnionReading where
  branches : List Blueprint
  literals : List Value

def UnionReading.close (u : UnionReading) : Except Fault (List Blueprint) :=
  if u.literals.isEmpty then pure u.branches
  else return u.branches ++ [← literalBlueprint u.literals]

namespace Store

variable (st : Store)

def addBranch (u : UnionReading) (spec : Value) : Except Fault UnionReading :=
  if st.standsForConstraint spec then
    return { branches := (← u.close) ++ [← st.shorthand spec], literals := [] }
  else pure { u with literals := u.literals ++ [spec] }

/-- The union of shorthands and literals. Each run of literals is one branch, at the place where
the run starts. -/
def unionBlueprint (specs : List Value) : Except Fault Blueprint :=
  if specs.isEmpty then throw .noBranches
  else return .union (← (← specs.foldlM st.addBranch ⟨[], []⟩).close)

end Store

namespace Action

def newType (target : Value) : Action Value :=
  newObject (.builtin .typeConstraint) [(.text "target", target)]

def newLiterals (literals : List Value) : Action Value :=
  newObject (.builtin .literalConstraint) [(.text "values", .tuple literals)]

def newArray (element : Value) : Action Value :=
  newObject (.builtin .arrayConstraint) [(.text "element", element)]

def newUnion (branches : List Value) : Action Value :=
  newObject (.builtin .unionConstraint) [(.text "branches", .tuple branches)]

mutual
def build : Blueprint → Action Value
  | .given c => pure c
  | .type target => newType target
  | .literals values => newLiterals values
  | .array element => do newArray (← build element)
  | .union branches => do newUnion (← buildAll branches)
termination_by structural b => b
def buildAll : List Blueprint → Action (List Value)
  | [] => pure []
  | b :: bs => return (← build b) :: (← buildAll bs)
termination_by structural bs => bs
end

def built (read : Store → Except Fault Blueprint) : Action Value := do build (← ask read)

def literalsFrom (values : Value) : Action Value := do newLiterals (← ask (·.iterate values))

def unionFrom (branches : Value) : Action Value := do
  if ← ask (·.isTrue branches) then newUnion (← ask (·.iterate branches))
  else throw .noBranches

end Action

end Conformance
