import Conformance.Wording
import Conformance.Session
import Conformance.Store.Collection

namespace Conformance

/-- An evaluator has a policy of its own or leaves it to the settings. It calls its operations by
name, as long as it has them. -/
structure Evaluator where
  policy? : Except Fault (Option Policy)
  offers : String → Except Fault Unit

def Evaluator.ofPolicy (policy? : Option Policy) : Evaluator := ⟨pure policy?, fun _ ↦ pure ()⟩

def Evaluator.shared : Evaluator := .ofPolicy none

/-- What the evaluator is that judges, or why there is none. The outer fault shows as soon as it is
asked for its operation, the inner one only when it is called. -/
abbrev Judge := Except Fault (Except Fault Evaluator)

def Judge.of (ev : Evaluator) : Judge := .ok (.ok ev)

def Evaluator.call (ev : Evaluator) (method : Method) (c : Constraint) : Check Unit := do
  Check.ofExcept (ev.offers method.name)
  Check.called method c

def isBlankByte (b : UInt8) : Bool := b == 32 || (9 ≤ b && b ≤ 13)

namespace Store

variable (st : Store)

def policyNamed (v : Value) : Except Fault Policy := do
  let unknown := do throw (.unknownPolicy (← st.displayed v))
  if v matches .nil then return .default
  st.offers v "strip" none
  match v.text?, st.bytes? v with
  | some s, _ => match Policy.read? s with
    | some p => pure p
    | none => unknown
  | none, some data => if data.all isBlankByte then pure .default else unknown
  | none, none => st.refusal v "strip"

def ownPolicy (v : Value) : Except Fault (Option Policy) :=
  match v with
  | .nil => pure none
  | v => return some (← st.policyNamed v)

def policyFor (ev : Evaluator) : Check Policy := do
  match ← Check.ofExcept ev.policy? with
  | some p => return p
  | none => st.policyInForce

mutual
def isOf (v : Value) : Value → Except Fault Bool
  | .ofClass c => pure (st.inherits (st.typeOf v) c)
  | .tuple targets => isOfAny v targets
  | .derived _ target _ => match target with
    | .tuple targets => isOfAny v targets
    | _ => throw .notATypeTarget
  | _ => throw .notATypeTarget
termination_by structural target => target
def isOfAny (v : Value) : List Value → Except Fault Bool
  | [] => pure false
  | target :: targets => do
    if ← isOf v target then return true else isOfAny v targets
termination_by structural targets => targets
end

/-- Whether a value has a type. The two booleans have the types `bool` and `Boolean` and no other
number has; they are not integers here. Lists and tuples are one type. -/
def hasType (target v : Value) : Except Fault Bool :=
  let isBool := st.inherits (st.typeOf v) (.builtin .boolean)
  match target with
  | .ofClass (.builtin .boolean) | .ofClass (.builtin .booleanMarker) => pure isBool
  | .ofClass (.builtin .list) | .ofClass (.builtin .tuple) => pure (st.arrayItems? v).isSome
  | .ofClass (.builtin .integer) =>
    if isBool then pure false else st.isOf v target
  | target => st.isOf v target

def isAnyLiteral (literals : List Value) (v : Value) : Except Fault Bool :=
  literals.anyM fun literal ↦ st.isLiteral v literal

mutual
def accepts (ev : Evaluator) : Constraint → Value → Check Bool
  | c@(.type target), v => do
    ev.call .accept c
    Check.ofExcept (st.hasType target v)
  | c@(.literals literals), v => do
    ev.call .accept c
    Check.ofExcept (st.isAnyLiteral literals v)
  | c@(.array element), v => do
    ev.call .accept c
    match st.arrayItems? v with
    | none => return false
    | some items =>
      Check.ofExcept (ev.offers "offending_indexes")
      let verdicts ← items.mapM fun item ↦ accepts ev element item
      return verdicts.all id
  | c@(.union branches), v => do
    ev.call .accept c
    let verdicts ← acceptsEach ev branches v
    return verdicts.any id
  | c@(.refused fault), _ => do
    ev.call .accept c
    throw fault
termination_by structural c => c
def acceptsEach (ev : Evaluator) : List Constraint → Value → Check (List Bool)
  | [], _ => return []
  | c :: cs, v => return (← accepts ev c v) :: (← acceptsEach ev cs v)
termination_by structural cs => cs
end

def mismatches (ev : Evaluator) (element : Constraint) (items : List Value) :
    Check (List Nat) := do
  let verdicts ← items.mapM fun item ↦ st.accepts ev element item
  return (verdicts.zipIdx.filter fun e ↦ !e.1).map (·.2)

end Store

/-- The array branch to which the failure of an array is attributed: the first one, where a union
among the branches counts as its branches. -/
def Constraint.firstArray? : Constraint → Option Constraint
  | .array element => some element
  | .union branches => firstArrayOf? branches
  | _ => none
where
  firstArrayOf? : List Constraint → Option Constraint
    | [] => none
    | c :: cs => match c.firstArray? with
      | some element => some element
      | none => firstArrayOf? cs

/-- A diagnostic that rejects one type, as a diagnostic that rejects a list of alternatives. -/
def withAlternatives (subject diagnostic : String) : String :=
  let lead := subject ++ ", not a "
  if lead.toList.isPrefixOf diagnostic.toList then
    subject ++ ", not one of " ++ String.ofList (diagnostic.toList.drop lead.length)
  else diagnostic

namespace Store

variable (st : Store)

def subject (v : Value) (label : String) : String := s!"{label} is a {st.kindName v}"

def notA (v : Value) (label expected : String) : String :=
  st.subject v label ++ ", not a " ++ expected

def notOneOf (v : Value) (label expected : String) : String :=
  st.subject v label ++ ", not one of " ++ expected

def wrongElements (label element : String) : String :=
  label ++ " Array contains non-" ++ element ++ " elements"

def arrayDiagnostic (ev : Evaluator) (element : Constraint) (v : Value) (label : String) :
    Check (Option String) := do
  Check.ofExcept (ev.offers "_evaluate_array")
  match st.arrayItems? v with
  | none => return some (st.notA v label "Array")
  | some items =>
    Check.ofExcept (ev.offers "offending_indexes")
    let offending ← st.mismatches ev element items
    if offending.isEmpty then return none
    let name ← Check.ofExcept (st.constraintName element)
    Check.record (.elementsMismatch label offending name)
    return some (wrongElements label name)

def unionDiagnostic (ev : Evaluator) (branches : List Constraint) (diagnostics : List String)
    (v : Value) (label : String) : Check String :=
  match branches, diagnostics with
  | [_], [diagnostic] => return withAlternatives (st.subject v label) diagnostic
  | branches, _ => do
    let policy ← st.policyFor ev
    let byElement :=
      if policy = .element ∧ (st.arrayItems? v).isSome then (Constraint.union branches).firstArray?
      else none
    match byElement with
    | some element => return wrongElements label (← Check.ofExcept (st.constraintName element))
    | none =>
      let names ← Check.ofExcept (branches.mapM st.constraintName)
      return st.notOneOf v label (commaSeparated names)

mutual
/-- Nothing if a value satisfies a constraint, otherwise a diagnostic that starts with the label. -/
def diagnose (ev : Evaluator) : Constraint → Value → String → Check (Option String)
  | c@(.type target), v, label => do
    ev.call .diagnose c
    if ← Check.ofExcept (st.hasType target v) then return none
    return some (st.notA v label (← Check.ofExcept (st.targetName target)))
  | c@(.literals literals), v, label => do
    ev.call .diagnose c
    if ← st.accepts ev c v then return none
    return some (st.notOneOf v label (← Check.ofExcept (st.literalNames literals)))
  | c@(.array element), v, label => do
    ev.call .diagnose c
    st.arrayDiagnostic ev element v label
  | c@(.union branches), v, label => do
    ev.call .diagnose c
    Check.ofExcept (ev.offers "_evaluate_union")
    let outcomes ← diagnoseEach ev branches v label
    if outcomes.any Option.isNone then return none
    return some (← st.unionDiagnostic ev branches (outcomes.filterMap id) v label)
  | c@(.refused fault), _, _ => do
    ev.call .diagnose c
    throw fault
termination_by structural c => c
def diagnoseEach (ev : Evaluator) :
    List Constraint → Value → String → Check (List (Option String))
  | [], _, _ => return []
  | c :: cs, v, label => return (← diagnose ev c v label) :: (← diagnoseEach ev cs v label)
termination_by structural cs => cs
end

def examine (ev : Evaluator) (c : Constraint) (v : Value) (label : String) :
    Check (Option String × Bool × String) := do
  let diagnostic ← st.diagnose ev c v label
  let verdict ← st.accepts ev c v
  return (diagnostic, verdict, ← Check.ofExcept (st.constraintName c))

/-- What a check answers, and the calls that it made, each with the name of its constraint. -/
def trace {α : Type} (c : Constraint) (check : Check α) :
    Check (α × List (Method × String)) := do
  let _ ← Check.ofExcept (st.constraintName c)
  let before := (← get).calls.length
  let answer ← check
  let calls ← Check.ofExcept <| ((← get).calls.drop before).mapM fun call ↦
    return (call.method, ← st.constraintName call.constraint)
  return (answer, calls)

def evaluatorOf (v : Value) : Evaluator where
  policy? := do
    match ← st.attributeOf v "_union_array_policy" with
    | .nil => return none
    | w => return some (policyOf w)
  offers := st.hasOperation v

/-- The judge that a value names for an operation: nil, or anything empty, names the shared
evaluator. -/
def judge (v : Value) (operation : String) : Except Fault Judge := do
  if ← st.isTrue v then
    return match st.attributeOf v operation with
    | .ok (.operation _) => .of (st.evaluatorOf v)
    | .ok w => .ok (.error (.notCallable (st.typeName w)))
    | .error e => .error e
  return .of .shared

def policyShown (v : Value) : Check Value := do
  match ← Check.ofExcept (st.attributeOf v "_union_array_policy") with
  | .nil => st.policyValueInForce
  | w => return w

end Store

end Conformance
