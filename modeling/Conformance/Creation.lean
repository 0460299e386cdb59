import Conformance.Class.Definition
import Conformance.Outcome

namespace Conformance

structure Roster where
  knows : Value → Except Fault Bool
  names : Except Fault (List Value)
  fields : Except Fault (Entries Value Value)

structure Supply where
  names : Except Fault (List Value)
  valueOf : Value → Except Fault Value

namespace Store

variable (st : Store)

def roster (registry : Value) : Roster :=
  ⟨st.contains registry, st.iterate registry, st.registered registry⟩

def supply (attributes : Value) : Supply := ⟨st.iterate attributes, st.valueOrNil attributes⟩

def supplyOf (es : Entries Value Value) : Supply := ⟨pure es.keys, st.givenBy es⟩

def unknownNames (r : Roster) (names : List Value) : Except Fault (List String) := do
  let found ← names.mapM fun name ↦ do
    if ← r.knows name then return none else return some (← st.displayed name)
  return found.filterMap id

def rejectUnknown (typeName : String) (r : Roster) (s : Supply) : Check Unit := do
  let unknown ← Check.ofExcept (s.names >>= st.unknownNames r)
  unless unknown.isEmpty do
    Check.record (.unknownRejected typeName unknown)
    throw (.unknownAttributes typeName unknown)

def selected (r : Roster) (s : Supply) : Except Fault (Entries Value Value) := do
  (← r.names).foldlM (fun es name ↦ do
    let v ← s.valueOf name
    st.hash name
    return st.putAt es name v) []

/-- Counts a creation from the given values, and refuses it if a field fails. -/
def approve (judge : Judge) (typeName : String) (fields values : Entries Value Value) :
    Check Unit := do
  let violations ← st.violations judge fields (st.givenBy values)
  Check.noteAll (creationEntries (.text typeName) (violations.map (·.name)))
  unless violations.isEmpty do
    let reason := failureReason typeName (violations.map Violation.message)
    Check.record (.validationFailed (← st.severityInForce) reason)
    throw (.invalid typeName violations)

def acceptedValues (judge : Except Fault Judge) (typeName : String) (r : Roster)
    (s : Supply) : Check (Entries Value Value) := do
  st.rejectUnknown typeName r s
  let values ← Check.ofExcept (st.selected r s)
  let judge ← Check.ofExcept judge
  st.approve judge typeName (← Check.ofExcept r.fields) values
  return values

def assignOne (target name v : Value) : Except Fault Store := do
  let id ← st.openAttributes target
  return st.setEntries id (st.putAt (st.entries id) name v)

end Store

namespace Action

def assign (target : Value) (values : Entries Value Value) : Action Unit :=
  values.forM fun (name, v) ↦ attempt (·.assignOne target name v)

/-- Validates attributes against a registry and assigns the declared ones to a target, which is also
the answer. -/
def assignValidated (registry target attributes evaluator : Value) : Action Value := do
  let values ← check fun st ↦
    st.acceptedValues (st.judge evaluator Method.diagnose.name) (st.typeName target)
      (st.roster registry) (st.supply attributes)
  assign target values
  return target

def judgeFields (registry values evaluator : Value) : Action Value := do
  let violations ← check fun st ↦ do
    let judge ← Check.ofExcept (st.judge evaluator Method.diagnose.name)
    let fields ← Check.ofExcept (st.registered registry)
    st.violations judge fields (st.valueOrNil values)
  outcomeOf violations

def selectionOf (registry attributes : Value) : Action Value := do
  let values ← ask fun st ↦ st.selected (st.roster registry) (st.supply attributes)
  return .dictionary (← create (·.newDictionary values))

def countCreation (typeName violated : Value) : Action Unit := do
  let failed ← ask (·.isTrue violated)
  check fun _ ↦ Check.note (.created typeName !failed)
  let names ← ask (·.iterate violated)
  check fun _ ↦ Check.noteAll (names.map (.violated typeName))

end Action

/-- The attributes given to a creation: those of a mapping, overridden by those given by name. -/
def Store.givenAttributes (st : Store) (typeName : String) (argument : Value)
    (named : List (String × Value)) : Except Fault (Entries Value Value) := do
  let es : Entries Value Value ←
    if argument matches .nil then pure []
    else if st.isMapping argument then st.entriesOf argument
    else throw (.notAMapping typeName (st.kindName argument))
  return st.putAllAt es (named.map fun (name, v) ↦ (.text name, v))

/-- Nothing, if the objects of a class are set up in the usual way. An attribute that takes its
place cannot be called, and a field in its place shows nothing of a new object. -/
def Store.checkInitializer (st : Store) (c : ClassId) : Except Fault Unit :=
  match st.classAttribute? c "__init__" with
  | none => pure ()
  | some w => throw (.notCallable (st.typeName (if st.isField w then .nil else w)))

/-- Whether it is the marker class that would make the objects of a class. The first class that has
a say makes them, and a class with data that comes before the marker does so. -/
def Store.isMarker (st : Store) (c : ClassId) : Bool :=
  (st.linearization c).find? hasSay == some (.builtin .booleanMarker)
where
  hasSay (d : ClassId) : Bool := d == .builtin .booleanMarker || dataClass.carriesData d

namespace Action

def newValidated (c : ClassId) (argument : Value) (named : List (String × Value)) :
    Action Value := do
  let values ← check fun st ↦ do
    let typeName := st.className c
    let attributes ← Check.ofExcept (st.givenAttributes typeName argument named)
    let registry ← Check.ofExcept (st.registry c)
    st.acceptedValues (pure (.of .shared)) typeName (st.roster registry) (st.supplyOf attributes)
  newObject c values

def memberOf (enum : ClassId) (v : Value) : Action Value := do
  let members ← ask fun st ↦ pure (st.members enum)
  let found? ← ask fun st ↦ pure <| members.find? fun m ↦
    m.isSame v || (st.ownAttribute? m "_value_").any (st.sameKey v)
  match found? with
  | some m => return m
  | none => throw (.notAMember (← ask (·.written v)) (← ask fun st ↦ pure (st.className enum)))

def emptyValue? : ClassId → Action (Option Value)
  | .builtin .nothing => return some .nil
  | .builtin .boolean => return some (.bool false)
  | .builtin .integer => return some (.int 0)
  | .builtin .float => return some (.float .zero (← create (·.newTag)))
  | .builtin .complex => return some (.complex .zero .zero (← create (·.newTag)))
  | .builtin .text => return some (.text "")
  | .builtin .bytes => return some (.bytes [])
  | .builtin .byteArray => return some (.byteArray (← create (·.newByteArray [])))
  | .builtin .list => return some (← listOf [])
  | .builtin .tuple => return some (.tuple [])
  | .builtin .dictionary => return some (.dictionary (← create (·.newDictionary [])))
  | .builtin .set => return some (.set (← create (·.newSet [])))
  | .builtin .frozenSet => return some (.frozenSet [])
  | _ => return none

def newEmpty (c : ClassId) : Action Value := do
  if let some v ← emptyValue? c then return v
  match ← emptyValue? (← ask fun st ↦ pure (st.dataClass c)) with
  | some v => return .derived c v (← create (·.newObject ⟨"", []⟩))
  | none => newObject c []

/-- A new object of a class. Objects of plain classes are made from nothing. -/
def instantiate (c : ClassId) (positional : List Value) (named : List (String × Value)) :
    Action Value := do
  if ← ask fun st ↦ pure (st.isMarker c) then throw .markerInstance
  ask (·.checkInitializer c)
  match ← ask fun st ↦ pure (st.nature c), positional, named with
  | .validated, [], named => newValidated c .nil named
  | .validated, [argument], named => newValidated c argument named
  | .validated, positional, _ =>
    throw (.positionalArguments "ValidatedObject.__init__" (positional.length + 1))
  | .enumeration, [v], [] => memberOf c v
  | .enumeration, [], [] => throw (.missingArgument "EnumType.__call__" "value")
  | .record .typeConstraint, [target], [] | .record .typeConstraint, [], [("target", target)] =>
    newObject c [(.text "target", target)]
  | .record .typeConstraint, [], [] => throw (.missingArgument "SimpleType.__init__" "target")
  | _, [], [] => newEmpty c
  | _, _, _ => throw (.noArguments (← ask fun st ↦ pure (st.className c)))

end Action

end Conformance
