import Conformance.Text.Blank
import Conformance.Text.Capital
import Conformance.Store.Hash
import Conformance.Constraint

namespace Conformance

def Builtin.displayName : Builtin → String
  | text => "String"
  | integer => "Integer"
  | float => "Float"
  | boolean | booleanMarker => "Boolean"
  | list | tuple => "Array"
  | dictionary => "Hash"
  | set | frozenSet => "Set"
  | bytes => "Bytes"
  | nothing => "Nil"
  | b => b.name

namespace Store

variable (st : Store)

def displayName : ClassId → String
  | .builtin b => b.displayName
  | c => st.className c

def kindName (v : Value) : String := st.displayName (st.typeOf v)

def targetName (target : Value) : Except Fault String := do
  st.hash target
  match target with
  | .ofClass c => return st.displayName c
  | v =>
    let written ← st.written v
    match st.attributeOf v "__name__" with
    | .ok name => st.displayed name
    | .error _ => return written

/-- A literal for readers: a member of an enumeration by its name, a text after a colon. -/
def literalName (v : Value) : Except Fault String := do
  if st.natureOf v = .enumeration then
    return st.memberText v (← st.displayed (← st.attributeOf v "name"))
  match v.text? with
  | some s => return s!":{s}"
  | none => st.written v

def literalNames (vs : List Value) : Except Fault String :=
  return commaSeparated (← vs.mapM st.literalName)

mutual
def constraintName : Constraint → Except Fault String
  | .type target => st.targetName target
  | .literals vs => st.literalNames vs
  | .array c => return "Array of " ++ (← constraintName c)
  | .union cs => return " or ".intercalate (← constraintNames cs)
  | .refused fault => throw fault
termination_by structural c => c
def constraintNames : List Constraint → Except Fault (List String)
  | [] => pure []
  | c :: cs => return (← constraintName c) :: (← constraintNames cs)
termination_by structural cs => cs
end

end Store

/-- The name of an attribute for readers: spaces for underscores, no blanks at the ends, and a
capital letter in front. -/
def readableName (name : String) : String :=
  Text.capitalize (Text.strip (name.map fun c ↦ if c == '_' then ' ' else c))

end Conformance
