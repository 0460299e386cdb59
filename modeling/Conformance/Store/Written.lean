import Conformance.Number.Complex
import Conformance.Text.Quoted
import Conformance.Store.Content

namespace Conformance

def boolText (b : Bool) : String := if b then "True" else "False"

def commaSeparated (parts : List String) : String := ", ".intercalate parts

def tupleText : List String → String
  | [part] => s!"({part},)"
  | parts => s!"({commaSeparated parts})"

def setText : List String → String
  | [] => "set()"
  | parts => "\x7b" ++ commaSeparated parts ++ "\x7d"

def frozenSetText (parts : List String) : String :=
  if parts.isEmpty then "frozenset()" else s!"frozenset({setText parts})"

def dictionaryText (parts : List (String × String)) : String :=
  "\x7b" ++ commaSeparated (parts.map fun (k, v) ↦ s!"{k}: {v}") ++ "\x7d"

def rangeText (start stop step : Int) : String :=
  if step == 1 then s!"range({start}, {stop})" else s!"range({start}, {stop}, {step})"

def recordText (className : String) (parts : List (String × String)) : String :=
  let parts := parts.map fun (name, v) ↦ s!"{name}={v}"
  s!"{className}({commaSeparated parts})"

def Value.writeAtom (st : Store) (deep : Value → Except Fault String) :
    Value → Except Fault String
  | .nil => pure "None"
  | .bool b => pure (boolText b)
  | .int n => pure (toString n)
  | .float x _ => pure x.text
  | .complex re im _ => pure (Complex.text re im)
  | .text s => pure (Text.quote s)
  | .bytes data => pure (Text.quoteBytes data)
  | .range start stop step => pure (rangeText start stop step)
  | .byteArray id => pure (Text.quoteByteArray (st.byteArray id))
  | .ofClass c => pure (st.classText c)
  | v => deep v

mutual
/-- The written form of a value inside of the values in `entered`; `deep` writes the cells. A tuple
that is entered holds itself by way of a cell. -/
def Value.write (st : Store) (deep : List Value → Value → Except Fault String)
    (entered : List Value) : Value → Except Fault String
  | .derived c v id =>
    if st.isEnum c then deep entered (.derived c v id) else v.write st deep entered
  | .tuple vs =>
    if entered.contains (.tuple vs) then pure "(...)"
    else return tupleText (← Value.writeAll st deep (.tuple vs :: entered) vs)
  | .frozenSet vs => return frozenSetText (← Value.writeAll st deep entered vs)
  | v => v.writeAtom st (deep entered)
termination_by structural v => v
def Value.writeAll (st : Store) (deep : List Value → Value → Except Fault String)
    (entered : List Value) : List Value → Except Fault (List String)
  | [] => pure []
  | v :: vs => return (← v.write st deep entered) :: (← Value.writeAll st deep entered vs)
termination_by structural vs => vs
end

def Store.memberText (st : Store) (v : Value) (name : String) : String :=
  s!"{st.typeName v}.{name}"

def Value.display (st : Store) (write : Value → Except Fault String) :
    Value → Except Fault String
  | .text s => pure s
  | .mappingView id => write (.dictionary id)
  | .derived c v id =>
    if st.inherits c (.builtin .reprEnum) then v.display st write
    else if st.isEnum c then memberName (.derived c v id)
    else match v with
      | .text s => pure s
      | v => write v
  | .object c id => if st.isEnum c then memberName (.object c id) else write (.object c id)
  | v => write v
where
  /-- The name of a member is shown without quotes, unless it has been replaced. -/
  memberName (v : Value) : Except Fault String := do
    match ← st.attributeOfProperty v .memberName with
    | .text name => return st.memberText v name
    | name => return st.memberText v (← write name)

namespace Store

variable (st : Store)

/-- The written form of an object, given the written and the displayed form of its parts. -/
def writeObject (write display : Value → Except Fault String) (v : Value) :
    Except Fault String := do
  match st.natureOf v with
  | .validated =>
    let parts ← (← st.reported v).mapM fun (k, w) ↦ return (← display k, ← write w)
    return recordText (st.typeName v) parts
  | .record b => return recordText (st.fullName (st.typeOf v)) (← namedParts b.parts)
  | .field =>
    return recordText Builtin.field.name (← namedParts ["name", "constraint", "allow_nil"])
  | .registry =>
    let names ← (← st.iterate v).mapM write
    return s!"{Builtin.fieldRegistry.name}([{commaSeparated names}])"
  | .enumeration =>
    let name ← display (← st.attributeOfProperty v .memberName)
    let value ← write (← st.attributeOfProperty v .memberValue)
    return s!"<{st.memberText v name}: {value}>"
  | _ => return s!"<{st.typeName v} {label}>"
where
  namedParts (names : List String) : Except Fault (List (String × String)) :=
    names.mapM fun name ↦ return (name, ← write (← st.attributeOf v name))
  label : String := (attributesCell? v).elim "" fun id ↦ (st.object id).label

def innerText? (v : Value) : Option String :=
  match v with
  | .list _ => some "[...]"
  | .dictionary _ => some "\x7b...\x7d"
  | .set _ => some "set(...)"
  | .object c _ => match st.nature c with
    | .record _ => some "..."
    | _ => none
  | _ => none

def writeCell : Nat → List Value → Value → Except Fault String
  | 0, _, _ => throw .tooDeep
  | depth + 1, entered, v =>
    let within (w : Value) : Except Fault String := w.write st (writeCell depth) (v :: entered)
    match if entered.any v.isSame then st.innerText? v else none with
    | some s => pure s
    | none =>
      match v with
      | .list id => return s!"[{commaSeparated (← (st.items id).mapM within)}]"
      | .set id => return setText (← (st.setMembers id).mapM within)
      | .dictionary id =>
        return dictionaryText (← (st.entries id).mapM fun (k, w) ↦
          return (← within k, ← within w))
      | .mappingView id => return s!"mappingproxy({← writeCell depth entered (.dictionary id)})"
      | .object .. | .derived .. =>
        st.writeObject within (fun w ↦ w.display st within) v
      | v => pure s!"<{st.typeName v}>"

/-- A chain of references without a cycle passes every cell at most once, and so does a chain
between two cells that are entered. -/
def writingDepth : Nat := (st.cellCount + 1) * (st.cellCount + 2)

def written (v : Value) : Except Fault String := v.write st (st.writeCell st.writingDepth) []

def displayed (v : Value) : Except Fault String := v.display st st.written

end Store

end Conformance
