import Conformance.Entries
import Conformance.Fault
import Conformance.Text.Blank

namespace Conformance

structure Settings where
  policy : Policy
  logViolations : Bool
  deriving DecidableEq

inductive Variable
  | unionArrayMessages | logViolations
  deriving DecidableEq

structure Environment where
  unionArrayMessages : Option String
  logViolations : Option String
  deriving DecidableEq

def Environment.set (env : Environment) (v : Variable) (text : Option String) : Environment :=
  match v with
  | .unionArrayMessages => { env with unionArrayMessages := text }
  | .logViolations => { env with logViolations := text }

/-- Lower case, for comparison with words of ASCII letters other than `k`: no other character turns
into one of their letters. -/
def foldCase (s : String) : String := String.ofList ((Text.strip s).toList.map Char.toLower)

def Policy.read? (s : String) : Option Policy :=
  if (Text.strip s).isEmpty then some .default else Policy.ofName? (foldCase s)

def Policy.parse (given : Option String) : Except Fault Policy :=
  match given with
  | none => pure .default
  | some s =>
    match Policy.read? s with
    | some p => pure p
    | none => throw (.unknownPolicy s)

def offWords : List String := ["", "0", "false", "no"]

/-- A flag is on when it is set to anything but one of the words that switch it off. -/
def parseFlag (given : Option String) : Bool := !offWords.contains (foldCase (given.getD "0"))

def Settings.parse (env : Environment) : Except Fault Settings := do
  let policy ← Policy.parse env.unionArrayMessages
  return { policy, logViolations := parseFlag env.logViolations }

def Settings.attributes (s : Settings) : Entries Value Value :=
  [ (.text "union_array_messages", .text s.policy.name),
    (.text "log_violations", .bool s.logViolations) ]

end Conformance
