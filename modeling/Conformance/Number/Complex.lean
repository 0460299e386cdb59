import Conformance.Number.Decimal

namespace Conformance.Complex

def part (x : Binary64) : String := (if x.isNegative then "-" else "") ++ x.magnitudeText false

def signedPart (x : Binary64) : String :=
  (if x.isNegative then "-" else "+") ++ x.magnitudeText false

def text (re im : Binary64) : String :=
  if re == Binary64.zero then part im ++ "j" else s!"({part re}{signedPart im}j)"

def lastSign (cs : List Char) : Nat :=
  let isSign (i : Nat) : Bool :=
    (cs[i]? == some '+' || cs[i]? == some '-') &&
      (i == 0 || !(cs[i - 1]? == some 'e' || cs[i - 1]? == some 'E'))
  ((List.range cs.length).filter isSign).getLast?.getD 0

def unit (cs : List Char) : List Char :=
  if cs.any Char.isDigit || cs.length > 1 then cs else cs ++ ['1']

def read? (s : String) : Option (Binary64 × Binary64) :=
  let cs := s.toList
  let cs := if cs.head? == some '(' && cs.getLast? == some ')' then (cs.drop 1).dropLast else cs
  match cs.getLast? with
  | some c =>
    if c == 'j' || c == 'J' then
      let cs := cs.dropLast
      let n := lastSign cs
      let re := cs.take n
      let im := unit (cs.drop n)
      match if re.isEmpty then some Binary64.zero else Binary64.read? (String.ofList re),
        Binary64.read? (String.ofList im) with
      | some re, some im => some (re, im)
      | _, _ => none
    else (Binary64.read? (String.ofList cs)).map fun re ↦ (re, .zero)
  | none => none

end Conformance.Complex
