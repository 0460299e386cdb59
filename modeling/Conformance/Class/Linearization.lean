namespace Conformance

variable {α : Type} [DecidableEq α]

def isNextHead (sequences : List (List α)) (a : α) : Bool :=
  sequences.all fun s ↦ !(s.drop 1).contains a

def dropHead (a : α) (s : List α) : List α := if s.head? = some a then s.drop 1 else s

/-- The merge of sequences: the first head that may come next, then the merge of what is left. -/
def mergeSequences : Nat → List (List α) → Option (List α)
  | 0, sequences => if sequences.all List.isEmpty then some [] else none
  | n + 1, sequences =>
    if sequences.all List.isEmpty then some []
    else do
      let a ← (sequences.filterMap List.head?).find? (isNextHead sequences)
      let rest ← mergeSequences n (sequences.map (dropHead a))
      return a :: rest

/-- The linearization of `a` from its bases and theirs, if the orders agree. Each step of the merge
takes at least one place, which bounds their number. -/
def linearize (a : α) (bases : List α) (ofBase : α → List α) : Option (List α) :=
  let sequences := bases.map ofBase ++ [bases]
  (mergeSequences sequences.flatten.length sequences).map (a :: ·)

end Conformance
