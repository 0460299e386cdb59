namespace Conformance

/-- Mappings in the order of insertion. A key that is written again keeps its place and spelling. -/
abbrev Entries (κ ν : Type) := List (κ × ν)

namespace Entries

variable {κ ν : Type} [BEq κ]

def keys (es : Entries κ ν) : List κ := es.map (·.1)

def get? (es : Entries κ ν) (k : κ) : Option ν :=
  match es with
  | [] => none
  | (k', v) :: es => if k' == k then some v else get? es k

def has (es : Entries κ ν) (k : κ) : Bool := (get? es k).isSome

def put (es : Entries κ ν) (k : κ) (v : ν) : Entries κ ν :=
  match es with
  | [] => [(k, v)]
  | (k', v') :: es => if k' == k then (k', v) :: es else (k', v') :: put es k v

def erase (es : Entries κ ν) (k : κ) : Entries κ ν :=
  match es with
  | [] => []
  | (k', v) :: es => if k' == k then es else (k', v) :: erase es k

def putAll (es new : Entries κ ν) : Entries κ ν := new.foldl (fun es e ↦ put es e.1 e.2) es

def ofList (pairs : List (κ × ν)) : Entries κ ν := putAll [] pairs

@[simp] theorem putAll_cons (es : Entries κ ν) (e : κ × ν) (new : Entries κ ν) :
    putAll es (e :: new) = putAll (put es e.1 e.2) new := rfl

theorem get?_put [LawfulBEq κ] (es : Entries κ ν) (k k' : κ) (v : ν) :
    get? (put es k v) k' = if k == k' then some v else get? es k' := by
  induction es with
  | nil => simp [put, get?]
  | cons e es ih =>
    simp only [put]
    split
    · next h =>
      simp only [beq_iff_eq] at h
      simp only [get?, h]
      split <;> rfl
    · next h =>
      simp only [get?, ih]
      by_cases h' : e.1 = k'
      · have : ¬k = k' := fun hk ↦ h (by simp [h', hk])
        simp [h', this]
      · simp [h']

theorem keys_put_of_has {es : Entries κ ν} {k : κ} (h : has es k = true) (v : ν) :
    keys (put es k v) = keys es := by
  induction es with
  | nil => simp [has, get?] at h
  | cons e es ih =>
    simp only [put]
    split
    · rfl
    · next hk =>
      have : has es k = true := by simpa [has, get?, hk] using h
      simpa [keys] using ih this

theorem keys_put_of_not_has {es : Entries κ ν} {k : κ} (h : has es k = false) (v : ν) :
    keys (put es k v) = keys es ++ [k] := by
  induction es with
  | nil => rfl
  | cons e es ih =>
    by_cases hk : (e.1 == k) = true
    · simp [has, get?, hk] at h
    · have : has es k = false := by simpa [has, get?, hk] using h
      have := ih this
      simp only [put, hk]
      simpa [keys] using this

end Entries

end Conformance
