import Conformance.Proofs.Evaluation.Lockstep

namespace Conformance

namespace Store

variable {st : Store}

mutual
theorem exists_name_of_firstArray? (c : Constraint) {element : Constraint} {name : String}
    (hc : c.firstArray? = some element) (hname : st.constraintName c = .ok name) :
    ∃ name, st.constraintName element = .ok name := by
  cases c with
  | array e =>
    cases hc
    rw [constraintName] at hname
    obtain ⟨name', hname', -⟩ := answer_of_bind hname
    exact ⟨name', hname'⟩
  | union branches =>
    rw [constraintName] at hname
    obtain ⟨names, hnames, -⟩ := answer_of_bind hname
    exact exists_name_of_firstArrayOf? branches hc hnames
  | type target => cases hc
  | literals literals => cases hc
  | refused fault => cases hc
termination_by structural c
theorem exists_name_of_firstArrayOf? (cs : List Constraint) {element : Constraint}
    {names : List String} (hcs : Constraint.firstArray?.firstArrayOf? cs = some element)
    (hnames : st.constraintNames cs = .ok names) :
    ∃ name, st.constraintName element = .ok name := by
  cases cs with
  | nil => cases hcs
  | cons c cs =>
    rw [constraintNames] at hnames
    obtain ⟨name, hname, hnames⟩ := answer_of_bind hnames
    obtain ⟨names, hnames, -⟩ := answer_of_bind hnames
    rw [Constraint.firstArray?.firstArrayOf?] at hcs
    cases hc : c.firstArray? with
    | some e =>
      rw [hc] at hcs
      cases hcs
      exact exists_name_of_firstArray? c hc hname
    | none =>
      rw [hc] at hcs
      exact exists_name_of_firstArrayOf? cs hcs hnames
termination_by structural cs
end

theorem exists_unionName {branches : List Constraint}
    (h : ∃ names, st.constraintNames branches = .ok names) :
    ∃ name, st.constraintName (.union branches) = .ok name := by
  obtain ⟨names, hnames⟩ := h
  exact ⟨" or ".intercalate names, by rw [constraintName, hnames]; rfl⟩

theorem mapM_constraintName_of_constraintNames {cs : List Constraint} {names : List String}
    (h : st.constraintNames cs = .ok names) : cs.mapM st.constraintName = .ok names := by
  induction cs generalizing names with
  | nil => exact h
  | cons c cs ih =>
    rw [constraintNames] at h
    obtain ⟨name, hname, h⟩ := answer_of_bind h
    obtain ⟨names', hnames, h⟩ := answer_of_bind h
    rw [List.mapM_cons, hname, ih hnames]
    exact h

variable {e g : Evaluator} {c : Constraint} {v : Value} {label : String}

/-- Two diagnoses of one value. If it is an array that fails, its constraint has been named. -/
def SameDiagnosis (st : Store) (c : Constraint) (v : Value) (a b : Option String) : Prop :=
  a.isSome = b.isSome ∧
    (a.isSome → (st.arrayItems? v).isSome → ∃ name, st.constraintName c = .ok name)

def SameDiagnoses (st : Store) (cs : List Constraint) (v : Value)
    (as bs : List (Option String)) : Prop :=
  as.map Option.isSome = bs.map Option.isSome ∧
    (as.all Option.isSome → (st.arrayItems? v).isSome → ∃ names, st.constraintNames cs = .ok names)

theorem sameDiagnosis_none (c : Constraint) : st.SameDiagnosis c v none none := ⟨rfl, nofun⟩

theorem sameDiagnosis_some {text text' : String}
    (h : (st.arrayItems? v).isSome → ∃ name, st.constraintName c = .ok name) :
    st.SameDiagnosis c v (some text) (some text') := ⟨rfl, fun _ ↦ h⟩

theorem sameDiagnoses_nil : st.SameDiagnoses [] v [] [] := ⟨rfl, fun _ _ ↦ ⟨[], rfl⟩⟩

theorem sameDiagnoses_cons {cs : List Constraint} {a b : Option String}
    {as bs : List (Option String)} (h : st.SameDiagnosis c v a b) (hs : st.SameDiagnoses cs v as bs) :
    st.SameDiagnoses (c :: cs) v (a :: as) (b :: bs) := by
  refine ⟨by rw [List.map_cons, List.map_cons, h.1, hs.1], fun hall hv ↦ ?_⟩
  rw [List.all_cons, Bool.and_eq_true] at hall
  obtain ⟨name, hname⟩ := h.2 hall.1 hv
  obtain ⟨names, hnames⟩ := hs.2 hall.2 hv
  exact ⟨name :: names, by rw [constraintNames, hname, hnames]; rfl⟩

theorem any_isNone_of_map {as bs : List (Option String)}
    (h : as.map Option.isSome = bs.map Option.isSome) :
    as.any Option.isNone = bs.any Option.isNone := by
  have hany (os : List (Option String)) :
      os.any Option.isNone = (os.map Option.isSome).any Bool.not := by
    rw [List.any_map]
    congr 1
    funext o
    cases o <;> rfl
  rw [hany, hany, h]

theorem all_isSome_of_any_isNone {as : List (Option String)} (h : as.any Option.isNone = false) :
    as.all Option.isSome := by simpa [Option.isSome_iff_ne_none] using h

theorem exists_singleton_of_all {as : List (Option String)} (hlength : as.length = 1)
    (h : as.all Option.isSome) : ∃ text, as = [some text] := by
  obtain ⟨a, rfl⟩ := List.length_eq_one_iff.1 hlength
  obtain ⟨text, rfl⟩ := Option.isSome_iff_exists.1 (List.all_eq_true.1 h a List.mem_cons_self)
  exact ⟨text, rfl⟩

theorem length_filterMap_of_all {as : List (Option String)} (h : as.all Option.isSome) :
    (as.filterMap id).length = as.length := by
  induction as with
  | nil => rfl
  | cons a as ih =>
    rw [List.all_cons, Bool.and_eq_true] at h
    obtain ⟨text, rfl⟩ := Option.isSome_iff_exists.1 h.1
    have hcons : (some text :: as).filterMap id = text :: as.filterMap id := rfl
    rw [hcons, List.length_cons, List.length_cons, ih h.2]

theorem arrayDiagnostic_lockstep (he : e.IsIntact) (hg : g.IsIntact) (element : Constraint)
    (v : Value) (label : String) :
    Lockstep (fun a b ↦ a = b ∧ st.SameDiagnosis (.array element) v a b)
      (st.arrayDiagnostic e element v label) (st.arrayDiagnostic g element v label) := by
  refine .bind (offers_lockstep he hg (by decide)) fun _ _ _ ↦ ?_
  cases hv : st.arrayItems? v with
  | none => exact .pure ⟨rfl, sameDiagnosis_some fun h ↦ by rw [hv] at h; cases h⟩
  | some items =>
    refine .bind (offers_lockstep he hg (by decide)) fun _ _ _ ↦ ?_
    refine .bind (mismatches_lockstep he hg element items) ?_
    rintro offending _ rfl
    split
    · exact .pure ⟨rfl, sameDiagnosis_none _⟩
    · refine .bind (.ofExcept _) ?_
      rintro name _ ⟨hname, rfl⟩
      refine .bind (.record _) fun _ _ _ ↦ .pure ⟨rfl, sameDiagnosis_some fun _ ↦ ?_⟩
      exact ⟨"Array of " ++ name, by rw [constraintName, hname]; rfl⟩

/-- Only unions ask for the policy. -/
theorem diagnose_lockstep_of_ne_union (he : e.IsIntact) (hg : g.IsIntact)
    (hc : ∀ branches, c ≠ .union branches) (v : Value) (label : String) :
    Lockstep (fun a b ↦ a = b ∧ st.SameDiagnosis c v a b) (st.diagnose e c v label)
      (st.diagnose g c v label) := by
  cases c with
  | type target =>
    simp only [diagnose]
    refine .bind (call_lockstep he hg _ _) fun _ _ _ ↦ ?_
    refine .bind (.ofExcept _) ?_
    rintro fits _ ⟨-, rfl⟩
    split
    · exact .pure ⟨rfl, sameDiagnosis_none _⟩
    · refine .bind (.ofExcept _) ?_
      rintro name _ ⟨hname, rfl⟩
      exact .pure ⟨rfl, sameDiagnosis_some fun _ ↦ ⟨name, hname⟩⟩
  | literals literals =>
    simp only [diagnose]
    refine .bind (call_lockstep he hg _ _) fun _ _ _ ↦ ?_
    refine .bind (accepts_lockstep he hg _ v) ?_
    rintro fits _ rfl
    split
    · exact .pure ⟨rfl, sameDiagnosis_none _⟩
    · refine .bind (.ofExcept _) ?_
      rintro names _ ⟨hnames, rfl⟩
      exact .pure ⟨rfl, sameDiagnosis_some fun _ ↦ ⟨names, hnames⟩⟩
  | array element =>
    simp only [diagnose]
    exact .bind (call_lockstep he hg _ _) fun _ _ _ ↦ arrayDiagnostic_lockstep he hg element v label
  | union branches => exact absurd rfl (hc branches)
  | refused fault =>
    simp only [diagnose]
    exact .bind (call_lockstep he hg _ _) fun _ _ _ ↦ .throw fault

theorem unionWording_eq_pure {branches : List Constraint} {names : List String}
    (hnames : st.constraintNames branches = .ok names) (v : Value) (label : String) (p : Policy) :
    ∃ text, st.unionWording branches v label (st.accusedArray? branches v p) = pure text := by
  cases h : st.accusedArray? branches v p with
  | some element =>
    obtain ⟨name, hname⟩ :=
      exists_name_of_firstArrayOf? branches (firstArray?_of_accusedArray? h) hnames
    exact ⟨wrongElements label name, by rw [unionWording, hname]; rfl⟩
  | none =>
    refine ⟨st.notOneOf v label (commaSeparated names), ?_⟩
    rw [unionWording, mapM_constraintName_of_constraintNames hnames]
    rfl

/-- An array has failed all branches by the time the policy is asked for, so that each of them has a
name. Of other values all branches are named whatever the policy is. -/
theorem unionWording_lockstep {branches : List Constraint}
    (hnamed : (st.arrayItems? v).isSome → ∃ names, st.constraintNames branches = .ok names)
    (label : String) (p q : Policy) :
    Lockstep (fun _ _ ↦ True)
      (st.unionWording branches v label (st.accusedArray? branches v p))
      (st.unionWording branches v label (st.accusedArray? branches v q)) := by
  cases hv : (st.arrayItems? v).isSome with
  | true =>
    obtain ⟨names, hnames⟩ := hnamed hv
    obtain ⟨text, htext⟩ := unionWording_eq_pure hnames v label p
    obtain ⟨text', htext'⟩ := unionWording_eq_pure hnames v label q
    rw [htext, htext']
    exact .pure trivial
  | false =>
    have hnone (p : Policy) : st.accusedArray? branches v p = none := by
      simp [accusedArray?, hv]
    rw [hnone p, hnone q, unionWording]
    exact .bind (.ofExcept _) fun _ _ _ ↦ .pure trivial

end Store

end Conformance
