import Conformance.Proofs.Evaluation.Event
import Conformance.Proofs.Evaluation.Verdict

namespace Conformance

namespace Store

variable (st : Store)

def nameText (c : Constraint) : String := (st.constraintName c).toOption.getD ""

def unionComplaint (p : Policy) (branches : List Constraint) (v : Value) (label : String) :
    String :=
  let byElement :=
    if p = .element ∧ (st.arrayItems? v).isSome then (Constraint.union branches).firstArray?
    else none
  match byElement with
  | some element => wrongElements label (st.nameText element)
  | none => st.notOneOf v label (commaSeparated (branches.map st.nameText))

mutual
/-- What a diagnosis says of a value that does not fit. -/
def complaint (p : Policy) : Constraint → Value → String → String
  | .array element, v, label =>
    if (st.arrayItems? v).isSome then wrongElements label (st.nameText element)
    else st.notA v label "Array"
  | .union branches, v, label => complaintOfAll p branches v label
  | .literals literals, v, label => st.notOneOf v label (st.nameText (.literals literals))
  | c, v, label => st.notA v label (st.nameText c)
termination_by structural c => c
def complaintOfAll (p : Policy) : List Constraint → Value → String → String
  | [c], v, label => withAlternatives (st.subject v label) (complaint p c v label)
  | branches, v, label => st.unionComplaint p branches v label
termination_by structural cs => cs
end

def diagnosis (p : Policy) (c : Constraint) (v : Value) (label : String) : Option String :=
  if st.fits c v then none else some (st.complaint p c v label)

def misfits (element : Constraint) (items : List Value) : List Nat :=
  ((items.map (st.fits element ·)).zipIdx.filter fun e ↦ !e.1).map (·.2)

def arrayEvents (element : Constraint) (v : Value) (label : String) : List Event :=
  match st.arrayItems? v with
  | none => []
  | some items =>
    (items.flatMap (st.acceptCalls element ·)).map .called ++
      if st.fits (.array element) v then []
      else [.recorded (.elementsMismatch label (st.misfits element items) (st.nameText element))]

mutual
/-- The events in a diagnosis. -/
def diagnoseEvents : Constraint → Value → String → List Event
  | c@(.literals _), _, _ => [.called ⟨.diagnose, c⟩, .called ⟨.accept, c⟩]
  | c@(.array element), v, label => .called ⟨.diagnose, c⟩ :: st.arrayEvents element v label
  | c@(.union branches), v, label =>
    .called ⟨.diagnose, c⟩ :: (diagnoseEventsOfAll branches v label ++
      if st.fits c v ∨ branches.length = 1 then [] else [.consulted])
  | c, _, _ => [.called ⟨.diagnose, c⟩]
termination_by structural c => c
def diagnoseEventsOfAll : List Constraint → Value → String → List Event
  | [], _, _ => []
  | c :: cs, v, label => diagnoseEvents c v label ++ diagnoseEventsOfAll cs v label
termination_by structural cs => cs
end

def NamesLiterals : Constraint → Prop
  | .literals literals => ∃ name, st.literalNames literals = .ok name
  | _ => True

/-- The names of the literals of a constraint can be told. -/
def CanName (c : Constraint) : Prop := c.Leaves st.NamesLiterals

variable {st} {ev : Evaluator}

mutual
theorem exists_constraintName (c : Constraint) (hc : c.IsProper) (hn : st.CanName c) :
    ∃ name, st.constraintName c = .ok name := by
  cases c with
  | type target =>
    obtain ⟨k, rfl⟩ := hc.target_eq
    exact ⟨st.displayName k, rfl⟩
  | literals literals => exact hn
  | array element =>
    obtain ⟨name, h⟩ := exists_constraintName element hc hn
    exact ⟨"Array of " ++ name, by rw [constraintName, h]; rfl⟩
  | union branches =>
    obtain ⟨names, h⟩ := exists_constraintNames branches hc hn
    exact ⟨" or ".intercalate names, by rw [constraintName, h]; rfl⟩
  | refused fault => exact hc.elim
termination_by structural c
theorem exists_constraintNames (cs : List Constraint)
    (hcs : Constraint.LeavesOfAll Constraint.IsBasic cs)
    (hn : Constraint.LeavesOfAll st.NamesLiterals cs) :
    ∃ names, st.constraintNames cs = .ok names := by
  cases cs with
  | nil => exact ⟨[], rfl⟩
  | cons c cs =>
    obtain ⟨name, h⟩ := exists_constraintName c hcs.1 hn.1
    obtain ⟨names, h'⟩ := exists_constraintNames cs hcs.2 hn.2
    exact ⟨name :: names, by rw [constraintNames, h, h']; rfl⟩
termination_by structural cs
end

theorem constraintName_eq {c : Constraint} (hc : c.IsProper) (hn : st.CanName c) :
    st.constraintName c = .ok (st.nameText c) := by
  obtain ⟨name, h⟩ := exists_constraintName c hc hn
  rw [nameText, h]
  rfl

theorem mapM_constraintName {cs : List Constraint}
    (hcs : Constraint.LeavesOfAll Constraint.IsBasic cs)
    (hn : Constraint.LeavesOfAll st.NamesLiterals cs) :
    cs.mapM st.constraintName = .ok (cs.map st.nameText) := by
  induction cs with
  | nil => rfl
  | cons c cs ih =>
    rw [List.mapM_cons, constraintName_eq hcs.1 hn.1, ih hcs.2 hn.2]
    rfl

theorem filter_zipIdx_eq_nil_iff (bs : List Bool) (n : Nat) :
    (bs.zipIdx n).filter (fun e ↦ !e.1) = [] ↔ bs.all id := by
  induction bs generalizing n with
  | nil => simp
  | cons b bs ih =>
    cases b
    · simp [List.zipIdx_cons]
    · simpa [List.zipIdx_cons] using ih (n + 1)

@[simp] theorem misfits_eq_nil_iff (element : Constraint) (items : List Value) :
    st.misfits element items = [] ↔ items.all (st.fits element ·) := by
  rw [misfits, List.map_eq_nil_iff, filter_zipIdx_eq_nil_iff]
  simp [List.all_map]

theorem mismatches_run {element : Constraint} (hev : ev.IsIntact) (hc : element.IsProper)
    {items : List Value} (h : ∀ item ∈ items, st.CanCompare element item) (s : Session) :
    st.mismatches ev element items s = .ok (st.misfits element items)
      (s.performAll ev ((items.flatMap (st.acceptCalls element ·)).map .called)) := by
  have hitems := mapM_run (f := fun item ↦ st.accepts ev element item) (s := s)
    (st.fits element ·) (fun s item ↦ { s with calls := s.calls ++ st.acceptCalls element item })
    (fun _ ↦ True) items
    (fun item hi t _ ↦ ⟨accepts_run hev element hc item (h item hi) t, trivial⟩) trivial
  rw [mismatches, bind_of_ok hitems, foldl_calls, Session.performAll_called]
  rfl

theorem arrayDiagnostic_run (hev : ev.IsIntact) (element : Constraint) (hc : element.IsProper)
    (hn : st.CanName element) {v : Value} (h : st.CanCompare (.array element) v)
    (p : Policy) (label : String) (s : Session) :
    st.arrayDiagnostic ev element v label s = .ok (st.diagnosis p (.array element) v label)
      (s.performAll ev (st.arrayEvents element v label)) := by
  have hself := hev "_evaluate_array" (by decide)
  have hoffers := hev "offending_indexes" (by decide)
  simp only [CanCompare] at h
  rw [arrayDiagnostic, bind_of_ok (Check.ofExcept_run hself s)]
  cases hv : st.arrayItems? v with
  | none => simp [diagnosis, complaint, arrayEvents, fits, hv]
  | some items =>
    simp only
    rw [bind_of_ok (Check.ofExcept_run hoffers s), bind_of_ok (mismatches_run hev hc (h items hv) s)]
    have hfits : st.fits (.array element) v = items.all (st.fits element ·) := by
      rw [fits, hv]; rfl
    cases hall : items.all (st.fits element ·) with
    | true =>
      have hmis := (misfits_eq_nil_iff element items).2 hall
      simp [hmis, diagnosis, arrayEvents, hv, hfits, hall]
    | false =>
      have hmis : (st.misfits element items).isEmpty = false := by
        rw [Bool.eq_false_iff, ne_eq, List.isEmpty_iff, misfits_eq_nil_iff, hall]
        simp
      simp only [hmis, Bool.false_eq_true, if_false]
      rw [bind_of_ok (Check.ofExcept_run (constraintName_eq hc hn) _)]
      simp [diagnosis, complaint, arrayEvents, hv, hfits, hall]
      rfl

mutual
theorem firstArray?_leaves {P : Constraint → Prop} (c : Constraint) (hc : c.Leaves P)
    {element : Constraint} (h : c.firstArray? = some element) : element.Leaves P := by
  cases c with
  | array e => cases h; exact hc
  | union branches => exact firstArrayOf?_leaves branches hc h
  | type target => cases h
  | literals literals => cases h
  | refused fault => cases h
termination_by structural c
theorem firstArrayOf?_leaves {P : Constraint → Prop} (cs : List Constraint)
    (hcs : Constraint.LeavesOfAll P cs) {element : Constraint}
    (h : Constraint.firstArray?.firstArrayOf? cs = some element) : element.Leaves P := by
  cases cs with
  | nil => cases h
  | cons c cs =>
    rw [Constraint.firstArray?.firstArrayOf?] at h
    cases hc : c.firstArray? with
    | some e => rw [hc] at h; cases h; exact firstArray?_leaves c hcs.1 hc
    | none => rw [hc] at h; exact firstArrayOf?_leaves cs hcs.2 h
termination_by structural cs
end

def unionWording (st : Store) (branches : List Constraint) (v : Value) (label : String)
    (byElement : Option Constraint) : Check String :=
  match byElement with
  | some element => do return wrongElements label (← Check.ofExcept (st.constraintName element))
  | none => do
    let names ← Check.ofExcept (branches.mapM st.constraintName)
    return st.notOneOf v label (commaSeparated names)

def accusedArray? (st : Store) (branches : List Constraint) (v : Value) (p : Policy) :
    Option Constraint :=
  if p = .element ∧ (st.arrayItems? v).isSome then (Constraint.union branches).firstArray? else none

theorem firstArray?_of_accusedArray? {branches : List Constraint} {v : Value} {p : Policy}
    {element : Constraint} (h : st.accusedArray? branches v p = some element) :
    (Constraint.union branches).firstArray? = some element := by
  unfold accusedArray? at h
  split at h
  · exact h
  · cases h

theorem unionDiagnostic_of_many (ev : Evaluator) {branches : List Constraint}
    {diagnostics : List String} (h : ¬ (branches.length = 1 ∧ diagnostics.length = 1)) (v : Value)
    (label : String) : st.unionDiagnostic ev branches diagnostics v label = (do
      let p ← st.policyFor ev
      st.unionWording branches v label (st.accusedArray? branches v p)) := by
  unfold unionDiagnostic
  split
  · exact absurd ⟨rfl, rfl⟩ h
  · rfl

theorem unionComplaint_run {branches : List Constraint} (hb : branches.length ≠ 1)
    (hc : Constraint.LeavesOfAll Constraint.IsBasic branches)
    (hn : Constraint.LeavesOfAll st.NamesLiterals branches) (diagnostics : List String) (v : Value)
    (label : String) {s : Session} {p : Policy} (hp : st.policyIn ev s = .ok p) :
    st.unionDiagnostic ev branches diagnostics v label s =
      .ok (st.unionComplaint p branches v label) (s.perform ev .consulted) := by
  rw [unionDiagnostic_of_many ev fun h ↦ hb h.1, bind_of_ok (policyFor_run hp)]
  cases h : st.accusedArray? branches v p with
  | some element =>
    have harray := firstArray?_of_accusedArray? h
    have hname := constraintName_eq (firstArray?_leaves (.union branches) hc harray)
      (firstArray?_leaves (.union branches) hn harray)
    unfold accusedArray? at h
    rw [unionWording, bind_of_ok (Check.ofExcept_run hname _), pure_run]
    simp only [unionComplaint, h]
  | none =>
    unfold accusedArray? at h
    rw [unionWording, bind_of_ok (Check.ofExcept_run (mapM_constraintName hc hn) _), pure_run]
    simp only [unionComplaint, h]

theorem any_isNone_diagnosis (p : Policy) (cs : List Constraint) (v : Value) (label : String) :
    (cs.map (st.diagnosis p · v label)).any Option.isNone = st.fitsAny cs v := by
  rw [fitsAny_eq, List.any_map]
  congr 1
  funext c
  simp only [Function.comp_apply, diagnosis]
  cases st.fits c v <;> rfl

theorem filterMap_diagnosis (p : Policy) {cs : List Constraint} {v : Value} (label : String)
    (h : st.fitsAny cs v = false) :
    (cs.map (st.diagnosis p · v label)).filterMap id = cs.map (st.complaint p · v label) := by
  induction cs with
  | nil => rfl
  | cons c cs ih =>
    rw [fitsAny, Bool.or_eq_false_iff] at h
    simp [diagnosis, h.1, ← ih h.2]

theorem call_diagnose_run (hev : ev.IsIntact) (c : Constraint) (s : Session) :
    ev.call .diagnose c s = .ok () (s.perform ev (.called ⟨.diagnose, c⟩)) :=
  Evaluator.call_run hev .diagnose c s

mutual
theorem diagnose_run (hev : ev.IsIntact) (c : Constraint) (hc : c.IsProper) (hn : st.CanName c)
    (v : Value) (h : st.CanCompare c v) (label : String) {s : Session} {p : Policy}
    (hp : st.policyIn ev s = .ok p) :
    st.diagnose ev c v label s =
      .ok (st.diagnosis p c v label) (s.performAll ev (st.diagnoseEvents c v label)) := by
  cases c with
  | type target =>
    rw [diagnose, bind_of_ok (call_diagnose_run hev ..)]
    have hname := constraintName_eq hc hn
    obtain ⟨k, rfl⟩ := hc.target_eq
    have htype := toOption_getD_of_exists (st.exists_hasType k v)
    rw [bind_of_ok (Check.ofExcept_run htype _)]
    by_cases hv : (st.hasType (.ofClass k) v).toOption.getD false = true
    · simp only [diagnosis, fits, hv, if_true]
      rfl
    · simp only [diagnosis, fits, hv]
      exact bind_of_ok (Check.ofExcept_run (x := st.targetName (.ofClass k)) hname _)
  | literals literals =>
    rw [diagnose, bind_of_ok (call_diagnose_run hev ..)]
    have hname := constraintName_eq hc hn
    rw [bind_of_ok (accepts_run hev _ hc v h _)]
    by_cases hv : st.fits (.literals literals) v = true
    · simp only [diagnosis, hv, if_true]
      rfl
    · simp only [diagnosis, hv]
      exact bind_of_ok (Check.ofExcept_run (x := st.literalNames literals) hname _)
  | array element =>
    rw [diagnose, bind_of_ok (call_diagnose_run hev ..)]
    exact arrayDiagnostic_run hev element hc hn h p label _
  | union branches =>
    have hself := hev "_evaluate_union" (by decide)
    have hbranches := diagnoseEach_run hev branches hc hn v h label
      (s := s.perform ev (.called ⟨.diagnose, .union branches⟩)) (p := p)
      (by rw [policyIn_of_sameSettings (s.sameSettings_perform ev _), hp])
    rw [diagnose, bind_of_ok (call_diagnose_run hev ..), bind_of_ok (Check.ofExcept_run hself _),
      bind_of_ok hbranches]
    simp only [any_isNone_diagnosis]
    rw [diagnosis, fits, complaint, diagnoseEvents, fits, Session.performAll_cons,
      Session.performAll_append]
    by_cases hfits : st.fitsAny branches v = true
    · simp only [hfits, if_true, true_or]
      rfl
    · have hp' : st.policyIn ev ((s.perform ev (.called ⟨.diagnose, .union branches⟩)).performAll ev
          (st.diagnoseEventsOfAll branches v label)) = .ok p := by
        rw [policyIn_of_sameSettings (Session.sameSettings_performAll ev _ _),
          policyIn_of_sameSettings (s.sameSettings_perform ev _), hp]
      simp only [hfits, filterMap_diagnosis p label (Bool.not_eq_true _ ▸ hfits)]
      -- a single branch speaks for itself; only where there are others does the union ask for words
      match branches with
      | [c] => rfl
      | [] => exact bind_of_ok (unionComplaint_run (by simp) hc hn _ v label hp')
      | c :: c' :: cs => exact bind_of_ok (unionComplaint_run (by simp) hc hn _ v label hp')
  | refused fault => exact hc.elim
termination_by structural c
theorem diagnoseEach_run (hev : ev.IsIntact) (cs : List Constraint)
    (hcs : Constraint.LeavesOfAll Constraint.IsBasic cs)
    (hn : Constraint.LeavesOfAll st.NamesLiterals cs) (v : Value) (h : st.CanCompareAll cs v)
    (label : String) {s : Session} {p : Policy} (hp : st.policyIn ev s = .ok p) :
    st.diagnoseEach ev cs v label s = .ok (cs.map (st.diagnosis p · v label))
      (s.performAll ev (st.diagnoseEventsOfAll cs v label)) := by
  cases cs with
  | nil => rfl
  | cons c cs =>
    have hc := diagnose_run hev c hcs.1 hn.1 v h.1 label hp
    have hp' : st.policyIn ev (s.performAll ev (st.diagnoseEvents c v label)) = .ok p := by
      rw [policyIn_of_sameSettings (s.sameSettings_performAll ev _), hp]
    have hrest := diagnoseEach_run hev cs hcs.2 hn.2 v h.2 label hp'
    rw [diagnoseEach, bind_of_ok hc, bind_of_ok hrest, pure_run, diagnoseEventsOfAll,
      Session.performAll_append]
    rfl
termination_by structural cs
end

theorem subject_ne_empty (v : Value) (label : String) : st.subject v label ≠ "" := by
  have h : toString " is a " ≠ "" := by decide
  simp [subject, String.append_eq_empty_iff, h]

theorem withAlternatives_ne_empty {subject diagnostic : String} (h : subject ≠ "")
    (h' : diagnostic ≠ "") : withAlternatives subject diagnostic ≠ "" := by
  simp only [withAlternatives]
  split
  · simp [h]
  · exact h'

theorem unionComplaint_ne_empty (p : Policy) (branches : List Constraint) (v : Value)
    (label : String) : st.unionComplaint p branches v label ≠ "" := by
  simp only [unionComplaint]
  split
  · simp [wrongElements]
  · simp [notOneOf, subject_ne_empty]

mutual
theorem complaint_ne_empty (p : Policy) (c : Constraint) (v : Value) (label : String) :
    st.complaint p c v label ≠ "" := by
  cases c with
  | array element =>
    rw [complaint]
    split
    · simp [wrongElements]
    · simp [notA, subject_ne_empty]
  | union branches => exact complaintOfAll_ne_empty p branches v label
  | literals literals => simp [complaint, notOneOf, subject_ne_empty]
  | type target => simp [complaint, notA, subject_ne_empty]
  | refused fault => simp [complaint, notA, subject_ne_empty]
termination_by structural c
theorem complaintOfAll_ne_empty (p : Policy) (cs : List Constraint) (v : Value) (label : String) :
    st.complaintOfAll p cs v label ≠ "" := by
  match cs with
  | [c] => exact withAlternatives_ne_empty (subject_ne_empty v label) (complaint_ne_empty p c v label)
  | [] => exact unionComplaint_ne_empty p [] v label
  | c :: c' :: cs => exact unionComplaint_ne_empty p (c :: c' :: cs) v label
termination_by structural cs
end

end Store

end Conformance
