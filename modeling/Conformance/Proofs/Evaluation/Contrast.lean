import Conformance.Proofs.Evaluation.Alternatives
import Conformance.Proofs.Evaluation.Concordance

namespace Conformance

namespace Constraint

mutual
/-- A constraint without the unions of one branch that are around it. -/
def peeled : Constraint → Constraint
  | .union branches => peeledUnion branches
  | c => c
termination_by structural c => c
def peeledUnion : List Constraint → Constraint
  | [c] => c.peeled
  | branches => .union branches
termination_by structural cs => cs
end

theorem peeled_union_of_many {branches : List Constraint} (h : branches.length ≠ 1) :
    (Constraint.union branches).peeled = .union branches := by
  match branches with
  | [] => rfl
  | [c] => exact absurd rfl h
  | c :: d :: cs => rfl

end Constraint

namespace Store

open Constraint

/-- The situation in which the wording is a matter of policy: an array is judged by a union of several
branches, and arrays are among its alternatives. -/
def WordedByPolicy (st : Store) (c : Constraint) (v : Value) : Prop :=
  (st.arrayItems? v).isSome ∧ ∃ branches element,
    c.peeled = .union branches ∧ 2 ≤ branches.length ∧ .array element ∈ c.peeled.alternatives

/-- What is said in that situation: by element, what is wrong with the array that comes first among
the alternatives, and else what the branches are. -/
def PolicyWording (st : Store) (p : Policy) (c : Constraint) (v : Value) (label text : String) :
    Prop :=
  match p with
  | .element => ∃ element name, c.peeled.alternatives.findSome? element? = some element ∧
    st.constraintName element = .ok name ∧ text = wrongElements label name
  | .generic => ∃ branches names, c.peeled = .union branches ∧
    branches.mapM st.constraintName = .ok names ∧
    text = st.notOneOf v label (commaSeparated names)

/-- Two diagnoses of one value by two policies. -/
structure Contrast (st : Store) (p q : Policy) (c : Constraint) (v : Value) (label : String)
    (a b : Option String) : Prop where
  sameDiagnosis : st.SameDiagnosis c v a b
  elsewhere : ¬ st.WordedByPolicy c v → a = b
  left (h : st.WordedByPolicy c v) {text : String} (ha : a = some text) :
    st.PolicyWording p c v label text
  right (h : st.WordedByPolicy c v) {text : String} (hb : b = some text) :
    st.PolicyWording q c v label text

variable {st : Store} {p q : Policy} {v : Value} {label : String}

theorem contrast_of_eq {c : Constraint} (hc : ¬ st.WordedByPolicy c v) {a b : Option String}
    (hab : a = b) (hsame : st.SameDiagnosis c v a b) : st.Contrast p q c v label a b where
  sameDiagnosis := hsame
  elsewhere _ := hab
  left h := absurd h hc
  right h := absurd h hc

theorem contrast_none (c : Constraint) : st.Contrast p q c v label none none where
  sameDiagnosis := sameDiagnosis_none c
  elsewhere _ := rfl
  left _ := nofun
  right _ := nofun

theorem not_wordedByPolicy {c : Constraint} (hc : ∀ branches, c ≠ .union branches) :
    ¬ st.WordedByPolicy c v := by
  rintro ⟨-, branches, -, hpeeled, -⟩
  cases c with
  | union branches' => exact hc branches' rfl
  | _ => cases hpeeled

/-- The words of the situation are not words to be replaced by the enclosing union. -/
theorem withAlternatives_policyWording {c : Constraint} {text : String}
    (h : st.PolicyWording p c v label text) :
    withAlternatives (st.subject v label) text = text := by
  cases p with
  | element =>
    obtain ⟨element, name, -, -, rfl⟩ := h
    exact withAlternatives_wrongElements v label name
  | generic =>
    obtain ⟨branches, names, -, -, rfl⟩ := h
    exact withAlternatives_notOneOf v label _

theorem Contrast.enclosed {c : Constraint} {a b : Option String}
    (h : st.Contrast p q c v label a b) : st.Contrast p q (.union [c]) v label
      (a.map (withAlternatives (st.subject v label)))
      (b.map (withAlternatives (st.subject v label))) where
  sameDiagnosis := by
    refine ⟨by rw [Option.isSome_map, Option.isSome_map, h.sameDiagnosis.1], fun ha hv ↦ ?_⟩
    rw [Option.isSome_map] at ha
    rw [constraintName_union, eitherName_singleton]
    exact h.sameDiagnosis.2 ha hv
  elsewhere hc := by rw [h.elsewhere hc]
  left hc := by
    intro text ha
    obtain ⟨said, hsaid, rfl⟩ := Option.map_eq_some_iff.1 ha
    have hwording := h.left hc hsaid
    rw [withAlternatives_policyWording hwording]
    exact hwording
  right hc := by
    intro text hb
    obtain ⟨said, hsaid, rfl⟩ := Option.map_eq_some_iff.1 hb
    have hwording := h.right hc hsaid
    rw [withAlternatives_policyWording hwording]
    exact hwording

variable {branches : List Constraint}

theorem wordedByPolicy_union_iff (hb : branches.length ≠ 1) :
    st.WordedByPolicy (.union branches) v ↔
      (st.arrayItems? v).isSome ∧ (Constraint.union branches).firstArray?.isSome := by
  rw [WordedByPolicy, peeled_union_of_many hb, firstArray?_eq_findSome?]
  refine and_congr_right fun _ ↦ ⟨fun ⟨bs, element, hbs, hlength, hmem⟩ ↦ ?_, fun h ↦ ?_⟩
  · rw [List.findSome?_isSome_iff]
    exact ⟨_, hmem, rfl⟩
  · obtain ⟨element, helement⟩ := Option.isSome_iff_exists.1 h
    refine ⟨branches, element, rfl, ?_, mem_of_findSome?_element? helement⟩
    match branches with
    | [] => cases helement
    | [c] => exact absurd rfl hb
    | c :: d :: cs => exact Nat.le_add_left 2 cs.length

theorem exists_policyWording (hb : branches.length ≠ 1) {names : List String}
    (hnames : st.constraintNames branches = .ok names)
    (h : st.WordedByPolicy (.union branches) v) (label : String) (p : Policy) :
    ∃ text, st.unionWording branches v label (st.accusedArray? branches v p) = pure text ∧
      st.PolicyWording p (.union branches) v label text := by
  obtain ⟨hv, hfirst⟩ := (wordedByPolicy_union_iff hb).1 h
  obtain ⟨element, helement⟩ := Option.isSome_iff_exists.1 hfirst
  cases p with
  | element =>
    obtain ⟨name, hname⟩ := exists_name_of_firstArrayOf? branches helement hnames
    have haccused : st.accusedArray? branches v .element = some element := by
      rw [accusedArray?, if_pos ⟨rfl, hv⟩, helement]
    refine ⟨wrongElements label name, by rw [haccused, unionWording, hname]; rfl, element, name, ?_,
      hname, rfl⟩
    rw [peeled_union_of_many hb, ← firstArray?_eq_findSome?, helement]
  | generic =>
    have hmapM := mapM_constraintName_of_constraintNames hnames
    have haccused : st.accusedArray? branches v .generic = none := if_neg fun h ↦ by cases h.1
    exact ⟨st.notOneOf v label (commaSeparated names),
      by rw [haccused, unionWording, hmapM]; rfl, branches, names, peeled_union_of_many hb, hmapM, rfl⟩

theorem accusedArray?_eq_none (hb : branches.length ≠ 1)
    (h : ¬ st.WordedByPolicy (.union branches) v) (p : Policy) :
    st.accusedArray? branches v p = none := by
  rw [wordedByPolicy_union_iff hb, not_and, Option.not_isSome_iff_eq_none] at h
  unfold accusedArray?
  split
  · next hv => exact h hv.2
  · rfl

/-- If an array is judged, all branches have failed and have been named. -/
theorem unionWording_contrast (hb : branches.length ≠ 1)
    (hnamed : (st.arrayItems? v).isSome → ∃ names, st.constraintNames branches = .ok names)
    (label : String) (p q : Policy) :
    Lockstep (fun text text' ↦ st.Contrast p q (.union branches) v label (some text) (some text'))
      (st.unionWording branches v label (st.accusedArray? branches v p))
      (st.unionWording branches v label (st.accusedArray? branches v q)) := by
  have hname (hv : (st.arrayItems? v).isSome) := exists_unionName (hnamed hv)
  by_cases h : st.WordedByPolicy (.union branches) v
  · obtain ⟨names, hnames⟩ := hnamed h.1
    obtain ⟨text, htext, hwording⟩ := exists_policyWording hb hnames h label p
    obtain ⟨text', htext', hwording'⟩ := exists_policyWording hb hnames h label q
    rw [htext, htext']
    refine .pure ⟨sameDiagnosis_some hname, fun hc ↦ absurd h hc, ?_, ?_⟩
    · rintro _ _ ⟨⟩
      exact hwording
    · rintro _ _ ⟨⟩
      exact hwording'
  · rw [accusedArray?_eq_none hb h p, accusedArray?_eq_none hb h q, unionWording]
    refine .bind (.ofExcept _) ?_
    rintro names _ ⟨-, rfl⟩
    exact .pure (contrast_of_eq h rfl (sameDiagnosis_some hname))

variable {e g : Evaluator}

theorem policyFor_of_policy (he : e.policy? = .ok (some p)) : st.policyFor e = pure p := by
  rw [policyFor, he]
  rfl

/-- With a policy of its own an evaluator comes to an end wherever literals can be compared and named.
-/
theorem exists_diagnose_of_policy (he : e.IsIntact) (hp : e.policy? = .ok (some p)) {c : Constraint}
    (hc : c.IsProper) (hn : st.CanName c) (hv : st.CanCompare c v) (label : String) (s : Session) :
    ∃ diagnostic? t, st.diagnose e c v label s = .ok diagnostic? t := by
  have hpolicy : st.policyIn e s = .ok p := by
    rw [policyIn, hp]
    rfl
  exact ⟨_, _, diagnose_run he c hc hn v hv label hpolicy⟩

structure Contrasts (st : Store) (p q : Policy) (cs : List Constraint) (v : Value) (label : String)
    (as bs : List (Option String)) : Prop where
  sameDiagnoses : st.SameDiagnoses cs v as bs
  length : as.length = cs.length
  single {c : Constraint} (h : cs = [c]) :
    ∃ a b, as = [a] ∧ bs = [b] ∧ st.Contrast p q c v label a b

theorem contrasts_nil : st.Contrasts p q [] v label [] [] where
  sameDiagnoses := sameDiagnoses_nil
  length := rfl
  single h := nomatch h

theorem Contrasts.cons {c : Constraint} {cs : List Constraint} {a b : Option String}
    {as bs : List (Option String)} (h : st.Contrast p q c v label a b)
    (hs : st.Contrasts p q cs v label as bs) :
    st.Contrasts p q (c :: cs) v label (a :: as) (b :: bs) where
  sameDiagnoses := sameDiagnoses_cons h.sameDiagnosis hs.sameDiagnoses
  length := by rw [List.length_cons, List.length_cons, hs.length]
  single := by
    rintro _ ⟨⟩
    have has : as = [] := List.length_eq_zero_iff.1 hs.length
    have hbs : bs = [] := by
      have hlength := congrArg List.length hs.sameDiagnoses.1
      rwa [List.length_map, List.length_map, has, List.length_nil, eq_comm,
        List.length_eq_zero_iff] at hlength
    exact ⟨a, b, by rw [has], by rw [hbs], h⟩

/-- Where all branches fail, a single one has its say, and several of them are told apart by the
policy. -/
theorem unionDiagnostic_contrast (he : e.policy? = .ok (some p)) (hg : g.policy? = .ok (some q))
    {as bs : List (Option String)} (h : st.Contrasts p q branches v label as bs)
    (has : as.all Option.isSome) (hbs : bs.all Option.isSome) :
    Lockstep
      (fun text text' ↦ st.Contrast p q (.union branches) v label (some text) (some text'))
      (st.unionDiagnostic e branches (as.filterMap id) v label)
      (st.unionDiagnostic g branches (bs.filterMap id) v label) := by
  by_cases hsingle : branches.length = 1
  · obtain ⟨c, rfl⟩ := List.length_eq_one_iff.1 hsingle
    obtain ⟨a, b, rfl, rfl, hcontrast⟩ := h.single rfl
    obtain ⟨text, ⟨⟩⟩ := exists_singleton_of_all rfl has
    obtain ⟨text', ⟨⟩⟩ := exists_singleton_of_all rfl hbs
    exact .pure hcontrast.enclosed
  · rw [unionDiagnostic_of_many e fun h ↦ hsingle h.1, unionDiagnostic_of_many g fun h ↦ hsingle h.1,
      policyFor_of_policy he, policyFor_of_policy hg, pure_bind, pure_bind]
    exact unionWording_contrast hsingle (h.sameDiagnoses.2 has) label p q

mutual
theorem diagnose_contrast (he : e.IsIntact) (hp : e.policy? = .ok (some p)) (hg : g.IsIntact)
    (hq : g.policy? = .ok (some q)) (c : Constraint) (v : Value) (label : String) :
    Lockstep (st.Contrast p q c v label) (st.diagnose e c v label) (st.diagnose g c v label) := by
  cases c with
  | union branches =>
    simp only [diagnose]
    refine .bind (call_lockstep he hg _ _) fun _ _ _ ↦ ?_
    refine .bind (offers_lockstep he hg (by decide)) fun _ _ _ ↦ ?_
    refine .bind (diagnoseEach_contrast he hp hg hq branches v label) fun as bs h ↦ ?_
    rw [any_isNone_of_map h.sameDiagnoses.1]
    cases hany : bs.any Option.isNone with
    | true => exact .pure (contrast_none _)
    | false =>
      have hbs := all_isSome_of_any_isNone hany
      have has := all_isSome_of_any_isNone ((any_isNone_of_map h.sameDiagnoses.1).trans hany)
      exact .bind (unionDiagnostic_contrast hp hq h has hbs) fun _ _ hcontrast ↦ .pure hcontrast
  | _ =>
    refine (diagnose_lockstep_of_ne_union he hg ?_ v label).mono fun a b h ↦
      contrast_of_eq (not_wordedByPolicy ?_) h.1 h.2
    all_goals exact fun _ h ↦ by cases h
termination_by structural c
theorem diagnoseEach_contrast (he : e.IsIntact) (hp : e.policy? = .ok (some p)) (hg : g.IsIntact)
    (hq : g.policy? = .ok (some q)) (cs : List Constraint) (v : Value) (label : String) :
    Lockstep (st.Contrasts p q cs v label) (st.diagnoseEach e cs v label)
      (st.diagnoseEach g cs v label) := by
  cases cs with
  | nil => exact .pure contrasts_nil
  | cons c cs =>
    simp only [diagnoseEach]
    refine .bind (diagnose_contrast he hp hg hq c v label) fun a b h ↦ ?_
    refine .bind (diagnoseEach_contrast he hp hg hq cs v label) fun as bs hs ↦ ?_
    exact .pure (Contrasts.cons h hs)
termination_by structural cs
end

theorem PolicyWording.unique {c : Constraint} {text text' : String}
    (h : st.PolicyWording p c v label text) (h' : st.PolicyWording p c v label text') :
    text = text' := by
  cases p with
  | element =>
    obtain ⟨element, name, helement, hname, rfl⟩ := h
    obtain ⟨element', name', helement', hname', rfl⟩ := h'
    cases helement.symm.trans helement'
    cases hname.symm.trans hname'
    rfl
  | generic =>
    obtain ⟨branches, names, hbranches, hnames, rfl⟩ := h
    obtain ⟨branches', names', hbranches', hnames', rfl⟩ := h'
    cases hbranches.symm.trans hbranches'
    cases hnames.symm.trans hnames'
    rfl

theorem Contrast.eq {c : Constraint} {a b : Option String} (h : st.Contrast p p c v label a b) :
    a = b := by
  by_cases hc : st.WordedByPolicy c v
  · have hsome := h.sameDiagnosis.1
    cases a with
    | none =>
      cases b with
      | none => rfl
      | some text' => cases hsome
    | some text =>
      cases b with
      | none => cases hsome
      | some text' => rw [(h.left hc rfl).unique (h.right hc rfl)]
  · exact h.elsewhere hc

theorem diagnose_ignoresSettings (he : e.IsIntact) (hp : e.policy? = .ok (some p)) (c : Constraint)
    (v : Value) (label : String) : (st.diagnose e c v label).IgnoresSettings :=
  (diagnose_contrast he hp he hp c v label).mono fun _ _ ↦ Contrast.eq

theorem wrongElements_ne_notOneOf (v : Value) (label name names : String) :
    wrongElements label name ≠ st.notOneOf v label names := by
  intro h
  have hsubject : st.subject v label = label ++ (" is a " ++ st.kindName v) := by
    simp only [subject, String.append_assoc]
    rfl
  rw [wrongElements, notOneOf, hsubject, String.append_assoc, String.append_assoc,
    String.append_assoc, String.append_assoc] at h
  have hlist := congrArg String.toList h
  simp at hlist

theorem PolicyWording.ne {c : Constraint} {text text' : String}
    (h : st.PolicyWording .element c v label text) (h' : st.PolicyWording .generic c v label text') :
    text ≠ text' := by
  obtain ⟨element, name, -, -, rfl⟩ := h
  obtain ⟨branches, names, -, -, rfl⟩ := h'
  exact wrongElements_ne_notOneOf v label name _

/-- With the policies given, a diagnosis by element and a generic one make the same calls, note the
same entries and find the same values at fault. They use the same words except in one situation, in
which they never do. -/
theorem diagnose_by_element_or_generic (st : Store) (he : e.IsIntact)
    (hp : e.policy? = .ok (some .element)) (hg : g.IsIntact)
    (hq : g.policy? = .ok (some .generic)) (c : Constraint) (v : Value) (label : String) :
    Lockstep
      (fun a b ↦ (a = none ↔ b = none) ∧ (¬ st.WordedByPolicy c v → a = b) ∧
        (st.WordedByPolicy c v → ∀ text text', a = some text → b = some text' →
          st.PolicyWording .element c v label text ∧ st.PolicyWording .generic c v label text' ∧
          text ≠ text'))
      (st.diagnose e c v label) (st.diagnose g c v label) ∧
    (c.IsProper → st.CanName c → st.CanCompare c v →
      ∀ s, ∃ diagnostic? t, st.diagnose e c v label s = .ok diagnostic? t) := by
  refine ⟨(diagnose_contrast he hp hg hq c v label).mono fun a b h ↦ ⟨?_, h.elsewhere, ?_⟩, ?_⟩
  · rw [← Option.not_isSome_iff_eq_none, ← Option.not_isSome_iff_eq_none, h.sameDiagnosis.1]
  · intro hc text text' ha hb
    have hleft := h.left hc ha
    have hright := h.right hc hb
    exact ⟨hleft, hright, hleft.ne hright⟩
  · exact fun hc hn hv ↦ exists_diagnose_of_policy he hp hc hn hv label

def numberOrTexts : Constraint :=
  .union [.union [.type (.ofClass (.builtin .integer)), .array (.type (.ofClass (.builtin .text)))]]

/-- A list of a number is at fault for its elements, or for being a list. -/
theorem diagnose_by_element_or_generic_numbers :
    let e := Evaluator.ofPolicy (some .element)
    let g := Evaluator.ofPolicy (some .generic)
    let v := Value.tuple [.int 1]
    e.IsIntact ∧ e.policy? = .ok (some .element) ∧ g.IsIntact ∧ g.policy? = .ok (some .generic) ∧
      initial.WordedByPolicy numberOrTexts v ∧
      ∃ text text' s t, initial.diagnose e numberOrTexts v "Size" .initial = .ok (some text) s ∧
        initial.diagnose g numberOrTexts v "Size" .initial = .ok (some text') t ∧
        initial.PolicyWording .element numberOrTexts v "Size" text ∧
        initial.PolicyWording .generic numberOrTexts v "Size" text' ∧ text ≠ text' := by
  have helement : ∃ s, initial.diagnose (.ofPolicy (some .element)) numberOrTexts (.tuple [.int 1])
      "Size" .initial = .ok (some "Size Array contains non-String elements") s := ⟨_, rfl⟩
  intro e g v
  have he : e.IsIntact := Evaluator.isIntact_ofPolicy _
  have hg : g.IsIntact := Evaluator.isIntact_ofPolicy _
  have hworded : initial.WordedByPolicy numberOrTexts v :=
    ⟨rfl, _, _, rfl, Nat.le_refl 2, List.mem_cons_of_mem _ List.mem_cons_self⟩
  obtain ⟨hlockstep, -⟩ :=
    diagnose_by_element_or_generic initial he rfl hg rfl numberOrTexts v "Size"
  obtain ⟨s, helement⟩ := helement
  obtain ⟨b, t, hgeneric, hnone, -, hwording⟩ := hlockstep.run_ok helement (t := .initial)
  obtain ⟨text', rfl⟩ := Option.ne_none_iff_exists'.1 fun hb ↦ nomatch hnone.2 hb
  exact ⟨he, rfl, hg, rfl, hworded, _, text', s, t, helement, hgeneric,
    hwording hworded _ _ rfl rfl⟩

end Store

end Conformance
