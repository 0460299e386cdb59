import Conformance.Proofs.Evaluation.Agreement
import Conformance.Proofs.Evaluation.Contrast

namespace Conformance

namespace Session

/-- Two ends of checks: the same fault, or answers that belong together. -/
inductive EndAlike {α β : Type} (R : α → β → Prop) :
    EStateM.Result Fault Session α → EStateM.Result Fault Session β → Prop
  | answers {a : α} {b : β} (h : R a b) (s t : Session) : EndAlike R (.ok a s) (.ok b t)
  | faults (e : Fault) (s t : Session) : EndAlike R (.error e s) (.error e t)

end Session

open Session

/-- Two checks that end alike, from whatever sessions they start. Unlike in lockstep, each of them
may note entries of its own. -/
def Counterparts {α β : Type} (R : α → β → Prop) (x : Check α) (y : Check β) : Prop :=
  ∀ s t, EndAlike R (x s) (y t)

theorem Lockstep.counterparts {α β : Type} {R : α → β → Prop} {x : Check α} {y : Check β}
    (h : Lockstep R x y) : Counterparts R x y := by
  intro s t
  have hends := h s t
  generalize x s = r at hends ⊢
  generalize y t = r' at hends ⊢
  cases hends with
  | answers hR calls entries => exact .answers hR _ _
  | faults e calls entries => exact .faults e _ _

namespace Counterparts

variable {α β γ δ : Type} {R : α → β → Prop} {Q : γ → δ → Prop} {x : Check α} {y : Check β}

theorem bind {f : α → Check γ} {g : β → Check δ} (h : Counterparts R x y)
    (hf : ∀ a b, R a b → Counterparts Q (f a) (g b)) : Counterparts Q (x >>= f) (y >>= g) := by
  intro s t
  have hxy := h s t
  simp only [Bind.bind, EStateM.bind]
  generalize x s = r at hxy ⊢
  generalize y t = r' at hxy ⊢
  cases hxy with
  | answers hR s' t' => exact hf _ _ hR s' t'
  | faults e s' t' => exact .faults e s' t'

theorem pure {a : α} {b : β} (h : R a b) : Counterparts R (Pure.pure a) (Pure.pure b) :=
  fun s t ↦ .answers h s t

theorem ofExcept (q : Except Fault α) :
    Counterparts (fun a b ↦ a = b) (Check.ofExcept q) (Check.ofExcept q) :=
  ((Lockstep.ofExcept q).mono fun _ _ h ↦ h.2).counterparts

theorem record (r r' : Record) :
    Counterparts (fun _ _ ↦ True) (Check.record r) (Check.record r') :=
  fun _ _ ↦ .answers trivial _ _

theorem run_ok (h : Counterparts R x y) {t t' : Session} {b : β} (hy : y t = .ok b t')
    (s : Session) : ∃ a s', x s = .ok a s' ∧ R a b := by
  have hends := h s t
  rw [hy] at hends
  generalize x s = r at hends ⊢
  cases hends with
  | answers hR s' t' => exact ⟨_, s', rfl, hR⟩

theorem run_error (h : Counterparts R x y) {t t' : Session} {e : Fault} (hy : y t = .error e t')
    (s : Session) : ∃ s', x s = .error e s' := by
  have hends := h s t
  rw [hy] at hends
  generalize x s = r at hends ⊢
  cases hends with
  | faults e s' t' => exact ⟨s', rfl⟩

end Counterparts

/-- Where both start with the label, it is the rest that is searched for the rest. -/
theorem withAlternatives_label (label subject diagnostic : String) :
    withAlternatives (label ++ subject) (label ++ diagnostic) =
      label ++ withAlternatives subject diagnostic := by
  have hprefix :
      (label ++ subject ++ ", not a ").toList.isPrefixOf (label ++ diagnostic).toList =
        (subject ++ ", not a ").toList.isPrefixOf diagnostic.toList := by
    rw [Bool.eq_iff_iff, List.isPrefixOf_iff_prefix, List.isPrefixOf_iff_prefix,
      String.append_assoc, @String.toList_append label, @String.toList_append label,
      List.prefix_append_right_inj]
  have hrest : (label ++ diagnostic).toList.drop (label ++ subject ++ ", not a ").length =
      diagnostic.toList.drop (subject ++ ", not a ").length := by
    rw [String.append_assoc, String.length_append, String.toList_append, ← String.length_toList,
      List.drop_append, List.drop_eq_nil_of_le (Nat.le_add_right _ _), Nat.add_sub_cancel_left,
      List.nil_append]
  simp only [withAlternatives, hprefix, hrest]
  split
  · rw [String.append_assoc, String.append_assoc, String.append_assoc]
  · rfl

namespace Store

variable {st : Store} {ev : Evaluator} {p : Policy}

theorem wrongElements_label (label element : String) :
    wrongElements label element = label ++ wrongElements "" element := by
  simp only [wrongElements, String.append_assoc, String.empty_append]

theorem subject_label (v : Value) (label : String) :
    st.subject v label = label ++ st.subject v "" := by
  simp only [subject, String.append_assoc]
  rfl

theorem notA_label (v : Value) (label expected : String) :
    st.notA v label expected = label ++ st.notA v "" expected := by
  rw [notA, notA, subject_label, String.append_assoc, String.append_assoc, String.append_assoc]

theorem notOneOf_label (v : Value) (label expected : String) :
    st.notOneOf v label expected = label ++ st.notOneOf v "" expected := by
  rw [notOneOf, notOneOf, subject_label, String.append_assoc, String.append_assoc,
    String.append_assoc]

def Labels (label : String) (a b : Option String) : Prop := a = b.map (label ++ ·)

theorem arrayDiagnostic_label (hev : ev.IsIntact) (element : Constraint) (v : Value)
    (label : String) :
    Counterparts (Labels label) (st.arrayDiagnostic ev element v label)
      (st.arrayDiagnostic ev element v "") := by
  unfold arrayDiagnostic
  refine .bind (offers_lockstep hev hev (by decide)).counterparts fun _ _ _ ↦ ?_
  cases st.arrayItems? v with
  | none => exact .pure (congrArg some (notA_label v label "Array"))
  | some items =>
    refine .bind (offers_lockstep hev hev (by decide)).counterparts fun _ _ _ ↦ ?_
    refine .bind (mismatches_lockstep hev hev element items).counterparts ?_
    rintro offending _ rfl
    split
    · exact .pure rfl
    · refine .bind (.ofExcept _) ?_
      rintro name _ rfl
      -- the records differ in the label that they show
      refine .bind (.record _ _) fun _ _ _ ↦ .pure ?_
      exact congrArg some (wrongElements_label label name)

theorem unionWording_label (branches : List Constraint) (v : Value) (label : String)
    (byElement : Option Constraint) :
    Counterparts (fun text text' ↦ text = label ++ text')
      (st.unionWording branches v label byElement) (st.unionWording branches v "" byElement) := by
  cases byElement with
  | some element =>
    refine .bind (.ofExcept _) ?_
    rintro name _ rfl
    exact .pure (wrongElements_label label name)
  | none =>
    refine .bind (.ofExcept _) ?_
    rintro names _ rfl
    exact .pure (notOneOf_label v label _)

theorem unionDiagnostic_label (hp : ev.policy? = .ok (some p)) (branches : List Constraint)
    (diagnostics : List String) (v : Value) (label : String) :
    Counterparts (fun text text' ↦ text = label ++ text')
      (st.unionDiagnostic ev branches (diagnostics.map (label ++ ·)) v label)
      (st.unionDiagnostic ev branches diagnostics v "") := by
  by_cases hsingle : branches.length = 1 ∧ diagnostics.length = 1
  · obtain ⟨hbranches, hdiagnostics⟩ := hsingle
    obtain ⟨c, rfl⟩ := List.length_eq_one_iff.1 hbranches
    obtain ⟨diagnostic, rfl⟩ := List.length_eq_one_iff.1 hdiagnostics
    refine .pure ?_
    rw [subject_label]
    exact withAlternatives_label label _ diagnostic
  · rw [unionDiagnostic_of_many ev hsingle, unionDiagnostic_of_many ev (by rwa [List.length_map]),
      policyFor_of_policy hp, pure_bind, pure_bind]
    exact unionWording_label branches v label _

theorem any_isNone_label (label : String) (diagnostics : List (Option String)) :
    (diagnostics.map (Option.map (label ++ ·))).any Option.isNone =
      diagnostics.any Option.isNone := by
  simp only [List.any_map, Function.comp_def, Option.isNone_map]

theorem filterMap_label (label : String) (diagnostics : List (Option String)) :
    (diagnostics.map (Option.map (label ++ ·))).filterMap id =
      (diagnostics.filterMap id).map (label ++ ·) := by
  rw [List.filterMap_map, List.map_filterMap]
  rfl

mutual
theorem diagnose_label (hev : ev.IsIntact) (hp : ev.policy? = .ok (some p)) (c : Constraint)
    (v : Value) (label : String) :
    Counterparts (Labels label) (st.diagnose ev c v label) (st.diagnose ev c v "") := by
  cases c with
  | type target =>
    simp only [diagnose]
    refine .bind (call_lockstep hev hev _ _).counterparts fun _ _ _ ↦ ?_
    refine .bind (.ofExcept _) ?_
    rintro fits _ rfl
    split
    · exact .pure rfl
    · refine .bind (.ofExcept _) ?_
      rintro name _ rfl
      exact .pure (congrArg some (notA_label v label name))
  | literals literals =>
    simp only [diagnose]
    refine .bind (call_lockstep hev hev _ _).counterparts fun _ _ _ ↦ ?_
    refine .bind (accepts_lockstep hev hev _ v).counterparts ?_
    rintro fits _ rfl
    split
    · exact .pure rfl
    · refine .bind (.ofExcept _) ?_
      rintro names _ rfl
      exact .pure (congrArg some (notOneOf_label v label names))
  | array element =>
    simp only [diagnose]
    exact .bind (call_lockstep hev hev _ _).counterparts fun _ _ _ ↦
      arrayDiagnostic_label hev element v label
  | union branches =>
    simp only [diagnose]
    refine .bind (call_lockstep hev hev _ _).counterparts fun _ _ _ ↦ ?_
    refine .bind (offers_lockstep hev hev (by decide)).counterparts fun _ _ _ ↦ ?_
    refine .bind (diagnoseEach_label hev hp branches v label) ?_
    rintro _ diagnostics rfl
    rw [any_isNone_label, filterMap_label]
    split
    · exact .pure rfl
    · refine .bind (unionDiagnostic_label hp branches _ v label) ?_
      rintro _ text rfl
      exact .pure rfl
  | refused fault =>
    simp only [diagnose]
    exact .bind (call_lockstep hev hev _ _).counterparts fun _ _ _ ↦
      (Lockstep.throw fault).counterparts
termination_by structural c
theorem diagnoseEach_label (hev : ev.IsIntact) (hp : ev.policy? = .ok (some p))
    (cs : List Constraint) (v : Value) (label : String) :
    Counterparts (fun as bs ↦ as = bs.map (Option.map (label ++ ·))) (st.diagnoseEach ev cs v label)
      (st.diagnoseEach ev cs v "") := by
  cases cs with
  | nil => exact .pure rfl
  | cons c cs =>
    simp only [diagnoseEach]
    refine .bind (diagnose_label hev hp c v label) ?_
    rintro _ diagnostic? rfl
    refine .bind (diagnoseEach_label hev hp cs v label) ?_
    rintro _ diagnostics rfl
    exact .pure rfl
termination_by structural cs
end

/-- A value is in order under every label, or the same words tell under every label what is wrong
with it, right after the label. A diagnosis that fails does so under every label, and only where
literals cannot be compared or named. -/
theorem diagnose_parametric (st : Store) (hev : ev.IsIntact) (hp : ev.policy? = .ok (some p))
    (c : Constraint) (v : Value) :
    (∀ label, (st.diagnose ev c v label).Answers none) ∨
    (∃ words, ∀ label, (st.diagnose ev c v label).Answers (some (label ++ words))) ∨
    ∃ fault, (∀ label s, ∃ t, st.diagnose ev c v label s = .error fault t) ∧
      ¬ (c.IsProper ∧ st.CanCompare c v ∧ st.CanName c) := by
  have hcounterparts (label : String) :
      Counterparts (Labels label) (st.diagnose ev c v label) (st.diagnose ev c v "") :=
    diagnose_label hev hp c v label
  cases hrun : st.diagnose ev c v "" .initial with
  | ok diagnostic? t =>
    have hanswers (label : String) :
        (st.diagnose ev c v label).Answers (diagnostic?.map (label ++ ·)) := by
      intro s
      obtain ⟨_, s', hs, rfl⟩ := (hcounterparts label).run_ok hrun s
      exact ⟨s', hs⟩
    cases diagnostic? with
    | none => exact .inl hanswers
    | some words => exact .inr (.inl ⟨words, hanswers⟩)
  | error fault t =>
    refine .inr (.inr ⟨fault, fun label s ↦ (hcounterparts label).run_error hrun s, ?_⟩)
    rintro ⟨hc, hv, hn⟩
    obtain ⟨diagnostic?, t', hends⟩ := exists_diagnose_of_policy hev hp hc hn hv "" .initial
    rw [hrun] at hends
    cases hends

/-- Of a number that is to be a text, in a union of a union, the same is said under labels that read
like the words to be replaced. -/
theorem diagnose_parametric_number :
    let ev := Evaluator.ofPolicy (some .generic)
    let c := Constraint.union [.union [.type (.ofClass (.builtin .text))]]
    ev.IsIntact ∧ ev.policy? = .ok (some .generic) ∧
      ∀ label, (initial.diagnose ev c (.int 7) label).Answers
        (some (label ++ " is a Integer, not one of String")) := by
  intro ev c
  have hev : ev.IsIntact := Evaluator.isIntact_ofPolicy _
  have hrun : ∃ t, initial.diagnose ev c (.int 7) "" .initial =
      .ok (some " is a Integer, not one of String") t := ⟨_, rfl⟩
  obtain ⟨t, hrun⟩ := hrun
  refine ⟨hev, rfl, ?_⟩
  rcases diagnose_parametric initial hev rfl c (.int 7) with h | ⟨words, h⟩ | ⟨fault, h, -⟩
  · exact absurd (h "") (Check.not_answers_of_run hrun (by simp))
  · obtain ⟨t', hwords⟩ := h "" .initial
    rw [hrun, String.empty_append] at hwords
    cases hwords
    exact h
  · obtain ⟨t', hfault⟩ := h "" .initial
    rw [hrun] at hfault
    cases hfault

/-- Of a note nothing can be said, neither that it is a note nor that it is not one of two. -/
theorem not_diagnose_parametric :
    ¬ ∀ (st : Store) (ev : Evaluator) (p : Policy) (c : Constraint) (v : Value), ev.IsIntact →
      ev.policy? = .ok (some p) → c.IsProper →
      (∀ label, (st.diagnose ev c v label).Answers none) ∨
      ∃ words, ∀ label, (st.diagnose ev c v label).Answers (some (label ++ words)) := by
  intro h
  let note := Value.object (.defined 1)
  let c := Constraint.union [.literals [note ⟨4⟩], .type (.ofClass (.defined 1))]
  let ev := Evaluator.ofPolicy (some .element)
  have hrun : ∃ t, withNotes.diagnose ev c (note ⟨5⟩) "" .initial = .error (.notCallable "int") t :=
    ⟨_, rfl⟩
  obtain ⟨t, hrun⟩ := hrun
  have hfails (diagnostic? : Option String) :
      ¬ (withNotes.diagnose ev c (note ⟨5⟩) "").Answers diagnostic? := by
    intro hanswers
    obtain ⟨t', hanswers⟩ := hanswers .initial
    rw [hrun] at hanswers
    cases hanswers
  rcases h withNotes ev .element c (note ⟨5⟩) (Evaluator.isIntact_ofPolicy _) rfl
    ⟨trivial, trivial, trivial⟩ with h | ⟨words, h⟩
  · exact hfails _ (h "")
  · exact hfails _ (h "")

end Store

end Conformance
