import Conformance.Proofs.Evaluation.Course

namespace Conformance

namespace Store

variable {st : Store} {ev : Evaluator} {v : Value}

/-- Values of one shape: they are both arrays, whose items are of one shape each, or neither of them is.
As arrays may hold themselves, this is meant as the largest such relation. -/
def SameShape (st : Store) (v w : Value) : Prop :=
  ∃ R : Value → Value → Prop, R v w ∧
    ∀ v w, R v w → Option.Rel (List.Forall₂ R) (st.arrayItems? v) (st.arrayItems? w)

theorem SameShape.items {w : Value} (h : st.SameShape v w) :
    Option.Rel (List.Forall₂ st.SameShape) (st.arrayItems? v) (st.arrayItems? w) := by
  obtain ⟨R, hvw, hR⟩ := h
  have hitems := hR v w hvw
  generalize st.arrayItems? v = items at hitems ⊢
  generalize st.arrayItems? w = items' at hitems ⊢
  cases hitems with
  | none => exact .none
  | some h => exact .some (h.imp fun a b hab ↦ ⟨R, hab, hR⟩)

theorem sameShape_of_items {w : Value}
    (h : Option.Rel (List.Forall₂ st.SameShape) (st.arrayItems? v) (st.arrayItems? w)) :
    st.SameShape v w := by
  refine ⟨fun a b ↦ st.SameShape a b ∨ (a = v ∧ b = w), .inr ⟨rfl, rfl⟩, fun a b hab ↦ ?_⟩
  have hitems : Option.Rel (List.Forall₂ st.SameShape) (st.arrayItems? a) (st.arrayItems? b) := by
    rcases hab with hab | ⟨rfl, rfl⟩
    · exact hab.items
    · exact h
  generalize st.arrayItems? a = items at hitems ⊢
  generalize st.arrayItems? b = items' at hitems ⊢
  cases hitems with
  | none => exact .none
  | some h => exact .some (h.imp fun _ _ ↦ .inl)

theorem flatMap_eq_of_forall₂ {α β : Type} {R : α → α → Prop} {f : α → List β} {l m : List α}
    (h : List.Forall₂ R l m) (hf : ∀ a b, R a b → f a = f b) : l.flatMap f = m.flatMap f := by
  induction h with
  | nil => rfl
  | cons hab _ ih => rw [List.flatMap_cons, List.flatMap_cons, hf _ _ hab, ih]

theorem SameShape.flatMap_items {w : Value} (h : st.SameShape v w) {f : Value → List Call}
    (hf : ∀ a b, st.SameShape a b → f a = f b) :
    ((st.arrayItems? v).getD []).flatMap f = ((st.arrayItems? w).getD []).flatMap f := by
  have hitems := h.items
  generalize st.arrayItems? v = items at hitems ⊢
  generalize st.arrayItems? w = items' at hitems ⊢
  cases hitems with
  | none => rfl
  | some h => exact flatMap_eq_of_forall₂ h hf

mutual
theorem acceptCalls_of_sameShape (c : Constraint) {v w : Value} (h : st.SameShape v w) :
    st.acceptCalls c v = st.acceptCalls c w := by
  cases c with
  | array element =>
    rw [acceptCalls, acceptCalls, h.flatMap_items fun a b ↦ acceptCalls_of_sameShape element]
  | union branches => rw [acceptCalls, acceptCalls, acceptCallsOfAll_of_sameShape branches h]
  | _ => rfl
termination_by structural c
theorem acceptCallsOfAll_of_sameShape (cs : List Constraint) {v w : Value} (h : st.SameShape v w) :
    st.acceptCallsOfAll cs v = st.acceptCallsOfAll cs w := by
  cases cs with
  | nil => rfl
  | cons c cs =>
    rw [acceptCallsOfAll, acceptCallsOfAll, acceptCalls_of_sameShape c h,
      acceptCallsOfAll_of_sameShape cs h]
termination_by structural cs
end

mutual
theorem diagnoseCalls_of_sameShape (c : Constraint) {v w : Value} (h : st.SameShape v w) :
    st.diagnoseCalls c v = st.diagnoseCalls c w := by
  cases c with
  | array element =>
    rw [diagnoseCalls, diagnoseCalls, h.flatMap_items fun a b ↦ acceptCalls_of_sameShape element]
  | union branches => rw [diagnoseCalls, diagnoseCalls, diagnoseCallsOfAll_of_sameShape branches h]
  | _ => rfl
termination_by structural c
theorem diagnoseCallsOfAll_of_sameShape (cs : List Constraint) {v w : Value}
    (h : st.SameShape v w) : st.diagnoseCallsOfAll cs v = st.diagnoseCallsOfAll cs w := by
  cases cs with
  | nil => rfl
  | cons c cs =>
    rw [diagnoseCallsOfAll, diagnoseCallsOfAll, diagnoseCalls_of_sameShape c h,
      diagnoseCallsOfAll_of_sameShape cs h]
termination_by structural cs
end

/-- An evaluation that answers has made all of the calls that are planned, in that order, and none
besides; one that fails has made the first of them. Values of one shape are all the same to the plan.
-/
theorem evaluation_calls (st : Store) (hev : ev.IsIntact) {p : Policy}
    (hp : ev.policy? = .ok (some p)) (c : Constraint) (v : Value) (label : String) (s : Session) :
    (∀ d t, st.diagnose ev c v label s = .ok d t → t.calls = s.calls ++ st.diagnoseCalls c v) ∧
    (∀ b t, st.accepts ev c v s = .ok b t → t.calls = s.calls ++ st.acceptCalls c v) ∧
    (∀ e t, st.diagnose ev c v label s = .error e t →
      ∃ made, made <+: st.diagnoseCalls c v ∧ t.calls = s.calls ++ made) ∧
    (∀ e t, st.accepts ev c v s = .error e t →
      ∃ made, made <+: st.acceptCalls c v ∧ t.calls = s.calls ++ made) ∧
    (∀ w, st.SameShape v w →
      st.diagnoseCalls c v = st.diagnoseCalls c w ∧ st.acceptCalls c v = st.acceptCalls c w) ∧
    (c.IsProper → st.CanCompare c v → (∃ b t, st.accepts ev c v s = .ok b t) ∧
      (st.CanName c → ∃ d t, st.diagnose ev c v label s = .ok d t)) := by
  have hdiagnose : st.Follows ev v label (st.diagnoseCalls c v) c.elements
      (st.diagnose ev c v label) := diagnose_follows hev hp c
  have haccepts : st.Follows ev v label (st.acceptCalls c v) [] (st.accepts ev c v) :=
    accepts_follows hev c v
  refine ⟨fun d t h ↦ ?_, fun b t h ↦ ?_, fun e t h ↦ ?_, fun e t h ↦ ?_, fun w hw ↦ ?_,
    fun hc hv ↦ ⟨?_, fun hn ↦ ?_⟩⟩
  · obtain ⟨entries, -, rfl⟩ := hdiagnose.of_ok h
    rfl
  · obtain ⟨entries, -, rfl⟩ := haccepts.of_ok h
    rfl
  · obtain ⟨made, -, -, hmade, -, -, rfl⟩ := hdiagnose.of_error h
    exact ⟨made, hmade, rfl⟩
  · obtain ⟨made, -, -, hmade, -, -, rfl⟩ := haccepts.of_error h
    exact ⟨made, hmade, rfl⟩
  · exact ⟨diagnoseCalls_of_sameShape c hw, acceptCalls_of_sameShape c hw⟩
  · exact ⟨_, _, accepts_run hev c hc v hv s⟩
  · exact exists_diagnose_of_policy hev hp hc hn hv label s

/-- Two items, whether they are drafts or not: each of them is asked about, and then the other branch.
-/
theorem evaluation_calls_drafts :
    let ev := Evaluator.ofPolicy (some .generic)
    let draft := Constraint.literals [.text "draft"]
    let tuple := Constraint.type (.ofClass (.builtin .tuple))
    let c := Constraint.union [.array draft, tuple]
    let drafts := Value.tuple [.text "draft", .text "draft"]
    let others := Value.tuple [.nil, .int 1]
    ev.IsIntact ∧ ev.policy? = .ok (some .generic) ∧ initial.SameShape drafts others ∧
      ∃ d t d' t', initial.diagnose ev c drafts "Label" .initial = .ok d t ∧
        initial.diagnose ev c others "Label" .initial = .ok d' t' ∧ t'.calls = t.calls ∧
        t.calls = [⟨.diagnose, c⟩, ⟨.diagnose, .array draft⟩, ⟨.accept, draft⟩, ⟨.accept, draft⟩,
          ⟨.diagnose, tuple⟩] := by
  intro ev draft tuple c drafts others
  have hev : ev.IsIntact := Evaluator.isIntact_ofPolicy _
  have hshape : initial.SameShape drafts others := sameShape_of_items <| .some <|
    .cons (sameShape_of_items .none) (.cons (sameShape_of_items .none) .nil)
  have hdrafts : ∃ d t, initial.diagnose ev c drafts "Label" .initial = .ok d t := ⟨_, _, rfl⟩
  have hothers : ∃ d t, initial.diagnose ev c others "Label" .initial = .ok d t := ⟨_, _, rfl⟩
  obtain ⟨d, t, hdrafts⟩ := hdrafts
  obtain ⟨d', t', hothers⟩ := hothers
  obtain ⟨hcalls, -, -, -, hsame, -⟩ := evaluation_calls initial hev rfl c drafts "Label" .initial
  obtain ⟨hcalls', -⟩ := evaluation_calls initial hev rfl c others "Label" .initial
  refine ⟨hev, rfl, hshape, d, t, d', t', hdrafts, hothers, ?_, hcalls d t hdrafts⟩
  rw [hcalls d t hdrafts, hcalls' d' t' hothers, (hsame others hshape).1]

/-- The branch after a comparison that fails is not looked at. -/
theorem not_evaluation_calls :
    ¬ ∀ (st : Store) (ev : Evaluator) (p : Policy) (c : Constraint) (v : Value) (label : String)
      (s : Session), ev.IsIntact → ev.policy? = .ok (some p) → c.IsProper → c.HasBranches →
      ((st.diagnose ev c v label).after s).calls = s.calls ++ st.diagnoseCalls c v := by
  intro h
  have hcalls := h withNotes (.ofPolicy (some .element)) .element noteOrNumbers
    (.tuple [.object (.defined 1) ⟨5⟩]) "Field" .initial (Evaluator.isIntact_ofPolicy _) rfl
    ⟨trivial, trivial, trivial⟩ ⟨List.cons_ne_nil _ _, trivial, trivial, trivial⟩
  rw [Check.after, diagnose_noteOrNumbers] at hcalls
  cases congrArg List.length hcalls

end Store

end Conformance
