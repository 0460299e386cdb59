import Conformance.Proofs.Evaluation.Diagnosis
import Conformance.Proofs.Evaluation.Steadiness

namespace Conformance

/-- A diagnostic is reworded where it goes on with the words to be replaced. -/
theorem withAlternatives_append (subject rest : String) :
    withAlternatives subject (subject ++ ", not a " ++ rest) =
      subject ++ ", not one of " ++ rest := by
  have hlead : (subject ++ ", not a ").toList <+: (subject ++ ", not a " ++ rest).toList := by
    rw [@String.toList_append (subject ++ ", not a ")]
    exact List.prefix_append _ _
  have hrest : (subject ++ ", not a " ++ rest).toList.drop (subject ++ ", not a ").length =
      rest.toList := by
    rw [@String.toList_append (subject ++ ", not a "), ← String.length_toList, List.drop_left]
  simp only [withAlternatives, List.isPrefixOf_iff_prefix.2 hlead, if_true, hrest,
    String.ofList_toList]

/-- A diagnostic that goes on in other words stays as it is. -/
theorem withAlternatives_of_not_prefix {subject start words rest : String}
    (hsubject : subject ++ ", not a " = start ++ words) (h : ¬ words.toList <+: rest.toList) :
    withAlternatives subject (start ++ rest) = start ++ rest := by
  have hlead : ¬ (subject ++ ", not a ").toList <+: (start ++ rest).toList := by
    rw [hsubject, String.toList_append, String.toList_append, List.prefix_append_right_inj]
    exact h
  simp only [withAlternatives, mt List.isPrefixOf_iff_prefix.1 hlead]
  rfl

theorem withAlternatives_alternatives (subject rest : String) :
    withAlternatives subject (subject ++ ", not one of " ++ rest) =
      subject ++ ", not one of " ++ rest := by
  rw [String.append_assoc]
  exact withAlternatives_of_not_prefix rfl (by simp)

@[simp] theorem withAlternatives_idem (subject diagnostic : String) :
    withAlternatives subject (withAlternatives subject diagnostic) =
      withAlternatives subject diagnostic := by
  by_cases h : (subject ++ ", not a ").toList.isPrefixOf diagnostic.toList = true
  · have hreworded :
        ∃ rest, withAlternatives subject diagnostic = subject ++ ", not one of " ++ rest :=
      ⟨_, by simp only [withAlternatives, h, if_true]; rfl⟩
    obtain ⟨rest, hreworded⟩ := hreworded
    rw [hreworded, withAlternatives_alternatives]
  · have hkept : withAlternatives subject diagnostic = diagnostic := by
      simp only [withAlternatives, h]
      rfl
    rw [hkept, hkept]

/-- A constraint as the only branch of a union, so many times over. -/
def Constraint.enclosed (c : Constraint) : Nat → Constraint
  | 0 => c
  | k + 1 => .union [c.enclosed k]

def Constraint.isSingleton : Constraint → Bool
  | .union [_] => true
  | _ => false

namespace Store

variable {st : Store} {ev : Evaluator}

@[simp] theorem withAlternatives_notA (v : Value) (label expected : String) :
    withAlternatives (st.subject v label) (st.notA v label expected) =
      st.notOneOf v label expected :=
  withAlternatives_append _ _

@[simp] theorem withAlternatives_notOneOf (v : Value) (label expected : String) :
    withAlternatives (st.subject v label) (st.notOneOf v label expected) =
      st.notOneOf v label expected :=
  withAlternatives_alternatives _ _

@[simp] theorem withAlternatives_wrongElements (v : Value) (label element : String) :
    withAlternatives (st.subject v label) (wrongElements label element) =
      wrongElements label element := by
  have hsubject : st.subject v label ++ ", not a " =
      label ++ (" is a " ++ (st.kindName v ++ ", not a ")) := by
    simp only [subject, String.append_assoc]
    rfl
  rw [wrongElements, String.append_assoc, String.append_assoc]
  refine withAlternatives_of_not_prefix hsubject ?_
  simp

def Wording (st : Store) (c : Constraint) (v : Value) (label diagnostic : String) : Prop :=
  match c with
  | .type target => ∃ name, st.targetName target = .ok name ∧ diagnostic = st.notA v label name
  | .array _ =>
    if (st.arrayItems? v).isSome then ∃ name, diagnostic = wrongElements label name
    else diagnostic = st.notA v label "Array"
  | _ => (∃ names, diagnostic = st.notOneOf v label names) ∨
    ∃ name, diagnostic = wrongElements label name

theorem wording_of_unionDiagnostic {branches : List Constraint} (hb : branches.length ≠ 1)
    {diagnostics : List String} {v : Value} {label diagnostic : String} {s t : Session}
    (h : st.unionDiagnostic ev branches diagnostics v label s = .ok diagnostic t) :
    st.Wording (.union branches) v label diagnostic := by
  rw [unionDiagnostic_of_many ev fun h ↦ hb h.1] at h
  obtain ⟨p, s₁, -, h⟩ := bind_eq_ok h
  generalize st.accusedArray? branches v p = byElement at h
  cases byElement with
  | some element =>
    obtain ⟨name, s₂, -, h⟩ := bind_eq_ok h
    cases h
    exact .inr ⟨name, rfl⟩
  | none =>
    obtain ⟨names, s₂, -, h⟩ := bind_eq_ok h
    cases h
    exact .inl ⟨_, rfl⟩

theorem wording_of_arrayDiagnostic {element : Constraint} {v : Value} {label diagnostic : String}
    {s t : Session} (h : st.arrayDiagnostic ev element v label s = .ok (some diagnostic) t) :
    st.Wording (.array element) v label diagnostic := by
  unfold arrayDiagnostic at h
  obtain ⟨-, s₁, -, h⟩ := bind_eq_ok h
  rw [Wording]
  cases hv : st.arrayItems? v with
  | none =>
    simp only [hv] at h
    cases h
    rfl
  | some items =>
    simp only [hv] at h
    obtain ⟨-, s₂, -, h⟩ := bind_eq_ok h
    obtain ⟨offending, s₃, -, h⟩ := bind_eq_ok h
    split at h
    · cases h
    · obtain ⟨name, s₄, -, h⟩ := bind_eq_ok h
      obtain ⟨-, s₅, -, h⟩ := bind_eq_ok h
      cases h
      exact ⟨name, rfl⟩

theorem wording_of_diagnose {c : Constraint} (hc : c.isSingleton = false) {v : Value}
    {label diagnostic : String} {s t : Session}
    (h : st.diagnose ev c v label s = .ok (some diagnostic) t) :
    st.Wording c v label diagnostic := by
  cases c with
  | type target =>
    rw [diagnose] at h
    obtain ⟨-, s₁, -, h⟩ := bind_eq_ok h
    obtain ⟨fits, s₂, -, h⟩ := bind_eq_ok h
    split at h
    · cases h
    · obtain ⟨name, s₃, hname, h⟩ := bind_eq_ok h
      cases h
      exact ⟨name, Check.of_ofExcept_run hname, rfl⟩
  | literals literals =>
    rw [diagnose] at h
    obtain ⟨-, s₁, -, h⟩ := bind_eq_ok h
    obtain ⟨fits, s₂, -, h⟩ := bind_eq_ok h
    split at h
    · cases h
    · obtain ⟨names, s₃, -, h⟩ := bind_eq_ok h
      cases h
      exact .inl ⟨names, rfl⟩
  | array element =>
    rw [diagnose] at h
    obtain ⟨-, s₁, -, h⟩ := bind_eq_ok h
    exact wording_of_arrayDiagnostic h
  | union branches =>
    rw [diagnose] at h
    obtain ⟨-, s₁, -, h⟩ := bind_eq_ok h
    obtain ⟨-, s₂, -, h⟩ := bind_eq_ok h
    obtain ⟨diagnostics, s₃, -, h⟩ := bind_eq_ok h
    split at h
    · cases h
    · obtain ⟨diagnostic', s₄, hunion, h⟩ := bind_eq_ok h
      cases h
      refine wording_of_unionDiagnostic ?_ hunion
      intro hlength
      obtain ⟨c, rfl⟩ := List.length_eq_one_iff.1 hlength
      cases hc
  | refused fault =>
    rw [diagnose] at h
    obtain ⟨-, s₁, -, h⟩ := bind_eq_ok h
    cases h

/-- A union of one branch repeats the diagnosis of its branch in terms of alternatives. -/
theorem diagnose_union_single (hev : ev.IsIntact) (c : Constraint) (v : Value) (label : String)
    (s : Session) : st.diagnose ev (.union [c]) v label s =
      (do return (← st.diagnose ev c v label).map (withAlternatives (st.subject v label)) :
        Check (Option String)) (s.perform ev (.called ⟨.diagnose, .union [c]⟩)) := by
  have hself := hev "_evaluate_union" (by decide)
  rw [diagnose, bind_of_ok (call_diagnose_run hev ..), bind_of_ok (Check.ofExcept_run hself _)]
  cases hc : st.diagnose ev c v label (s.perform ev (.called ⟨.diagnose, .union [c]⟩)) with
  | ok diagnostic? t =>
    have heach : st.diagnoseEach ev [c] v label (s.perform ev (.called ⟨.diagnose, .union [c]⟩)) =
        .ok [diagnostic?] t := by
      rw [diagnoseEach, bind_of_ok hc]
      rfl
    rw [bind_of_ok heach, bind_of_ok hc]
    cases diagnostic? <;> rfl
  | error e t =>
    have heach : st.diagnoseEach ev [c] v label (s.perform ev (.called ⟨.diagnose, .union [c]⟩)) =
        .error e t := by
      rw [diagnoseEach, bind_of_error hc]
    rw [bind_of_error heach, bind_of_error hc]

def diagnoseAlternatives (st : Store) (ev : Evaluator) (c : Constraint) (v : Value)
    (label : String) : Check (Option String) := do
  return (← st.diagnose ev c v label).map (withAlternatives (st.subject v label))

theorem diagnoseAlternatives_idem (c : Constraint) (v : Value) (label : String) (s : Session) :
    (do
      let diagnostic? ← st.diagnoseAlternatives ev c v label
      return diagnostic?.map (withAlternatives (st.subject v label)) : Check (Option String)) s =
      st.diagnoseAlternatives ev c v label s := by
  rw [diagnoseAlternatives]
  simp only [bind, EStateM.bind]
  cases st.diagnose ev c v label s with
  | ok diagnostic? t =>
    cases diagnostic? with
    | none => rfl
    | some diagnostic =>
      have h := withAlternatives_idem (st.subject v label) diagnostic
      exact congrArg (fun said ↦ EStateM.Result.ok (some said) t) h
  | error e t => rfl

theorem sameAnswer_enclosed (st : Store) (hev : ev.IsIntact) (c : Constraint) (v : Value)
    (label : String) (k : Nat) {s t : Session} (h : s.SameSettings t) :
    Session.SameAnswer s t (st.diagnoseAlternatives ev c v label s)
      (st.diagnose ev (c.enclosed (k + 1)) v label t) := by
  have hstart (d : Constraint) (t : Session) := t.sameSettings_perform ev (.called ⟨.diagnose, d⟩)
  induction k generalizing t with
  | zero =>
    have hsteady : Steady (st.diagnoseAlternatives ev c v label) :=
      .bind (steady_diagnose ev c v label) fun _ ↦ .pure _
    rw [Constraint.enclosed, Constraint.enclosed, diagnose_union_single hev]
    exact (hsteady s _ (h.trans (hstart _ t))).start (hstart _ t)
  | succ k ih =>
    rw [Constraint.enclosed, diagnose_union_single hev, ← diagnoseAlternatives_idem]
    exact ((ih (h.trans (hstart _ t))).map _).start (hstart _ t)

/-- What becomes of a diagnostic when its constraint is enclosed: one type among alternatives is
said to be one of them, and all else is said as before. -/
def EnclosedWording (st : Store) (c : Constraint) (v : Value)
    (label diagnostic enclosed : String) : Prop :=
  match c with
  | .type target => ∃ name, st.targetName target = .ok name ∧ enclosed = st.notOneOf v label name
  | .array _ =>
    enclosed = if (st.arrayItems? v).isSome then diagnostic else st.notOneOf v label "Array"
  | _ => enclosed = diagnostic

theorem enclosedWording_of_wording {c : Constraint} {v : Value} {label diagnostic : String}
    (h : st.Wording c v label diagnostic) : st.EnclosedWording c v label diagnostic
      (withAlternatives (st.subject v label) diagnostic) := by
  have hkept (h : (∃ names, diagnostic = st.notOneOf v label names) ∨
      ∃ name, diagnostic = wrongElements label name) :
      withAlternatives (st.subject v label) diagnostic = diagnostic := by
    rcases h with ⟨names, rfl⟩ | ⟨name, rfl⟩
    · exact withAlternatives_notOneOf v label names
    · exact withAlternatives_wrongElements v label name
  cases c with
  | type target =>
    obtain ⟨name, hname, rfl⟩ := h
    exact ⟨name, hname, withAlternatives_notA v label name⟩
  | array element =>
    rw [EnclosedWording]
    rw [Wording] at h
    split at h
    · next hv => rw [if_pos hv, hkept (.inr h)]
    · next hv => rw [if_neg hv, h, withAlternatives_notA]
  | literals literals => exact hkept h
  | union branches => exact hkept h
  | refused fault => exact hkept h

theorem diagnose_enclosed_cases (st : Store) (hev : ev.IsIntact) (c : Constraint) (v : Value)
    (label : String) (k : Nat) (s : Session) :
    (∃ e t t', st.diagnose ev c v label s = .error e t ∧
      st.diagnose ev (c.enclosed (k + 1)) v label s = .error e t') ∨
    ∃ diagnostic? t t', st.diagnose ev c v label s = .ok diagnostic? t ∧
      st.diagnose ev (c.enclosed (k + 1)) v label s =
        .ok (diagnostic?.map (withAlternatives (st.subject v label))) t' := by
  have hends := sameAnswer_enclosed st hev c v label k (.refl s)
  cases hd : st.diagnose ev c v label s with
  | error e t =>
    rw [diagnoseAlternatives, bind_of_error hd] at hends
    generalize st.diagnose ev (c.enclosed (k + 1)) v label s = r at hends ⊢
    cases hends
    exact .inl ⟨e, t, _, rfl, rfl⟩
  | ok diagnostic? t =>
    rw [diagnoseAlternatives, bind_of_ok hd, pure_run] at hends
    generalize st.diagnose ev (c.enclosed (k + 1)) v label s = r at hends ⊢
    cases hends
    exact .inr ⟨diagnostic?, t, _, rfl, rfl⟩

/-- However often a constraint is enclosed in unions of one branch, at least once, the diagnosis
fails where that of the constraint does, has nothing to say where that has not, and otherwise says
the same in terms of alternatives. -/
theorem diagnose_enclosed (st : Store) (hev : ev.IsIntact) {c : Constraint}
    (hc : c.isSingleton = false) {k : Nat} (hk : 1 ≤ k) (v : Value) (label : String) (s : Session) :
    (∀ e, (∃ t, st.diagnose ev (c.enclosed k) v label s = .error e t) ↔
      ∃ t, st.diagnose ev c v label s = .error e t) ∧
    ((∃ t, st.diagnose ev (c.enclosed k) v label s = .ok none t) ↔
      ∃ t, st.diagnose ev c v label s = .ok none t) ∧
    ∀ diagnostic t, st.diagnose ev c v label s = .ok (some diagnostic) t →
      ∃ enclosed t', st.diagnose ev (c.enclosed k) v label s = .ok (some enclosed) t' ∧
        st.EnclosedWording c v label diagnostic enclosed := by
  obtain ⟨k, rfl⟩ := Nat.exists_eq_add_of_le' hk
  rcases diagnose_enclosed_cases st hev c v label k s with
    ⟨e, t, t', halone, henclosed⟩ | ⟨diagnostic?, t, t', halone, henclosed⟩
  · rw [halone, henclosed]
    exact ⟨fun e' ↦ by simp, by simp, nofun⟩
  · rw [halone, henclosed]
    refine ⟨fun e' ↦ by simp, by simp, fun diagnostic t'' h ↦ ?_⟩
    cases h
    exact ⟨_, t', rfl, enclosedWording_of_wording (wording_of_diagnose hc halone)⟩

/-- A label that reads like the diagnostic to come is not taken for it. -/
theorem diagnose_enclosed_twice :
    let c := Constraint.type (.ofClass (.builtin .text))
    let label := "Id is a Integer, not a "
    Evaluator.shared.IsIntact ∧ c.isSingleton = false ∧ 1 ≤ 2 ∧
      (∃ t, initial.diagnose .shared c (.int 7) label .initial =
        .ok (some "Id is a Integer, not a  is a Integer, not a String") t) ∧
      ∃ t, initial.diagnose .shared (c.enclosed 2) (.int 7) label .initial =
        .ok (some "Id is a Integer, not a  is a Integer, not one of String") t := by
  intro c label
  have hev : Evaluator.shared.IsIntact := Evaluator.isIntact_ofPolicy none
  have halone : ∃ t, initial.diagnose .shared c (.int 7) label .initial =
      .ok (some "Id is a Integer, not a  is a Integer, not a String") t := ⟨_, rfl⟩
  obtain ⟨t, halone⟩ := halone
  obtain ⟨-, -, htext⟩ := diagnose_enclosed initial hev (c := c) rfl (k := 2) (by decide)
    (.int 7) label .initial
  obtain ⟨enclosed, t', henclosed, name, hname, rfl⟩ := htext _ t halone
  cases hname
  exact ⟨hev, rfl, by decide, ⟨t, halone⟩, t', henclosed⟩

end Store

end Conformance
