import Conformance.Proofs.Content
import Conformance.Proofs.Evaluation.Diagnosis

namespace Conformance

/-- A value that holds no others and has no attributes of its own. -/
def Value.isImmediate : Value → Bool
  | .nil | .bool _ | .int _ | .float .. | .complex .. | .text _ | .bytes _ | .range ..
  | .ofClass _ => true
  | _ => false

/-- If a constraint is to literals, they are immediate values. -/
def Constraint.HasImmediateLiterals : Constraint → Prop
  | .literals vs => ∀ v ∈ vs, v.isImmediate
  | _ => True

namespace Store

variable {st : Store} {ev : Evaluator}

theorem natureOf_of_isImmediate {v : Value} (h : v.isImmediate) : st.natureOf v = .plain :=
  natureOf_of_isOfOwnKind (by cases v <;> first | rfl | cases h)

theorem mapping?_of_isImmediate {v : Value} (h : v.isImmediate) : st.mapping? v = none := by
  have hnature : st.natureOf v ≠ .registry := by
    rw [natureOf_of_isImmediate h]
    exact nofun
  refine mapping?_eq_none hnature ?_ ?_ <;> cases v <;> first | (cases h; done) | exact nofun

theorem setMembers?_of_isImmediate {v : Value} (h : v.isImmediate) : st.setMembers? v = none := by
  cases v <;> first | rfl | cases h

theorem exists_equalCells (depth : Nat) {v w : Value} (h : v.isImmediate ∨ w.isImmediate) :
    ∃ b, st.equalCells (depth + 1) v w = .ok b := by
  unfold equalCells
  split
  · next hv hw =>
    rcases h with h | h
    · rw [mapping?_of_isImmediate h] at hv; cases hv
    · rw [mapping?_of_isImmediate h] at hw; cases hw
  · next hv hw _ =>
    rcases h with h | h
    · rw [setMembers?_of_isImmediate h] at hv; cases hv
    · rw [setMembers?_of_isImmediate h] at hw; cases hw
  · exact ⟨_, rfl⟩
  · split
    · rcases h with h | h <;> cases h
    · rcases h with h | h <;> cases h
    · exact ⟨_, rfl⟩

theorem exists_equalsAtom {deep : Value → Value → Except Fault Bool} {w : Value}
    (h : ∀ v, ∃ b, deep v w = .ok b) (v : Value) : ∃ b, v.equalsAtom deep w = .ok b := by
  unfold Value.equalsAtom
  split
  · exact ⟨_, rfl⟩
  · split
    all_goals first | exact ⟨_, rfl⟩ | exact h _

theorem exists_equals {deep : Value → Value → Except Fault Bool} {w : Value} (hw : w.isImmediate)
    (h : ∀ v, ∃ b, deep v w = .ok b) (v : Value) : ∃ b, v.equals deep w = .ok b := by
  have hplain : w.plain = w := by cases w <;> first | rfl | cases hw
  cases v with
  | derived c v id => exact exists_equals hw h v
  | tuple vs =>
    rw [Value.equals, hplain]
    cases w <;> first | exact ⟨_, rfl⟩ | cases hw
  | frozenSet vs =>
    rw [Value.equals, hplain]
    cases w <;> first | exact h _ | cases hw
  | _ =>
    show ∃ b, Value.equalsAtom deep _ w.plain = .ok b
    rw [hplain]
    exact exists_equalsAtom h _
termination_by structural v

theorem exists_isAnyLiteral {literals : List Value} (h : ∀ literal ∈ literals, literal.isImmediate)
    (v : Value) : ∃ b, st.isAnyLiteral literals v = .ok b := by
  refine exists_anyM fun literal hl ↦ ?_
  have hright (u : Value) : ∃ b, st.equalCells (st.cellCount + 1) u literal = .ok b :=
    exists_equalCells _ (.inr (h literal hl))
  have heq : ∃ b, st.equal v literal = .ok b := exists_equals (h literal hl) hright v
  unfold isLiteral
  split
  · exact ⟨true, rfl⟩
  · split
    · exact heq
    · exact ⟨false, rfl⟩

theorem exists_literalName {v : Value} (h : v.isImmediate) :
    ∃ name, st.literalName v = .ok name := by
  have hn : ¬ st.natureOf v = .enumeration := by rw [natureOf_of_isImmediate h]; decide
  cases v <;> first | exact ⟨_, by rw [literalName, if_neg hn]; rfl⟩ | cases h

theorem exists_literalNames {literals : List Value}
    (h : ∀ literal ∈ literals, literal.isImmediate) :
    ∃ name, st.literalNames literals = .ok name := by
  have hnames : literals.mapM st.literalName =
      .ok (literals.map fun literal ↦ (st.literalName literal).toOption.getD "") :=
    mapM_ok _ fun literal hl ↦ by
      have hname : ∃ name, st.literalName literal = .ok name := exists_literalName (h literal hl)
      obtain ⟨name, hname⟩ := hname
      rw [hname]
      rfl
  exact ⟨_, by rw [literalNames, hnames]; rfl⟩

mutual
theorem canCompare_of_leaves (c : Constraint) (h : c.Leaves Constraint.HasImmediateLiterals)
    (v : Value) : st.CanCompare c v := by
  cases c with
  | literals literals => exact exists_isAnyLiteral h v
  | array element =>
    rw [CanCompare]
    exact fun items _ item _ ↦ canCompare_of_leaves element h item
  | union branches => exact canCompareAll_of_leaves branches h v
  | type target => trivial
  | refused fault => trivial
termination_by structural c
theorem canCompareAll_of_leaves (cs : List Constraint)
    (h : Constraint.LeavesOfAll Constraint.HasImmediateLiterals cs) (v : Value) :
    st.CanCompareAll cs v := by
  cases cs with
  | nil => trivial
  | cons c cs => exact ⟨canCompare_of_leaves c h.1 v, canCompareAll_of_leaves cs h.2 v⟩
termination_by structural cs
end

mutual
theorem canName_of_leaves (c : Constraint) (h : c.Leaves Constraint.HasImmediateLiterals) :
    st.CanName c := by
  cases c with
  | literals literals => exact exists_literalNames h
  | array element => exact canName_of_leaves element h
  | union branches => exact canNameAll_of_leaves branches h
  | type target => trivial
  | refused fault => trivial
termination_by structural c
theorem canNameAll_of_leaves (cs : List Constraint)
    (h : Constraint.LeavesOfAll Constraint.HasImmediateLiterals cs) :
    Constraint.LeavesOfAll st.NamesLiterals cs := by
  cases cs with
  | nil => trivial
  | cons c cs => exact ⟨canName_of_leaves c h.1, canNameAll_of_leaves cs h.2⟩
termination_by structural cs
end

/-- A value is judged exactly where the literals can be compared with it. Where they can also be
named there is a diagnostic, and one that says something, of those values only that do not fit. -/
theorem diagnose_agrees_with_accepts (hev : ev.IsIntact) {c : Constraint} (hc : c.IsProper)
    (v : Value) (label : String) {s : Session} {p : Policy} (hp : st.policyIn ev s = .ok p)
    (t : Session) :
    ((∃ b t', st.accepts ev c v t = .ok b t') ↔ st.CanCompare c v) ∧
    (st.CanCompare c v → st.CanName c →
      ∃ diagnostic? b s' t', st.diagnose ev c v label s = .ok diagnostic? s' ∧
        st.accepts ev c v t = .ok b t' ∧ (diagnostic? = none ↔ b = true) ∧
        diagnostic? ≠ some "") ∧
    (c.Leaves Constraint.HasImmediateLiterals → st.CanCompare c v ∧ st.CanName c) := by
  refine ⟨⟨fun ⟨b, t', h⟩ ↦ canCompare_of_accepts c v h, fun h ↦ ?_⟩, fun h hn ↦ ?_, fun h ↦ ?_⟩
  · exact ⟨_, _, accepts_run hev c hc v h t⟩
  · refine ⟨_, _, _, _, diagnose_run hev c hc hn v h label hp, accepts_run hev c hc v h t, ?_, ?_⟩
    · cases hfits : st.fits c v <;> simp [diagnosis, hfits]
    · have hne := st.complaint_ne_empty p c v label
      cases hfits : st.fits c v <;> simp [diagnosis, hfits, hne]
  · exact ⟨canCompare_of_leaves c h v, canName_of_leaves c h⟩

/-- A label or a list of drafts: a list that holds something else fits neither. -/
theorem diagnose_agrees_with_accepts_draft :
    let c := Constraint.union [.type (.ofClass (.builtin .integer)), .array (.literals [.text "draft"])]
    let v := Value.tuple [.text "draft", .text "final"]
    Evaluator.shared.IsIntact ∧ c.IsProper ∧
      initial.policyIn .shared .initial = .ok .element ∧
      initial.CanCompare c v ∧ initial.CanName c ∧
      ∃ diagnostic? b s' t', initial.diagnose .shared c v "Label" .initial = .ok diagnostic? s' ∧
        initial.accepts .shared c v .initial = .ok b t' ∧ (diagnostic? = none ↔ b = true) ∧
        diagnostic? ≠ some "" := by
  intro c v
  have hev : Evaluator.shared.IsIntact := Evaluator.isIntact_ofPolicy none
  have hc : c.IsProper := ⟨trivial, trivial, trivial⟩
  have hp : initial.policyIn .shared .initial = .ok .element := rfl
  have hleaves : c.Leaves Constraint.HasImmediateLiterals :=
    ⟨trivial, fun literal hl ↦ by rw [List.mem_singleton.1 hl]; rfl, trivial⟩
  obtain ⟨-, hagree, himmediate⟩ := diagnose_agrees_with_accepts hev hc v "Label" hp .initial
  obtain ⟨hcompare, hname⟩ := himmediate hleaves
  exact ⟨hev, hc, hp, hcompare, hname, hagree hcompare hname⟩

/-- Two notes with different numbers, of a class in which a field takes the place of the report
that notes are compared by. -/
def withNotes : Store :=
  let field := Value.object (.builtin .field)
  let registry := Value.object (.builtin .fieldRegistry)
  { initial with
    classes := ⟨#[.root, { name := "Note", fullName := "Note", bases := [.root]
                           linearization := [.defined 1, .root, .builtin .object]
                           body := [("to_dict", field ⟨2⟩), (homeName, .text "notes"),
                             ("__doc__", .nil), (registryName, registry ⟨3⟩)] }]⟩
    dictionaries := ⟨#[[], [(.text "to_dict", field ⟨2⟩)]]⟩
    objects := ⟨#[⟨"", [(.text "_fields", .mappingView (.cell 0))]⟩,
      ⟨"", [(.text "target", .ofClass (.builtin .integer))]⟩,
      ⟨"", [(.text "constraint", .object (.builtin .typeConstraint) ⟨1⟩),
        (.text "allow_nil", .bool false), (.text "name", .text "to_dict")]⟩,
      ⟨"", [(.text "_fields", .mappingView (.cell 1))]⟩,
      ⟨"", [(.text "to_dict", .int 1)]⟩, ⟨"", [(.text "to_dict", .int 2)]⟩]⟩ }

/-- A note cannot be compared with another note. -/
theorem not_accepts_total :
    ¬ ∀ (st : Store) (ev : Evaluator) (c : Constraint) (v : Value) (s : Session) (p : Policy),
      ev.IsIntact → c.IsProper → st.policyIn ev s = .ok p → ∃ b t, st.accepts ev c v s = .ok b t := by
  intro h
  let note := Value.object (.defined 1)
  obtain ⟨b, t, hrun⟩ := h withNotes .shared (.literals [note ⟨4⟩]) (note ⟨5⟩) .initial .element
    (Evaluator.isIntact_ofPolicy none) trivial rfl
  have hfault : withNotes.accepts .shared (.literals [note ⟨4⟩]) (note ⟨5⟩) .initial =
      .error (.notCallable "int")
        { Session.initial with calls := [⟨.accept, .literals [note ⟨4⟩]⟩] } := rfl
  rw [hfault] at hrun
  cases hrun

end Store

end Conformance
