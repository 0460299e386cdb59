import Conformance.Proofs.Equality.Comparison
import Conformance.Proofs.Evaluation.Verdict

namespace Conformance

mutual
/-- Two constraints of one shape, with related literals at the same places. -/
def Constraint.Corresponds (R : Value → Value → Prop) : Constraint → Constraint → Prop
  | .type target, .type target' => target = target'
  | .literals ls, .literals ls' => List.Forall₂ R ls ls'
  | .array t, .array u => t.Corresponds R u
  | .union ts, .union us => Constraint.CorrespondAll R ts us
  | _, _ => False
termination_by structural t => t
def Constraint.CorrespondAll (R : Value → Value → Prop) : List Constraint → List Constraint → Prop
  | [], us => us = []
  | t :: ts, us => match us with
    | [] => False
    | u :: us => t.Corresponds R u ∧ Constraint.CorrespondAll R ts us
termination_by structural ts => ts
end

namespace Store

variable (st : Store)

/-- An object that is a record of a kind, with its parts. -/
def IsRecord (v : Value) (b : Builtin) (parts : List Value) : Prop :=
  ∃ c id, v = .object c id ∧ st.nature c = .record b ∧ st.parts v b = .ok parts

def builtinOf : Constraint → Builtin
  | .type _ => .typeConstraint
  | .literals _ => .literalConstraint
  | .array _ => .arrayConstraint
  | .union _ => .unionConstraint
  | .refused _ => .object

mutual
/-- A constraint that is whole, with the tree of it. -/
def HasTree : Constraint → Value → Prop
  | .type target, v => (∃ c, target = .ofClass c) ∧ st.IsRecord v .typeConstraint [target]
  | .literals ls, v => st.IsRecord v .literalConstraint [.tuple ls]
  | .array t, v => ∃ element, st.IsRecord v .arrayConstraint [element] ∧ HasTree t element
  | .union ts, v => ∃ branches, st.IsRecord v .unionConstraint [.tuple branches] ∧
    HaveTrees ts branches
  | .refused _, _ => False
termination_by structural t => t
def HaveTrees : List Constraint → List Value → Prop
  | [], vs => vs = []
  | t :: ts, vs => match vs with
    | [] => False
    | v :: vs => HasTree t v ∧ HaveTrees ts vs
termination_by structural ts => ts
end

variable {st} {c d v w : Value} {t : Constraint}

mutual
theorem isProper_of_hasTree (t : Constraint) {c : Value} (h : st.HasTree t c) : t.IsProper := by
  cases t with
  | type target =>
    obtain ⟨⟨c, rfl⟩, -⟩ := h
    trivial
  | literals ls => trivial
  | array t =>
    obtain ⟨element, -, h⟩ := h
    exact isProper_of_hasTree t h
  | union ts =>
    obtain ⟨branches, -, h⟩ := h
    exact areProper_of_haveTrees ts h
  | refused fault => exact h.elim
termination_by structural t
theorem areProper_of_haveTrees (ts : List Constraint) {vs : List Value} (h : st.HaveTrees ts vs) :
    Constraint.LeavesOfAll Constraint.IsBasic ts := by
  cases ts with
  | nil => trivial
  | cons t ts =>
    cases vs with
    | nil => exact h.elim
    | cons v vs => exact ⟨isProper_of_hasTree t h.1, areProper_of_haveTrees ts h.2⟩
termination_by structural ts
end

theorem parts_same {b b' : Builtin} {vs ws : List Value} (hv : st.IsRecord v b vs)
    (hw : st.IsRecord w b' ws) (h : st.Same v w) : b = b' ∧ List.Forall₂ st.Same vs ws := by
  obtain ⟨c, i, rfl, hc, hvs⟩ := hv
  obtain ⟨d, j, rfl, hd, hws⟩ := hw
  rcases h.alike with heq | ⟨a, a', ha, ha', hrelated⟩
  · cases heq
    obtain rfl : b = b' := Nature.record.inj (hc.symm.trans hd)
    cases hvs.symm.trans hws
    exact ⟨rfl, List.forall₂_same.2 fun v _ ↦ .refl v⟩
  · cases (sight?_of_parts hc hvs).symm.trans ha
    cases (sight?_of_parts hd hws).symm.trans ha'
    cases hrelated with
    | record _ hparts => exact ⟨Nature.record.inj (hc.symm.trans hd), hparts⟩

theorem part_same {b b' : Builtin} (hv : st.IsRecord c b [v]) (hw : st.IsRecord d b' [w])
    (h : st.Same c d) : b = b' ∧ st.Same v w := by
  obtain ⟨hb, hparts⟩ := parts_same hv hw h
  exact ⟨hb, (List.forall₂_cons.1 hparts).1⟩

theorem forall₂_same_of_tuple {vs ws : List Value} (h : st.Same (.tuple vs) (.tuple ws)) :
    List.Forall₂ st.Same vs ws := by
  rcases h.alike with heq | halike
  · cases heq
    exact List.forall₂_same.2 fun v _ ↦ .refl v
  · cases (alike_iff rfl rfl).1 halike
    assumption

theorem eq_of_same_ofClass {k k' : ClassId} (h : st.Same (.ofClass k) (.ofClass k')) : k = k' := by
  rcases h.alike with heq | halike
  · exact Value.ofClass.inj heq
  · exact Value.ofClass.inj ((alike_iff rfl rfl).1 halike).eq_of_identity

theorem exists_isRecord_of_hasTree (h : st.HasTree t c) :
    ∃ part, st.IsRecord c (builtinOf t) [part] := by
  cases t with
  | type target => exact ⟨_, h.2⟩
  | literals ls => exact ⟨_, h⟩
  | array t =>
    obtain ⟨element, h, -⟩ := h
    exact ⟨_, h⟩
  | union ts =>
    obtain ⟨branches, h, -⟩ := h
    exact ⟨_, h⟩
  | refused fault => exact h.elim

mutual
/-- Whole constraints that are the same have trees of one shape with the same literals. -/
theorem corresponds_of_same (t u : Constraint) {c d : Value} (hc : st.HasTree t c)
    (hd : st.HasTree u d) (h : st.Same c d) : t.Corresponds st.Same u := by
  obtain ⟨part, hpart⟩ := exists_isRecord_of_hasTree hc
  obtain ⟨part', hpart'⟩ := exists_isRecord_of_hasTree hd
  obtain ⟨hbuiltin, hsame⟩ := part_same hpart hpart' h
  match t, u, hbuiltin with
  | .type target, .type target', _ =>
    obtain ⟨⟨k, rfl⟩, hc⟩ := hc
    obtain ⟨⟨k', rfl⟩, hd⟩ := hd
    exact congrArg Value.ofClass (eq_of_same_ofClass (part_same hc hd h).2)
  | .literals ls, .literals ls', _ => exact forall₂_same_of_tuple (part_same hc hd h).2
  | .array t, .array u, _ =>
    obtain ⟨element, hc, ht⟩ := hc
    obtain ⟨element', hd, hu⟩ := hd
    exact corresponds_of_same t u ht hu (part_same hc hd h).2
  | .union ts, .union us, _ =>
    obtain ⟨branches, hc, hts⟩ := hc
    obtain ⟨branches', hd, hus⟩ := hd
    exact correspondAll_of_same ts us hts hus (forall₂_same_of_tuple (part_same hc hd h).2)
  | .refused _, _, _ => exact hc.elim
termination_by structural t
theorem correspondAll_of_same (ts us : List Constraint) {vs ws : List Value}
    (hvs : st.HaveTrees ts vs) (hws : st.HaveTrees us ws) (h : List.Forall₂ st.Same vs ws) :
    Constraint.CorrespondAll st.Same ts us := by
  match ts, us, vs, ws with
  | [], [], _, _ => rfl
  | t :: ts, u :: us, v :: vs, w :: ws =>
    obtain ⟨hv, hvs⟩ := hvs
    obtain ⟨hw, hws⟩ := hws
    obtain ⟨hvw, h⟩ := List.forall₂_cons.1 h
    exact ⟨corresponds_of_same t u hv hw hvw, correspondAll_of_same ts us hvs hws h⟩
  | [], u :: us, vs, w :: ws =>
    cases hvs
    cases h
  | t :: ts, [], v :: vs, ws =>
    cases hws
    cases h
  | t :: ts, _, [], _ => exact hvs.elim
  | _, u :: us, _, [] => exact hws.elim
termination_by structural ts
end

end Store

end Conformance
