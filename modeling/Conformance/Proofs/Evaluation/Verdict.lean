import Conformance.Evaluator
import Conformance.Proofs.Run

namespace Conformance

mutual
def Constraint.Leaves (P : Constraint → Prop) : Constraint → Prop
  | .array element => element.Leaves P
  | .union branches => Constraint.LeavesOfAll P branches
  | c => P c
termination_by structural c => c
def Constraint.LeavesOfAll (P : Constraint → Prop) : List Constraint → Prop
  | [] => True
  | c :: cs => c.Leaves P ∧ Constraint.LeavesOfAll P cs
termination_by structural cs => cs
end

namespace Constraint

variable {P : Constraint → Prop}

mutual
theorem leaves_of_forall (h : ∀ c, P c) (c : Constraint) : c.Leaves P := by
  cases c with
  | array element => exact leaves_of_forall h element
  | union branches => exact leavesOfAll_of_forall h branches
  | _ => exact h _
termination_by structural c
theorem leavesOfAll_of_forall (h : ∀ c, P c) (cs : List Constraint) : LeavesOfAll P cs := by
  cases cs with
  | nil => trivial
  | cons c cs => exact ⟨leaves_of_forall h c, leavesOfAll_of_forall h cs⟩
termination_by structural cs
end

@[simp] theorem leavesOfAll_iff {cs : List Constraint} : LeavesOfAll P cs ↔ ∀ c ∈ cs, c.Leaves P := by
  induction cs with
  | nil => simp [LeavesOfAll]
  | cons c cs ih => rw [LeavesOfAll, ih, List.forall_mem_cons]

theorem leavesOfAll_map {α : Type} {f : α → Constraint} {l : List α}
    (h : ∀ a ∈ l, (f a).Leaves P) : LeavesOfAll P (l.map f) := by
  rw [leavesOfAll_iff, List.forall_mem_map]
  exact h

end Constraint

theorem Store.leaves_constraintPart {st : Store} {P : Constraint → Prop} {v : Value} {part : String}
    {tree : Value → Except Fault Constraint}
    (hrefused : ∀ fault, st.attributeOf v part >>= tree = .error fault → P (.refused fault))
    (h : ∀ w t, st.attributeOf v part = .ok w → tree w = .ok t → t.Leaves P) :
    (st.constraintPart v part tree).Leaves P := by
  unfold constraintPart
  split
  · next t ht =>
    obtain ⟨w, hw, ht⟩ := answer_of_bind ht
    exact h w t hw ht
  · next e he => exact hrefused e he

def Constraint.IsBasic : Constraint → Prop
  | .type (.ofClass _) | .literals _ => True
  | _ => False

/-- A constraint made of types that are classes, literals, arrays and unions. -/
def Constraint.IsProper (c : Constraint) : Prop := c.Leaves Constraint.IsBasic

theorem Constraint.IsProper.target_eq {target : Value} (h : (Constraint.type target).IsProper) :
    ∃ c, target = .ofClass c := by
  cases target <;> first | exact ⟨_, rfl⟩ | exact h.elim

namespace Evaluator

/-- An evaluator that has all its operations. -/
def IsIntact (ev : Evaluator) : Prop :=
  ∀ name ∈ Builtin.evaluator.operationNames, ev.offers name = .ok ()

theorem isIntact_ofPolicy (policy? : Option Policy) : (ofPolicy policy?).IsIntact :=
  fun _ _ ↦ rfl

theorem call_run {ev : Evaluator} (hev : ev.IsIntact) (method : Method) (c : Constraint)
    (s : Session) :
    ev.call method c s = .ok () { s with calls := s.calls ++ [⟨method, c⟩] } := by
  have h : ev.offers method.name = .ok () := hev _ (by cases method <;> decide)
  rw [call, bind_of_ok (Check.ofExcept_run h s)]
  rfl

end Evaluator

namespace Store

variable (st : Store)

mutual
/-- The literals of a constraint can be compared with a value, or with its members where they are
literals of an array. -/
def CanCompare : Constraint → Value → Prop
  | .literals literals, v => ∃ b, st.isAnyLiteral literals v = .ok b
  | .array element, v => ∀ items, st.arrayItems? v = some items → ∀ item ∈ items,
    CanCompare element item
  | .union branches, v => CanCompareAll branches v
  | _, _ => True
termination_by structural c => c
def CanCompareAll : List Constraint → Value → Prop
  | [], _ => True
  | c :: cs, v => CanCompare c v ∧ CanCompareAll cs v
termination_by structural cs => cs
end

mutual
def fits : Constraint → Value → Bool
  | .type target, v => (st.hasType target v).toOption.getD false
  | .literals literals, v => (st.isAnyLiteral literals v).toOption.getD false
  | .array element, v => (st.arrayItems? v).any fun items ↦ items.all fun item ↦ fits element item
  | .union branches, v => fitsAny branches v
  | .refused _, _ => false
termination_by structural c => c
def fitsAny : List Constraint → Value → Bool
  | [], _ => false
  | c :: cs, v => fits c v || fitsAny cs v
termination_by structural cs => cs
end

mutual
/-- The calls that tell whether a value fits. -/
def acceptCalls : Constraint → Value → List Call
  | c@(.array element), v =>
    ⟨.accept, c⟩ :: ((st.arrayItems? v).getD []).flatMap fun item ↦ acceptCalls element item
  | c@(.union branches), v => ⟨.accept, c⟩ :: acceptCallsOfAll branches v
  | c, _ => [⟨.accept, c⟩]
termination_by structural c => c
def acceptCallsOfAll : List Constraint → Value → List Call
  | [], _ => []
  | c :: cs, v => acceptCalls c v ++ acceptCallsOfAll cs v
termination_by structural cs => cs
end

theorem exists_hasType (c : ClassId) (v : Value) : ∃ b, st.hasType (.ofClass c) v = .ok b := by
  unfold hasType isOf
  split
  case h_5 =>
    by_cases hv : st.inherits (st.typeOf v) (.builtin .boolean) = true
    · exact ⟨false, by simp only [hv, if_true]; rfl⟩
    · exact ⟨_, by simp only [hv]; rfl⟩
  all_goals exact ⟨_, rfl⟩

theorem foldl_calls {α : Type} (calls : α → List Call) (items : List α) (s : Session) :
    items.foldl (fun s item ↦ { s with calls := s.calls ++ calls item }) s =
      { s with calls := s.calls ++ items.flatMap calls } := by
  induction items generalizing s with
  | nil => simp
  | cons item items ih => simp [ih]

theorem toOption_getD_of_exists {x : Except Fault Bool} (h : ∃ b, x = .ok b) :
    x = .ok (x.toOption.getD false) := by
  obtain ⟨b, rfl⟩ := h
  rfl

@[simp] theorem fitsAny_eq (cs : List Constraint) (v : Value) :
    st.fitsAny cs v = cs.any fun c ↦ st.fits c v := by
  induction cs with
  | nil => rfl
  | cons c cs ih => rw [fitsAny, ih, List.any_cons]

variable {st} {ev : Evaluator}

mutual
/-- Where the literals can be compared, the check answers whether the value fits. -/
theorem accepts_run (hev : ev.IsIntact) (c : Constraint) (hc : c.IsProper) (v : Value)
    (h : st.CanCompare c v) (s : Session) :
    st.accepts ev c v s = .ok (st.fits c v) { s with calls := s.calls ++ st.acceptCalls c v } := by
  cases c with
  | type target =>
    rw [accepts, bind_of_ok (Evaluator.call_run hev ..)]
    obtain ⟨k, rfl⟩ := hc.target_eq
    exact Check.ofExcept_run (toOption_getD_of_exists (st.exists_hasType k v)) _
  | literals literals =>
    rw [accepts, bind_of_ok (Evaluator.call_run hev ..)]
    simp only [CanCompare] at h
    exact Check.ofExcept_run (toOption_getD_of_exists h) _
  | array element =>
    rw [accepts, bind_of_ok (Evaluator.call_run hev ..)]
    simp only [CanCompare] at h
    cases hv : st.arrayItems? v with
    | none => simp [fits, acceptCalls, hv]
    | some items =>
      have hoffers := hev "offending_indexes" (by decide)
      have hitems := mapM_run (s := { s with calls := s.calls ++ [⟨.accept, .array element⟩] })
        (st.fits element ·) (fun s item ↦ { s with calls := s.calls ++ st.acceptCalls element item })
        (fun _ ↦ True) items
        (fun item hi t _ ↦ ⟨accepts_run hev element hc item (h items hv item hi) t, trivial⟩)
        trivial
      simp only
      rw [bind_of_ok (Check.ofExcept_run hoffers _), bind_of_ok hitems, pure_run, foldl_calls]
      simp [fits, acceptCalls, hv, List.all_map]
  | union branches =>
    rw [accepts, bind_of_ok (Evaluator.call_run hev ..)]
    simp only [CanCompare] at h
    rw [bind_of_ok (acceptsEach_run hev branches hc v h _), pure_run]
    simp [fits, acceptCalls]
  | refused fault => exact hc.elim
termination_by structural c
theorem acceptsEach_run (hev : ev.IsIntact) (cs : List Constraint)
    (hcs : Constraint.LeavesOfAll Constraint.IsBasic cs) (v : Value)
    (h : st.CanCompareAll cs v) (s : Session) :
    st.acceptsEach ev cs v s = .ok (cs.map (st.fits · v))
      { s with calls := s.calls ++ st.acceptCallsOfAll cs v } := by
  cases cs with
  | nil => simp [acceptsEach, acceptCallsOfAll]
  | cons c cs =>
    have hc := accepts_run hev c hcs.1 v h.1 s
    have hcs := acceptsEach_run hev cs hcs.2 v h.2 { s with calls := s.calls ++ st.acceptCalls c v }
    rw [acceptsEach, bind_of_ok hc, bind_of_ok hcs, pure_run]
    simp [acceptCallsOfAll]
termination_by structural cs
end

mutual
theorem canCompare_of_accepts (c : Constraint) (v : Value) {b : Bool} {s t : Session}
    (h : st.accepts ev c v s = .ok b t) : st.CanCompare c v := by
  cases c with
  | type target => trivial
  | literals literals =>
    rw [accepts] at h
    obtain ⟨-, s', -, h⟩ := bind_eq_ok h
    exact ⟨b, Check.of_ofExcept_run h⟩
  | array element =>
    rw [accepts] at h
    obtain ⟨-, s', -, h⟩ := bind_eq_ok h
    rw [CanCompare]
    intro items hv item hi
    simp only [hv] at h
    obtain ⟨-, s₁, -, h⟩ := bind_eq_ok h
    obtain ⟨bs, s₂, h, -⟩ := bind_eq_ok h
    obtain ⟨b', s₃, t₃, h⟩ := exists_run_of_mapM h item hi
    exact canCompare_of_accepts element item h
  | union branches =>
    rw [accepts] at h
    obtain ⟨-, s', -, h⟩ := bind_eq_ok h
    obtain ⟨bs, s₁, h, -⟩ := bind_eq_ok h
    exact canCompareAll_of_acceptsEach branches v h
  | refused fault => trivial
termination_by structural c
theorem canCompareAll_of_acceptsEach (cs : List Constraint) (v : Value) {bs : List Bool}
    {s t : Session} (h : st.acceptsEach ev cs v s = .ok bs t) : st.CanCompareAll cs v := by
  cases cs with
  | nil => trivial
  | cons c cs =>
    rw [acceptsEach] at h
    obtain ⟨b, s₁, hc, h⟩ := bind_eq_ok h
    obtain ⟨bs', s₂, hcs, -⟩ := bind_eq_ok h
    exact ⟨canCompare_of_accepts c v hc, canCompareAll_of_acceptsEach cs v hcs⟩
termination_by structural cs
end

end Store

end Conformance
