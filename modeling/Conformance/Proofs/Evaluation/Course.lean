import Conformance.Proofs.Evaluation.Contrast

namespace Conformance

def Constraint.elements (c : Constraint) : List Constraint := c.alternatives.filterMap element?

def Constraint.elementsOfAll (cs : List Constraint) : List Constraint :=
  (Constraint.alternativesOfAll cs).filterMap element?

theorem Constraint.elementsOfAll_cons (c : Constraint) (cs : List Constraint) :
    Constraint.elementsOfAll (c :: cs) = c.elements ++ Constraint.elementsOfAll cs := by
  rw [elementsOfAll, alternativesOfAll, List.filterMap_append]
  rfl

namespace Store

mutual
def diagnoseCalls (st : Store) : Constraint → Value → List Call
  | c@(.literals _), _ => [⟨.diagnose, c⟩, ⟨.accept, c⟩]
  | c@(.array element), v =>
    ⟨.diagnose, c⟩ :: ((st.arrayItems? v).getD []).flatMap fun item ↦ st.acceptCalls element item
  | c@(.union branches), v => ⟨.diagnose, c⟩ :: diagnoseCallsOfAll st branches v
  | c, _ => [⟨.diagnose, c⟩]
termination_by structural c => c
def diagnoseCallsOfAll (st : Store) : List Constraint → Value → List Call
  | [], _ => []
  | c :: cs, v => diagnoseCalls st c v ++ diagnoseCallsOfAll st cs v
termination_by structural cs => cs
end

def Misplaced (st : Store) (ev : Evaluator) (element : Constraint) (items : List Value)
    (indexes : List Nat) : Prop :=
  indexes.Pairwise (· < ·) ∧
    ∀ i, i ∈ indexes ↔ ∃ item, items[i]? = some item ∧ (st.accepts ev element item).Answers false

/-- The entries in which a diagnosis reports on arrays, given the constraints of their items: one for
each constraint that an item does not fit, and no others. -/
inductive Reports (st : Store) (ev : Evaluator) (v : Value) (label : String) :
    List Constraint → List Entry → Prop
  | nil : Reports st ev v label [] []
  | fits {element : Constraint} {elements : List Constraint} {entries : List Entry}
      (h : ∀ items, st.arrayItems? v = some items →
        ∀ item ∈ items, (st.accepts ev element item).Answers true)
      (hrest : Reports st ev v label elements entries) :
      Reports st ev v label (element :: elements) entries
  | fails {element : Constraint} {elements : List Constraint} {entries : List Entry}
      {items : List Value} {indexes : List Nat} {name : String} (hv : st.arrayItems? v = some items)
      (hindexes : st.Misplaced ev element items indexes) (hne : indexes ≠ [])
      (hname : st.constraintName element = .ok name)
      (hrest : Reports st ev v label elements entries) :
      Reports st ev v label (element :: elements)
        (.record (.elementsMismatch label indexes name) :: entries)

variable {st : Store} {ev : Evaluator} {v : Value} {label : String}

theorem Reports.append {elements elements' : List Constraint} {entries entries' : List Entry}
    (h : st.Reports ev v label elements entries) (h' : st.Reports ev v label elements' entries') :
    st.Reports ev v label (elements ++ elements') (entries ++ entries') := by
  induction h with
  | nil => exact h'
  | fits h _ ih => exact .fits h ih
  | fails hv hindexes hne hname _ ih => exact .fails hv hindexes hne hname ih

/-- The end of a check that was to make some calls and to report on some arrays. -/
inductive EndsIn (st : Store) (ev : Evaluator) (v : Value) (label : String) (s : Session)
    (calls : List Call) (elements : List Constraint) {α : Type} :
    EStateM.Result Fault Session α → Prop
  | answers (a : α) {entries : List Entry} (h : st.Reports ev v label elements entries) :
      EndsIn st ev v label s calls elements (.ok a (s.adding calls entries))
  | faults (e : Fault) {calls' : List Call} {elements' : List Constraint} {entries : List Entry}
      (hcalls : calls' <+: calls) (helements : elements' <+: elements)
      (h : st.Reports ev v label elements' entries) :
      EndsIn st ev v label s calls elements (.error e (s.adding calls' entries))

def Follows (st : Store) (ev : Evaluator) (v : Value) (label : String) (calls : List Call)
    (elements : List Constraint) {α : Type} (x : Check α) : Prop :=
  ∀ s, st.EndsIn ev v label s calls elements (x s)

namespace Follows

variable {α β : Type} {calls calls' : List Call} {elements elements' : List Constraint}
  {x : Check α} {f : α → Check β}

theorem bind (hx : st.Follows ev v label calls elements x)
    (hf : ∀ a s t, x s = .ok a t → st.Follows ev v label calls' elements' (f a)) :
    st.Follows ev v label (calls ++ calls') (elements ++ elements') (x >>= f) := by
  intro s
  have hends := hx s
  simp only [Bind.bind, EStateM.bind]
  generalize hrun : x s = r at hends ⊢
  cases hends with
  | @answers a entries h =>
    have hrest := hf a s _ hrun (s.adding calls entries)
    simp only
    generalize f a (s.adding calls entries) = r at hrest ⊢
    cases hrest with
    | answers b h' =>
      rw [Session.adding_adding]
      exact .answers b (h.append h')
    | faults e hcalls helements h' =>
      rw [Session.adding_adding]
      exact .faults e ((List.prefix_append_right_inj _).2 hcalls)
        ((List.prefix_append_right_inj _).2 helements) (h.append h')
  | faults e hcalls helements h =>
    exact .faults e (hcalls.trans (List.prefix_append _ _))
      (helements.trans (List.prefix_append _ _)) h

theorem pure (h : st.Reports ev v label elements []) (a : α) :
    st.Follows ev v label [] elements (Pure.pure a : Check α) := by
  intro s
  have hends : st.EndsIn ev v label s [] elements (.ok a (s.adding [] [])) := .answers a h
  rwa [Session.adding_nil] at hends

theorem throw (e : Fault) :
    st.Follows ev v label calls elements (MonadExcept.throw e : Check α) := by
  intro s
  have hends : st.EndsIn ev v label s calls elements (α := α) (.error e (s.adding [] [])) :=
    .faults e calls.nil_prefix elements.nil_prefix .nil
  rwa [Session.adding_nil] at hends

theorem ofExcept (q : Except Fault α) : st.Follows ev v label [] [] (Check.ofExcept q) := by
  cases q with
  | ok a => exact pure .nil a
  | error e => exact throw e

theorem ask_bind {q : Except Fault α}
    (hf : ∀ a, q = .ok a → st.Follows ev v label calls elements (f a)) :
    st.Follows ev v label calls elements (Check.ofExcept q >>= f) := by
  cases q with
  | ok a => exact hf a rfl
  | error e => exact throw e

theorem call_bind {f : Unit → Check β} (hev : ev.IsIntact) (method : Method) (c : Constraint)
    (hf : st.Follows ev v label calls elements (f ())) :
    st.Follows ev v label (⟨method, c⟩ :: calls) elements (ev.call method c >>= f) := by
  have hcall : st.Follows ev v label [⟨method, c⟩] [] (ev.call method c) := by
    intro s
    rw [Evaluator.call_run hev]
    have hends : st.EndsIn ev v label s [⟨method, c⟩] [] (.ok () (s.adding [⟨method, c⟩] [])) :=
      .answers () .nil
    simp only [Session.adding, List.append_nil] at hends
    exact hends
  exact hcall.bind fun _ _ _ _ ↦ hf

theorem then_free (hx : st.Follows ev v label calls elements x)
    (hf : ∀ a, st.Follows ev v label [] [] (f a)) :
    st.Follows ev v label calls elements (x >>= f) := by
  have hbind := hx.bind fun a _ _ _ ↦ hf a
  rwa [List.append_nil, List.append_nil] at hbind

theorem then_reports (hx : st.Follows ev v label calls [] x)
    (hf : ∀ a s t, x s = .ok a t → st.Follows ev v label [] elements (f a)) :
    st.Follows ev v label calls elements (x >>= f) := by
  have hbind := hx.bind hf
  rwa [List.append_nil] at hbind

theorem mapM {l : List α} {callsOf : α → List Call}
    (h : ∀ a ∈ l, st.Follows ev v label (callsOf a) [] (f a)) :
    st.Follows ev v label (l.flatMap callsOf) [] (l.mapM f) := by
  induction l with
  | nil => exact pure .nil []
  | cons a l ih =>
    obtain ⟨ha, hl⟩ := List.forall_mem_cons.1 h
    rw [List.mapM_cons, List.flatMap_cons]
    exact ha.bind fun b _ _ _ ↦ (ih hl).then_free fun bs ↦ pure .nil (b :: bs)

end Follows

mutual
theorem accepts_follows (hev : ev.IsIntact) (c : Constraint) (w : Value) :
    st.Follows ev v label (st.acceptCalls c w) [] (st.accepts ev c w) := by
  cases c with
  | type target => exact .call_bind hev _ _ (.ofExcept _)
  | literals literals => exact .call_bind hev _ _ (.ofExcept _)
  | array element =>
    refine .call_bind hev _ _ ?_
    cases st.arrayItems? w with
    | none => exact .pure .nil false
    | some items =>
      refine .ask_bind fun _ _ ↦ ?_
      exact (Follows.mapM fun item _ ↦ accepts_follows hev element item).then_free fun verdicts ↦
        .pure .nil (verdicts.all id)
  | union branches =>
    exact .call_bind hev _ _ ((acceptsEach_follows hev branches w).then_free fun verdicts ↦
      .pure .nil (verdicts.any id))
  | refused fault => exact .call_bind hev _ _ (.throw fault)
termination_by structural c
theorem acceptsEach_follows (hev : ev.IsIntact) (cs : List Constraint) (w : Value) :
    st.Follows ev v label (st.acceptCallsOfAll cs w) [] (st.acceptsEach ev cs w) := by
  cases cs with
  | nil => exact .pure .nil []
  | cons c cs =>
    exact (accepts_follows hev c w).bind fun verdict _ _ _ ↦
      (acceptsEach_follows hev cs w).then_free fun verdicts ↦ .pure .nil (verdict :: verdicts)
termination_by structural cs
end

theorem rel_getElem?_of_forall₂ {α β : Type} {R : α → β → Prop} {l : List α} {m : List β}
    (h : List.Forall₂ R l m) (i : Nat) : Option.Rel R l[i]? m[i]? := by
  induction h generalizing i with
  | nil => exact .none
  | cons hab _ ih =>
    cases i with
    | zero => exact .some hab
    | succ i => exact ih i

theorem mem_places_iff {bs : List Bool} {i : Nat} :
    i ∈ (bs.zipIdx.filter fun e ↦ !e.1).map (·.2) ↔ bs[i]? = some false := by
  simp [List.mem_zipIdx_iff_getElem?]

theorem pairwise_places (bs : List Bool) :
    ((bs.zipIdx.filter fun e ↦ !e.1).map (·.2)).Pairwise (· < ·) := by
  have hplaces : (bs.zipIdx.map (·.2)).Pairwise (· < ·) := by
    rw [List.zipIdx_map_snd]
    exact List.pairwise_lt_range'
  exact hplaces.sublist (List.filter_sublist.map _)

theorem misplaced_of_run (hev : ev.IsIntact) {element : Constraint} {items : List Value}
    {offending : List Nat} {s t : Session}
    (h : st.mismatches ev element items s = .ok offending t) :
    st.Misplaced ev element items offending ∧
      (offending = [] → ∀ item ∈ items, (st.accepts ev element item).Answers true) := by
  rw [mismatches] at h
  obtain ⟨verdicts, s', hverdicts, h⟩ := bind_eq_ok h
  cases h
  have hanswers := rel_getElem?_of_forall₂ <| Check.forall₂_answers_of_mapM
    (fun item ↦ accepts_ignoresSettings hev element item) hverdicts
  have hverdict {i : Nat} {item : Value} (hi : items[i]? = some item) :
      ∃ b, verdicts[i]? = some b ∧ (st.accepts ev element item).Answers b := by
    have hrel := hanswers i
    rw [hi] at hrel
    generalize verdicts[i]? = b? at hrel
    cases hrel with
    | some h => exact ⟨_, rfl, h⟩
  refine ⟨⟨pairwise_places verdicts, fun i ↦ ?_⟩, fun hnone item hitem ↦ ?_⟩
  · rw [mem_places_iff]
    constructor
    · intro hi
      have hrel := hanswers i
      rw [hi] at hrel
      generalize items[i]? = item? at hrel
      cases hrel with
      | some h => exact ⟨_, rfl, h⟩
    · rintro ⟨item, hi, hfalse⟩
      obtain ⟨b, hb, hanswer⟩ := hverdict hi
      rw [hb, hanswer.unique hfalse]
  · obtain ⟨i, hi⟩ := List.mem_iff_getElem?.1 hitem
    obtain ⟨b, hb, hanswer⟩ := hverdict hi
    cases b with
    | true => exact hanswer
    | false =>
      have hmem := mem_places_iff.2 hb
      rw [hnone] at hmem
      cases hmem

theorem record_follows {elements : List Constraint} {r : Record}
    (h : st.Reports ev v label elements [.record r]) :
    st.Follows ev v label [] elements (Check.record r) := by
  intro s
  have hends : st.EndsIn ev v label s [] elements (.ok () (s.adding [] [.record r])) :=
    .answers () h
  simp only [Session.adding, List.append_nil] at hends
  exact hends

theorem arrayDiagnostic_follows (hev : ev.IsIntact) (element : Constraint) :
    st.Follows ev v label
      (((st.arrayItems? v).getD []).flatMap fun item ↦ st.acceptCalls element item) [element]
      (st.arrayDiagnostic ev element v label) := by
  refine .ask_bind fun _ _ ↦ ?_
  cases hv : st.arrayItems? v with
  | none => exact .pure (.fits (fun _ h ↦ by rw [hv] at h; cases h) .nil) _
  | some items =>
    refine .ask_bind fun _ _ ↦ ?_
    have hmismatches : st.Follows ev v label
        (items.flatMap fun item ↦ st.acceptCalls element item) [] (st.mismatches ev element items) :=
      (Follows.mapM fun item _ ↦ accepts_follows hev element item).then_free fun _ ↦ .pure .nil _
    refine hmismatches.then_reports fun offending s t hrun ↦ ?_
    obtain ⟨hmisplaced, hfits⟩ := misplaced_of_run hev hrun
    split
    · next hempty =>
      refine .pure (.fits (fun items' hitems ↦ ?_) .nil) none
      cases hv.symm.trans hitems
      exact hfits (List.isEmpty_iff.1 hempty)
    · next hne =>
      rw [List.isEmpty_iff] at hne
      refine .ask_bind fun name hname ↦ ?_
      exact (record_follows (.fails hv hmisplaced hne hname .nil)).then_free fun _ ↦ .pure .nil _

theorem unionWording_follows (branches : List Constraint) (element? : Option Constraint) :
    st.Follows ev v label [] [] (st.unionWording branches v label element?) := by
  cases element? with
  | some element => exact .ask_bind fun _ _ ↦ .pure .nil _
  | none => exact .ask_bind fun _ _ ↦ .pure .nil _

variable {p : Policy}

theorem unionDiagnostic_follows (hp : ev.policy? = .ok (some p)) (branches : List Constraint)
    (diagnostics : List String) :
    st.Follows ev v label [] [] (st.unionDiagnostic ev branches diagnostics v label) := by
  by_cases hsingle : branches.length = 1 ∧ diagnostics.length = 1
  · obtain ⟨c, rfl⟩ := List.length_eq_one_iff.1 hsingle.1
    obtain ⟨d, rfl⟩ := List.length_eq_one_iff.1 hsingle.2
    exact .pure .nil _
  · rw [unionDiagnostic_of_many ev hsingle, policyFor_of_policy hp, pure_bind]
    exact unionWording_follows branches _

mutual
theorem diagnose_follows (hev : ev.IsIntact) (hp : ev.policy? = .ok (some p)) (c : Constraint) :
    st.Follows ev v label (st.diagnoseCalls c v) c.elements (st.diagnose ev c v label) := by
  cases c with
  | type target =>
    refine .call_bind hev _ _ (.ask_bind fun fits _ ↦ ?_)
    cases fits with
    | true => exact .pure .nil none
    | false => exact .ask_bind fun _ _ ↦ .pure .nil _
  | literals literals =>
    refine .call_bind hev _ _ ((accepts_follows hev (.literals literals) v).then_free fun fits ↦ ?_)
    cases fits with
    | true => exact .pure .nil none
    | false => exact .ask_bind fun _ _ ↦ .pure .nil _
  | array element => exact .call_bind hev _ _ (arrayDiagnostic_follows hev element)
  | union branches =>
    refine .call_bind hev _ _ (.ask_bind fun _ _ ↦ ?_)
    refine (diagnoseEach_follows hev hp branches).then_free fun outcomes ↦ ?_
    cases outcomes.any Option.isNone with
    | true => exact .pure .nil none
    | false => exact (unionDiagnostic_follows hp branches _).then_free fun _ ↦ .pure .nil _
  | refused fault => exact .call_bind hev _ _ (.throw fault)
termination_by structural c
theorem diagnoseEach_follows (hev : ev.IsIntact) (hp : ev.policy? = .ok (some p))
    (cs : List Constraint) :
    st.Follows ev v label (st.diagnoseCallsOfAll cs v) (Constraint.elementsOfAll cs)
      (st.diagnoseEach ev cs v label) := by
  cases cs with
  | nil => exact .pure .nil []
  | cons c cs =>
    rw [Constraint.elementsOfAll_cons]
    exact (diagnose_follows hev hp c).bind fun diagnostic _ _ _ ↦
      (diagnoseEach_follows hev hp cs).then_free fun diagnostics ↦
        .pure .nil (diagnostic :: diagnostics)
termination_by structural cs
end

theorem Follows.of_ok {α : Type} {x : Check α} {calls : List Call} {elements : List Constraint}
    (hx : st.Follows ev v label calls elements x) {a : α} {s t : Session} (h : x s = .ok a t) :
    ∃ entries, st.Reports ev v label elements entries ∧ t = s.adding calls entries := by
  have hends := hx s
  rw [h] at hends
  cases hends with
  | answers a hreports => exact ⟨_, hreports, rfl⟩

theorem Follows.of_error {α : Type} {x : Check α} {calls : List Call} {elements : List Constraint}
    (hx : st.Follows ev v label calls elements x) {e : Fault} {s t : Session}
    (h : x s = .error e t) : ∃ made reached entries, made <+: calls ∧ reached <+: elements ∧
      st.Reports ev v label reached entries ∧ t = s.adding made entries := by
  have hends := hx s
  rw [h] at hends
  cases hends with
  | faults e hcalls helements hreports => exact ⟨_, _, _, hcalls, helements, hreports, rfl⟩

theorem Follows.after {α : Type} {x : Check α} {calls : List Call} {elements : List Constraint}
    (hx : st.Follows ev v label calls elements x) (s : Session) :
    ∃ made reached entries, made <+: calls ∧ reached <+: elements ∧
      st.Reports ev v label reached entries ∧ x.after s = s.adding made entries := by
  unfold Check.after
  cases h : x s with
  | ok a t =>
    obtain ⟨entries, hreports, rfl⟩ := hx.of_ok h
    exact ⟨calls, elements, entries, List.prefix_rfl, List.prefix_rfl, hreports, rfl⟩
  | error e t => exact hx.of_error h

theorem reports_nil {entries : List Entry} (h : st.Reports ev v label [] entries) : entries = [] := by
  cases h
  rfl

/-- A diagnosis reports on the arrays among the alternatives that an item does not fit, and on nothing
else. If it fails, it has reported on some of them, from the left. An acceptance does not report. -/
theorem evaluation_reports (st : Store) (hev : ev.IsIntact) (c : Constraint) (v : Value)
    (label : String) (s : Session) :
    (∀ p, ev.policy? = .ok (some p) →
      (∀ d t, st.diagnose ev c v label s = .ok d t → ∃ entries,
        t.journal = s.journal ++ entries ∧ st.Reports ev v label c.elements entries) ∧
      (∀ e t, st.diagnose ev c v label s = .error e t → ∃ reached entries, reached <+: c.elements ∧
        t.journal = s.journal ++ entries ∧ st.Reports ev v label reached entries) ∧
      (c.IsProper → st.CanName c → st.CanCompare c v → ∃ d t,
        st.diagnose ev c v label s = .ok d t)) ∧
    ((st.accepts ev c v).after s).journal = s.journal := by
  refine ⟨fun p hp ↦ ⟨fun d t h ↦ ?_, fun e t h ↦ ?_, fun hc hn hv ↦ ?_⟩, ?_⟩
  · obtain ⟨entries, hreports, rfl⟩ := (diagnose_follows hev hp c).of_ok h
    exact ⟨entries, rfl, hreports⟩
  · obtain ⟨made, reached, entries, -, hreached, hreports, rfl⟩ :=
      (diagnose_follows hev hp c).of_error h
    exact ⟨reached, entries, hreached, rfl, hreports⟩
  · exact exists_diagnose_of_policy hev hp hc hn hv label s
  · have hfollows : st.Follows ev v label (st.acceptCalls c v) [] (st.accepts ev c v) :=
      accepts_follows hev c v
    obtain ⟨made, reached, entries, -, hreached, hreports, hends⟩ := hfollows.after s
    rw [List.prefix_nil.1 hreached] at hreports
    rw [hends, reports_nil hreports]
    exact List.append_nil _

/-- Three items, texts and a number: two arrays are reported on, one after the other, though the value
fits the third alternative. -/
theorem evaluation_reports_items :
    let ev := Evaluator.ofPolicy (some .element)
    let c := Constraint.union [.array (.type (.ofClass (.builtin .text))),
      .union [.array (.type (.ofClass (.builtin .integer))), .type (.ofClass (.builtin .tuple))]]
    let v := Value.tuple [.text "a", .int 1, .text "b"]
    let entries := [Entry.record (.elementsMismatch "Label" [1] "String"),
      .record (.elementsMismatch "Label" [0, 2] "Integer")]
    ev.IsIntact ∧ ev.policy? = .ok (some .element) ∧
      (∃ t, initial.diagnose ev c v "Label" .initial = .ok none t ∧ t.journal = entries) ∧
      initial.Reports ev v "Label" c.elements entries := by
  intro ev c v entries
  have hev : ev.IsIntact := Evaluator.isIntact_ofPolicy _
  have hrun : ∃ t, initial.diagnose ev c v "Label" .initial = .ok none t ∧ t.journal = entries :=
    ⟨_, rfl, rfl⟩
  obtain ⟨hdiagnose, -⟩ := evaluation_reports initial hev c v "Label" .initial
  obtain ⟨t, hrun, hjournal⟩ := hrun
  obtain ⟨entries', hentries, hreports⟩ := (hdiagnose .element rfl).1 _ _ hrun
  rw [hjournal, Session.initial, List.nil_append] at hentries
  exact ⟨hev, rfl, ⟨t, hrun, hjournal⟩, hentries ▸ hreports⟩

def noteOrNumbers : Constraint :=
  .union [.literals [.tuple [.object (.defined 1) ⟨4⟩]],
    .array (.type (.ofClass (.builtin .integer)))]

theorem diagnose_noteOrNumbers :
    withNotes.diagnose (.ofPolicy (some .element)) noteOrNumbers
      (.tuple [.object (.defined 1) ⟨5⟩]) "Field" .initial =
        .error (.notCallable "int") { Session.initial with
          calls := [⟨.diagnose, noteOrNumbers⟩,
            ⟨.diagnose, .literals [.tuple [.object (.defined 1) ⟨4⟩]]⟩,
            ⟨.accept, .literals [.tuple [.object (.defined 1) ⟨4⟩]]⟩] } := rfl

/-- Nothing is reported on an array that comes after a comparison that fails. -/
theorem not_evaluation_reports :
    ¬ ∀ (st : Store) (ev : Evaluator) (p : Policy) (c : Constraint) (v : Value) (label : String)
      (s : Session), ev.IsIntact → ev.policy? = .ok (some p) → c.IsProper → c.HasBranches →
      ∃ entries, ((st.diagnose ev c v label).after s).journal = s.journal ++ entries ∧
        st.Reports ev v label c.elements entries := by
  intro h
  obtain ⟨entries, hjournal, hreports⟩ := h withNotes (.ofPolicy (some .element)) .element
    noteOrNumbers (.tuple [.object (.defined 1) ⟨5⟩]) "Field" .initial (Evaluator.isIntact_ofPolicy _) rfl
    ⟨trivial, trivial, trivial⟩ ⟨List.cons_ne_nil _ _, trivial, trivial, trivial⟩
  rw [Check.after, diagnose_noteOrNumbers] at hjournal
  obtain rfl : entries = [] := hjournal.symm
  have hrejected : ∃ t, withNotes.accepts (.ofPolicy (some .element))
      (.type (.ofClass (.builtin .integer))) (.object (.defined 1) ⟨5⟩) .initial = .ok false t :=
    ⟨_, rfl⟩
  obtain ⟨t, hrejected⟩ := hrejected
  cases hreports with
  | fits haccepted _ =>
    exact Check.not_answers_of_run hrejected (by decide) (haccepted _ rfl _ List.mem_cons_self)

end Store

end Conformance
