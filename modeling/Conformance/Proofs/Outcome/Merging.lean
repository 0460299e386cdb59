import Conformance.Proofs.Outcome.Records

namespace Conformance

namespace Action

open Store

variable {s : State} {id other : ObjectId} {list l : ListId} {valid : Bool} {w : Value}
  {v : Violation} {ws : List Value} {vs us : List Violation}

theorem check_read_valid (hclasses : s.store.HasOutcomes) (h : s.store.Records id valid list vs) :
    check (·.read (.outcome id) "valid") s = .ok (.bool valid) s :=
  check_of_ok (by rw [read_valid hclasses h]; rfl)

theorem check_read_violations (hclasses : s.store.HasOutcomes)
    (h : s.store.Records id valid list vs) :
    check (·.read (.outcome id) "violations") s = .ok (.list list) s :=
  check_of_ok (by rw [read_violations hclasses h]; rfl)

theorem extendOutcome_run (hclasses : s.store.HasOutcomes) (h : s.store.Records id valid list vs)
    (hw : s.store.Restates w v) : ∃ t, extendOutcome (.outcome id) w s = .ok () t ∧
      t.store.Records id false list (vs ++ [v]) ∧ s.store.Revises id list t.store ∧
      t.store.items list = s.store.items list ++ [w] := by
  have hoffers : s.store.offers (.outcome id) "add" (some w) = .ok () :=
    offers_operation hclasses h (by simp) (some w)
  obtain ⟨h₁, hrevises⟩ := h.setAttributes false
  let s₁ : State := { s with store := s.store.setAttributes id (outcomeAttributes false list) }
  have hwrite : attempt (·.writeAttribute (.outcome id) "valid" (.bool false)) s = .ok () s₁ :=
    attempt_of_ok (writeAttribute_valid hclasses h false)
  have hread : check (·.read (.outcome id) "violations") s₁ = .ok (.list list) s₁ :=
    check_read_violations (hrevises.hasOutcomes hclasses) h₁
  obtain ⟨h₂, hrevises', hitems⟩ := h₁.setItems (hrevises.restates hw)
  let t : State := { s₁ with store := s₁.store.setItems list (s₁.store.items list ++ [w]) }
  have happend : attempt (·.append (.list list) w) s₁ = .ok () t :=
    attempt_of_ok (append_list s₁.store list w)
  refine ⟨t, ?_, h₂, hrevises.trans hrevises', hitems⟩
  rw [extendOutcome, bind_of_ok (ask_of_ok hoffers), bind_of_ok hwrite, bind_of_ok hread, happend]

theorem extendAll_run (hclasses : s.store.HasOutcomes) (h : s.store.Records id valid list vs)
    (hws : List.Forall₂ s.store.Restates ws us) :
    ∃ t, ws.forM (extendOutcome (.outcome id)) s = .ok () t ∧
      t.store.Records id (valid && us.isEmpty) list (vs ++ us) ∧ s.store.Revises id list t.store ∧
      t.store.items list = s.store.items list ++ ws := by
  induction ws generalizing s valid vs us with
  | nil =>
    cases hws
    refine ⟨s, rfl, ?_, h.revises_self, (List.append_nil _).symm⟩
    simpa using h
  | cons w ws ih =>
    cases hws with
    | @cons _ v _ us hw hws =>
      obtain ⟨s₁, hrun, h₁, hrevises, hitems⟩ := extendOutcome_run hclasses h hw
      have hws₁ := hws.imp fun _ _ ↦ hrevises.restates
      obtain ⟨t, hrest, h₂, hrevises', hitems'⟩ := ih (hrevises.hasOutcomes hclasses) h₁ hws₁
      refine ⟨t, ?_, ?_, hrevises.trans hrevises', ?_⟩
      · exact (bind_of_ok hrun).trans hrest
      · simpa using h₂
      · rw [hitems', hitems, List.append_assoc, List.singleton_append]

/-- Adds to an outcome what a list holds at a place and at the next ones, at most `passes` of them.
Each is looked up in the list as it stands by then. Answers whether the list has come to an end. -/
def extendFrom (result list : Value) : Nat → Nat → Action Bool
  | 0, _ => return false
  | passes + 1, place => do
    match (← ask (·.iterate list))[place]? with
    | some violation =>
      extendOutcome result violation
      extendFrom result list passes (place + 1)
    | none => return true

/-- A list that is added to itself has one more to add at every place. -/
theorem extendFrom_self (hclasses : s.store.HasOutcomes) (h : s.store.Records id valid list vs)
    {place : Nat} (hplace : place < vs.length) (passes : Nat) :
    ∃ t, extendFrom (.outcome id) (.list list) passes place s = .ok false t := by
  induction passes generalizing s valid vs place with
  | zero => exact ⟨s, rfl⟩
  | succ passes ih =>
    have hlt : place < (s.store.items list).length := by rwa [h.restates.length_eq]
    have hw := h.restates.get hlt hplace
    obtain ⟨s₁, hrun, h₁, hrevises, -⟩ := extendOutcome_run hclasses h hw
    have hplace' : place + 1 < (vs ++ [vs.get ⟨place, hplace⟩]).length := by simpa using hplace
    obtain ⟨t, ht⟩ := ih (hrevises.hasOutcomes hclasses) h₁ hplace'
    refine ⟨t, ?_⟩
    have hitem : (s.store.items list)[place]? = some ((s.store.items list).get ⟨place, hlt⟩) :=
      List.getElem?_eq_getElem hlt
    rw [extendFrom, bind_of_ok (ask_of_ok (iterate_list s.store list)), hitem]
    exact (bind_of_ok hrun).trans ht

/-- A list that is not added to itself comes to its end, and all that it holds from the place on has
been added. -/
theorem extendFrom_run (hclasses : s.store.HasOutcomes) (h : s.store.Records id valid list vs)
    (hl : l.index < s.store.lists.size) {place passes : Nat}
    (hdrop : (s.store.items l).drop place = ws) (hws : List.Forall₂ s.store.Restates ws us)
    (hends : l = list → us = []) (hpasses : us.length < passes) :
    ∃ t, ws.forM (extendOutcome (.outcome id)) s = .ok () t ∧
      extendFrom (.outcome id) (.list l) passes place s = .ok true t := by
  obtain ⟨passes, rfl⟩ := Nat.exists_eq_succ_of_ne_zero (Nat.ne_zero_of_lt hpasses)
  -- the list that is read is not the one that grows, so its end stays where it is
  induction us generalizing s valid vs ws place passes with
  | nil =>
    cases hws
    have hend : (s.store.items l)[place]? = none := by
      rw [List.getElem?_eq_none_iff]
      exact List.drop_eq_nil_iff.1 hdrop
    refine ⟨s, rfl, ?_⟩
    rw [extendFrom, bind_of_ok (ask_of_ok (iterate_list s.store l)), hend]
    rfl
  | cons v us ih =>
    cases hws with
    | @cons w _ ws _ hw hws =>
      have hne : l ≠ list := fun hsame ↦ List.cons_ne_nil v us (hends hsame)
      have hitem : (s.store.items l)[place]? = some w := by
        rw [← List.head?_drop, hdrop]
        rfl
      obtain ⟨s₁, hrun, h₁, hrevises, -⟩ := extendOutcome_run hclasses h hw
      have hl₁ := Nat.lt_of_lt_of_le hl hrevises.lists_size_le
      have hdrop₁ : (s₁.store.items l).drop (place + 1) = ws := by
        rw [hrevises.items_eq l hl hne, ← List.tail_drop, hdrop]
        rfl
      have hws₁ := hws.imp fun _ _ ↦ hrevises.restates
      have hpasses₁ : us.length < passes := Nat.lt_of_succ_lt_succ hpasses
      obtain ⟨passes, rfl⟩ := Nat.exists_eq_succ_of_ne_zero (Nat.ne_zero_of_lt hpasses₁)
      obtain ⟨t, hrest, hfrom⟩ := ih (hrevises.hasOutcomes hclasses) h₁ hl₁ hdrop₁ hws₁
        (fun hsame ↦ (hne hsame).elim) passes hpasses₁
      refine ⟨t, (bind_of_ok hrun).trans hrest, ?_⟩
      rw [extendFrom, bind_of_ok (ask_of_ok (iterate_list s.store l)), hitem]
      exact (bind_of_ok hrun).trans hfrom

def settleValidity (result other : Value) : Action Unit := do
  let valid ← check (·.read result "valid")
  if ← ask (·.isTrue valid) then
    attempt (·.writeAttribute result "valid" (← check (·.read other "valid")))
  else attempt (·.writeAttribute result "valid" valid)

section

variable {valid' : Bool} (hclasses : s.store.HasOutcomes) (h : s.store.Records id valid list vs)
  (h' : s.store.Records other valid' l us)

include hclasses h h'

theorem settleValidity_run :
    ∃ t, settleValidity (.outcome id) (.outcome other) s = .ok () t ∧
      t.store.Records id (valid && valid') list vs ∧ s.store.Revises id list t.store ∧
      t.store.items list = s.store.items list := by
  let t (b : Bool) : State :=
    { s with store := s.store.setAttributes id (outcomeAttributes b list) }
  have hwrite (b : Bool) :
      attempt (·.writeAttribute (.outcome id) "valid" (.bool b)) s = .ok () (t b) :=
    attempt_of_ok (writeAttribute_valid hclasses h b)
  have htrue : ask (·.isTrue (.bool valid)) s = .ok valid s := rfl
  obtain ⟨hrecords, hrevises⟩ := h.setAttributes (valid && valid')
  refine ⟨t (valid && valid'), ?_, hrecords, hrevises, rfl⟩
  rw [settleValidity, bind_of_ok (check_read_valid hclasses h), bind_of_ok htrue]
  cases valid with
  | false => exact hwrite false
  | true => exact (bind_of_ok (check_read_valid hclasses h')).trans (hwrite valid')

theorem ask_shares :
    ask (fun st ↦ pure (!(s.store.items l).isEmpty &&
      st.shareViolations (.outcome id) (.outcome other))) s = .ok (!us.isEmpty && list == l) s := by
  have hempty : (s.store.items l).isEmpty = us.isEmpty := by
    have hrestates := h'.restates
    generalize s.store.items l = ws at hrestates ⊢
    cases hrestates <;> rfl
  apply ask_of_ok
  rw [shareViolations, attributeOf_violations hclasses h, attributeOf_violations hclasses h',
    hempty]
  rfl

theorem merge_run (hends : l = list → us = []) :
    ∃ t, merge (.outcome id) (.outcome other) s = .ok () t ∧
      t.store.Records id (valid && valid' && us.isEmpty) list (vs ++ us) ∧
      s.store.Revises id list t.store ∧
      t.store.items list = s.store.items list ++ s.store.items l := by
  have hoffers : s.store.offers (.outcome id) "merge" (some (.outcome other)) = .ok () :=
    offers_operation hclasses h (by simp) _
  have hread := check_read_violations hclasses h'
  have hshares : (!us.isEmpty && list == l) = false := by
    by_cases hsame : l = list
    · simp [hends hsame]
    · simp [Ne.symm hsame]
  have hask := ask_shares hclasses h h'
  rw [hshares] at hask
  obtain ⟨s₁, hrun, h₁, hrevises, hitems⟩ := extendAll_run hclasses h h'.restates
  -- The other outcome is as valid as it was, unless it is the same one.
  have hother : ∃ valid'' vs', s₁.store.Records other valid'' l vs' ∧
      (valid && us.isEmpty && valid'') = (valid && valid' && us.isEmpty) := by
    by_cases hsame : other = id
    · subst hsame
      obtain ⟨rfl, rfl, -⟩ := h'.unique h
      refine ⟨_, _, h₁, ?_⟩
      rw [hends rfl]
      simp
    · obtain ⟨vs', hvs'⟩ := hrevises.records h' hsame h₁.restates
      exact ⟨valid', vs', hvs', Bool.and_right_comm _ _ _⟩
  obtain ⟨valid'', vs', h₁', hvalid⟩ := hother
  obtain ⟨t, hlast, h₂, hrevises', hitems'⟩ :=
    settleValidity_run (hrevises.hasOutcomes hclasses) h₁ h₁'
  rw [hvalid] at h₂
  refine ⟨t, ?_, h₂, hrevises.trans hrevises', hitems'.trans hitems⟩
  rw [merge, bind_of_ok (ask_of_ok hoffers), bind_of_ok hread,
    bind_of_ok (ask_of_ok (iterate_list s.store l)), bind_of_ok hask]
  exact (bind_of_ok hrun).trans hlast

theorem merge_unending (hlist : l = list) (hus : us ≠ []) :
    merge (.outcome id) (.outcome other) s = .error .unending s := by
  have hoffers : s.store.offers (.outcome id) "merge" (some (.outcome other)) = .ok () :=
    offers_operation hclasses h (by simp) _
  have hread := check_read_violations hclasses h'
  have hshares : (!us.isEmpty && list == l) = true := by simp [hlist, hus]
  have hask := ask_shares hclasses h h'
  rw [hshares] at hask
  rw [merge, bind_of_ok (ask_of_ok hoffers), bind_of_ok hread,
    bind_of_ok (ask_of_ok (iterate_list s.store l)), bind_of_ok hask]
  rfl

end

theorem add_run (hclasses : s.store.HasOutcomes) (h : s.store.Records id valid list vs)
    (hw : s.store.Restates w v) : ∃ t, add (.outcome id) w s = .ok () t ∧
      t.store.Records id false list (vs ++ [v]) ∧ s.store.Revises id list t.store := by
  obtain ⟨t, hrun, h₁, hrevises, -⟩ := extendOutcome_run hclasses h hw
  exact ⟨t, hrun, h₁, hrevises⟩

end Action

end Conformance
