import Conformance.Proofs.Outcome.Merging
import Mathlib.Logic.Relation

open Conformance.Action

namespace Conformance

/-- A state, and the outcomes and the violations that have been made up to it. -/
structure Ledger where
  state : State
  outcomes : List ObjectId
  violations : List Value

def Ledger.blank (s : State) : Ledger := ⟨s, [], []⟩

/-- What can be done with outcomes. A new one has a list of its own or that of another one. -/
inductive Booking : Ledger → Ledger → Prop
  | violation {s t : State} {os : List ObjectId} {ws : List Value} {w : Value} (v : Violation)
      (hrun : newObject (.builtin .violation) v.attributes s = .ok w t) :
      Booking ⟨s, os, ws⟩ ⟨t, os, w :: ws⟩
  | outcome {s t : State} {os : List ObjectId} {ws vs : List Value} {id : ObjectId} (valid : Bool)
      (hvs : vs ⊆ ws) (hrun : (do newOutcome (.bool valid) (← listOf vs)) s = .ok (.outcome id) t) :
      Booking ⟨s, os, ws⟩ ⟨t, id :: os, ws⟩
  | sharing {s t : State} {os : List ObjectId} {ws : List Value} {o id : ObjectId} (valid : Bool)
      (ho : o ∈ os)
      (hrun : (do newOutcome (.bool valid) (← check (·.read (.outcome o) "violations"))) s =
        .ok (.outcome id) t) :
      Booking ⟨s, os, ws⟩ ⟨t, id :: os, ws⟩
  | add {s t : State} {os : List ObjectId} {ws : List Value} {o : ObjectId} {w : Value}
      (ho : o ∈ os) (hw : w ∈ ws) (hrun : add (.outcome o) w s = .ok () t) :
      Booking ⟨s, os, ws⟩ ⟨t, os, ws⟩
  | merge {s t : State} {os : List ObjectId} {ws : List Value} {a b : ObjectId} (ha : a ∈ os)
      (hb : b ∈ os) (hrun : merge (.outcome a) (.outcome b) s = .ok () t) :
      Booking ⟨s, os, ws⟩ ⟨t, os, ws⟩

namespace Ledger

open Store

/-- What is booked as an outcome records violations, and what is booked as a violation restates
one. -/
structure IsSound (l : Ledger) : Prop where
  classes : l.state.store.HasOutcomes
  outcomes : ∀ o ∈ l.outcomes, ∃ valid list vs, l.state.store.Records o valid list vs
  violations : ∀ w ∈ l.violations, ∃ v, l.state.store.Restates w v

variable {l l' : Ledger} {s t : State} {os : List ObjectId} {ws : List Value}

/-- One outcome may have changed or be new. The others have their list as it was, or the one that
the changed outcome has now. -/
theorem IsSound.revise {id : ObjectId} {valid : Bool} {list : ListId} {vs : List Violation}
    (h : IsSound ⟨s, os, ws⟩) (hrevises : s.store.Revises id list t.store)
    (hid : t.store.Records id valid list vs) : IsSound ⟨t, os, ws⟩ where
  classes := hrevises.hasOutcomes h.classes
  outcomes o ho := by
    by_cases hsame : o = id
    · subst hsame
      exact ⟨valid, list, vs, hid⟩
    · obtain ⟨valid', list', vs', ho'⟩ := h.outcomes o ho
      obtain ⟨us, hus⟩ := hrevises.records ho' hsame hid.restates
      exact ⟨valid', list', us, hus⟩
  violations w hw := by
    obtain ⟨v, hv⟩ := h.violations w hw
    exact ⟨v, hrevises.restates hv⟩

theorem IsSound.extend (h : IsSound ⟨s, os, ws⟩)
    (hrevises : s.store.Revises ⟨s.store.objects.size⟩ ⟨s.store.lists.size⟩ t.store) :
    IsSound ⟨t, os, ws⟩ where
  classes := hrevises.hasOutcomes h.classes
  outcomes o ho := by
    obtain ⟨valid, list, vs, hrecords⟩ := h.outcomes o ho
    refine ⟨valid, list, vs, hrevises.records_of_ne hrecords ?_ ?_⟩
    · rintro rfl
      exact Nat.lt_irrefl _ hrecords.lt_size
    · rintro rfl
      exact Nat.lt_irrefl _ hrecords.list_lt_size
  violations w hw := by
    obtain ⟨v, hv⟩ := h.violations w hw
    exact ⟨v, hrevises.restates hv⟩

theorem IsSound.book {id : ObjectId} {valid : Bool} {list : ListId} {vs : List Violation}
    (h : IsSound ⟨s, os, ws⟩) (hid : s.store.Records id valid list vs) :
    IsSound ⟨s, id :: os, ws⟩ where
  classes := h.classes
  outcomes := List.forall_mem_cons.2 ⟨⟨valid, list, vs, hid⟩, h.outcomes⟩
  violations := h.violations

theorem revises_newObject (st : Store) (o : Object) (list : ListId) :
    st.Revises ⟨st.objects.size⟩ list (st.newObject o).2 where
  changedBodies_eq := rfl
  not_violation _ h := (Nat.lt_irrefl _ h).elim
  size_le := (grows_newObject st o).objects_le
  object_eq id hid _ := (grows_newObject st o).object_eq id hid
  lists_size_le := Nat.le_refl _
  items_eq _ _ _ := rfl

theorem revises_newList (st : Store) (vs : List Value) :
    st.Revises ⟨st.objects.size⟩ ⟨st.lists.size⟩ (st.newList vs).2 where
  changedBodies_eq := rfl
  not_violation _ h := (Nat.lt_irrefl _ h).elim
  size_le := Nat.le_refl _
  object_eq _ _ _ := rfl
  lists_size_le := by simp [newList]
  items_eq _ hl _ := Table.get_add_of_lt hl vs

theorem IsSound.exists_restates (h : IsSound ⟨s, os, ws⟩) {vs : List Value} (hvs : vs ⊆ ws) :
    ∃ us, List.Forall₂ s.store.Restates vs us := by
  induction vs with
  | nil => exact ⟨[], .nil⟩
  | cons w vs ih =>
    obtain ⟨hw, hvs⟩ := List.cons_subset.1 hvs
    obtain ⟨v, hv⟩ := h.violations w hw
    obtain ⟨us, hus⟩ := ih hvs
    exact ⟨v :: us, .cons hv hus⟩

theorem IsSound.newViolation (h : IsSound ⟨s, os, ws⟩) {v : Violation} {w : Value}
    (hrun : newObject (.builtin .violation) v.attributes s = .ok w t) : IsSound ⟨t, os, w :: ws⟩ := by
  let o : Object := ⟨"", v.attributes⟩
  have hnew : EStateM.Result.ok (Value.violation ⟨s.store.objects.size⟩)
      { s with store := (s.store.newObject o).2 } = .ok w t := hrun
  cases hnew
  have hsound := h.extend (t := { s with store := (s.store.newObject o).2 })
    (revises_newObject s.store o ⟨s.store.lists.size⟩)
  refine ⟨hsound.classes, hsound.outcomes, List.forall_mem_cons.2 ⟨⟨v, _, rfl, ?_, ?_⟩, ?_⟩⟩
  · exact Nat.lt_of_lt_of_eq (Nat.lt_succ_self _) (Table.size_add _ _).symm
  · exact congrArg Object.attributes (Table.get_add_size s.store.objects o)
  · exact hsound.violations

theorem IsSound.newOutcome (h : IsSound ⟨s, os, ws⟩) {list : ListId}
    (hlist : list.index < s.store.lists.size) {vs : List Violation}
    (hvs : List.Forall₂ s.store.Restates (s.store.items list) vs) {valid : Bool} {id : ObjectId}
    (hrun : Action.newOutcome (.bool valid) (.list list) s = .ok (.outcome id) t) :
    IsSound ⟨t, id :: os, ws⟩ := by
  let o : Object := ⟨"", outcomeAttributes valid list⟩
  let s₁ : State := { s with store := (s.store.newObject o).2 }
  have hnew : EStateM.Result.ok (Value.outcome ⟨s.store.objects.size⟩) s₁ = .ok (.outcome id) t :=
    hrun
  have hrevises := revises_newObject s.store o ⟨s.store.lists.size⟩
  have hrecords : s₁.store.Records ⟨s.store.objects.size⟩ valid list vs := by
    refine ⟨?_, ?_, hlist, ?_⟩
    · exact Nat.lt_of_lt_of_eq (Nat.lt_succ_self _) (Table.size_add _ _).symm
    · exact congrArg Object.attributes (Table.get_add_size s.store.objects o)
    · exact hvs.imp fun _ _ ↦ hrevises.restates
  have hsound : IsSound ⟨s₁, ⟨s.store.objects.size⟩ :: os, ws⟩ := (h.extend hrevises).book hrecords
  injection hnew with houtcome hstate
  cases houtcome
  rwa [← hstate]

theorem isSound_of_booking (h : l.IsSound) (hbooking : Booking l l') : l'.IsSound := by
  cases hbooking with
  | violation v hrun => exact h.newViolation hrun
  | @outcome s t os ws vs id valid hvs hrun =>
    let s₁ : State := { s with store := (s.store.newList vs).2 }
    have hlist : listOf vs s = .ok (.list ⟨s.store.lists.size⟩) s₁ := rfl
    rw [bind_of_ok hlist] at hrun
    have hsound : IsSound ⟨s₁, os, ws⟩ := h.extend (revises_newList s.store vs)
    obtain ⟨us, hus⟩ := hsound.exists_restates hvs
    have hitems : s₁.store.items ⟨s.store.lists.size⟩ = vs := Table.get_add_size s.store.lists vs
    refine hsound.newOutcome ?_ (hitems ▸ hus) hrun
    exact Nat.lt_of_lt_of_eq (Nat.lt_succ_self _) (Table.size_add _ _).symm
  | sharing valid ho hrun =>
    obtain ⟨valid', list, vs, hrecords⟩ := h.outcomes _ ho
    rw [bind_of_ok (check_read_violations h.classes hrecords)] at hrun
    exact h.newOutcome hrecords.list_lt_size hrecords.restates hrun
  | add ho hw hrun =>
    obtain ⟨valid, list, vs, hrecords⟩ := h.outcomes _ ho
    obtain ⟨v, hv⟩ := h.violations _ hw
    obtain ⟨t, hrun', hrecords', hrevises⟩ := add_run h.classes hrecords hv
    rw [hrun'] at hrun
    cases hrun
    exact h.revise hrevises hrecords'
  | merge ha hb hrun =>
    obtain ⟨valid, list, vs, hrecords⟩ := h.outcomes _ ha
    obtain ⟨valid', list', us, hrecords'⟩ := h.outcomes _ hb
    -- a merge that never ends leads to no further state
    by_cases hends : list' = list → us = []
    · obtain ⟨t, hrun', hmerged, hrevises, -⟩ := merge_run h.classes hrecords hrecords' hends
      rw [hrun'] at hrun
      cases hrun
      exact h.revise hrevises hmerged
    · obtain ⟨hlist, hus⟩ := Classical.not_imp.1 hends
      rw [merge_unending h.classes hrecords hrecords' hlist hus] at hrun
      cases hrun

theorem isSound_of_bookings {s : State} (hclasses : s.store.HasOutcomes)
    (hrun : Relation.ReflTransGen Booking (blank s) l) : l.IsSound := by
  induction hrun with
  | refl => exact ⟨hclasses, List.forall_mem_nil _, List.forall_mem_nil _⟩
  | tail _ hbooking ih => exact isSound_of_booking ih hbooking

end Ledger

namespace Action

/-- Of any two outcomes that have come about in some way, one can be merged into the other unless
both keep their violations in one list that is not empty. It then has its own violations and after
them those of the other one, says so, and is valid if both were and nothing was added. A list that
is added to itself grows at every pass, and the merge does not end. -/
theorem merge_of_bookings {s : State} {l : Ledger} (hclasses : s.store.HasOutcomes)
    (hrun : Relation.ReflTransGen Booking (.blank s) l) {a b : ObjectId} (ha : a ∈ l.outcomes)
    (hb : b ∈ l.outcomes) :
    ∃ valid valid' list list' vs us, l.state.store.Records a valid list vs ∧
      l.state.store.Records b valid' list' us ∧
      ((list' = list → us = []) → ∃ t, merge (.outcome a) (.outcome b) l.state = .ok () t ∧
        t.store.Records a (valid && valid' && us.isEmpty) list (vs ++ us) ∧
        t.store.items list = l.state.store.items list ++ l.state.store.items list' ∧
        l.state.store.Revises a list t.store ∧ t.store.messageOf (.outcome a) =
          .ok (.text ("; ".intercalate ((vs ++ us).map Violation.message))) ∧
        ∀ passes, us.length < passes → ∃ t',
          (l.state.store.items list').forM (extendOutcome (.outcome a)) l.state = .ok () t' ∧
          extendFrom (.outcome a) (.list list') passes 0 l.state = .ok true t') ∧
      (list' = list → us ≠ [] → merge (.outcome a) (.outcome b) l.state = .error .unending l.state ∧
        ∀ passes, ∃ t, extendFrom (.outcome a) (.list list') passes 0 l.state = .ok false t) := by
  have hsound := Ledger.isSound_of_bookings hclasses hrun
  obtain ⟨valid, list, vs, hrecords⟩ := hsound.outcomes a ha
  obtain ⟨valid', list', us, hrecords'⟩ := hsound.outcomes b hb
  refine ⟨valid, valid', list, list', vs, us, hrecords, hrecords', ?_, ?_⟩
  · intro hends
    obtain ⟨t, hmerge, hmerged, hrevises, hitems⟩ :=
      merge_run hsound.classes hrecords hrecords' hends
    have hmessage := hmerged.messageOf_eq (hrevises.hasOutcomes hsound.classes)
    refine ⟨t, hmerge, hmerged, hitems, hrevises, hmessage, fun passes hpasses ↦ ?_⟩
    exact extendFrom_run hsound.classes hrecords hrecords'.list_lt_size List.drop_zero
      hrecords'.restates hends hpasses
  · rintro rfl hus
    refine ⟨merge_unending hsound.classes hrecords hrecords' rfl hus, fun passes ↦ ?_⟩
    have hlength : us.length = vs.length :=
      hrecords'.restates.length_eq.symm.trans hrecords.restates.length_eq
    have hplace : 0 < vs.length := hlength ▸ List.length_pos_of_ne_nil hus
    exact extendFrom_self hsound.classes hrecords hplace passes

def sizeViolation : Violation :=
  ⟨.text "size", .object (.builtin .typeConstraint) ⟨1⟩, .int 7, "Size is a Integer, not a String"⟩

def withTextConstraint : State :=
  { State.initial with
    store := (Store.initial.newObject ⟨"", [(.text "target", .ofClass (.builtin .text))]⟩).2 }

def noted : Ledger where
  state := after (do
      let w ← newObject (.builtin .violation) sizeViolation.attributes
      add (← newOutcome (.bool true) (← listOf [])) w) withTextConstraint
  outcomes := [⟨3⟩]
  violations := [.violation ⟨2⟩]

def notedTwice : Ledger where
  state := after (do newOutcome (.bool false) (← listOf [.violation ⟨2⟩])) noted.state
  outcomes := [⟨4⟩, ⟨3⟩]
  violations := [.violation ⟨2⟩]

theorem noted_of_bookings : Relation.ReflTransGen Booking (.blank withTextConstraint) noted := by
  let s₁ : State :=
    after (newObject (.builtin .violation) sizeViolation.attributes) withTextConstraint
  let s₂ : State := after (do newOutcome (.bool true) (← listOf [])) s₁
  have h₁ : Booking (.blank withTextConstraint) ⟨s₁, [], [.violation ⟨2⟩]⟩ :=
    .violation sizeViolation rfl
  have h₂ : Booking ⟨s₁, [], [.violation ⟨2⟩]⟩ ⟨s₂, [⟨3⟩], [.violation ⟨2⟩]⟩ :=
    .outcome true (List.nil_subset _) rfl
  have h₃ : Booking ⟨s₂, [⟨3⟩], [.violation ⟨2⟩]⟩ noted :=
    .add (List.mem_singleton_self _) (List.mem_singleton_self _) rfl
  exact .tail (.tail (.single h₁) h₂) h₃

theorem merge_of_bookings_notedTwice :
    Relation.ReflTransGen Booking (.blank withTextConstraint) notedTwice ∧
      ∃ t, merge (.outcome ⟨3⟩) (.outcome ⟨4⟩) notedTwice.state = .ok () t ∧
        t.store.messageOf (.outcome ⟨3⟩) = .ok (.text
          "Size is a Integer, not a String; Size is a Integer, not a String") := by
  have hstep : Booking noted notedTwice := .outcome false (List.Subset.refl _) rfl
  have hrun := noted_of_bookings.tail hstep
  have hrestates : notedTwice.state.store.Restates (.violation ⟨2⟩) sizeViolation :=
    ⟨⟨2⟩, rfl, by decide +kernel, rfl⟩
  have h₃ : notedTwice.state.store.Records ⟨3⟩ false ⟨0⟩ [sizeViolation] :=
    ⟨by decide +kernel, rfl, by decide +kernel, .cons hrestates .nil⟩
  have h₄ : notedTwice.state.store.Records ⟨4⟩ false ⟨1⟩ [sizeViolation] :=
    ⟨by decide +kernel, rfl, by decide +kernel, .cons hrestates .nil⟩
  obtain ⟨valid, valid', list, list', vs, us, ha, hb, hends, -⟩ :=
    merge_of_bookings ⟨rfl, rfl⟩ hrun (a := ⟨3⟩) (b := ⟨4⟩) (by simp [notedTwice])
      (by simp [notedTwice])
  obtain ⟨-, rfl, rfl⟩ := ha.unique h₃
  obtain ⟨-, rfl, rfl⟩ := hb.unique h₄
  obtain ⟨t, hmerge, -, -, -, hmessage, -⟩ := hends (by decide)
  exact ⟨hrun, t, hmerge, hmessage⟩

/-- An outcome that is merged into itself is read as long as it grows. -/
theorem not_merge_ends :
    ¬ ∀ l, Relation.ReflTransGen Booking (.blank withTextConstraint) l →
      ∀ a ∈ l.outcomes, ∀ b ∈ l.outcomes, ∀ violations,
        l.state.store.attributeOf (.outcome b) "violations" = .ok violations →
        ∃ passes t, extendFrom (.outcome a) violations passes 0 l.state = .ok true t := by
  intro h
  have hclasses : noted.state.store.HasOutcomes := ⟨rfl, rfl⟩
  have hrestates : noted.state.store.Restates (.violation ⟨2⟩) sizeViolation :=
    ⟨⟨2⟩, rfl, by decide +kernel, rfl⟩
  have hrecords : noted.state.store.Records ⟨3⟩ false ⟨0⟩ [sizeViolation] :=
    ⟨by decide +kernel, rfl, by decide +kernel, .cons hrestates .nil⟩
  have hmem : (⟨3⟩ : ObjectId) ∈ noted.outcomes := List.mem_singleton_self _
  obtain ⟨passes, t, hend⟩ := h noted noted_of_bookings ⟨3⟩ hmem ⟨3⟩ hmem _
    (Store.attributeOf_violations hclasses hrecords)
  obtain ⟨t', hgoes⟩ := extendFrom_self hclasses hrecords Nat.zero_lt_one passes
  rw [hgoes] at hend
  cases hend

end Action

end Conformance
