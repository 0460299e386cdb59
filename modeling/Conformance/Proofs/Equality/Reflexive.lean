import Conformance.Store.Equality

namespace Conformance

theorem someEqual_of_mem {α : Type} {p : α → Except Fault Bool} {l : List α} {a : α} (ha : a ∈ l)
    (h : p a = .ok true) : someEqual p l = .ok true := by
  induction l with
  | nil => cases ha
  | cons b l ih =>
    rw [someEqual]
    rcases List.mem_cons.1 ha with rfl | ha
    · rw [h]
      rfl
    · rw [ih ha]
      rcases p b with e | _ | _ <;> rfl

theorem allM_of_forall {α : Type} {p : α → Except Fault Bool} {l : List α}
    (h : ∀ a ∈ l, p a = .ok true) : l.allM p = .ok true := by
  induction l with
  | nil => rfl
  | cons a l ih =>
    obtain ⟨ha, hl⟩ := List.forall_mem_cons.1 h
    rw [List.allM, ha]
    exact ih hl

namespace Value

variable {deep : Value → Value → Except Fault Bool}

theorem isSame_iff {v w : Value} (h : v.showsIdentity = true) : v.isSame w = true ↔ v = w := by
  rw [isSame, h, Bool.true_and, isTwin_iff]

theorem isSame_self {v : Value} (h : v.showsIdentity = true) : v.isSame v = true :=
  (isSame_iff h).2 rfl

theorem orSame_of_isSame {v w : Value} (h : v.isSame w = true) (equal : Except Fault Bool) :
    v.orSame w equal = .ok true := by
  simp only [orSame, h, if_true]
  rfl

theorem includedIn_of_forall {vs ws : List Value}
    (h : ∀ v ∈ vs, ∃ w ∈ ws, v.orSame w (v.equals deep w) = .ok true) :
    includedIn deep ws vs = .ok true := by
  induction vs with
  | nil => rfl
  | cons v vs ih =>
    obtain ⟨⟨w, hw, hvw⟩, hvs⟩ := List.forall_mem_cons.1 h
    rw [includedIn, someEqual_of_mem hw hvw]
    exact ih hvs

theorem includes_of_mem {w v : Value} {vs : List Value} (hv : v ∈ vs)
    (h : v.orSame w (v.equals deep w) = .ok true) : includes deep w vs = .ok true := by
  induction vs with
  | nil => cases hv
  | cons v' vs ih =>
    rw [includes]
    rcases List.mem_cons.1 hv with rfl | hv
    · rw [h]
      rfl
    · rw [ih hv]
      rcases v'.orSame w (v'.equals deep w) with e | _ | _ <;> rfl

theorem equalSets_self {vs : List Value}
    (h : ∀ v ∈ vs, v.orSame v (v.equals deep v) = .ok true) : equalSets deep vs vs = .ok true := by
  have hincluded : includedIn deep vs vs = .ok true :=
    includedIn_of_forall fun v hv ↦ ⟨v, hv, h v hv⟩
  have hincludes : (vs.allM fun v ↦ includes deep v vs) = .ok true :=
    allM_of_forall fun v hv ↦ includes_of_mem hv (h v hv)
  rw [equalSets, if_pos (beq_self_eq_true _), hincluded]
  exact hincludes

mutual
@[simp] theorem orSame_self (v : Value) : v.orSame v (v.equals deep v) = .ok true := by
  cases v with
  | tuple vs => exact equalLists_self vs
  | frozenSet vs => exact equalSets_self (orSame_self_of_mem vs)
  | nil => rfl
  | bool b => cases b <;> rfl
  | int | text | bytes | range | ofClass | operation | property =>
    exact congrArg Except.ok (beq_self_eq_true _)
  | _ => exact orSame_of_isSame (isSame_self rfl) _
termination_by structural v
theorem orSame_self_of_mem (vs : List Value) :
    ∀ v ∈ vs, v.orSame v (v.equals deep v) = .ok true := by
  cases vs with
  | nil => exact List.forall_mem_nil _
  | cons v vs => exact List.forall_mem_cons.2 ⟨orSame_self v, orSame_self_of_mem vs⟩
termination_by structural vs
@[simp] theorem equalLists_self (vs : List Value) : equalLists deep vs vs = .ok true := by
  cases vs with
  | nil => rfl
  | cons v vs =>
    rw [equalLists, orSame_self v]
    exact equalLists_self vs
termination_by structural vs
end

end Value

theorem Store.equalEntries_self (deep : Value → Value → Except Fault Bool)
    (es : Entries Value Value) : equalEntries deep es es = .ok true := by
  let same (v w : Value) : Except Fault Bool := v.orSame w (v.equals deep w)
  have hself (e : Value × Value) : bothEqual (same e.1 e.1) (same e.2 e.2) = .ok true := by
    have hkey : same e.1 e.1 = .ok true := Value.orSame_self e.1
    have hvalue : same e.2 e.2 = .ok true := Value.orSame_self e.2
    rw [hkey, hvalue]
    rfl
  have hleft : (es.allM fun e ↦
      someEqual (fun f ↦ bothEqual (same e.1 f.1) (same e.2 f.2)) es) = .ok true :=
    allM_of_forall fun e he ↦ someEqual_of_mem he (hself e)
  have hright : (es.allM fun f ↦
      someEqual (fun e ↦ bothEqual (same e.1 f.1) (same e.2 f.2)) es) = .ok true :=
    allM_of_forall fun f hf ↦ someEqual_of_mem hf (hself f)
  rw [equalEntries, if_pos (beq_self_eq_true _)]
  exact (congrArg (bothEqual · _) hleft).trans hright

end Conformance
