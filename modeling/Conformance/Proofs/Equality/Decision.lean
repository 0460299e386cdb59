import Conformance.Store.Equality
import Mathlib.Data.List.Forall2
import Mathlib.Logic.Relation

namespace Conformance

/-- A comparison that answers nothing but whether a proposition holds. -/
def Decides (x : Except Fault Bool) (P : Prop) : Prop := ∀ b, x = .ok b → (b = true ↔ P)

def Matched {α β : Type} (R : α → β → Prop) (l : List α) (m : List β) : Prop :=
  l.length = m.length ∧ (∀ a ∈ l, ∃ b ∈ m, R a b) ∧ ∀ b ∈ m, ∃ a ∈ l, R a b

def EntryRelated (R : Value → Value → Prop) (e f : Value × Value) : Prop := R e.1 f.1 ∧ R e.2 f.2

namespace Matched

variable {α β γ : Type} {R R' : α → β → Prop} {S : β → γ → Prop} {l : List α} {m : List β}
  {n : List γ}

theorem refl {R : α → α → Prop} (hR : ∀ a, R a a) (l : List α) : Matched R l l :=
  ⟨rfl, fun a ha ↦ ⟨a, ha, hR a⟩, fun a ha ↦ ⟨a, ha, hR a⟩⟩

theorem imp (hR : ∀ a b, R a b → R' a b) (h : Matched R l m) : Matched R' l m := by
  obtain ⟨hlength, hleft, hright⟩ := h
  refine ⟨hlength, fun a ha ↦ ?_, fun b hb ↦ ?_⟩
  · obtain ⟨b, hb, hab⟩ := hleft a ha
    exact ⟨b, hb, hR a b hab⟩
  · obtain ⟨a, ha, hab⟩ := hright b hb
    exact ⟨a, ha, hR a b hab⟩

theorem swap (h : Matched R l m) : Matched (fun b a ↦ R a b) m l := ⟨h.1.symm, h.2.2, h.2.1⟩

theorem comp (h : Matched R l m) (h' : Matched S m n) : Matched (Relation.Comp R S) l n := by
  refine ⟨h.1.trans h'.1, fun a ha ↦ ?_, fun c hc ↦ ?_⟩
  · obtain ⟨b, hb, hab⟩ := h.2.1 a ha
    obtain ⟨c, hc, hbc⟩ := h'.2.1 b hb
    exact ⟨c, hc, b, hab, hbc⟩
  · obtain ⟨b, hb, hbc⟩ := h'.2.2 c hc
    obtain ⟨a, ha, hab⟩ := h.2.2 b hb
    exact ⟨a, ha, b, hab, hbc⟩

end Matched

namespace Decides

variable {x y : Except Fault Bool} {P Q : Prop} {b : Bool}

theorem of_ok (h : b = true ↔ P) : Decides (.ok b) P := by
  rintro b' hb
  rwa [← Except.ok.inj hb]

theorem of_error (e : Fault) (P : Prop) : Decides (.error e) P := nofun

theorem congr (h : Decides x P) (hPQ : P ↔ Q) : Decides x Q := fun b hb ↦ (h b hb).trans hPQ

theorem of_false (hP : ¬P) : Decides (.ok false) P := of_ok ⟨nofun, fun h ↦ absurd h hP⟩

theorem bind {α : Type} {x : Except Fault α} {f : α → Except Fault Bool}
    (h : ∀ a, x = .ok a → Decides (f a) P) : Decides (x >>= f) P := by
  cases x with
  | ok a => exact h a rfl
  | error e => exact of_error e P

theorem both (hx : Decides x P) (hy : P → Decides y Q) : Decides (bothEqual x y) (P ∧ Q) := by
  match x with
  | .error e => exact of_error e _
  | .ok true =>
    have hP : P := (hx true rfl).1 rfl
    exact (hy hP).congr ⟨fun hQ ↦ ⟨hP, hQ⟩, fun h ↦ h.2⟩
  | .ok false => exact of_false fun h ↦ nomatch (hx false rfl).2 h.1

theorem either (hx : Decides x P) (hy : Decides y Q) : Decides (eitherEqual x y) (P ∨ Q) := by
  match x, y with
  | .ok true, _ => exact of_ok ⟨fun _ ↦ .inl ((hx true rfl).1 rfl), fun _ ↦ rfl⟩
  | .ok false, y =>
    have hP : ¬P := fun h ↦ nomatch (hx false rfl).2 h
    exact hy.congr ⟨.inr, fun h ↦ h.resolve_left hP⟩
  | .error _, .ok true => exact of_ok ⟨fun _ ↦ .inr ((hy true rfl).1 rfl), fun _ ↦ rfl⟩
  | .error e, .ok false | .error e, .error _ => exact of_error e _

section Lists

variable {α : Type} {p : α → Except Fault Bool} {R : α → Prop} {l : List α}

theorem some (h : ∀ a ∈ l, Decides (p a) (R a)) : Decides (someEqual p l) (∃ a ∈ l, R a) := by
  induction l with
  | nil => exact of_false (by simp)
  | cons a l ih =>
    obtain ⟨ha, hl⟩ := List.forall_mem_cons.1 h
    exact (ha.either (ih hl)).congr (by simp)

theorem all (h : ∀ a ∈ l, Decides (p a) (R a)) : Decides (l.allM p) (∀ a ∈ l, R a) := by
  induction l with
  | nil => exact of_ok (by simp)
  | cons a l ih =>
    obtain ⟨ha, hl⟩ := List.forall_mem_cons.1 h
    have hcons : (a :: l).allM p = bothEqual (p a) (l.allM p) := by
      rw [List.allM]
      rcases p a with e | _ | _ <;> rfl
    rw [hcons, List.forall_mem_cons]
    exact ha.both fun _ ↦ ih hl

theorem any (h : ∀ a ∈ l, Decides (p a) (R a)) : Decides (l.anyM p) (∃ a ∈ l, R a) := by
  induction l with
  | nil => exact of_false (by simp)
  | cons a l ih =>
    obtain ⟨ha, hl⟩ := List.forall_mem_cons.1 h
    rw [List.anyM, List.exists_mem_cons_iff]
    refine bind fun b hb ↦ ?_
    have hb : b = true ↔ R a := ha b hb
    cases b with
    | true => exact of_ok ⟨fun _ ↦ .inl (hb.1 rfl), fun _ ↦ rfl⟩
    | false => exact (ih hl).congr ⟨.inr, fun h ↦ h.resolve_left fun ha ↦ nomatch hb.2 ha⟩

end Lists

end Decides

namespace Value

variable {deep : Value → Value → Except Fault Bool} {R : Value → Value → Prop} {vs ws : List Value}

theorem decides_equalLists
    (h : ∀ v ∈ vs, ∀ w, Decides (v.orSame w (v.equals deep w)) (R v w)) (ws : List Value) :
    Decides (equalLists deep vs ws) (List.Forall₂ R vs ws) := by
  induction vs generalizing ws with
  | nil => exact .of_ok (by simp)
  | cons v vs ih =>
    obtain ⟨hv, hvs⟩ := List.forall_mem_cons.1 h
    cases ws with
    | nil => exact .of_false (by simp)
    | cons w ws =>
      rw [equalLists, List.forall₂_cons]
      exact (hv w).both fun _ ↦ ih hvs ws

theorem decides_includedIn
    (h : ∀ v ∈ vs, ∀ w, Decides (v.orSame w (v.equals deep w)) (R v w)) (ws : List Value) :
    Decides (includedIn deep ws vs) (∀ v ∈ vs, ∃ w ∈ ws, R v w) := by
  induction vs with
  | nil => exact .of_ok (by simp)
  | cons v vs ih =>
    obtain ⟨hv, hvs⟩ := List.forall_mem_cons.1 h
    rw [includedIn, List.forall_mem_cons]
    exact (Decides.some fun w _ ↦ hv w).both fun _ ↦ ih hvs

theorem decides_includes {w : Value}
    (h : ∀ v ∈ vs, Decides (v.orSame w (v.equals deep w)) (R v w)) :
    Decides (includes deep w vs) (∃ v ∈ vs, R v w) := by
  induction vs with
  | nil => exact .of_false (by simp)
  | cons v vs ih =>
    obtain ⟨hv, hvs⟩ := List.forall_mem_cons.1 h
    rw [includes, List.exists_mem_cons_iff]
    exact hv.either (ih hvs)

theorem decides_equalSets
    (h : ∀ v ∈ vs, ∀ w, Decides (v.orSame w (v.equals deep w)) (R v w)) (ws : List Value) :
    Decides (equalSets deep vs ws) (Matched R vs ws) := by
  unfold equalSets
  split
  · next hlength =>
    refine Decides.congr ?_ (and_iff_right (beq_iff_eq.1 hlength)).symm
    exact (decides_includedIn h ws).both fun _ ↦ .all fun w _ ↦ decides_includes fun v hv ↦ h v hv w
  · next hlength => exact .of_false fun hmatched ↦ hlength (beq_iff_eq.2 hmatched.1)

end Value

theorem Store.decides_equalEntries {deep : Value → Value → Except Fault Bool}
    {R : Value → Value → Prop} (h : ∀ v w, Decides (v.orSame w (v.equals deep w)) (R v w))
    (es fs : Entries Value Value) :
    Decides (equalEntries deep es fs) (Matched (EntryRelated R) es fs) := by
  unfold equalEntries
  dsimp only
  split
  · next hlength =>
    refine Decides.congr ?_ (and_iff_right (beq_iff_eq.1 hlength)).symm
    refine Decides.both (.all fun e _ ↦ .some fun f _ ↦ ?_) fun _ ↦ .all fun f _ ↦ .some fun e _ ↦ ?_
    · exact (h e.1 f.1).both fun _ ↦ h e.2 f.2
    · exact (h e.1 f.1).both fun _ ↦ h e.2 f.2
  · next hlength => exact .of_false fun hmatched ↦ hlength (beq_iff_eq.2 hmatched.1)

end Conformance
