import Conformance.Class.Definition
import Conformance.Proofs.Registration.Linearization

namespace Conformance

theorem Builtin.linearization_subset (b : Builtin) :
    ∀ d ∈ b.linearization, ∀ e ∈ d.linearization, e ∈ b.linearization := by
  cases b <;> decide

theorem Builtin.linearization_eq_cons (b : Builtin) :
    ∃ rest, b.linearization.map ClassId.builtin = .builtin b :: rest ∧
      (ClassId.builtin b :: rest).Nodup := by
  cases b <;> exact ⟨_, rfl, by decide⟩

namespace Store

def HasClass (st : Store) : ClassId → Prop
  | .builtin _ => True
  | .defined n => n < st.classes.size

/-- The linearization of a class is made from those of its bases. -/
def IsLinear (st : Store) (n : Nat) : Prop :=
  (∀ m, .defined m ∈ st.bases (.defined n) → m < n) ∧
  ∃ rest, st.linearization (.defined n) = .defined n :: rest ∧ rest.Nodup ∧
    (∀ d, d ∈ rest ↔ ∃ b ∈ st.bases (.defined n), d ∈ st.linearization b) ∧
    ∀ b, st.bases (.defined n) = [b] → rest = st.linearization b

structure HasHierarchy (st : Store) : Prop where
  size_pos : 0 < st.classes.size
  root : st.linearization .root = [.root, .builtin .object]
  isLinear : ∀ n < st.classes.size, st.IsLinear n

/-- A class is reached from another by less than `k` steps to subclasses. -/
def InReach (st : Store) : Nat → ClassId → ClassId → Prop
  | 0, _, _ => False
  | k + 1, c, e => e = c ∨ ∃ d ∈ st.subclasses c, st.InReach k d e

variable {st : Store} {c d e : ClassId} {k : Nat}

theorem linearization_of_size_le {n : Nat} (h : st.classes.size ≤ n) :
    st.linearization (.defined n) = [] := by
  simp only [Table.size] at h
  simp [linearization, Table.get, h]
  rfl

theorem mem_subclasses : e ∈ st.subclasses c ↔
    ∃ n < st.classes.size, e = .defined n ∧ c ∈ st.bases (.defined n) := by
  simp only [subclasses, List.mem_filter, List.mem_map, List.mem_range]
  constructor
  · rintro ⟨⟨n, hn, rfl⟩, hc⟩
    exact ⟨n, hn, rfl, by simpa using hc⟩
  · rintro ⟨n, hn, rfl, hc⟩
    exact ⟨⟨n, hn, rfl⟩, by simpa using hc⟩

theorem lt_size_of_mem {n : Nat} (hd : d ∈ st.linearization (.defined n)) :
    n < st.classes.size := by
  by_cases hn : n < st.classes.size
  · exact hn
  · rw [linearization_of_size_le (Nat.le_of_not_lt hn)] at hd
    cases hd

theorem exists_of_root_mem (hc : .root ∈ st.linearization c) :
    ∃ n < st.classes.size, c = .defined n := by
  cases c with
  | builtin b =>
    obtain ⟨d, -, hd⟩ := List.mem_map.1 hc
    cases hd
  | defined n => exact ⟨n, lt_size_of_mem hc, rfl⟩

theorem nature_of_linearization {st' : Store} (h : st'.linearization = st.linearization) (c : ClassId) :
    st'.nature c = st.nature c := by
  rw [nature, h, nature]

theorem root_mem_of_validated (hc : st.nature c = .validated) : .root ∈ st.linearization c := by
  unfold nature at hc
  cases hfound : (st.linearization c).findSome? ClassId.nature? with
  | none =>
    rw [hfound] at hc
    cases hc
  | some nature =>
    rw [hfound] at hc
    obtain ⟨e, he, hnature⟩ := List.exists_of_findSome?_eq_some hfound
    have hvalidated : e.nature? = some .validated := hnature.trans (congrArg some hc)
    cases e with
    | defined l =>
      cases l with
      | zero => exact he
      | succ l => cases hvalidated
    | builtin b => cases b <;> cases hvalidated

theorem inReach_subclass {b : ClassId} (hb : st.InReach k c b) (he : e ∈ st.subclasses b) :
    st.InReach (k + 1) c e := by
  induction k generalizing c with
  | zero => cases hb
  | succ k ih =>
    rcases hb with rfl | ⟨d, hd, hb⟩
    · exact .inr ⟨e, he, .inl rfl⟩
    · exact .inr ⟨d, hd, ih hb⟩

theorem inReach_mono {l : Nat} (hkl : k ≤ l) (he : st.InReach k c e) : st.InReach l c e := by
  induction k generalizing c l with
  | zero => cases he
  | succ k ih =>
    obtain ⟨l, rfl⟩ : ∃ m, l = m + 1 := ⟨l - 1, by omega⟩
    rcases he with rfl | ⟨d, hd, he⟩
    · exact .inl rfl
    · exact .inr ⟨d, hd, ih (by omega) he⟩

namespace HasHierarchy

variable (h : st.HasHierarchy)

include h

theorem mem_linearization_defined {n : Nat} (hn : n < st.classes.size) :
    d ∈ st.linearization (.defined n) ↔
      d = .defined n ∨ ∃ b ∈ st.bases (.defined n), d ∈ st.linearization b := by
  obtain ⟨-, rest, hlin, -, hrest, -⟩ := h.isLinear n hn
  rw [hlin, List.mem_cons, hrest]

/-- A property of the builtin classes, and of each class whose bases have it, holds of all. -/
theorem induction {P : ClassId → Prop} (hbuiltin : ∀ b, P (.builtin b))
    (hdefined : ∀ n < st.classes.size, (∀ b ∈ st.bases (.defined n), P b) → P (.defined n))
    (c : ClassId) (hc : st.HasClass c) : P c := by
  cases c with
  | builtin b => exact hbuiltin b
  | defined n =>
    induction n using Nat.strongRecOn with
    | _ n ih =>
      refine hdefined n hc fun b hb ↦ ?_
      cases b with
      | builtin b => exact hbuiltin b
      | defined m =>
        have hm := (h.isLinear n hc).1 m hb
        exact ih m hm (Nat.lt_trans hm hc)

theorem hasClass_of_mem (hc : st.HasClass c) :
    ∀ d ∈ st.linearization c, st.HasClass d := by
  refine h.induction (P := fun c ↦ ∀ d ∈ st.linearization c, st.HasClass d) (fun b d hd ↦ ?_)
    (fun n hn ih d hd ↦ ?_) c hc
  · obtain ⟨d, -, rfl⟩ := List.mem_map.1 hd
    trivial
  · rcases (h.mem_linearization_defined hn).1 hd with rfl | ⟨b, hb, hd⟩
    · exact hn
    · exact ih b hb d hd

theorem linearization_subset (hc : st.HasClass c) :
    ∀ d ∈ st.linearization c, ∀ e ∈ st.linearization d, e ∈ st.linearization c := by
  refine h.induction (P := fun c ↦ ∀ d ∈ st.linearization c, ∀ e ∈ st.linearization d,
    e ∈ st.linearization c) (fun b d hd e he ↦ ?_) (fun n hn ih d hd e he ↦ ?_) c hc
  · obtain ⟨d', hd', rfl⟩ := List.mem_map.1 hd
    obtain ⟨e', he', rfl⟩ := List.mem_map.1 he
    exact List.mem_map_of_mem (b.linearization_subset d' hd' e' he')
  · rcases (h.mem_linearization_defined hn).1 hd with rfl | ⟨b, hb, hd⟩
    · exact he
    · exact (h.mem_linearization_defined hn).2 (.inr ⟨b, hb, ih b hb d hd e he⟩)

theorem le_of_mem {m n : Nat} (hm : .defined m ∈ st.linearization (.defined n)) : m ≤ n := by
  have hn := lt_size_of_mem hm
  induction n using Nat.strongRecOn with
  | _ n ih =>
    rcases (h.mem_linearization_defined hn).1 hm with hself | ⟨b, hb, hm⟩
    · cases hself
      exact Nat.le_refl m
    · cases b with
      | builtin b =>
        obtain ⟨d, -, hd⟩ := List.mem_map.1 hm
        cases hd
      | defined l =>
        have hl := (h.isLinear n hn).1 l hb
        have hle := ih l hl hm (Nat.lt_trans hl hn)
        omega

theorem linearization_eq_cons (hc : st.HasClass c) :
    ∃ rest, st.linearization c = c :: rest ∧ (c :: rest).Nodup := by
  cases c with
  | builtin b => exact b.linearization_eq_cons
  | defined n =>
    obtain ⟨hbases, rest, hlin, hnodup, hrest, -⟩ := h.isLinear n hc
    refine ⟨rest, hlin, List.nodup_cons.2 ⟨fun hmem ↦ ?_, hnodup⟩⟩
    obtain ⟨b, hb, hmem⟩ := (hrest _).1 hmem
    cases b with
    | builtin b =>
      obtain ⟨d, -, hd⟩ := List.mem_map.1 hmem
      cases hd
    | defined m =>
      have hlt := hbases m hb
      have hle := h.le_of_mem hmem
      omega

theorem mem_linearization_self (hc : st.HasClass c) : c ∈ st.linearization c := by
  obtain ⟨rest, hlin, -⟩ := h.linearization_eq_cons hc
  rw [hlin]
  exact List.mem_cons_self

/-- All classes that extend a class are in reach of it. -/
theorem inReach_of_mem {m : Nat} (n : Nat) (hc : .defined m ∈ st.linearization (.defined n)) :
    st.InReach (n + 1) (.defined m) (.defined n) := by
  have hn := lt_size_of_mem hc
  induction n using Nat.strongRecOn with
  | _ n ih =>
    rcases (h.mem_linearization_defined hn).1 hc with hself | ⟨b, hb, hc⟩
    · exact .inl hself.symm
    · cases b with
      | builtin b =>
        obtain ⟨d, -, hd⟩ := List.mem_map.1 hc
        cases hd
      | defined l =>
        have hl := (h.isLinear n hn).1 l hb
        have hreach := ih l hl hc (Nat.lt_trans hl hn)
        have hsub : ClassId.defined n ∈ st.subclasses (.defined l) :=
          mem_subclasses.2 ⟨n, hn, rfl, hb⟩
        exact inReach_mono (by omega) (inReach_subclass hreach hsub)

theorem mem_of_inReach (hc : st.HasClass c) (he : st.InReach k c e) :
    st.HasClass e ∧ c ∈ st.linearization e := by
  induction k generalizing c with
  | zero => cases he
  | succ k ih =>
    rcases he with rfl | ⟨d, hd, he⟩
    · exact ⟨hc, h.mem_linearization_self hc⟩
    · obtain ⟨n, hn, rfl, hbase⟩ := mem_subclasses.1 hd
      have hclass : st.HasClass (.defined n) := hn
      obtain ⟨hclass, hmem⟩ := ih hclass he
      have hcn : c ∈ st.linearization (.defined n) :=
        (h.mem_linearization_defined hn).2 (.inr ⟨c, hbase, h.mem_linearization_self hc⟩)
      exact ⟨hclass, h.linearization_subset hclass _ hmem c hcn⟩

end HasHierarchy

end Store

end Conformance
