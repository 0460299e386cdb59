import Conformance.Class.Linearization

namespace Conformance

theorem not_mem_of_all_isEmpty {α : Type} {sequences : List (List α)}
    (h : sequences.all List.isEmpty = true) (a : α) : ¬ ∃ s ∈ sequences, a ∈ s := by
  rintro ⟨s, hs, ha⟩
  have hempty := List.all_eq_true.1 h s hs
  rw [List.isEmpty_iff.1 hempty] at ha
  cases ha

variable {α : Type} [DecidableEq α]

theorem mem_of_mem_dropHead {a b : α} {l : List α} (h : b ∈ dropHead a l) : b ∈ l := by
  unfold dropHead at h
  split at h
  · exact List.mem_of_mem_drop h
  · exact h

theorem mem_dropHead_of_ne {a b : α} {l : List α} (h : b ∈ l) (hne : b ≠ a) :
    b ∈ dropHead a l := by
  cases l with
  | nil => cases h
  | cons c l =>
    unfold dropHead
    split
    · next hc =>
      cases hc
      exact (List.mem_cons.1 h).resolve_left hne
    · exact h

theorem not_mem_dropHead {sequences : List (List α)} {a : α} (h : isNextHead sequences a = true)
    {l : List α} (hl : l ∈ sequences) : a ∉ dropHead a l := by
  have hdrop : a ∉ l.drop 1 := by
    have := List.all_eq_true.1 h l hl
    simpa using this
  unfold dropHead
  split
  · exact hdrop
  · next hhead =>
    cases l with
    | nil => simp
    | cons b l =>
      intro hmem
      rcases List.mem_cons.1 hmem with rfl | hmem
      · exact hhead rfl
      · exact hdrop hmem

theorem mergeSequences_cons {n : Nat} {sequences : List (List α)} {l : List α}
    (h : mergeSequences (n + 1) sequences = some l) :
    (sequences.all List.isEmpty = true ∧ l = []) ∨ ∃ a rest, isNextHead sequences a = true ∧
      (∃ s ∈ sequences, s.head? = some a) ∧
      mergeSequences n (sequences.map (dropHead a)) = some rest ∧ l = a :: rest := by
  rw [mergeSequences] at h
  split at h
  · next hempty => cases h; exact .inl ⟨hempty, rfl⟩
  · obtain ⟨a, ha, h⟩ := Option.bind_eq_some_iff.1 h
    obtain ⟨rest, hrest, h⟩ := Option.bind_eq_some_iff.1 h
    cases h
    obtain ⟨s, hs, hhead⟩ := List.mem_filterMap.1 (List.mem_of_find?_eq_some ha)
    exact .inr ⟨a, rest, List.find?_some ha, ⟨s, hs, hhead⟩, hrest, rfl⟩

theorem mem_mergeSequences {n : Nat} {sequences : List (List α)} {l : List α}
    (h : mergeSequences n sequences = some l) (a : α) : a ∈ l ↔ ∃ s ∈ sequences, a ∈ s := by
  induction n generalizing sequences l with
  | zero =>
    rw [mergeSequences] at h
    split at h
    · next hempty => cases h; simpa using not_mem_of_all_isEmpty hempty a
    · cases h
  | succ n ih =>
    rcases mergeSequences_cons h with ⟨hempty, rfl⟩ | ⟨b, rest, -, ⟨s, hs, hhead⟩, hrest, rfl⟩
    · simpa using not_mem_of_all_isEmpty hempty a
    · rw [List.mem_cons, ih hrest]
      constructor
      · rintro (rfl | ⟨t, ht, ha⟩)
        · exact ⟨s, hs, List.mem_of_head? hhead⟩
        · obtain ⟨t, ht', rfl⟩ := List.mem_map.1 ht
          exact ⟨t, ht', mem_of_mem_dropHead ha⟩
      · rintro ⟨t, ht, ha⟩
        by_cases hab : a = b
        · exact .inl hab
        · exact .inr ⟨dropHead b t, List.mem_map_of_mem ht, mem_dropHead_of_ne ha hab⟩

theorem nodup_mergeSequences {n : Nat} {sequences : List (List α)} {l : List α}
    (h : mergeSequences n sequences = some l) : l.Nodup := by
  induction n generalizing sequences l with
  | zero =>
    rw [mergeSequences] at h
    split at h
    · cases h; exact List.nodup_nil
    · cases h
  | succ n ih =>
    rcases mergeSequences_cons h with ⟨-, rfl⟩ | ⟨a, rest, hnext, -, hrest, rfl⟩
    · exact List.nodup_nil
    · refine List.nodup_cons.2 ⟨fun ha ↦ ?_, ih hrest⟩
      obtain ⟨t, ht, ha⟩ := (mem_mergeSequences hrest a).1 ha
      obtain ⟨t, ht', rfl⟩ := List.mem_map.1 ht
      exact not_mem_dropHead hnext ht' ha

theorem mergeSequences_nil_right {l : List α} (h : l.Nodup) {n : Nat} (hn : l.length ≤ n) :
    mergeSequences n [l, []] = some l := by
  induction l generalizing n with
  | nil => cases n <;> rfl
  | cons a l ih =>
    obtain ⟨ha, hl⟩ := List.nodup_cons.1 h
    obtain ⟨n, rfl⟩ : ∃ m, n = m + 1 := ⟨n - 1, by simp only [List.length_cons] at hn; omega⟩
    have hrest : mergeSequences n [l, []] = some l :=
      ih hl (by simp only [List.length_cons] at hn; omega)
    have hnext : isNextHead [a :: l, []] a = true := by simp [isNextHead, ha]
    rw [mergeSequences]
    simp [hnext, dropHead, hrest]

theorem mem_linearize {a : α} {bases : List α} {ofBase : α → List α} {l : List α}
    (h : linearize a bases ofBase = some l) : ∃ rest, l = a :: rest ∧ rest.Nodup ∧
      ∀ b, b ∈ rest ↔ b ∈ bases ∨ ∃ base ∈ bases, b ∈ ofBase base := by
  obtain ⟨rest, hrest, rfl⟩ := Option.map_eq_some_iff.1 h
  refine ⟨rest, rfl, nodup_mergeSequences hrest, fun b ↦ ?_⟩
  rw [mem_mergeSequences hrest]
  constructor
  · rintro ⟨s, hs, hb⟩
    rcases List.mem_append.1 hs with hs | hs
    · obtain ⟨base, hbase, rfl⟩ := List.mem_map.1 hs
      exact .inr ⟨base, hbase, hb⟩
    · rw [List.mem_singleton.1 hs] at hb
      exact .inl hb
  · rintro (hb | ⟨base, hbase, hb⟩)
    · exact ⟨bases, by simp, hb⟩
    · exact ⟨ofBase base, List.mem_append_left _ (List.mem_map_of_mem hbase), hb⟩

theorem linearize_singleton {a b : α} {ofBase : α → List α} {rest : List α}
    (hb : ofBase b = b :: rest) (h : (ofBase b).Nodup) :
    linearize a [b] ofBase = some (a :: ofBase b) := by
  obtain ⟨hrest, hnodup⟩ := List.nodup_cons.1 (hb ▸ h)
  have hmerge : mergeSequences (rest.length + 1) [rest, []] = some rest :=
    mergeSequences_nil_right hnodup (Nat.le_succ _)
  have hnext : isNextHead [b :: rest, [b]] b = true := by simp [isNextHead, hrest]
  have hsize : [b :: rest, [b]].flatten.length = rest.length + 1 + 1 := by simp
  rw [linearize, List.map_singleton, hb, List.singleton_append, hsize, mergeSequences]
  simp [hnext, dropHead, hmerge]

end Conformance
