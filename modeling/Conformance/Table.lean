namespace Conformance

/-- Cells that are named by their place. They are added at the end and never removed. -/
structure Table (α : Type) where
  cells : Array α := #[]

namespace Table

variable {α : Type}

def get [Inhabited α] (t : Table α) (i : Nat) : α := t.cells[i]?.getD default

def size (t : Table α) : Nat := t.cells.size

def add (t : Table α) (a : α) : Table α := ⟨t.cells.push a⟩

def set (t : Table α) (i : Nat) (a : α) : Table α := ⟨t.cells.setIfInBounds i a⟩

def toList (t : Table α) : List α := t.cells.toList

@[simp] theorem size_add (t : Table α) (a : α) : (t.add a).size = t.size + 1 := by
  simp [size, add]

@[simp] theorem size_set (t : Table α) (i : Nat) (a : α) : (t.set i a).size = t.size := by
  simp [size, set]

@[simp] theorem get_add_size [Inhabited α] (t : Table α) (a : α) : (t.add a).get t.size = a := by
  simp [get, add, size]

@[simp] theorem set_set (t : Table α) (i : Nat) (a b : α) : (t.set i a).set i b = t.set i b := by
  simp [set]

theorem get_add_of_lt [Inhabited α] {t : Table α} {i : Nat} (h : i < t.size) (a : α) :
    (t.add a).get i = t.get i := by
  have h' : i ≠ t.cells.size := by simp only [size] at h; omega
  simp [get, add, Array.getElem?_push, h']

theorem get_add [Inhabited α] (t : Table α) (a : α) (i : Nat) :
    (t.add a).get i = if i = t.size then a else t.get i := by
  by_cases h : i = t.cells.size <;> simp [get, add, size, Array.getElem?_push, h]

theorem get_set_self [Inhabited α] {t : Table α} {i : Nat} (h : i < t.size) (a : α) :
    (t.set i a).get i = a := by
  simp only [size] at h
  simp [get, set, h]

theorem get_set_of_ne [Inhabited α] {i j : Nat} (h : i ≠ j) (t : Table α) (a : α) :
    (t.set i a).get j = t.get j := by
  simp [get, set, h]

theorem get_set [Inhabited α] (t : Table α) (i : Nat) (a : α) (j : Nat) :
    (t.set i a).get j = if j = i ∧ i < t.size then a else t.get j := by
  by_cases h : j = i
  · subst h
    by_cases hlt : j < t.size
    · simp [get_set_self hlt, hlt]
    · have hlt' := hlt
      simp only [size] at hlt'
      simp [get, set, hlt, hlt']
  · have h' : i ≠ j := fun he ↦ h he.symm
    simp [get_set_of_ne h', h]

end Table

end Conformance
