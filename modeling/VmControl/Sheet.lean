/-!
# Sheets

A sheet holds at most one entry per key, where the key decides the type of its entry.  It is what
a list of options comes to in which every mention replaces the one before: `Sheet.insert` enters a
mention, and `Sheet.get?` tells the last one.
-/

namespace VmControl

/-- At most one entry of type `β k` for each key `k`. -/
@[ext] structure Sheet {κ : Type} (β : κ → Type) where
  /-- The entry of a key, if there is one. -/
  get? : (k : κ) → Option (β k)

namespace Sheet

variable {κ : Type} {β : κ → Type}

/-- The sheet without entries. -/
def empty : Sheet β := ⟨fun _ => none⟩

instance : EmptyCollection (Sheet β) := ⟨empty⟩

instance : Inhabited (Sheet β) := ⟨empty⟩

/-- Whether the key has an entry. -/
def has (s : Sheet β) (k : κ) : Bool := (s.get? k).isSome

@[simp] theorem get?_empty (k : κ) : (∅ : Sheet β).get? k = none := rfl

variable [DecidableEq κ]

/-- Replaces the entry of `k`. -/
def alter (s : Sheet β) (k : κ) (v : Option (β k)) : Sheet β :=
  ⟨fun j => if h : k = j then h ▸ v else s.get? j⟩

/-- Enters `v` under `k`. -/
def insert (s : Sheet β) (k : κ) (v : β k) : Sheet β := s.alter k (some v)

/-- Removes the entry of `k`. -/
def erase (s : Sheet β) (k : κ) : Sheet β := s.alter k none

@[simp] theorem get?_insert_self (s : Sheet β) (k : κ) (v : β k) :
    (s.insert k v).get? k = some v := by
  simp [insert, alter]

theorem get?_insert_of_ne (s : Sheet β) {j k : κ} (v : β k) (h : k ≠ j) :
    (s.insert k v).get? j = s.get? j := by
  simp [insert, alter, h]

@[simp] theorem get?_erase_self (s : Sheet β) (k : κ) : (s.erase k).get? k = none := by
  simp [erase, alter]

theorem get?_erase_of_ne (s : Sheet β) {j k : κ} (h : k ≠ j) :
    (s.erase k).get? j = s.get? j := by
  simp [erase, alter, h]

/-- Nothing is removed where nothing is. -/
theorem erase_of_get?_eq_none {s : Sheet β} {k : κ} (h : s.get? k = none) : s.erase k = s := by
  ext1
  funext j
  by_cases hk : k = j
  · subst hk
    rw [get?_erase_self, h]
  · exact get?_erase_of_ne _ hk

/-- To enter what is there changes nothing. -/
theorem insert_of_get?_eq_some {s : Sheet β} {k : κ} {v : β k} (h : s.get? k = some v) :
    s.insert k v = s := by
  ext1
  funext j
  by_cases hk : k = j
  · subst hk
    rw [get?_insert_self, h]
  · exact get?_insert_of_ne _ _ hk

/-- An entry can be removed before or after another one is made. -/
theorem erase_insert_comm (s : Sheet β) {j k : κ} (v : β k) (h : j ≠ k) :
    (s.insert k v).erase j = (s.erase j).insert k v := by
  ext1
  funext i
  by_cases hj : j = i
  · subst hj
    rw [get?_erase_self, get?_insert_of_ne _ _ h.symm, get?_erase_self]
  · by_cases hk : k = i
    · subst hk
      rw [get?_erase_of_ne _ h, get?_insert_self, get?_insert_self]
    · rw [get?_erase_of_ne _ hj, get?_insert_of_ne _ _ hk, get?_insert_of_ne _ _ hk,
        get?_erase_of_ne _ hj]

/-- The last entry of a key stands. -/
@[simp] theorem insert_insert (s : Sheet β) (k : κ) (v w : β k) :
    (s.insert k v).insert k w = s.insert k w := by
  ext1
  funext i
  by_cases hk : k = i
  · subst hk; simp
  · rw [get?_insert_of_ne _ _ hk, get?_insert_of_ne _ _ hk, get?_insert_of_ne _ _ hk]

end Sheet

end VmControl
