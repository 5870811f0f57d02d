import PeerStore.Entries

/-!
# Sorted tables

`Table κ α` is a finite map as a list of entries in strictly ascending key order. The look-up
`get?` is its view: `get?_insert_self`, `get?_insert_of_ne` and the like say what the operations do
to it, and `ext` says that a table is determined by it.
-/

set_option autoImplicit false

namespace PeerStore

variable {κ α : Type} [KeyOrder κ]

/-- A finite map, held as its entries in ascending key order. -/
structure Table (κ α : Type) [KeyOrder κ] where
  toList : List (κ × α)
  ascending : Entries.Ascending toList

namespace Table

/-- The table without entries. -/
def empty : Table κ α := ⟨[], List.Pairwise.nil⟩

instance : EmptyCollection (Table κ α) := ⟨empty⟩
instance : Inhabited (Table κ α) := ⟨empty⟩

/-- The value under `k`. -/
def get? (t : Table κ α) (k : κ) : Option α := Entries.get? k t.toList

/-- Whether there is an entry for `k`. -/
def contains (t : Table κ α) (k : κ) : Bool := (t.get? k).isSome

/-- Writes `v` under `k`. -/
def insert (t : Table κ α) (k : κ) (v : α) : Table κ α :=
  ⟨Entries.insert k v t.toList, Entries.ascending_insert k v t.ascending⟩

/-- Removes the entry of `k`. -/
def erase (t : Table κ α) (k : κ) : Table κ α :=
  ⟨Entries.erase k t.toList, Entries.ascending_erase k t.ascending⟩

/-- Keeps the entries that pass a test. -/
def filter (t : Table κ α) (keep : κ → α → Bool) : Table κ α :=
  ⟨t.toList.filter fun e => keep e.1 e.2, List.Pairwise.filter _ t.ascending⟩

/-- The keys, ascending. -/
def keys (t : Table κ α) : List κ := t.toList.map (·.1)

/-- The number of entries. -/
def size (t : Table κ α) : Nat := t.toList.length

/-- Whether there is no entry. -/
def isEmpty (t : Table κ α) : Bool := t.toList.isEmpty

/-- The table of a list of entries; of two entries for one key the later counts. -/
def ofList (es : List (κ × α)) : Table κ α := es.foldl (fun t e => t.insert e.1 e.2) empty

@[simp] theorem get?_empty (k : κ) : (empty : Table κ α).get? k = none := rfl

theorem get?_insert_self (t : Table κ α) (k : κ) (v : α) : (t.insert k v).get? k = some v :=
  (Entries.get?_insert k k v t.ascending).1 rfl

theorem get?_insert_of_ne (t : Table κ α) {k k' : κ} (v : α) (h : k ≠ k') :
    (t.insert k v).get? k' = t.get? k' :=
  (Entries.get?_insert k k' v t.ascending).2 h

theorem get?_erase_self (t : Table κ α) (k : κ) : (t.erase k).get? k = none :=
  (Entries.get?_erase k k t.ascending).1 rfl

theorem get?_erase_of_ne (t : Table κ α) {k k' : κ} (h : k ≠ k') :
    (t.erase k).get? k' = t.get? k' :=
  (Entries.get?_erase k k' t.ascending).2 h

/-- Membership in the entry list is what the look-up finds. -/
theorem mem_toList_iff (t : Table κ α) (k : κ) (v : α) :
    (k, v) ∈ t.toList ↔ t.get? k = some v :=
  ⟨Entries.get?_eq_some_of_mem t.ascending, Entries.mem_of_get?_eq_some⟩

theorem get?_filter_eq_some_iff (t : Table κ α) (keep : κ → α → Bool) (k : κ) (v : α) :
    (t.filter keep).get? k = some v ↔ t.get? k = some v ∧ keep k v = true := by
  rw [← mem_toList_iff, ← mem_toList_iff]
  exact List.mem_filter

theorem eq_of_toList {t u : Table κ α} (h : t.toList = u.toList) : t = u := by
  cases t; cases u; cases h; rfl

/-- A table is determined by its look-up. -/
theorem ext {t u : Table κ α} (h : ∀ k, t.get? k = u.get? k) : t = u :=
  eq_of_toList (Entries.eq_of_get? t.ascending u.ascending h)

instance [DecidableEq κ] [DecidableEq α] : DecidableEq (Table κ α) := fun t u =>
  if h : t.toList = u.toList then isTrue (eq_of_toList h)
  else isFalse fun h' => h (congrArg toList h')

end Table

/-- A finite set of keys. -/
abbrev KeySet (κ : Type) [KeyOrder κ] := Table κ Unit

namespace KeySet

/-- Adds a key. -/
def add (s : KeySet κ) (k : κ) : KeySet κ := s.insert k ()

/-- The set of the keys of a list. -/
def ofList (ks : List κ) : KeySet κ := ks.foldl add Table.empty

end KeySet

end PeerStore
