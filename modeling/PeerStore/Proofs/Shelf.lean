import PeerStore.Proofs.Cursor
import PeerStore.Proofs.Table
import PeerStore.Shelf

/-!
# What becomes of cursors

What counts of a cursor in use are the entries that it goes over, until it is closed
(`Shelf.entries?`). They never change: numbers of cursors are given once, so whatever has entries on
a later shelf had these same entries since its number was given (`Shelf.Ages`). In particular a
cursor that is closed or gone is not opened again (`Shelf.Later`). A cursor is closed for good by
**`isOpen_close`** and by **`isOpen_closeAll`**.
-/

set_option autoImplicit false

namespace PeerStore

namespace Shelf

/-- The entries of a cursor that is in use and open. -/
def entries? (s : Shelf) (id : Nat) : Option (List Entry) := (s.get? id).bind (·.entries)

theorem isOpen_eq (s : Shelf) (id : Nat) : s.isOpen id = (s.entries? id).isSome := by
  rw [isOpen, entries?]
  cases s.get? id with
  | none => rfl
  | some c =>
      rw [Option.any_some, Option.bind_some, Cursor.isClosed]
      cases c.entries <;> rfl

/-! ## The entries after a change -/

/-- What becomes of a cursor becomes of no other. -/
theorem entries?_update (s : Shelf) (id k : Nat) (f : Cursor → Cursor) :
    (s.update id f).entries? k
      = if k = id then (s.get? id).bind fun c => (f c).entries else s.entries? k := by
  by_cases hk : k = id
  · subst hk
    rw [if_pos rfl, entries?, update]
    cases hget : s.get? k with
    | none =>
        dsimp only
        rw [hget]
        rfl
    | some c =>
        dsimp only
        rw [get?, Table.get?_insert_self]
        rfl
  · rw [if_neg hk, entries?, entries?, update]
    split
    · rw [get?, Table.get?_insert_of_ne _ _ (Ne.symm hk)]
      rfl
    · rfl

theorem next_update (s : Shelf) (id : Nat) (f : Cursor → Cursor) :
    (s.update id f).next = s.next := by
  unfold update
  split <;> rfl

theorem entries?_move (s : Shelf) (id : Nat) (m : Cursor.Move) (k : Nat) :
    (s.move id m).2.entries? k = s.entries? k := by
  rw [move, entries?_update]
  split
  · rename_i hk
    rw [hk, entries?]
    exact congrArg (Option.bind _) (funext fun c => c.entries_move m)
  · rfl

theorem entries?_close (s : Shelf) (id k : Nat) :
    (s.close id).entries? k = if k = id then none else s.entries? k := by
  rw [close, entries?_update]
  split
  · cases s.get? id <;> rfl
  · rfl

theorem entries?_drop (s : Shelf) (id k : Nat) :
    (s.drop id).entries? k = if k = id then none else s.entries? k := by
  rw [entries?, get?, drop, Table.get?_erase]
  split <;> rfl

/-- A new cursor has a number of its own. -/
theorem entries?_add (s : Shelf) (c : Cursor) (k : Nat) :
    (s.add c).2.entries? k = if k = s.next then c.entries else s.entries? k := by
  rw [entries?, get?, add, Table.get?_insert]
  split <;> rfl

theorem next_closeAll (s : Shelf) (ids : List Nat) : (s.closeAll ids).next = s.next := by
  induction ids generalizing s with
  | nil => rfl
  | cons id ids ih => exact (ih (s.close id)).trans (s.next_update id _)

theorem entries?_closeAll (s : Shelf) (ids : List Nat) (k : Nat) :
    (s.closeAll ids).entries? k = if k ∈ ids then none else s.entries? k := by
  induction ids generalizing s with
  | nil => rfl
  | cons id ids ih =>
      show ((s.close id).closeAll ids).entries? k = _
      rw [ih, entries?_close]
      by_cases hk : k = id
      · rw [if_pos hk, if_pos (List.mem_cons.mpr (.inl hk)), ite_self]
      · rw [if_neg hk]
        simp only [List.mem_cons, hk, false_or]

/-! ## Open cursors after a change -/

theorem isOpen_move (s : Shelf) (id : Nat) (m : Cursor.Move) (k : Nat) :
    (s.move id m).2.isOpen k = s.isOpen k := by
  rw [isOpen_eq, isOpen_eq, entries?_move]

/-- A cursor that is closed is not open. -/
theorem isOpen_close (s : Shelf) (id : Nat) : (s.close id).isOpen id = false := by
  rw [isOpen_eq, entries?_close, if_pos rfl]
  rfl

/-- Closing cursors leaves those open that are not among them. -/
theorem isOpen_closeAll (s : Shelf) (ids : List Nat) (k : Nat) :
    (s.closeAll ids).isOpen k = (s.isOpen k && !decide (k ∈ ids)) := by
  rw [isOpen_eq, entries?_closeAll, isOpen_eq]
  split
  · rename_i hk
    simp [hk]
  · rename_i hk
    simp [hk]

/-! ## Shelves that come later -/

/-- Whether a shelf comes after another: the numbers go on, and a cursor that had a number has the
entries that it had, or none any more. -/
structure Ages (s s' : Shelf) : Prop where
  next_le : s.next ≤ s'.next
  entries? : ∀ id < s.next, ∀ es, s'.entries? id = some es → s.entries? id = some es

/-- Whether a shelf comes after another: the numbers go on, and of the cursors that had a number
none has been opened again. -/
structure Later (s s' : Shelf) : Prop where
  next_le : s.next ≤ s'.next
  isOpen : ∀ id < s.next, s'.isOpen id = true → s.isOpen id = true

variable {s s' s'' : Shelf} {id : Nat}

namespace Ages

theorem refl (s : Shelf) : s.Ages s := ⟨Nat.le_refl _, fun _ _ _ h => h⟩

theorem trans (h : s.Ages s') (h' : s'.Ages s'') : s.Ages s'' where
  next_le := Nat.le_trans h.next_le h'.next_le
  entries? id hid es hes :=
    h.entries? id hid es (h'.entries? id (Nat.lt_of_lt_of_le hid h.next_le) es hes)

/-- A cursor with entries is open. -/
theorem later (h : s.Ages s') : s.Later s' where
  next_le := h.next_le
  isOpen id hid hopen := by
    rw [isOpen_eq, Option.isSome_iff_exists] at hopen ⊢
    obtain ⟨es, hes⟩ := hopen
    exact ⟨es, h.entries? id hid es hes⟩

/-- Where cursors are only closed, the shelf comes after what it was. -/
theorem of_closed (hnext : s'.next = s.next)
    (hentries : ∀ id, s'.entries? id = none ∨ s'.entries? id = s.entries? id) : s.Ages s' where
  next_le := Nat.le_of_eq hnext.symm
  entries? id _ es hes := by
    rcases hentries id with hnone | hsame
    · rw [hnone] at hes
      cases hes
    · exact hsame.symm.trans hes

end Ages

theorem Later.refl (s : Shelf) : s.Later s := (Ages.refl s).later

theorem ages_move (s : Shelf) (id : Nat) (m : Cursor.Move) : s.Ages (s.move id m).2 :=
  .of_closed (s.next_update id _) fun k => .inr (s.entries?_move id m k)

theorem ages_close (s : Shelf) (id : Nat) : s.Ages (s.close id) :=
  .of_closed (s.next_update id _) fun k => by
    rw [entries?_close]
    split
    · exact .inl rfl
    · exact .inr rfl

theorem ages_drop (s : Shelf) (id : Nat) : s.Ages (s.drop id) :=
  .of_closed rfl fun k => by
    rw [entries?_drop]
    split
    · exact .inl rfl
    · exact .inr rfl

theorem ages_closeAll (s : Shelf) (ids : List Nat) : s.Ages (s.closeAll ids) :=
  .of_closed (s.next_closeAll ids) fun k => by
    rw [entries?_closeAll]
    split
    · exact .inl rfl
    · exact .inr rfl

theorem ages_add (s : Shelf) (c : Cursor) : s.Ages (s.add c).2 where
  next_le := Nat.le_succ _
  entries? id hid es hes := by
    rw [entries?_add, if_neg (Nat.ne_of_lt hid)] at hes
    exact hes

end Shelf

end PeerStore
