import PeerStore.Proofs.Store.Closed
import PeerStore.Proofs.Store.Handed

/-!
# Result sets of a store

A result set that is opened is a cursor over the entries that were read
(`perform_openResultSet_of_read`). A store forgets the cursors that are no longer open when it opens
or counts result sets; that changes neither what it takes back (`takes_prune`) nor what it counts
(`openResultSets_prune`). An open store takes back a cursor that it keeps track of and that
is still open, and no other (`Session.takes`); that closes this one cursor
(`entries?_perform_closeResultSet`). A store that is closed closes all that it keeps track of
(`entries?_close`). Nothing else that is asked of a store changes a cursor, so whatever is asked of
it, the shelf ages (**`ages_perform`**).
-/

set_option autoImplicit false

namespace PeerStore.Session

variable {s : Session}

/-! ## Opening -/

/-- A result set is a new cursor over what was read. -/
theorem perform_openResultSet_of_read {source : Source} {es : List Entry}
    (hread : (s.read source).1 = .ok es) (now : Int) :
    s.perform now (.openResultSet source) = (.ok (.cursor s.shelf.next),
      { s with
        shelf := (s.shelf.add (.ofEntries es)).2,
        cursors := s.prune.cursors.add s.shelf.next }) := by
  have heq : s.read source = (.ok es, s) := Prod.ext hread (s.read_snd source)
  rw [perform, openResultSet, heq]
  rfl

theorem perform_openResultSet_of_error {source : Source} {e : Status}
    (hread : (s.read source).1 = .error e) (now : Int) :
    s.perform now (.openResultSet source) = (.error e, s) := by
  have heq : s.read source = (.error e, s) := Prod.ext hread (s.read_snd source)
  rw [perform, openResultSet, heq]
  rfl

/-! ## Taking back -/

/-- Whether a store takes a cursor back: it is open, keeps track of the cursor, and the cursor is
open. -/
def takes (s : Session) (id : Nat) : Bool :=
  s.isOpen && (s.cursors.contains id && s.shelf.isOpen id)

/-- A store that forgets cursors which are not open takes back what it took back before. -/
theorem takes_prune (s : Session) (id : Nat) : s.prune.takes id = s.takes id := by
  rw [takes, contains_prune, takes]
  show (s.isOpen && (s.cursors.contains id && s.shelf.isOpen id && s.shelf.isOpen id)) = _
  rw [Bool.and_assoc, Bool.and_self]

/-- What a store does that is asked to take a cursor back. One that is open forgets the cursor, be
it taken back or not; one that is closed does nothing. -/
theorem perform_closeResultSet (s : Session) (now : Int) (id : Nat) :
    (s.takes id = true ∧ s.perform now (.closeResultSet id)
        = (.ok .done, { s with cursors := s.cursors.erase id, shelf := s.shelf.close id }))
      ∨ (s.takes id = false ∧ ∃ e cursors, (cursors = s.cursors ∨ cursors = s.cursors.erase id)
        ∧ s.perform now (.closeResultSet id) = (.error e, { s with cursors })) := by
  by_cases hopen : s.isOpen = true
  · have heq : s.closeResultSet id = _ := whenOpen_of_isOpen hopen _
    have htakes : s.takes id = (s.cursors.contains id && s.shelf.isOpen id) := by
      rw [takes, hopen, Bool.true_and]
    rw [perform, heq, htakes]
    dsimp only
    split
    · rename_i hhere
      exact .inl ⟨hhere, rfl⟩
    · rename_i hhere
      exact .inr ⟨Bool.eq_false_iff.mpr hhere, _, _, .inr rfl, rfl⟩
  · have hclosed : s.isOpen = false := Bool.eq_false_iff.mpr hopen
    refine .inr ⟨?_, _, s.cursors, .inl rfl, perform_of_closed hclosed now _⟩
    rw [takes, hclosed, Bool.false_and]

/-- **A cursor is taken back** exactly by an open store that keeps track of it while it is open. -/
theorem isOk_perform_closeResultSet (s : Session) (now : Int) (id : Nat) :
    (s.perform now (.closeResultSet id)).1.isOk = s.takes id := by
  obtain ⟨htakes, heq⟩ | ⟨htakes, e, cursors, -, heq⟩ := s.perform_closeResultSet now id
  · rw [heq, htakes]
    rfl
  · rw [heq, htakes]
    rfl

theorem perform_closeResultSet_eq_ok_iff (s : Session) (now : Int) (id : Nat) :
    (s.perform now (.closeResultSet id)).1 = .ok .done ↔ s.takes id = true := by
  obtain ⟨htakes, heq⟩ | ⟨htakes, e, cursors, -, heq⟩ := s.perform_closeResultSet now id
  · rw [heq, htakes]
    exact iff_of_true rfl rfl
  · rw [heq, htakes]
    exact iff_of_false (fun hok => by cases hok) Bool.false_ne_true

/-- A cursor that is taken back is closed, and no other. -/
theorem entries?_perform_closeResultSet (s : Session) (now : Int) (id k : Nat) :
    (s.perform now (.closeResultSet id)).2.shelf.entries? k
      = if s.takes id = true ∧ k = id then none else s.shelf.entries? k := by
  obtain ⟨htakes, heq⟩ | ⟨htakes, e, cursors, -, heq⟩ := s.perform_closeResultSet now id
  · simp only [heq, htakes, true_and]
    exact s.shelf.entries?_close id k
  · simp only [heq, htakes, Bool.false_eq_true, false_and, if_false]

/-- A store that is asked to take a cursor back keeps track of no more than before, and forgets no
other cursor. -/
theorem contains_perform_closeResultSet (s : Session) (now : Int) (id k : Nat) :
    ((s.perform now (.closeResultSet id)).2.cursors.contains k = true
        → s.cursors.contains k = true)
      ∧ (k ≠ id → (s.perform now (.closeResultSet id)).2.cursors.contains k
        = s.cursors.contains k) := by
  have herase : ((s.cursors.erase id).contains k = true → s.cursors.contains k = true)
      ∧ (k ≠ id → (s.cursors.erase id).contains k = s.cursors.contains k) := by
    rw [Table.contains_erase]
    constructor
    · intro hk
      exact (Bool.and_eq_true _ _ ▸ hk).1
    · intro hk
      rw [decide_eq_false hk, Bool.not_false, Bool.and_true]
  obtain ⟨-, heq⟩ | ⟨-, e, cursors, rfl | rfl, heq⟩ := s.perform_closeResultSet now id
  · rw [heq]
    exact herase
  · rw [heq]
    exact ⟨fun hk => hk, fun _ => rfl⟩
  · rw [heq]
    exact herase

theorem next_perform_closeResultSet (s : Session) (now : Int) (id : Nat) :
    (s.perform now (.closeResultSet id)).2.shelf.next = s.shelf.next := by
  obtain ⟨-, heq⟩ | ⟨-, e, cursors, -, heq⟩ := s.perform_closeResultSet now id
  · rw [heq]
    exact s.shelf.next_update id _
  · rw [heq]

/-! ## Counting -/

/-- The cursors that are counted are those that the store keeps track of and that are open. -/
theorem openResultSets_eq_countP (s : Session) :
    s.openResultSets = s.cursors.keys.countP s.shelf.isOpen := by
  rw [openResultSets, Table.size, prune, Table.filter, Table.keys, List.countP_map,
    List.countP_eq_length_filter]
  rfl

/-- A store that forgets cursors which are not open counts what it counted before. -/
theorem openResultSets_prune (s : Session) : s.prune.openResultSets = s.openResultSets := by
  let isOpen := fun e : Nat × Unit => s.shelf.isOpen e.1
  show ((s.cursors.toList.filter isOpen).filter isOpen).length
    = (s.cursors.toList.filter isOpen).length
  rw [List.filter_filter]
  simp only [Bool.and_self]

/-! ## Closing the store -/

/-- A store that is closed closes the cursors that it keeps track of, and no others. -/
theorem entries?_close (hopen : s.isOpen = true) (k : Nat) :
    s.close.shelf.entries? k
      = if s.cursors.contains k = true then none else s.shelf.entries? k := by
  rw [close_eq hopen, abandon_rest]
  simp only [Shelf.entries?_closeAll, Table.mem_keys_iff]

theorem next_close (hopen : s.isOpen = true) : s.close.shelf.next = s.shelf.next := by
  rw [close_eq hopen, abandon_rest]
  exact s.shelf.next_closeAll _

/-- A store that was open keeps track of nothing once it is closed. -/
theorem cursors_close (hopen : s.isOpen = true) : s.close.cursors = Table.empty := by
  rw [close_eq hopen]

/-! ## Every operation -/

/-- **Whatever is asked of a store**, no cursor comes to other entries by it. -/
theorem ages_perform (s : Session) (now : Int) (op : Operation) :
    s.shelf.Ages (s.perform now op).2.shelf := by
  by_cases hopening : ∃ source, op = .openResultSet source
  · obtain ⟨source, rfl⟩ := hopening
    cases hread : (s.read source).1 with
    | ok es =>
        rw [perform_openResultSet_of_read hread]
        exact s.shelf.ages_add _
    | error e =>
        rw [perform_openResultSet_of_error hread]
        exact .refl _
  by_cases hclosing : ∃ id, op = .closeResultSet id
  · obtain ⟨id, rfl⟩ := hclosing
    obtain ⟨-, heq⟩ | ⟨-, e, cursors, -, heq⟩ := s.perform_closeResultSet now id
    · rw [heq]
      exact s.shelf.ages_close id
    · rw [heq]
      exact .refl _
  · rw [not_exists] at hopening hclosing
    rw [(perform_tells hopening hclosing s now).shelf]
    exact .refl _

end PeerStore.Session
