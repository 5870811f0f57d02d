import PeerStore.Proofs.Store.Closed
import PeerStore.Proofs.Store.Open
import PeerStore.Proofs.Store.View

/-!
# One entry of a store

A store keeps an entry as long as no call that succeeds touches its key: what is stored under the
key stays, whatever else is written, and a transaction that is taken back does not take the entry
back, for its log does not note the key (`Session.Stores`). One call keeps to that
(**`Stores.perform`**), and so does closing the store (`Stores.close`).
-/

set_option autoImplicit false

namespace PeerStore

variable {stored key value : Blob}

/-- Different keys are stored under different ones. -/
theorem KeySpace.ownKey_inj {space : KeySpace} {key' : Blob} :
    space.ownKey key = space.ownKey key' ↔ key = key' := by
  cases space with
  | shared => exact Iff.rfl
  | perDevice self => exact List.append_right_inj _

/-- Whether a transaction that is taken back leaves what is stored under a key alone. -/
def Transaction.Spares (t : Transaction) (stored : Blob) : Prop :=
  t.isActive = true → t.log.Sound ∧ t.log.notes stored = false

theorem Transaction.spares_of_idle {t : Transaction} (h : t.isActive = false) : t.Spares stored :=
  fun hactive => absurd (h ▸ hactive) Bool.false_ne_true

/-- Whether an operation writes an entry: it puts the key, and the entry is the last one that it puts
under it. -/
def Operation.Enters (key value : Blob) : Operation → Prop
  | .put k v => k = key ∧ v = value
  | .putBatch es =>
      ∃ before after, es = before ++ ⟨key, value⟩ :: after ∧ ∀ e ∈ after, e.key ≠ key
  | _ => False

namespace Session

variable {s s' t : Session}

/-- Whether an operation empties a store, or writes something under a stored key or removes what is
there. -/
def Touches (s : Session) (stored : Blob) (op : Operation) : Prop :=
  op = .clear ∨ ∃ origin batch, s.batchOf? op = some (origin, batch) ∧ stored ∈ batch.map (·.key)

/-- Whether a value is stored under a key, and stays there if the transaction is taken back. -/
structure Stores (s : Session) (stored value : Blob) : Prop where
  now : s.backend.contents.values stored = some value
  spared : s.isOpen = true → s.transaction.Spares stored

namespace Stores

theorem kept (h : s.Stores stored value) (hkept : s.Kept s') (hopen : s'.isOpen = s.isOpen) :
    s'.Stores stored value where
  now := by
    rw [hkept.contents]
    exact h.now
  spared := by
    rw [hopen, hkept.transaction]
    exact h.spared

theorem wrote (h : s.Stores stored value) {origin : Origin} {batch : List Write}
    (hwrote : s.Wrote origin batch t) (hnot : stored ∉ batch.map (·.key)) :
    t.Stores stored value where
  now := by
    rw [← h.now]
    exact congrArg (Option.map (·.value))
      (hwrote.contents_of_not_mem fun hmem => hnot (Write.mem_touched.mp hmem))
  spared hopen hactive := by
    have hactive' : s.inTransaction = true := hwrote.inTransaction.symm.trans hactive
    obtain ⟨hsound, hnotes⟩ := h.spared (hwrote.isOpen.symm.trans hopen) hactive'
    cases origin with
    | here =>
        rw [hwrote.log_here hactive']
        refine ⟨hsound.extend (Write.nodup_touched batch), Bool.eq_false_iff.mpr fun hnoted => ?_⟩
        rcases UndoLog.notes_extend.mp hnoted with hold | hmem
        · exact Bool.eq_false_iff.mp hnotes hold
        · exact hnot (Write.mem_touched.mp hmem)
    | remote device =>
        rw [hwrote.transaction]
        exact ⟨hsound, hnotes⟩

/-- Taking a transaction back leaves the value where it is. -/
theorem undone (h : s.Stores stored value) (hopen : s.isOpen = true)
    (hactive : s.inTransaction = true) : s.undone.Stores stored value := by
  obtain ⟨hsound, hnotes⟩ := h.spared hopen hactive
  refine ⟨?_, fun _ => Transaction.spares_of_idle rfl⟩
  rw [contents_undone hsound, ← h.now]
  exact congrArg (Option.map (·.value)) (UndoLog.undo_of_not_notes hnotes _)

theorem turn (h : s.Stores stored value) {now : Int} {op : Operation}
    (hturn : s.Turn (.perform now op) s') (hopen : s'.isOpen = s.isOpen)
    (hnot : (s.perform now op).1.isOk = true → ¬s.Touches stored op) : s'.Stores stored value := by
  cases hturn with
  | still hstill _ => exact h.kept hstill.kept hopen
  | wrote hok hbatch hwrote haside =>
      have hnot' := fun hmem => hnot hok (.inr ⟨_, _, hbatch, hmem⟩)
      exact (h.wrote hwrote hnot').kept (kept_of_publish haside) (hopen.trans hwrote.isOpen.symm)
  | cleared hok _ _ => exact absurd (.inl rfl) (hnot hok)
  | started _ _ hs' =>
      rw [hs']
      exact ⟨h.now, fun _ _ => ⟨UndoLog.sound_nil, rfl⟩⟩
  | committed _ _ haside =>
      have hdone : ({ s with transaction := { s.transaction with phase := .committed, log := [] } } :
          Session).Stores stored value := ⟨h.now, fun _ => Transaction.spares_of_idle rfl⟩
      exact hdone.kept (kept_of_publish haside) hopen
  | rolledBack hok hactive =>
      obtain ⟨_, t, hrollback⟩ := exists_eq_ok (r := s.rollback) (answer_isOk.symm.trans hok)
      exact h.undone (whenOpen_eq_ok hrollback).1 hactive

/-- **A call that does not touch a key keeps the entry**, and so does one that fails. -/
theorem perform (h : s.Stores stored value) {now : Int} {op : Operation}
    (hnot : (s.perform now op).1.isOk = true → ¬s.Touches stored op) :
    (s.perform now op).2.Stores stored value :=
  h.turn (s.handle_turn (.perform now op)) (s.perform_settled now op).2 hnot

/-- Closing a store keeps every entry but those of a transaction. -/
theorem close (h : s.Stores stored value) : s.close.Stores stored value := by
  by_cases hopen : s.isOpen = true
  · rw [close_eq hopen]
    refine ⟨?_, fun hopen' => absurd hopen' Bool.false_ne_true⟩
    show s.abandon.backend.contents.values stored = some value
    rcases s.abandon_cases with ⟨-, hsame⟩ | ⟨hactive, hundone | hrefused⟩
    · rw [hsame]
      exact h.now
    · rw [hundone]
      exact (h.undone hopen hactive).now
    · rw [hrefused]
      exact h.now
  · rw [close_of_closed (Bool.eq_false_iff.mpr hopen)]
    exact h

end Stores

/-! ## Writing and reading the entry -/

/-- The batch of an operation that writes an entry puts it, and touches the key no more. -/
theorem batch?_of_enters {op : Operation} (henters : op.Enters key value) (space : KeySpace) :
    ∃ before after, op.batch? space = some (.here, before ++ .put (space.ownKey key) value :: after)
      ∧ space.ownKey key ∉ after.map (·.key) := by
  cases op with
  | put k v =>
      obtain ⟨rfl, rfl⟩ := henters
      exact ⟨[], [], rfl, List.not_mem_nil⟩
  | putBatch es =>
      obtain ⟨before, after, rfl, hafter⟩ := henters
      refine ⟨_, _, by rw [Operation.batch?, List.map_append, List.map_cons], fun hmem => ?_⟩
      rw [List.map_map] at hmem
      obtain ⟨e, he, hkey⟩ := List.mem_map.mp hmem
      exact hafter e he (KeySpace.ownKey_inj.mp hkey)
  | _ => exact henters.elim

/-- An operation that writes an entry and succeeds has found its key valid. -/
theorem checkKey_of_enters {now : Int} {op : Operation} (henters : op.Enters key value)
    (hok : (s.perform now op).1.isOk = true) : s.checkKey key = .ok () := by
  cases op with
  | put k v =>
      obtain ⟨rfl, rfl⟩ := henters
      exact (checkEntry_eq_ok_iff.mp (check_of_after hok).1).1
  | putBatch es =>
      obtain ⟨before, after, rfl, -⟩ := henters
      have hentries := checkAll_eq_ok_iff.mp (check_of_after hok).1
      exact (checkEntry_eq_ok_iff.mp
        (hentries ⟨key, value⟩ (List.mem_append_right _ List.mem_cons_self))).1
  | _ => exact henters.elim

/-- **An entry that is written outside a transaction is stored.** -/
theorem stores_of_enters (hidle : s.inTransaction = false) {now : Int} {op : Operation}
    (henters : op.Enters key value) (hok : (s.perform now op).1.isOk = true) :
    s.isOpen = true ∧ (s.perform now op).2.Stores (s.space.ownKey key) value := by
  obtain ⟨before, after, hbatch, hlast⟩ := batch?_of_enters henters s.space
  obtain ⟨answer, s', hperform⟩ := exists_eq_ok hok
  obtain ⟨hopen, t, hwrote, rfl⟩ := mutate_eq_ok (mutate_of_perform hbatch hperform)
  rw [hperform]
  have hkept (notice : Notice) : t.Kept (t.announce .here notice) := by
    rw [announce_rest]
    exact ⟨rfl, rfl, rfl⟩
  refine ⟨hopen, ?_, fun _ => Transaction.spares_of_idle ?_⟩
  · rw [(hkept _).contents, ← Backend.values_eq_values, hwrote.values, Contents.valuesAfter_append]
    exact (Contents.writeAll_of_not_mem _ hlast).trans (Contents.write_self ..)
  · rw [(hkept _).transaction]
    exact hwrote.inTransaction.trans hidle

/-- An open session of the same kind, with the same limits and the same device, reads the entry. -/
theorem Stores.get (h : s'.Stores (s.space.ownKey key) value) (hopen : s'.isOpen = true)
    (hvalid : s.checkKey key = .ok ()) (hlimits : s'.profile.limits = s.profile.limits)
    (hspace : s'.space = s.space) : (s'.get key).1 = .ok value := by
  rw [get_eq_ok_iff, checkKey, hspace, hlimits]
  exact ⟨hopen, hvalid, h.now⟩

end Session

end PeerStore
