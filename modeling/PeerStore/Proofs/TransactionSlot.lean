import PeerStore.Proofs.Table
import PeerStore.Proofs.Transaction

/-!
# A log in two parts

A transaction slot holds its undo log as a table of records and a list of keys. The two stay in step
(`TransactionSlot.Coherent`): the list has the keys of the table, each once. So the log can be read
off them, and a slot answers every call as the `Transaction` does that has the log as one list
(**`TransactionSlot.Coherent.perform`**). With it the log of a running transaction lists the first
touch of each key (**`TransactionSlot.logs_first_touches`**).
-/

set_option autoImplicit false

namespace PeerStore.TransactionSlot

open Transaction (Call Exchange Open)

/-! ## Calls -/

/-- The answer to a call, and the slot after it. -/
def perform (t : TransactionSlot) :
    Call → Except TransactionError Transaction.Reply × TransactionSlot
  | .start =>
      match t.start with
      | .ok t' => (.ok (.number t'.id), t')
      | .error e => (.error e, t)
  | .touch key prior => (.ok (.recorded (t.touch key prior).1), (t.touch key prior).2)
  | .undoLog => (t.undoLog.map .log, t)
  | .commit =>
      match t.commit with
      | .ok t' => (.ok .done, t')
      | .error e => (.error e, t)
  | .rollback =>
      match t.rollback with
      | .ok t' => (.ok .done, t')
      | .error e => (.error e, t)

/-- The slot after calls, one after the other. -/
def after (t : TransactionSlot) (calls : List Call) : TransactionSlot :=
  calls.foldl (fun t call => (t.perform call).2) t

/-- The calls with their answers. -/
def history (t : TransactionSlot) : List Call → List Exchange
  | [] => []
  | call :: calls => ⟨call, (t.perform call).1⟩ :: history (t.perform call).2 calls

variable {t : TransactionSlot}

theorem perform_start (t : TransactionSlot) :
    t.perform .start = if t.isActive then (.error (.active t.id), t)
      else (.ok (.number (t.id + 1)),
        { phase := .active, id := t.id + 1, preImages := Table.empty, touchOrder := [] }) := by
  cases hactive : t.isActive <;> simp [perform, start, hactive]

theorem perform_undoLog (t : TransactionSlot) :
    t.perform .undoLog
      = if t.isActive then (.ok (.log t.entries), t) else (.error (.notActive t.phase), t) := by
  cases hactive : t.isActive <;> simp [perform, undoLog, hactive, Except.map]

theorem perform_commit (t : TransactionSlot) :
    t.perform .commit = if t.isActive then
        (.ok .done, { t with phase := .committed, preImages := Table.empty, touchOrder := [] })
      else (.error (.notActive t.phase), t) := by
  cases hactive : t.isActive <;> simp [perform, commit, finish, hactive]

theorem perform_rollback (t : TransactionSlot) :
    t.perform .rollback = if t.isActive then
        (.ok .done, { t with phase := .rolledBack, preImages := Table.empty, touchOrder := [] })
      else (.error (.notActive t.phase), t) := by
  cases hactive : t.isActive <;> simp [perform, rollback, finish, hactive]

/-- A call that fails changes nothing, in either part of the log. -/
theorem perform_of_failure {call : Call} (h : (t.perform call).1.isOk = false) :
    (t.perform call).2 = t := by
  by_cases hactive : t.isActive = true
  · cases call with
    | start => rw [perform_start, if_pos hactive]
    | touch key prior => cases h
    | undoLog => rw [perform_undoLog, if_pos hactive]
    | commit =>
        rw [perform_commit, if_pos hactive] at h
        cases h
    | rollback =>
        rw [perform_rollback, if_pos hactive] at h
        cases h
  · cases call with
    | start =>
        rw [perform_start, if_neg hactive] at h
        cases h
    | touch key prior => cases h
    | undoLog => rw [perform_undoLog, if_neg hactive]
    | commit => rw [perform_commit, if_neg hactive]
    | rollback => rw [perform_rollback, if_neg hactive]

/-! ## The two parts -/

/-- Whether the two parts of the log are in step: the list has the keys of the table, each once. -/
structure Coherent (t : TransactionSlot) : Prop where
  nodup : t.touchOrder.Nodup
  mem_iff : ∀ key, key ∈ t.touchOrder ↔ t.preImages.contains key = true

/-- Nothing has been touched when both parts are empty. -/
theorem coherent_of_untouched (phase : Phase) (id : Nat) :
    Coherent { phase, id, preImages := Table.empty, touchOrder := [] } where
  nodup := List.nodup_nil
  mem_iff _ := iff_of_false List.not_mem_nil Bool.false_ne_true

/-- A slot with its log in one list. -/
def toTransaction (t : TransactionSlot) : Transaction := ⟨t.phase, t.id, t.entries⟩

theorem map_fst_entries (t : TransactionSlot) : t.entries.map (·.1) = t.touchOrder := by
  rw [entries, List.map_map]
  exact List.map_id _

/-- Whether the log has a key can be asked of the table. -/
theorem Coherent.notes_eq (h : t.Coherent) (key : Blob) :
    t.entries.notes key = t.preImages.contains key := by
  rw [Bool.eq_iff_iff, UndoLog.notes_iff, map_fst_entries]
  exact h.mem_iff key

theorem touch_of_idle (key : Blob) (prior : Option Record) (h : t.isActive = false) :
    t.touch key prior = (false, t) := by
  rw [touch, h]
  rfl

theorem touch_of_contains {key : Blob} (prior : Option Record)
    (h : t.preImages.contains key = true) : t.touch key prior = (false, t) := by
  rw [touch, h, Bool.or_true]
  rfl

theorem touch_of_new {key : Blob} (prior : Option Record) (hactive : t.isActive = true)
    (h : t.preImages.contains key = false) :
    t.touch key prior
      = (true, { t with
          preImages := t.preImages.insert key prior, touchOrder := t.touchOrder ++ [key] }) := by
  rw [touch, hactive, h]
  rfl

/-- **A new key goes into both parts**, so they stay in step. -/
theorem Coherent.insert (h : t.Coherent) {key : Blob} (hnew : t.preImages.contains key = false)
    (prior : Option Record) :
    Coherent { t with
      preImages := t.preImages.insert key prior, touchOrder := t.touchOrder ++ [key] } where
  nodup := by
    have hnot : key ∉ t.touchOrder := fun hmem => by
      rw [h.mem_iff, hnew] at hmem
      cases hmem
    exact List.nodup_append.mpr ⟨h.nodup, List.nodup_singleton key, fun a ha b hb heq =>
      hnot (List.mem_singleton.mp hb ▸ heq ▸ ha)⟩
  mem_iff other := by
    rw [List.mem_append, List.mem_singleton, h.mem_iff, Table.contains, Table.contains,
      Table.get?_insert]
    by_cases hother : other = key <;> simp [hother]

/-- **A new key is the last of the log.** The entries from before stay, since the table has nothing
new under their keys; and a record that is absent is read back as absent. -/
theorem Coherent.entries_insert (h : t.Coherent) {key : Blob}
    (hnew : t.preImages.contains key = false) (prior : Option Record) :
    entries { t with
        preImages := t.preImages.insert key prior, touchOrder := t.touchOrder ++ [key] }
      = t.entries ++ [(key, prior)] := by
  rw [entries, entries, List.map_append, List.map_singleton, Table.get?_insert_self]
  congr 1
  refine List.map_congr_left fun other hother => ?_
  have hne : key ≠ other := fun heq => by
    rw [h.mem_iff, ← heq, hnew] at hother
    cases hother
  rw [Table.get?_insert_of_ne _ _ hne]

/-! ## One call -/

/-- Whether a slot stands for a transaction: the log is in step, and reads as the other's. -/
structure StandsFor (t : TransactionSlot) (u : Transaction) : Prop where
  coherent : t.Coherent
  eq : t.toTransaction = u

/-- A touch is the first of its key for a slot if it is for the transaction that it stands for. -/
theorem Coherent.touch_fst (h : t.Coherent) (key : Blob) (prior : Option Record) :
    (t.touch key prior).1 = (t.toTransaction.touch key prior).1 := by
  have hnotes : t.toTransaction.log.any (·.1 == key) = t.preImages.contains key := h.notes_eq key
  rw [touch, Transaction.touch, hnotes, show t.toTransaction.isActive = t.isActive from rfl]
  cases t.isActive <;> cases t.preImages.contains key <;> rfl

/-- A slot that is changed by a touch stands for the transaction that is changed by it. -/
theorem Coherent.touch_snd (h : t.Coherent) (key : Blob) (prior : Option Record) :
    (t.touch key prior).2.StandsFor (t.toTransaction.touch key prior).2 := by
  have hnotes : t.toTransaction.log.notes key = t.preImages.contains key := h.notes_eq key
  cases hactive : t.isActive with
  | false =>
      rw [touch_of_idle key prior hactive,
        Transaction.touch_of_idle (t := t.toTransaction) prior hactive]
      exact ⟨h, rfl⟩
  | true =>
      cases hknown : t.preImages.contains key with
      | true =>
          rw [touch_of_contains prior hknown,
            Transaction.touch_of_noted prior (hnotes.trans hknown)]
          exact ⟨h, rfl⟩
      | false =>
          rw [touch_of_new prior hactive hknown,
            Transaction.touch_of_new (t := t.toTransaction) prior hactive (hnotes.trans hknown)]
          refine ⟨h.insert hknown prior, ?_⟩
          rw [toTransaction, h.entries_insert hknown]
          rfl

/-- **A slot answers as the transaction does that it stands for**, and goes on to stand for it. -/
theorem Coherent.perform (h : t.Coherent) (call : Call) :
    (t.perform call).1 = (t.toTransaction.perform call).1
      ∧ (t.perform call).2.StandsFor (t.toTransaction.perform call).2 := by
  have hactive : t.toTransaction.isActive = t.isActive := rfl
  cases call with
  | start =>
      rw [perform_start, Transaction.perform_start, hactive]
      split
      · exact ⟨rfl, h, rfl⟩
      · exact ⟨rfl, coherent_of_untouched .active _, rfl⟩
  | touch key prior =>
      exact ⟨congrArg (Except.ok ∘ Transaction.Reply.recorded) (h.touch_fst key prior),
        h.touch_snd key prior⟩
  | undoLog =>
      rw [perform_undoLog, Transaction.perform_undoLog, hactive]
      split <;> exact ⟨rfl, h, rfl⟩
  | commit =>
      rw [perform_commit, Transaction.perform_commit, hactive]
      split
      · exact ⟨rfl, coherent_of_untouched .committed _, rfl⟩
      · exact ⟨rfl, h, rfl⟩
  | rollback =>
      rw [perform_rollback, Transaction.perform_rollback, hactive]
      split
      · exact ⟨rfl, coherent_of_untouched .rolledBack _, rfl⟩
      · exact ⟨rfl, h, rfl⟩

/-! ## Runs -/

/-- A slot and the transaction that it stands for have one history. -/
theorem StandsFor.run {u : Transaction} (h : t.StandsFor u) (calls : List Call) :
    t.history calls = u.history calls ∧ (t.after calls).StandsFor (u.after calls) := by
  induction calls generalizing t u with
  | nil => exact ⟨rfl, h⟩
  | cons call calls ih =>
      obtain ⟨hcoherent, rfl⟩ := h
      obtain ⟨hanswer, hnext⟩ := hcoherent.perform call
      obtain ⟨hhistory, hafter⟩ := ih hnext
      refine ⟨?_, hafter⟩
      rw [history, Transaction.history, hanswer, hhistory]

theorem standsFor_initial : StandsFor {} {} := ⟨coherent_of_untouched .idle 0, rfl⟩

/-- **The log of a running transaction has the first touch of each key.** The two parts of the log
stay in step, and a slot answers as one with the log in a single list. A transaction is running
exactly if a call has started one and none has ended it since; starting one succeeds exactly if none
is running and counts it, ending one and asking for its log exactly if one is, and a call that fails
changes nothing. The log lists the keys touched since the transaction was started, each with the
record given at its first touch, in the order of these, and it is restored from the last to the
first. A touch of a key in the log changes nothing, nor does one outside a transaction, so that no
later call answers differently. -/
theorem logs_first_touches (calls : List Call) :
    let t := after {} calls
    let hist := history {} calls
    t.Coherent
      ∧ t.toTransaction = Transaction.after {} calls
      ∧ hist = Transaction.history {} calls
      ∧ (t.isActive = true ↔ ∃ since, Open hist since)
      ∧ t.id = hist.countP Exchange.begins
      ∧ (t.perform .start).1.isOk = !t.isActive
      ∧ (t.isActive = false →
          (t.perform .start).1 = .ok (.number (t.id + 1)) ∧ (t.perform .start).2.id = t.id + 1)
      ∧ (t.perform .commit).1.isOk = t.isActive
      ∧ (t.perform .rollback).1.isOk = t.isActive
      ∧ (t.perform .undoLog).1.isOk = t.isActive
      ∧ (∀ call, (t.perform call).1.isOk = false → (t.perform call).2 = t)
      ∧ (∀ since, Open hist since →
          let log := UndoLog.firstTouches (since.filterMap Exchange.touch?)
          (t.perform .undoLog).1 = .ok (.log log)
            ∧ (log.map (·.1)).Nodup
            ∧ log.restoreOrder = log.reverse
            ∧ ∀ key prior, key ∈ log.map (·.1) → (t.perform (.touch key prior)).2 = t)
      ∧ (t.isActive = false → ∀ key prior more,
          history (t.perform (.touch key prior)).2 more = history t more) := by
  intro t hist
  obtain ⟨hhistory, hcoherent, htransaction⟩ := standsFor_initial.run calls
  have hhist : hist = Transaction.history {} calls := hhistory
  obtain ⟨hactive, hid, hlog⟩ := Transaction.after_eq calls
  rw [← htransaction, ← hhist] at hactive hid hlog
  refine ⟨hcoherent, htransaction, hhist, hactive, hid, ?_, fun hidle => ?_, ?_, ?_, ?_,
    fun call => perform_of_failure, fun since hopen => ?_, fun hidle key prior more => ?_⟩
  · rw [perform_start]
    cases t.isActive <;> rfl
  · rw [perform_start, hidle]
    exact ⟨rfl, rfl⟩
  · rw [perform_commit]
    cases t.isActive <;> rfl
  · rw [perform_rollback]
    cases t.isActive <;> rfl
  · rw [perform_undoLog]
    cases t.isActive <;> rfl
  · intro log
    obtain ⟨hrunning, hentries⟩ := hlog since hopen
    have hrunning : t.isActive = true := hrunning
    have hentries : t.entries = log := hentries
    have hkeys : log.map (·.1) = t.touchOrder := by rw [← hentries, map_fst_entries]
    refine ⟨?_, ?_, rfl, fun key prior hkey => ?_⟩
    · rw [perform_undoLog, if_pos hrunning, hentries]
    · rw [hkeys]
      exact hcoherent.nodup
    · -- a key of the log is in the table, so the touch finds it there
      rw [hkeys, hcoherent.mem_iff] at hkey
      exact congrArg Prod.snd (touch_of_contains prior hkey)
  · have hsame : (t.perform (.touch key prior)).2 = t :=
      congrArg Prod.snd (touch_of_idle key prior hidle)
    rw [hsame]

/-- A key is touched before a transaction, and again in it, after another; that other is touched
twice. The second transaction begins with an empty log. -/
theorem logs_first_touches_of_two_transactions :
    let r : Record := { key := [2], value := [20], time := 1, device := "peer" }
    let first : List Call :=
      [.touch [1] (some r), .start, .touch [2] (some r), .touch [1] none, .touch [2] none, .start]
    let second : List Call :=
      first ++ [.undoLog, .rollback, .touch [3] none, .start, .touch [4] none]
    ((after {} first).perform .undoLog).1 = .ok (.log [([2], some r), ([1], none)])
      ∧ (after {} first).Coherent
      ∧ ((after {} first).perform .start).2 = after {} first
      ∧ (after {} second).id = 2
      ∧ ((after {} second).perform .undoLog).1 = .ok (.log [([4], none)]) := by
  intro r first second
  obtain ⟨hcoherent, -, hhist, -, -, -, -, -, -, -, hfails, hlog, -⟩ := logs_first_touches first
  obtain ⟨-, -, hhist', -, hid, -, -, -, -, -, -, hlog', -⟩ := logs_first_touches second
  rw [hhist] at hlog
  rw [hhist'] at hid hlog'
  have hopen : Open (Transaction.history {} first)
      ((Transaction.after {} (first.take 2)).history (first.drop 2)) :=
    ⟨_, _, Transaction.history_append {} (first.take 1) (first.drop 1), rfl, by decide +kernel⟩
  have hopen' : Open (Transaction.history {} second)
      ((Transaction.after {} (second.take 10)).history (second.drop 10)) :=
    ⟨_, _, Transaction.history_append {} (second.take 9) (second.drop 9), rfl, by decide +kernel⟩
  have hfirst : UndoLog.firstTouches
      (((Transaction.after {} (first.take 2)).history (first.drop 2)).filterMap Exchange.touch?)
        = [([2], some r), ([1], none)] := by decide +kernel
  have hsecond : UndoLog.firstTouches
      (((Transaction.after {} (second.take 10)).history (second.drop 10)).filterMap Exchange.touch?)
        = [([4], none)] := by decide +kernel
  have htwo : (Transaction.history {} second).countP Exchange.begins = 2 := by decide +kernel
  have hfailed : ((after {} first).perform .start).1.isOk = false := by decide +kernel
  have hlogged := (hlog _ hopen).1
  have hlogged' := (hlog' _ hopen').1
  rw [hfirst] at hlogged
  rw [hsecond] at hlogged'
  exact ⟨hlogged, hcoherent, hfails .start hfailed, hid.trans htwo, hlogged'⟩

end PeerStore.TransactionSlot
