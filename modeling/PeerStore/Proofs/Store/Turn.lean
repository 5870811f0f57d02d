import PeerStore.Proofs.Store.Replica

/-!
# What one event does

**`handle_turn`** says once what an event can do to a session of either kind, inside a transaction
or outside: it leaves what the store keeps (`Session.Still`), it writes a batch and publishes its
notice, it empties the store, or it begins or ends a transaction (`Session.Turn`). An invariant of
runs is then a case analysis over turns. The keys of a batch that is written are the stored forms of
valid keys of the device that it came from (`valid_of_batch?`). Which calls succeed on an open store
whose backend accepts writes is settled by their arguments (**`perform_isOk_iff`**).
-/

set_option autoImplicit false

namespace PeerStore.Session

variable {s s' t : Session}

/-! ## Keys of a batch -/

/-- The stored form of a key of this device is that of a key received from it. -/
theorem ownKey_eq (s : Session) (key : Blob) :
    s.space.ownKey key = s.space.remoteKey s.profile.device key := by
  unfold space Profile.space
  split <;> rfl

theorem after_of_ok {α : Type} {check : Except Status Unit} (h : check = .ok ())
    (op : Session → Result α) : s.after check op = op s := by
  subst h
  rfl

/-- What succeeds behind a check has passed it. -/
theorem check_of_after {α : Type} {check : Except Status Unit} {op : Session → Result α}
    {f : α → Answer} (h : ((s.after check op).answer f).1.isOk = true) :
    check = .ok () ∧ ((op s).answer f).1.isOk = true := by
  cases check with
  | error e => exact absurd h Bool.false_ne_true
  | ok _ => exact ⟨rfl, h⟩

theorem checkAll_eq_ok_iff {α : Type} {check : α → Except Status Unit} {items : List α} :
    checkAll check items = .ok () ↔ ∀ a ∈ items, check a = .ok () := by
  induction items with
  | nil => simp [checkAll]
  | cons a as ih =>
      rw [checkAll, List.forall_mem_cons]
      cases ha : check a with
      | ok _ => simp [ih]
      | error e => simp

/-- An entry passes its check exactly if its key and its value pass theirs. -/
theorem checkEntry_eq_ok_iff {e : Entry} :
    s.checkEntry e = .ok () ↔ s.checkKey e.key = .ok () ∧ s.checkValue e.value = .ok () := by
  rw [checkEntry]
  cases s.checkKey e.key with
  | ok _ => simp
  | error err => simp

/-- A remote batch is taken only from another device, with valid keys only, and then it is
written. -/
theorem perform_applyRemote_isOk {now : Int} {device : String} {puts : List Entry}
    {deletes : List Blob} (h : (s.perform now (.applyRemote device puts deletes)).1.isOk = true) :
    device ≠ "" ∧ device ≠ s.profile.device
      ∧ (∀ e ∈ puts, s.checkEntry e = .ok ()) ∧ ∀ key ∈ deletes, s.checkKey key = .ok () := by
  rw [perform, applyRemote] at h
  split at h
  · exact absurd h Bool.false_ne_true
  · rename_i hdevice
    obtain ⟨hputs, h⟩ := check_of_after h
    obtain ⟨hdeletes, -⟩ := check_of_after h
    simp only [Bool.or_eq_true, beq_iff_eq, String.isEmpty_iff, not_or] at hdevice
    exact ⟨hdevice.1, hdevice.2, checkAll_eq_ok_iff.mp hputs, checkAll_eq_ok_iff.mp hdeletes⟩

/-- A remote batch that nothing is wrong with is written. -/
theorem perform_applyRemote_eq {now : Int} {device : String} {puts : List Entry}
    {deletes : List Blob} (hempty : device ≠ "") (hother : device ≠ s.profile.device)
    (hputs : ∀ e ∈ puts, s.checkEntry e = .ok ())
    (hdeletes : ∀ key ∈ deletes, s.checkKey key = .ok ()) :
    s.perform now (.applyRemote device puts deletes)
      = (s.mutate now
          (puts.map (fun e => .put (s.space.remoteKey device e.key) e.value) ++
            deletes.map fun key => .remove (s.space.remoteKey device key))
          (.remote device)).answer fun _ => .done := by
  have hdevice : ¬(device.isEmpty || device == s.profile.device) = true := by
    simp [hempty, hother]
  rw [perform, applyRemote, if_neg hdevice, after_of_ok (checkAll_eq_ok_iff.mpr hputs),
    after_of_ok (checkAll_eq_ok_iff.mpr hdeletes)]

/-- **A call that succeeds writes stored forms of valid keys** of the device that it comes from. -/
theorem valid_of_batch? {now : Int} {op : Operation} {origin : Origin} {batch : List Write}
    (h : op.batch? s.space = some (origin, batch)) (hok : (s.perform now op).1.isOk = true) :
    ∀ w ∈ batch, ∃ key, s.checkKey key = .ok ()
      ∧ w.key = s.space.remoteKey (s.deviceOf origin) key := by
  intro w hw
  cases op with
  | put key value =>
      cases h
      obtain rfl := List.mem_singleton.mp hw
      obtain ⟨hentry, -⟩ := check_of_after hok
      exact ⟨key, (checkEntry_eq_ok_iff.mp hentry).1, s.ownKey_eq key⟩
  | putBatch es =>
      cases h
      obtain ⟨e, he, rfl⟩ := List.mem_map.mp hw
      obtain ⟨hentries, -⟩ := check_of_after hok
      have hentry := checkAll_eq_ok_iff.mp hentries e he
      exact ⟨e.key, (checkEntry_eq_ok_iff.mp hentry).1, s.ownKey_eq e.key⟩
  | delete key =>
      cases h
      obtain rfl := List.mem_singleton.mp hw
      exact ⟨key, (check_of_after hok).1, s.ownKey_eq key⟩
  | deleteBatch keys =>
      cases h
      obtain ⟨key, hkey, rfl⟩ := List.mem_map.mp hw
      obtain ⟨hkeys, -⟩ := check_of_after hok
      exact ⟨key, checkAll_eq_ok_iff.mp hkeys key hkey, s.ownKey_eq key⟩
  | applyRemote device puts deletes =>
      cases h
      obtain ⟨-, -, hputs, hdeletes⟩ := perform_applyRemote_isOk hok
      rcases List.mem_append.mp hw with hput | hdelete
      · obtain ⟨e, he, rfl⟩ := List.mem_map.mp hput
        exact ⟨e.key, (checkEntry_eq_ok_iff.mp (hputs e he)).1, rfl⟩
      · obtain ⟨key, hkey, rfl⟩ := List.mem_map.mp hdelete
        exact ⟨key, hdeletes key hkey, rfl⟩
  | _ => exact absurd h (by simp [Operation.batch?])

/-! ## Calls that succeed -/

/-- Whether a call suits a session: its arguments are valid, and a transaction is active or not as
the call needs it. -/
def Admits (s : Session) : Operation → Prop
  | .put key value => s.checkEntry ⟨key, value⟩ = .ok ()
  | .putBatch es => ∀ e ∈ es, s.checkEntry e = .ok ()
  | .delete key => s.checkKey key = .ok ()
  | .deleteBatch keys => ∀ key ∈ keys, s.checkKey key = .ok ()
  | .applyRemote device puts deletes =>
      device ≠ "" ∧ device ≠ s.profile.device
        ∧ (∀ e ∈ puts, s.checkEntry e = .ok ()) ∧ ∀ key ∈ deletes, s.checkKey key = .ok ()
  | .removeDeviceData network =>
      ∃ device, s.directory.resolve? network = some device ∧ device ≠ s.profile.device
  | .startTransaction => s.inTransaction = false
  | .commit | .rollback => s.inTransaction = true
  | _ => True

theorem answer_isOk {α : Type} {r : Result α} {f : α → Answer} :
    (r.answer f).1.isOk = r.1.isOk := by
  obtain ⟨_ | _, _⟩ := r <;> rfl

theorem exists_eq_ok {α : Type} {r : Result α} (h : r.1.isOk = true) :
    ∃ a s', r = (.ok a, s') := by
  obtain ⟨_ | a, s'⟩ := r
  · exact absurd h Bool.false_ne_true
  · exact ⟨a, s', rfl⟩

/-- A check in front of what succeeds decides. -/
theorem after_isOk_iff {α : Type} {check : Except Status Unit} {op : Session → Result α}
    (h : (op s).1.isOk = true) : (s.after check op).1.isOk = true ↔ check = .ok () := by
  cases check with
  | ok _ => exact ⟨fun _ => rfl, fun _ => h⟩
  | error e => exact ⟨fun hok => absurd hok Bool.false_ne_true, fun hok => absurd hok (by simp)⟩

section

variable (hopen : s.isOpen = true) (hfail : s.backend.failing = false)
include hopen hfail

/-- A batch succeeds on an open store whose backend accepts writes. -/
theorem mutate_isOk (now : Int) (batch : List Write) (origin : Origin) :
    (s.mutate now batch origin).1.isOk = true := by
  have haccepts : s.backend.failing = true → s.backend.values.Idle batch := fun hfails =>
    absurd (hfail ▸ hfails) Bool.false_ne_true
  obtain ⟨s', hmutate⟩ := exists_mutate_eq_ok hopen haccepts now origin
  rw [hmutate]
  rfl

theorem clear_isOk (now : Int) : (s.clear now).1.isOk = true := by
  by_cases hactive : s.inTransaction = true
  · rw [clear_of_active hactive, whenOpen_of_isOpen hopen]
    exact mutate_isOk hopen hfail ..
  · rw [inTransaction] at hactive
    rw [clear, whenOpen_of_isOpen hopen, if_neg hactive]
    rw [Backend.clear_eq_ok_iff.mpr ⟨hfail, rfl, rfl⟩]
    rfl

theorem removeDeviceData_isOk {network device : String}
    (hdevice : s.directory.resolve? network = some device) (now : Int) :
    (s.removeDeviceData now network).1.isOk = true ↔ device ≠ s.profile.device := by
  rw [removeDeviceData, hdevice]
  dsimp only
  by_cases hself : device = s.profile.device
  · rw [if_pos hself]
    exact ⟨fun hok => absurd hok Bool.false_ne_true, fun hother => absurd hself hother⟩
  · rw [if_neg hself, whenOpen_of_isOpen hopen]
    obtain ⟨notice, t, happly⟩ := exists_applyBatch_eq_ok
      (fun hfails => absurd (hfail ▸ hfails) Bool.false_ne_true) now .here
    rw [happly]
    exact ⟨fun _ => hself, fun _ => rfl⟩

/-- **An open store whose backend accepts writes takes exactly the calls that suit it.** -/
theorem perform_isOk_iff {op : Operation} (hop : op.isChange = true) (now : Int) :
    (s.perform now op).1.isOk = true ↔ s.Admits op := by
  have hmutate (now : Int) (batch : List Write) (origin : Origin) :=
    mutate_isOk hopen hfail now batch origin
  cases op with
  | put key value =>
      rw [perform, answer_isOk]
      exact after_isOk_iff (hmutate ..)
  | putBatch es =>
      rw [perform, answer_isOk]
      exact (after_isOk_iff (hmutate ..)).trans checkAll_eq_ok_iff
  | delete key =>
      rw [perform, answer_isOk]
      exact after_isOk_iff (hmutate ..)
  | deleteBatch keys =>
      rw [perform, answer_isOk]
      exact (after_isOk_iff (hmutate ..)).trans checkAll_eq_ok_iff
  | applyRemote device puts deletes =>
      refine ⟨perform_applyRemote_isOk, ?_⟩
      rintro ⟨hempty, hother, hputs, hdeletes⟩
      rw [perform_applyRemote_eq hempty hother hputs hdeletes, answer_isOk]
      exact hmutate ..
  | clear =>
      rw [perform, answer_isOk]
      exact ⟨fun _ => trivial, fun _ => clear_isOk hopen hfail now⟩
  | removeDeviceData network =>
      rw [perform, answer_isOk]
      cases hdevice : s.directory.resolve? network with
      | none =>
          rw [removeDeviceData, hdevice]
          refine ⟨fun hok => absurd hok Bool.false_ne_true, ?_⟩
          rintro ⟨device, hsome, -⟩
          rw [hdevice] at hsome
          exact absurd hsome (by simp)
      | some device =>
          rw [removeDeviceData_isOk hopen hfail hdevice, Admits, hdevice]
          simp
  | startTransaction =>
      rw [perform, answer_isOk, startTransaction, whenOpen_of_isOpen hopen, Admits, inTransaction]
      cases hactive : s.transaction.isActive <;> simp [Transaction.start, hactive, Except.isOk,
        Except.toBool]
  | commit =>
      rw [perform, answer_isOk, Admits]
      refine ⟨fun hok => ?_, fun hactive => ?_⟩
      · obtain ⟨_, t, hcommit⟩ := exists_eq_ok hok
        exact (commit_eq_ok hcommit).1
      · rw [commit_eq hopen hactive]
        rfl
  | rollback =>
      rw [perform, answer_isOk, Admits]
      refine ⟨fun hok => ?_, fun hactive => ?_⟩
      · obtain ⟨_, t, hrollback⟩ := exists_eq_ok hok
        exact (undone_of_rollback hrollback).1
      · rw [rollback_eq_ok hopen hactive hfail]
        rfl
  | _ => cases hop

end

/-! ## Turns -/

/-- Nothing that the store keeps has changed: its records, its transaction, what it has published
and what was settled at its opening. -/
structure Still (s s' : Session) : Prop where
  profile : s'.profile = s.profile
  tables : s'.backend.toTables = s.backend.toTables
  transaction : s'.transaction = s.transaction
  published : s'.published = s.published

theorem Still.refl (s : Session) : s.Still s := ⟨rfl, rfl, rfl, rfl⟩

theorem Aside.still (h : s.Aside s') : s.Still s' := by
  rw [h]
  exact ⟨rfl, rfl, rfl, rfl⟩

theorem Failed.still {e : Status} (h : s.Failed e s') : s.Still s' := by
  rw [h.rest]
  exact ⟨rfl, rfl, rfl, rfl⟩

/-- All that an event can do to a session. -/
inductive Turn (s : Session) : Event → Session → Prop where
  /-- The event was no call that changes the store, or it was one that failed. -/
  | still {e : Event} {s' : Session} : s.Still s' →
      (∀ now op, e = .perform now op → (s.perform now op).1.isOk = true → op.isChange = false) →
      Turn s e s'
  /-- A batch was written, and its notice published unless a transaction holds it back. -/
  | wrote {now : Int} {op : Operation} {origin : Origin} {batch : List Write} {t s' : Session} :
      (s.perform now op).1.isOk = true → s.batchOf? op = some (origin, batch) →
      s.Wrote origin batch t → (t.publish origin (s.noticeOf batch origin)).2.Aside s' →
      Turn s (.perform now op) s'
  /-- The store was emptied outside a transaction. -/
  | cleared {now : Int} {s' : Session} :
      (s.perform now .clear).1.isOk = true → s.inTransaction = false →
      (({ s with backend := { s.backend with toTables := {} } } : Session).publish .here
        (s.clearNotice s.backend.snapshot)).2.Aside s' →
      Turn s (.perform now .clear) s'
  | started {now : Int} {s' : Session} :
      (s.perform now .startTransaction).1.isOk = true → s.inTransaction = false →
      s' = { s with
        transaction := { phase := .active, id := s.transaction.id + 1, log := [] } } →
      Turn s (.perform now .startTransaction) s'
  | committed {now : Int} {s' : Session} :
      (s.perform now .commit).1.isOk = true → s.inTransaction = true →
      (({ s with transaction := { s.transaction with phase := .committed, log := [] } } :
        Session).publish .here (s.netNotice s.transaction.log)).2.Aside s' →
      Turn s (.perform now .commit) s'
  | rolledBack {now : Int} :
      (s.perform now .rollback).1.isOk = true → s.inTransaction = true →
      Turn s (.perform now .rollback) s.undone

/-- A batch that was written and announced makes a turn. -/
theorem Turn.of_mutate {now : Int} {op : Operation} {origin : Origin} {batch : List Write}
    (hok : (s.perform now op).1.isOk = true) (hbatch : s.batchOf? op = some (origin, batch))
    (h : s.mutate now batch origin = (.ok (), s')) : s.Turn (.perform now op) s' := by
  obtain ⟨-, t, hwrote, rfl⟩ := mutate_eq_ok h
  exact .wrote hok hbatch hwrote (t.announce_aside _ _)

/-- Outside a transaction the store is emptied as a whole. -/
theorem Turn.of_clear {now : Int} (hidle : s.inTransaction = false)
    (hok : (s.perform now .clear).1.isOk = true) (h : s.clear now = (.ok (), s')) :
    s.Turn (.perform now .clear) s' := by
  obtain ⟨-, ⟨hactive, -⟩ | ⟨-, rfl⟩⟩ := clear_eq_ok h
  · exact absurd (hidle.symm.trans hactive) Bool.false_ne_true
  · exact .cleared hok hidle (announce_aside _ _ _)

/-- The data of a device are removed by a batch, inside a transaction and outside. -/
theorem Turn.of_removeDeviceData {now : Int} {network : String}
    (hok : (s.perform now (.removeDeviceData network)).1.isOk = true)
    (h : s.removeDeviceData now network = (.ok (), s')) :
    s.Turn (.perform now (.removeDeviceData network)) s' := by
  obtain ⟨device, notice, t, hdevice, -, -, happly, rfl⟩ := removeDeviceData_eq_ok h
  obtain ⟨rfl, hwrote⟩ := applyBatch_eq_ok happly
  have hbatch : s.batchOf? (.removeDeviceData network)
      = some (.here, (s.backend.keysFromDevice device).map .remove) := by
    rw [batchOf?, hdevice]
    rfl
  exact .wrote hok hbatch hwrote (.refl _)

/-- A call that changes the store and succeeds. -/
theorem turn_of_ok {now : Int} {op : Operation} {answer : Answer} (hop : op.isChange = true)
    (h : s.perform now op = (.ok answer, s')) : s.Turn (.perform now op) s' := by
  have hok : (s.perform now op).1.isOk = true := by
    rw [h]
    rfl
  cases op with
  | put | putBatch | delete | deleteBatch | applyRemote =>
      exact .of_mutate hok rfl (mutate_of_perform rfl h)
  | clear =>
      by_cases hactive : s.inTransaction = true
      · exact .of_mutate hok rfl (mutate_of_perform_of_active hactive rfl h)
      · exact .of_clear (Bool.eq_false_iff.mpr hactive) hok (eq_ok_of_answer h)
  | removeDeviceData network => exact .of_removeDeviceData hok (eq_ok_of_answer h)
  | startTransaction =>
      obtain ⟨-, hidle, hs'⟩ := startTransaction_eq_ok (eq_ok_of_answer h)
      exact .started hok hidle hs'
  | commit =>
      obtain ⟨hactive, rfl⟩ := commit_eq_ok (eq_ok_of_answer h)
      exact .committed hok hactive (announce_aside _ _ _)
  | rollback =>
      obtain ⟨hactive, rfl⟩ := undone_of_rollback (eq_ok_of_answer h)
      exact .rolledBack hok hactive
  | _ => cases hop

/-- **All that can happen to a store in one event.** -/
theorem handle_turn (s : Session) (e : Event) : s.Turn e (s.handle e) := by
  cases e with
  | failWrites | register | unregister =>
      exact .still ⟨rfl, rfl, rfl, rfl⟩ fun now op he => absurd he (by simp)
  | perform now op =>
      show s.Turn (.perform now op) (s.perform now op).2
      cases hop : op.isChange with
      | false =>
          refine .still (perform_aside hop now).still fun now' op' he _ => ?_
          cases he
          exact hop
      | true =>
          cases hperform : s.perform now op with
          | mk result t =>
              cases result with
              | ok answer => exact turn_of_ok hop hperform
              | error e =>
                  refine .still (perform_eq_error hop hperform).still fun now' op' he hok => ?_
                  cases he
                  rw [hperform] at hok
                  exact absurd hok Bool.false_ne_true

end PeerStore.Session
