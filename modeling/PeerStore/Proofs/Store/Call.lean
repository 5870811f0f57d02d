import PeerStore.Proofs.Store.Batch

/-!
# Calls that write

`Operation.batch?` gives the batch of a call that writes: its puts and removals in the order in
which the call has them. Such a call fails before it does anything or is that batch
(`perform_batch?`). Outside a transaction of a shared store it does what its writes do one after
the other, and publishes one notice of it (**`perform_batch`**).
-/

set_option autoImplicit false

namespace PeerStore

/-- The batch of a call that writes, with where it comes from. -/
def Operation.batch? (space : KeySpace) : Operation → Option (Origin × List Write)
  | .put key value => some (.here, [.put (space.ownKey key) value])
  | .putBatch es => some (.here, es.map fun e => .put (space.ownKey e.key) e.value)
  | .delete key => some (.here, [.remove (space.ownKey key)])
  | .deleteBatch keys => some (.here, keys.map fun key => .remove (space.ownKey key))
  | .applyRemote device puts deletes =>
      some (.remote device,
        puts.map (fun e => .put (space.remoteKey device e.key) e.value) ++
          deletes.map fun key => .remove (space.remoteKey device key))
  | _ => none

namespace Session

/-! ## Calls are batches -/

/-- An operation behind a check is refused, or it is done. -/
theorem answer_after_cases {α : Type} (s : Session) (check : Except Status Unit)
    (op : Session → Result α) (f : α → Answer) :
    (∃ e, (s.after check op).answer f = (.error e, s))
      ∨ (s.after check op).answer f = (op s).answer f := by
  cases check with
  | error e => exact .inl ⟨e, rfl⟩
  | ok _ => exact .inr rfl

/-- A call that writes is refused, or it is its batch. -/
theorem perform_batch? {s : Session} {op : Operation} {origin : Origin} {batch : List Write}
    (h : op.batch? s.space = some (origin, batch)) (now : Int) :
    (∃ e, s.perform now op = (.error e, s))
      ∨ s.perform now op = (s.mutate now batch origin).answer fun _ => .done := by
  cases op with
  | put | putBatch | delete | deleteBatch =>
      cases h
      exact s.answer_after_cases _ _ _
  | applyRemote device puts deletes =>
      cases h
      rw [perform, applyRemote]
      split
      · exact .inl ⟨_, rfl⟩
      · -- the puts are checked first, and then the deletes
        rcases s.answer_after_cases (checkAll s.checkEntry puts) _ _ with hrefused | hdone
        · exact .inl hrefused
        · rw [hdone]
          exact s.answer_after_cases _ _ _
  | _ => exact absurd h (by simp [Operation.batch?])

/-- An answer is one of success only if the operation succeeded. -/
theorem eq_ok_of_answer {r : Result Unit} {f : Unit → Answer} {answer : Answer} {s' : Session}
    (h : r.answer f = (.ok answer, s')) : r = (.ok (), s') := by
  obtain ⟨result, t⟩ := r
  cases result with
  | error e => exact absurd (Prod.mk.inj h).1 (by simp)
  | ok _ =>
      obtain ⟨-, rfl⟩ := Prod.mk.inj h
      rfl

/-- A call that writes and succeeds is its batch. -/
theorem mutate_of_perform {s s' : Session} {now : Int} {op : Operation} {answer : Answer}
    {origin : Origin} {batch : List Write} (h : op.batch? s.space = some (origin, batch))
    (hok : s.perform now op = (.ok answer, s')) : s.mutate now batch origin = (.ok (), s') := by
  rcases perform_batch? h now with ⟨e, he⟩ | hdone
  · rw [he] at hok
    exact absurd (Prod.mk.inj hok).1 (by simp)
  · rw [hdone] at hok
    exact eq_ok_of_answer hok

/-! ## Sessions to start from -/

/-- A session just opened, over an empty backend and with nobody else around. -/
def fresh (kind : StoreKind) (device : String) : Session where
  profile := ⟨"app", "store", { kind, persistent := false }, {}, device⟩
  notifier := Notifier.ofMax 8 fun _ _ => false
  backend := {}
  directory := { self := device }
  link := none
  shelf := {}

/-- A session over a backend that holds one record. -/
def stocked : Session :=
  { fresh .singleVersion "self" with
    backend := { toTables := Tables.put {} [1] ⟨[0], 1, "self"⟩ } }

/-! ## A call outside a transaction -/

/-- In a shared store the notice of a batch is that of the touched keys. -/
theorem noticeOf_shared {s : Session} (h : s.space = .shared) (batch : List Write)
    (origin : Origin) :
    s.noticeOf batch origin = .ofTouched (Write.touched batch) s.backend.values
      (s.backend.values.valuesAfter batch) (s.deviceOf origin) := by
  rw [noticeOf, h]
  exact classify_ofBatch_shared ..

/-- **A call that writes, outside a transaction of a shared store.** It leaves the values that its
writes leave one after the other. Other keys keep their records, and what stands under the keys of
the batch is the work of the device that it came from. One notice tells what became of these keys;
it is published unless there is nothing to tell. -/
theorem perform_batch {s s' : Session} {now : Int} {op : Operation} {answer : Answer}
    {origin : Origin} {batch : List Write} (hspace : s.space = .shared)
    (hidle : s.inTransaction = false) (hop : op.batch? .shared = some (origin, batch))
    (hok : s.perform now op = (.ok answer, s')) :
    s'.backend.values = s.backend.values.valuesAfter batch
      ∧ (∀ key, key ∉ Write.touched batch → s'.backend.get? key = s.backend.get? key)
      ∧ (∀ key ∈ Write.touched batch, ∀ r, s'.backend.get? key = some r →
          r.device = s.deviceOf origin)
      ∧ ∃ notice : Notice,
          notice.Tells (Write.touched batch) s.backend.values s'.backend.values
          ∧ notice.device = s.deviceOf origin
          ∧ s'.published = s.published
              ++ (if s.backend.values.Idle batch then [] else [(origin, notice)])
          ∧ s'.notifier = (s.notifier.notify origin notice).2 := by
  rw [← hspace] at hop
  obtain ⟨-, t, hwrote, rfl⟩ := mutate_eq_ok (mutate_of_perform hop hok)
  -- the batch began and ended no transaction, and told nobody before it was announced
  obtain ⟨htold, hnotified⟩ :=
    announce_of_idle (hwrote.inTransaction.trans hidle) origin (s.noticeOf batch origin)
  rw [announce_backend, htold, hnotified, hwrote.published, hwrote.notifier, hwrote.values]
  refine ⟨rfl, fun key => hwrote.get?_of_not_mem, fun key hkey r => hwrote.device_of_mem hkey,
    s.noticeOf batch origin, ?_, ?_, ?_, rfl⟩
  · rw [noticeOf_shared hspace]
    exact Notice.tells_ofTouched (Write.nodup_touched batch)
  · rfl
  · have hempty : (s.noticeOf batch origin).isEmpty = true ↔ s.backend.values.Idle batch := by
      rw [noticeOf_shared hspace]
      exact Notice.isEmpty_ofTouched
    simp only [hempty]

/-- A remote batch that puts one key twice and removes another that it has just put. -/
theorem perform_batch_remote :
    let op : Operation := .applyRemote "peer" [⟨[2], [20]⟩, ⟨[1], [30]⟩, ⟨[2], [40]⟩] [[1], [3]]
    let batch : List Write :=
      [.put [2] [20], .put [1] [30], .put [2] [40], .remove [1], .remove [3]]
    ∃ s', stocked.perform 2 op = (.ok .done, s')
      ∧ s'.backend.values = stocked.backend.values.valuesAfter batch
      ∧ ∃ notice : Notice,
          notice.Tells [[2], [1], [3]] stocked.backend.values s'.backend.values
          ∧ s'.published = [(.remote "peer", notice)] := by
  intro op batch
  have hop : op.batch? .shared = some (.remote "peer", batch) := rfl
  have hok : stocked.perform 2 op = (.ok .done, _) := rfl
  obtain ⟨hvalues, -, -, notice, htells, -, hpublished, -⟩ :=
    perform_batch (by decide) (by decide) hop hok
  refine ⟨_, hok, hvalues, notice, htells, ?_⟩
  rwa [if_neg (by decide)] at hpublished

end Session

end PeerStore
