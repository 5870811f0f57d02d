import PeerStore.Proofs.Store.Turn

/-!
# Open stores

No operation opens or closes a store (**`perform_settled`**); only `close` does. On an open store an
operation fails for being closed only if the transport refuses a sync with that failure
(**`error_of_open`**): every other failure is one of a check, of the backend, of the transaction, of
the observers or of a cursor. On a closed store an entry that is valid is refused for just that
(`put_of_closed`).
-/

set_option autoImplicit false

namespace PeerStore

/-- Whether a failure says that a store is not open. -/
def Status.isNotOpen : Status → Bool
  | .storeNotOpen _ => true
  | _ => false

/-- Whether an operation hands a request to the transport. -/
def Operation.isSync : Operation → Bool
  | .sync .. | .syncWithQuery .. => true
  | _ => false

namespace Session

variable {α : Type} {s : Session}

/-! ## Being open -/

theorem publish_settled (s : Session) (origin : Origin) (notice : Notice) :
    (s.publish origin notice).2.profile = s.profile
      ∧ (s.publish origin notice).2.isOpen = s.isOpen := by
  unfold publish
  split <;> exact ⟨rfl, rfl⟩

theorem Aside.settled {s' : Session} (h : s.Aside s') :
    s'.profile = s.profile ∧ s'.isOpen = s.isOpen := by
  rw [h]
  exact ⟨rfl, rfl⟩

/-- What is published of a session leaves it as open as it was, whatever was done before. -/
theorem settled_of_publish {t s' : Session} {origin : Origin} {notice : Notice}
    (h : (t.publish origin notice).2.Aside s') (hprofile : t.profile = s.profile)
    (hopen : t.isOpen = s.isOpen) : s'.profile = s.profile ∧ s'.isOpen = s.isOpen := by
  obtain ⟨haside, haside'⟩ := h.settled
  obtain ⟨hpublish, hpublish'⟩ := t.publish_settled origin notice
  exact ⟨haside.trans (hpublish.trans hprofile), haside'.trans (hpublish'.trans hopen)⟩

/-- **No operation opens or closes a store**, or makes another store of it. -/
theorem perform_settled (s : Session) (now : Int) (op : Operation) :
    (s.perform now op).2.profile = s.profile ∧ (s.perform now op).2.isOpen = s.isOpen := by
  cases hop : op.isChange with
  | false => exact (perform_aside hop now).settled
  | true =>
      cases hperform : s.perform now op with
      | mk result s' =>
          cases result with
          | error e =>
              rw [(perform_eq_error hop hperform).rest]
              exact ⟨rfl, rfl⟩
          | ok answer =>
              cases turn_of_ok hop hperform with
              | still _ hnone =>
                  have hok : (s.perform now op).1.isOk = true := by rw [hperform]; rfl
                  rw [hnone now op rfl hok] at hop
                  cases hop
              | wrote _ _ hwrote haside =>
                  exact settled_of_publish haside hwrote.profile hwrote.isOpen
              | cleared _ _ haside => exact settled_of_publish haside rfl rfl
              | committed _ _ haside => exact settled_of_publish haside rfl rfl
              | started _ _ hs' =>
                  rw [hs']
                  exact ⟨rfl, rfl⟩
              | rolledBack => exact ⟨rfl, rfl⟩

/-- Once closed, a store is closed, and it is the store that it was. -/
theorem close_settled (s : Session) : s.close.profile = s.profile ∧ s.close.isOpen = false := by
  unfold close
  split
  · refine ⟨?_, rfl⟩
    show s.abandon.profile = s.profile
    unfold abandon
    split
    · rfl
    · rename_i log _
      have hrestore : (s.restore log).2.profile = s.profile := by
        rw [restore_eq]
        split <;> rfl
      dsimp only
      split <;> exact hrestore
  · rename_i hclosed
    exact ⟨rfl, Bool.eq_false_iff.mpr hclosed⟩

/-! ## Outcomes that do not say that a store is closed -/

/-- Whether an outcome is no failure for a store that is closed. -/
def IsPlain (x : Except Status α) : Prop := ∀ e, x = .error e → e.isNotOpen = false

theorem isPlain_ok (a : α) : IsPlain (.ok a) := by
  intro e h
  cases h

theorem isPlain_error {e : Status} (h : e.isNotOpen = false) : IsPlain (.error e : Except Status α) := by
  intro e' he
  cases he
  exact h

theorem error_of_answer {r : Result α} {f : α → Answer} {e : Status}
    (h : (r.answer f).1 = .error e) : r.1 = .error e := by
  obtain ⟨result, s⟩ := r
  cases result with
  | ok a => cases h
  | error e' =>
      cases h
      rfl

theorem isPlain_answer {r : Result α} (h : IsPlain r.1) (f : α → Answer) :
    IsPlain (r.answer f).1 := by
  intro e he
  exact h e (error_of_answer he)

theorem isPlain_after {check : Except Status Unit} {op : Session → Result α}
    (hcheck : IsPlain check) (hop : IsPlain (op s).1) : IsPlain (s.after check op).1 := by
  cases check with
  | ok _ => exact hop
  | error e => exact isPlain_error (hcheck e rfl)

theorem isPlain_mapError {ε : Type} {f : ε → Status} (hf : ∀ e, (f e).isNotOpen = false)
    (check : Except ε Unit) : IsPlain (check.mapError f) := by
  cases check with
  | ok _ => exact isPlain_ok _
  | error e => exact isPlain_error (hf e)

theorem isPlain_checkKey (s : Session) (key : Blob) : IsPlain (s.checkKey key) :=
  isPlain_mapError (fun _ => rfl) _

theorem isPlain_checkEntry (s : Session) (e : Entry) : IsPlain (s.checkEntry e) := by
  unfold checkEntry
  split
  · exact isPlain_mapError (fun _ => rfl) _
  · rename_i hkey
    exact isPlain_error (s.isPlain_checkKey _ _ hkey)

theorem isPlain_checkAll {check : α → Except Status Unit} (h : ∀ a, IsPlain (check a))
    (items : List α) : IsPlain (checkAll check items) := by
  induction items with
  | nil => exact isPlain_ok _
  | cons a as ih =>
      unfold checkAll
      split
      · exact ih
      · rename_i ha
        exact isPlain_error (h a _ ha)

theorem isPlain_resolveAll (d : Directory) (networks : List String) :
    IsPlain (resolveAll d networks) := by
  induction networks with
  | nil => exact isPlain_ok _
  | cons network networks ih =>
      unfold resolveAll
      split
      · exact isPlain_error rfl
      · cases hrest : resolveAll d networks with
        | ok devices => exact isPlain_ok _
        | error e => exact isPlain_error (ih e hrest)

theorem isPlain_queryOf (s : Session) (selection : Selection) : IsPlain (s.queryOf selection) := by
  cases selection with
  | query q => exact isPlain_ok _
  | text t =>
      rw [queryOf, Query.Compiler.Outcome.result]
      split
      · exact isPlain_ok _
      · exact isPlain_error rfl

theorem isNotOpen_planError (e : Query.PlanError) : e.status.isNotOpen = false := by
  cases e with
  | repeated what => cases what <;> rfl
  | writeTimeCombined | filter => rfl

theorem isPlain_registry_subscribe (r : Registry) (observer : String) (scope : Scope) :
    IsPlain (r.subscribe observer scope) := by
  unfold Registry.subscribe
  split <;> split
  · exact isPlain_error rfl
  · exact isPlain_ok _
  · exact isPlain_error rfl
  · exact isPlain_ok _

theorem isPlain_registry_unsubscribe (r : Registry) (observer : String) (scope : Scope) :
    IsPlain (r.unsubscribe observer scope) := by
  unfold Registry.unsubscribe
  split
  · exact isPlain_error rfl
  · split
    · exact isPlain_error rfl
    · split <;> exact isPlain_ok _

theorem isPlain_map {β : Type} {x : Except Status α} (h : IsPlain x) (f : α → β) :
    IsPlain (x.map f) := by
  cases x with
  | ok a => exact isPlain_ok _
  | error e => exact isPlain_error (h e rfl)

theorem isPlain_backend_clear (b : Backend) : IsPlain b.clear := by
  refine isPlain_map ?_ _
  unfold Backend.write
  split
  · exact isPlain_error rfl
  · exact isPlain_ok _

/-! ## Failures of an open store -/

/-- The backend refuses a batch with a failure of its own. -/
theorem applyBatch_error {now : Int} {batch : List Write} {origin : Origin} {e : Status}
    {s' : Session} (h : s.applyBatch now batch origin = (.error e, s')) :
    e = Backend.writeFailure := by
  unfold applyBatch at h
  simp only [writeEffects_ofBatch] at h
  split at h
  · cases h
  · rename_i hwrite
    obtain ⟨he, -⟩ := Prod.mk.inj h
    split at hwrite
    · cases hwrite
    split at hwrite
    · obtain ⟨hfailure, -⟩ := Prod.mk.inj hwrite
      rw [← Except.error.inj he, ← Except.error.inj hfailure]
    · cases hwrite

section

variable (hopen : s.isOpen = true)
include hopen

theorem isPlain_whenOpen {op : Session → Result α} (hop : IsPlain (op s).1) :
    IsPlain (s.whenOpen op).1 := by
  rwa [whenOpen_of_isOpen hopen]

theorem isPlain_mutate (now : Int) (batch : List Write) (origin : Origin) :
    IsPlain (s.mutate now batch origin).1 := by
  rw [mutate, whenOpen_of_isOpen hopen]
  split
  · exact isPlain_ok _
  · rename_i happly
    rw [applyBatch_error happly]
    exact isPlain_error rfl

theorem isPlain_clear (now : Int) : IsPlain (s.clear now).1 := by
  rw [clear, whenOpen_of_isOpen hopen]
  split
  · exact isPlain_mutate hopen now _ _
  split
  · exact isPlain_ok _
  · rename_i hclear
    exact isPlain_error (isPlain_backend_clear _ _ hclear)

theorem isPlain_removeDeviceData (now : Int) (network : String) :
    IsPlain (s.removeDeviceData now network).1 := by
  unfold removeDeviceData
  split
  · exact isPlain_error rfl
  split
  · exact isPlain_error rfl
  rw [whenOpen_of_isOpen hopen]
  split
  · exact isPlain_ok _
  · rename_i happly
    rw [applyBatch_error happly]
    exact isPlain_error rfl

theorem isPlain_applyRemote (now : Int) (device : String) (puts : List Entry)
    (deletes : List Blob) : IsPlain (s.applyRemote now device puts deletes).1 := by
  unfold applyRemote
  split
  · exact isPlain_error rfl
  · exact isPlain_after (isPlain_checkAll s.isPlain_checkEntry puts)
      (isPlain_after (isPlain_checkAll s.isPlain_checkKey deletes) (isPlain_mutate hopen now _ _))

theorem isPlain_get (key : Blob) : IsPlain (s.get key).1 := by
  refine isPlain_after (s.isPlain_checkKey key) ?_
  rw [whenOpen_of_isOpen hopen]
  split
  · exact isPlain_ok _
  · exact isPlain_error rfl

theorem isPlain_entries (pfx : Blob) : IsPlain (s.entries pfx).1 := by
  refine isPlain_after (isPlain_mapError (fun _ => rfl) _) ?_
  rw [whenOpen_of_isOpen hopen]
  exact isPlain_ok _

theorem isPlain_select (selection : Selection) : IsPlain (s.select selection).1 := by
  unfold select
  split
  · rename_i hquery
    exact isPlain_error (s.isPlain_queryOf selection _ hquery)
  · unfold runQuery
    split
    · exact isPlain_error (isNotOpen_planError _)
    · rw [whenOpen_of_isOpen hopen]
      exact isPlain_ok _

theorem isPlain_query (selection : Selection) : IsPlain (s.query selection).1 := by
  have h := isPlain_select hopen selection
  unfold query
  split
  · exact isPlain_ok _
  · rename_i hselect
    exact isPlain_error (h _ (by rw [hselect]))

theorem isPlain_count (selection : Selection) : IsPlain (s.count selection).1 := by
  have h := isPlain_select hopen selection
  unfold count
  split
  · exact isPlain_ok _
  · rename_i hselect
    exact isPlain_error (h _ (by rw [hselect]))

theorem isPlain_openResultSet (source : Source) : IsPlain (s.openResultSet source).1 := by
  have h : IsPlain (s.read source).1 := by
    cases source with
    | keys pfx => exact isPlain_entries hopen pfx
    | selection selection => exact isPlain_query hopen selection
  unfold openResultSet
  split
  · exact isPlain_ok _
  · rename_i hread
    exact isPlain_error (h _ (by rw [hread]))

theorem isPlain_closeResultSet (id : Nat) : IsPlain (s.closeResultSet id).1 := by
  rw [closeResultSet, whenOpen_of_isOpen hopen]
  dsimp only
  split
  · exact isPlain_ok _
  · exact isPlain_error rfl

theorem isPlain_startTransaction : IsPlain s.startTransaction.1 := by
  rw [startTransaction, whenOpen_of_isOpen hopen]
  split
  · exact isPlain_ok _
  · exact isPlain_error rfl

theorem isPlain_commit : IsPlain s.commit.1 := by
  rw [commit, whenOpen_of_isOpen hopen]
  split
  · exact isPlain_error rfl
  · exact isPlain_error rfl
  · exact isPlain_ok _

theorem isPlain_rollback : IsPlain s.rollback.1 := by
  by_cases hactive : s.inTransaction = true
  · rw [rollback_eq hopen hactive]
    split
    · exact isPlain_error rfl
    · exact isPlain_ok _
  · rw [inTransaction] at hactive
    rw [rollback, whenOpen_of_isOpen hopen]
    simp only [Transaction.undoLog, hactive]
    exact isPlain_error rfl

theorem isPlain_subscribe (observer : String) (scope : Scope) :
    IsPlain (s.subscribe observer scope).1 := by
  rw [subscribe, whenOpen_of_isOpen hopen]
  split
  · exact isPlain_ok _
  · rename_i hsubscribe
    exact isPlain_error (isPlain_map (isPlain_registry_subscribe _ _ _) _ _ hsubscribe)

theorem isPlain_unsubscribe (observer : String) (scope : Scope) :
    IsPlain (s.unsubscribe observer scope).1 := by
  rw [unsubscribe, whenOpen_of_isOpen hopen]
  split
  · exact isPlain_ok _
  · rename_i hunsubscribe
    exact isPlain_error (isPlain_map (isPlain_registry_unsubscribe _ _ _) _ _ hunsubscribe)

/-! ### Syncs -/

omit hopen in
/-- A request that is not started failed with the coordinator, or the transport refused it. -/
theorem start_error {p : SyncLink} {store : String} {devices : List String} {mode : SyncMode}
    {query : Option Query} {delay : Nat} {callback : Option String} {e : Status}
    (h : (p.start store devices mode query delay callback).1 = .error e)
    (hnot : e.isNotOpen = true) : ∃ request, (p.transport request).outcome = .error e := by
  have hstart : IsPlain (p.coordinator.start store devices mode query delay callback) := by
    unfold Coordinator.start
    split
    · rename_i haccept
      unfold Coordinator.accept at haccept
      split at haccept
      · cases haccept
        exact isPlain_error rfl
      split at haccept
      · cases haccept
        exact isPlain_error rfl
      · cases haccept
    · exact isPlain_ok _
  unfold SyncLink.start at h
  split at h
  · rename_i hfailed
    cases h
    rw [hstart _ hfailed] at hnot
    cases hnot
  · rename_i request _ _
    dsimp only at h
    split at h
    · cases h
    · rename_i houtcome
      cases h
      exact ⟨request, houtcome⟩

/-- A sync of an open store fails for a store that is closed only if the transport says so. -/
theorem startSync_error {networks : List String} {mode : SyncMode} {delay : Nat}
    {query : Option Query} {callback : Option String} {e : Status}
    (h : (s.startSync networks mode delay query callback).1 = .error e)
    (hnot : e.isNotOpen = true) :
    ∃ link request, s.link = some link ∧ (link.transport request).outcome = .error e := by
  rw [startSync, whenOpen_of_isOpen hopen] at h
  split at h
  · cases h
    cases hnot
  · rename_i hresolve
    cases h
    rw [isPlain_resolveAll _ _ _ hresolve] at hnot
    cases hnot
  · rename_i link devices hlink _
    obtain ⟨request, houtcome⟩ := start_error h hnot
    exact ⟨link, request, hlink, houtcome⟩

/-- No operation but a sync fails on an open store for a store that is closed. -/
theorem isPlain_perform (now : Int) {op : Operation} (hsync : op.isSync = false) :
    IsPlain (s.perform now op).1 := by
  cases op with
  | put key value =>
      exact isPlain_answer (isPlain_after (s.isPlain_checkEntry _) (isPlain_mutate hopen now _ _)) _
  | putBatch es =>
      exact isPlain_answer (isPlain_after (isPlain_checkAll s.isPlain_checkEntry es)
        (isPlain_mutate hopen now _ _)) _
  | delete key =>
      exact isPlain_answer (isPlain_after (s.isPlain_checkKey key) (isPlain_mutate hopen now _ _)) _
  | deleteBatch keys =>
      exact isPlain_answer (isPlain_after (isPlain_checkAll s.isPlain_checkKey keys)
        (isPlain_mutate hopen now _ _)) _
  | clear => exact isPlain_answer (isPlain_clear hopen now) _
  | removeDeviceData network => exact isPlain_answer (isPlain_removeDeviceData hopen now network) _
  | applyRemote device puts deletes =>
      exact isPlain_answer (isPlain_applyRemote hopen now device puts deletes) _
  | get key => exact isPlain_answer (isPlain_get hopen key) _
  | entries pfx => exact isPlain_answer (isPlain_entries hopen pfx) _
  | query selection => exact isPlain_answer (isPlain_query hopen selection) _
  | count selection => exact isPlain_answer (isPlain_count hopen selection) _
  | openResultSet source => exact isPlain_answer (isPlain_openResultSet hopen source) _
  | closeResultSet id => exact isPlain_answer (isPlain_closeResultSet hopen id) _
  | startTransaction => exact isPlain_answer (isPlain_startTransaction hopen) _
  | commit => exact isPlain_answer (isPlain_commit hopen) _
  | rollback => exact isPlain_answer (isPlain_rollback hopen) _
  | subscribe observer scope => exact isPlain_answer (isPlain_subscribe hopen observer scope) _
  | unsubscribe observer scope => exact isPlain_answer (isPlain_unsubscribe hopen observer scope) _
  | registerCallback | unregisterCallback | securityLevel =>
      exact isPlain_answer (isPlain_whenOpen hopen (isPlain_ok _)) _
  | sync | syncWithQuery => cases hsync

/-- **An operation on an open store fails for a store that is closed only if the transport refuses a
sync with that failure.** -/
theorem error_of_open {now : Int} {op : Operation} {e : Status}
    (h : (s.perform now op).1 = .error e) (hnot : e.isNotOpen = true) :
    ∃ link request, s.link = some link ∧ (link.transport request).outcome = .error e := by
  cases hsync : op.isSync with
  | false =>
      rw [isPlain_perform hopen now hsync e h] at hnot
      cases hnot
  | true =>
      cases op with
      | sync networks mode delay => exact startSync_error hopen (error_of_answer h) hnot
      | syncWithQuery networks mode query callback =>
          exact startSync_error hopen (error_of_answer h) hnot
      | _ => cases hsync

end

/-- A closed store refuses a valid entry for being closed, and stays as it is. -/
theorem put_of_closed (hclosed : s.isOpen = false) {key value : Blob}
    (hvalid : s.checkEntry ⟨key, value⟩ = .ok ()) (now : Int) :
    s.perform now (.put key value) = (.error (.storeNotOpen s.profile.id), s) := by
  rw [perform, put, after_of_ok hvalid, mutate, whenOpen, requireOpen, hclosed]
  rfl

end Session

end PeerStore
