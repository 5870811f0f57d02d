import PeerStore.Proofs.Store.Failure

/-!
# Operations beside the entries

Operations that read, that subscribe, that sync or that give out cursors leave the entries of a
store alone, and so its transaction and what it has published (**`perform_aside`**): whatever they
change is the observers, the callback, the cursors and the transport.
-/

set_option autoImplicit false

namespace PeerStore.Session

variable {α : Type}

/-- A session with nothing changed but the observers, the callback, the cursors and the
transport. -/
def Aside (s s' : Session) : Prop :=
  s' = { s with
    notifier := s'.notifier, callback := s'.callback, cursors := s'.cursors
    link := s'.link, shelf := s'.shelf }

theorem Aside.refl (s : Session) : s.Aside s := rfl

/-! ## Checks in front of an operation -/

/-- What holds of a session and of the session after an operation also holds if there is a check in
front of the operation. -/
theorem after_snd {P : Session → Prop} {s : Session} {check : Except Status Unit}
    {op : Session → Result α} (hs : P s) (hop : P (op s).2) : P (s.after check op).2 := by
  cases check with
  | ok _ => exact hop
  | error e => exact hs

theorem answer_snd (r : Result α) (f : α → Answer) : (r.answer f).2 = r.2 := by
  obtain ⟨result, s⟩ := r
  cases result with
  | ok | error => rfl

/-! ## Reading -/

theorem get_snd (s : Session) (key : Blob) : (s.get key).2 = s := by
  refine after_snd (P := (· = s)) rfl (after_snd (P := (· = s)) rfl ?_)
  split <;> rfl

theorem entries_snd (s : Session) (pfx : Blob) : (s.entries pfx).2 = s :=
  after_snd (P := (· = s)) rfl (after_snd (P := (· = s)) rfl rfl)

theorem select_snd (s : Session) (selection : Selection) : (s.select selection).2 = s := by
  unfold select
  split
  · rfl
  · unfold runQuery
    split
    · rfl
    · exact after_snd (P := (· = s)) rfl rfl

theorem query_snd (s : Session) (selection : Selection) : (s.query selection).2 = s := by
  have h := s.select_snd selection
  unfold query
  split <;> · rename_i heq; rwa [heq] at h

theorem count_snd (s : Session) (selection : Selection) : (s.count selection).2 = s := by
  have h := s.select_snd selection
  unfold count
  split <;> · rename_i heq; rwa [heq] at h

theorem read_snd (s : Session) (source : Source) : (s.read source).2 = s := by
  cases source with
  | keys pfx => exact s.entries_snd pfx
  | selection selection => exact s.query_snd selection

/-! ## Cursors and observers -/

theorem openResultSet_aside (s : Session) (source : Source) :
    s.Aside (s.openResultSet source).2 := by
  have h := s.read_snd source
  unfold openResultSet
  split
  all_goals
    rename_i heq
    rw [heq] at h
    cases h
    rfl

theorem closeResultSet_aside (s : Session) (id : Nat) : s.Aside (s.closeResultSet id).2 := by
  refine after_snd (P := s.Aside) rfl ?_
  dsimp only
  split <;> rfl

theorem subscribe_aside (s : Session) (observer : String) (scope : Scope) :
    s.Aside (s.subscribe observer scope).2 := by
  refine after_snd (P := s.Aside) rfl ?_
  split <;> rfl

theorem unsubscribe_aside (s : Session) (observer : String) (scope : Scope) :
    s.Aside (s.unsubscribe observer scope).2 := by
  refine after_snd (P := s.Aside) rfl ?_
  split <;> rfl

theorem startSync_aside (s : Session) (networks : List String) (mode : SyncMode) (delay : Nat)
    (query : Option Query) (callback : Option String) :
    s.Aside (s.startSync networks mode delay query callback).2 := by
  rw [startSync_rest]
  rfl

/-! ## Every operation -/

/-- **An operation that is not to change the entries or the transaction leaves them alone**, and
publishes nothing. -/
theorem perform_aside {s : Session} {op : Operation} (h : op.isChange = false) (now : Int) :
    s.Aside (s.perform now op).2 := by
  cases op with
  | get key => rw [perform, answer_snd, get_snd]; rfl
  | entries pfx => rw [perform, answer_snd, entries_snd]; rfl
  | query selection => rw [perform, answer_snd, query_snd]; rfl
  | count selection => rw [perform, answer_snd, count_snd]; rfl
  | openResultSet source => rw [perform, answer_snd]; exact s.openResultSet_aside source
  | closeResultSet id => rw [perform, answer_snd]; exact s.closeResultSet_aside id
  | subscribe observer scope => rw [perform, answer_snd]; exact s.subscribe_aside observer scope
  | unsubscribe observer scope =>
      rw [perform, answer_snd]
      exact s.unsubscribe_aside observer scope
  | registerCallback | unregisterCallback | securityLevel =>
      rw [perform, answer_snd]
      exact after_snd (P := s.Aside) rfl rfl
  | sync | syncWithQuery =>
      rw [perform, answer_snd]
      exact s.startSync_aside ..
  | put | putBatch | delete | deleteBatch | clear | removeDeviceData | applyRemote
  | startTransaction | commit | rollback => cases h

end PeerStore.Session
