import PeerStore.Proofs.Store.Open

/-!
# Closed stores

Before an operation asks whether the store is open it checks its arguments (`Session.checkFirst`):
keys, values and prefixes, the text and the clauses of a query, the device that it names. Then
nothing is done unless the store is open (**`guarded_perform`**). So a closed store answers every
operation with the failure of its check or, if it succeeds, with the failure for being closed, and
stays as it is (**`perform_of_closed`**).
-/

set_option autoImplicit false

namespace PeerStore.Session

variable {α : Type} {s : Session}

/-! ## Checks of arguments -/

/-- Checks that a selection is a query, and one with a plan. -/
def checkSelection (s : Session) (selection : Selection) : Except Status Unit :=
  match s.queryOf selection with
  | .error e => .error e
  | .ok q =>
      match q.plan? with
      | .error e => .error e.status
      | .ok _ => .ok ()

/-- Checks that a batch of another device comes from one, and that its entries and keys are valid. -/
def checkRemote (s : Session) (device : String) (puts : List Entry) (deletes : List Blob) :
    Except Status Unit :=
  if device.isEmpty || device == s.profile.device then
    .error (.invalidArgument "remote batch needs a remote device id")
  else
    match checkAll s.checkEntry puts with
    | .error e => .error e
    | .ok () => checkAll s.checkKey deletes

/-- Checks that a network id is that of another device. -/
def checkOther (s : Session) (network : String) : Except Status Unit :=
  match s.directory.resolve? network with
  | none => .error (unknownDevice network)
  | some device =>
      if device = s.profile.device then
        .error (.invalidArgument "local device data cannot be removed")
      else .ok ()

/-- The check that an operation makes before it asks whether the store is open. -/
def checkFirst (s : Session) : Operation → Except Status Unit
  | .put key value => s.checkEntry ⟨key, value⟩
  | .putBatch entries => checkAll s.checkEntry entries
  | .delete key | .get key => s.checkKey key
  | .deleteBatch keys => checkAll s.checkKey keys
  | .removeDeviceData network => s.checkOther network
  | .applyRemote device puts deletes => s.checkRemote device puts deletes
  | .entries pfx | .openResultSet (.keys pfx) => s.checkKeyPrefix pfx
  | .query selection | .count selection | .openResultSet (.selection selection) =>
      s.checkSelection selection
  | _ => .ok ()

/-! ## What stands in front of an operation -/

/-- Whether an outcome is that of something done behind a check, and then on an open store only. -/
def Guarded (s : Session) (check : Except Status Unit) (r : Result α) : Prop :=
  ∃ act : Session → Result α, r = s.after check fun s => s.whenOpen act

theorem guarded_whenOpen (s : Session) (act : Session → Result α) :
    s.Guarded (.ok ()) (s.whenOpen act) := ⟨act, rfl⟩

/-- What goes on from an outcome and lets failures pass is behind the same check. -/
theorem Guarded.bind {β : Type} {check : Except Status Unit} {r : Result α} {r' : Result β}
    (h : s.Guarded check r) (hpass : ∀ e t, r = (.error e, t) → r' = (.error e, t)) :
    s.Guarded check r' := by
  obtain ⟨act, rfl⟩ := h
  refine ⟨fun _ => r', ?_⟩
  cases check with
  | error e => exact hpass e s rfl
  | ok _ =>
      change ∀ e t, s.whenOpen act = (.error e, t) → r' = (.error e, t) at hpass
      show r' = s.whenOpen fun _ => r'
      unfold whenOpen at hpass ⊢
      cases hopen : s.requireOpen with
      | error e => exact hpass e s (by rw [hopen]; rfl)
      | ok _ => rfl

theorem Guarded.answer {check : Except Status Unit} {r : Result α} (h : s.Guarded check r)
    (f : α → Answer) : s.Guarded check (r.answer f) :=
  h.bind fun _ _ herror => by rw [herror]; rfl

theorem guarded_applyRemote (s : Session) (now : Int) (device : String) (puts : List Entry)
    (deletes : List Blob) :
    s.Guarded (s.checkRemote device puts deletes) (s.applyRemote now device puts deletes) := by
  unfold applyRemote checkRemote
  split
  · exact ⟨fun s => (.ok (), s), rfl⟩
  · cases checkAll s.checkEntry puts with
    | error e => exact ⟨fun s => (.ok (), s), rfl⟩
    | ok _ => exact ⟨_, rfl⟩

theorem guarded_removeDeviceData (s : Session) (now : Int) (network : String) :
    s.Guarded (s.checkOther network) (s.removeDeviceData now network) := by
  unfold removeDeviceData checkOther
  cases s.directory.resolve? network with
  | none => exact ⟨fun s => (.ok (), s), rfl⟩
  | some device =>
      dsimp only
      split
      · exact ⟨fun s => (.ok (), s), rfl⟩
      · exact s.guarded_whenOpen _

theorem guarded_select (s : Session) (selection : Selection) :
    s.Guarded (s.checkSelection selection) (s.select selection) := by
  unfold select checkSelection
  cases s.queryOf selection with
  | error e => exact ⟨fun s => (.ok [], s), rfl⟩
  | ok q =>
      dsimp only
      unfold runQuery
      cases q.plan? with
      | error e => exact ⟨fun s => (.ok [], s), rfl⟩
      | ok p => exact ⟨_, rfl⟩

theorem guarded_query (s : Session) (selection : Selection) :
    s.Guarded (s.checkSelection selection) (s.query selection) :=
  (s.guarded_select selection).bind fun _ _ herror => by rw [query, herror]

theorem guarded_count (s : Session) (selection : Selection) :
    s.Guarded (s.checkSelection selection) (s.count selection) :=
  (s.guarded_select selection).bind fun _ _ herror => by rw [count, herror]

theorem guarded_openResultSet (s : Session) (source : Source) :
    s.Guarded (s.checkFirst (.openResultSet source)) (s.openResultSet source) := by
  have h : s.Guarded (s.checkFirst (.openResultSet source)) (s.read source) := by
    cases source with
    | keys pfx => exact ⟨_, rfl⟩
    | selection selection => exact s.guarded_query selection
  exact h.bind fun _ _ herror => by rw [openResultSet, herror]

/-- **Every operation makes its check, then asks whether the store is open, and then does what it
does.** -/
theorem guarded_perform (s : Session) (now : Int) (op : Operation) :
    s.Guarded (s.checkFirst op) (s.perform now op) := by
  have hafter {β : Type} (check : Except Status Unit) (act : Session → Result β) (f : β → Answer) :
      s.Guarded check ((s.after check fun s => s.whenOpen act).answer f) :=
    Guarded.answer ⟨act, rfl⟩ f
  cases op with
  | put | putBatch | delete | deleteBatch | get | entries => exact hafter _ _ _
  | removeDeviceData network => exact (s.guarded_removeDeviceData now network).answer _
  | applyRemote device puts deletes => exact (s.guarded_applyRemote now device puts deletes).answer _
  | query selection => exact (s.guarded_query selection).answer _
  | count selection => exact (s.guarded_count selection).answer _
  | openResultSet source => exact (s.guarded_openResultSet source).answer _
  | clear | closeResultSet | startTransaction | commit | rollback | subscribe | unsubscribe
  | registerCallback | unregisterCallback | securityLevel =>
      exact (s.guarded_whenOpen _).answer _
  | sync | syncWithQuery =>
      rw [perform]
      exact Guarded.answer (r := s.startSync ..) (s.guarded_whenOpen _) _

/-! ## Refusals -/

/-- The failure that an operation on a closed store gives: that of its check or, if the check
succeeds, the one for being closed. -/
def refusal (s : Session) (op : Operation) : Status :=
  match s.checkFirst op with
  | .ok () => .storeNotOpen s.profile.id
  | .error e => e

/-- If the check fails, so does the operation, whether the store is open or closed. -/
theorem perform_of_checkFirst_error {op : Operation} {e : Status} (h : s.checkFirst op = .error e)
    (now : Int) : s.perform now op = (.error e, s) := by
  obtain ⟨act, hact⟩ := s.guarded_perform now op
  rw [hact, h]
  rfl

/-- **A closed store refuses every operation**, and stays as it is. -/
theorem perform_of_closed (hclosed : s.isOpen = false) (now : Int) (op : Operation) :
    s.perform now op = (.error (s.refusal op), s) := by
  obtain ⟨act, hact⟩ := s.guarded_perform now op
  rw [hact, refusal]
  cases s.checkFirst op with
  | error e => rfl
  | ok _ =>
      show s.whenOpen act = _
      rw [whenOpen, requireOpen, hclosed]
      rfl

/-- A store that is closed once more stays as it is. -/
theorem close_of_closed (hclosed : s.isOpen = false) : s.close = s := by
  rw [close, hclosed]
  rfl

/-! ## Checks on any store -/

/-- No check of arguments says that the store is closed. -/
theorem isPlain_checkFirst (s : Session) (op : Operation) : IsPlain (s.checkFirst op) := by
  have hselection (selection : Selection) : IsPlain (s.checkSelection selection) := by
    unfold checkSelection
    split
    · rename_i hquery
      exact isPlain_error (s.isPlain_queryOf selection _ hquery)
    · split
      · exact isPlain_error (isNotOpen_planError _)
      · exact isPlain_ok _
  have hprefix (pfx : Blob) : IsPlain (s.checkKeyPrefix pfx) := isPlain_mapError (fun _ => rfl) _
  cases op with
  | put key value => exact s.isPlain_checkEntry _
  | putBatch es => exact isPlain_checkAll s.isPlain_checkEntry es
  | delete key | get key => exact s.isPlain_checkKey key
  | deleteBatch keys => exact isPlain_checkAll s.isPlain_checkKey keys
  | removeDeviceData network =>
      simp only [checkFirst, checkOther]
      split
      · exact isPlain_error rfl
      · split
        · exact isPlain_error rfl
        · exact isPlain_ok _
  | applyRemote device puts deletes =>
      simp only [checkFirst, checkRemote]
      split
      · exact isPlain_error rfl
      · split
        · rename_i hputs
          exact isPlain_error (isPlain_checkAll s.isPlain_checkEntry puts _ hputs)
        · exact isPlain_checkAll s.isPlain_checkKey deletes
  | entries pfx => exact hprefix pfx
  | query selection | count selection => exact hselection selection
  | openResultSet source =>
      cases source with
      | keys pfx => exact hprefix pfx
      | selection selection => exact hselection selection
  | _ => exact isPlain_ok _

/-- **A closed store says that it is closed exactly if the arguments pass their check.** -/
theorem refusal_isNotOpen_iff (s : Session) (op : Operation) :
    (s.refusal op).isNotOpen = true ↔ s.checkFirst op = .ok () := by
  rw [refusal]
  cases hcheck : s.checkFirst op with
  | ok _ => exact iff_of_true rfl rfl
  | error e => simp [s.isPlain_checkFirst op e hcheck]

end PeerStore.Session
