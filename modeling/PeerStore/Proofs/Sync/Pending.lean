import PeerStore.Proofs.Table
import PeerStore.Sync

/-!
# A pending request

What a report does to the results of a request, and what giving it up does (`get?_record`,
`get?_giveUp`). A request waits while one of its devices has not reported (`PendingSync.Waits`). It
finds out whether it still does by comparing two counts, which is right because only its own devices
are recorded: a report completes a request that waits exactly if it is the first of the last device
that is missing (**`isComplete_record_iff`**).
-/

set_option autoImplicit false

namespace PeerStore.PendingSync

/-! ## Results -/

@[simp] theorem devices_record (p : PendingSync) (device : String) (result : SyncResult) :
    (p.record device result).devices = p.devices := by
  rw [record]
  split <;> rfl

@[simp] theorem deadline_record (p : PendingSync) (device : String) (result : SyncResult) :
    (p.record device result).deadline = p.deadline := by
  rw [record]
  split <;> rfl

@[simp] theorem callback_record (p : PendingSync) (device : String) (result : SyncResult) :
    (p.record device result).callback = p.callback := by
  rw [record]
  split <;> rfl

/-- A report gives a device of the request its result, unless it has one. -/
theorem get?_record (p : PendingSync) (device : String) (result : SyncResult) (other : String) :
    (p.record device result).results.get? other
      = if other = device ∧ p.devices.contains other = true then
          some ((p.results.get? other).getD result)
        else p.results.get? other := by
  rw [record]
  by_cases hother : other = device
  · subst hother
    cases hin : p.devices.contains other with
    | false => simp
    | true =>
        cases hgot : p.results.get? other with
        | none => simp [Table.contains, hgot, Table.get?_insert]
        | some earlier => simp [Table.contains, hgot]
  · split
    · rw [if_neg fun h => hother h.1]
      exact Table.get?_insert_of_ne _ _ (Ne.symm hother)
    · rw [if_neg fun h => hother h.1]

/-- What is left of a request after the same report from several devices. -/
theorem foldl_record (result : SyncResult) (ds : List String) (p : PendingSync) :
    let q := ds.foldl (fun p device => p.record device result) p
    q.devices = p.devices ∧ q.callback = p.callback
      ∧ ∀ other, q.results.get? other
        = if other ∈ ds ∧ p.devices.contains other = true then
            some ((p.results.get? other).getD result)
          else p.results.get? other := by
  induction ds generalizing p with
  | nil => exact ⟨rfl, rfl, fun other => by simp⟩
  | cons d ds ih =>
      obtain ⟨hdevices, hcallback, hget⟩ := ih (p.record d result)
      refine ⟨hdevices.trans (p.devices_record d result),
        hcallback.trans (p.callback_record d result), fun other => ?_⟩
      refine (hget other).trans ?_
      rw [devices_record, get?_record]
      by_cases hin : p.devices.contains other = true
      · by_cases hd : other = d
        · -- later reports of this device find a result, so it does not matter whether there are any
          subst hd
          simp [hin]
        · simp [hd]
      · simp [hin]

@[simp] theorem callback_giveUp (p : PendingSync) : p.giveUp.callback = p.callback :=
  (foldl_record (.error .timedOut) p.devices.keys p).2.1

/-- **A request that is given up has a result for each device**, the one it had, else that the
device has timed out. -/
theorem get?_giveUp (p : PendingSync) (device : String) :
    p.giveUp.results.get? device
      = if p.devices.contains device = true then
          some ((p.results.get? device).getD (.error .timedOut))
        else p.results.get? device := by
  rw [giveUp, (foldl_record (.error .timedOut) p.devices.keys p).2.2 device]
  simp only [Table.mem_keys_iff, and_self]

/-- The devices with a result after a report. -/
theorem contains_record (p : PendingSync) (device : String) (result : SyncResult) (other : String) :
    (p.record device result).results.contains other = true
      ↔ (other = device ∧ p.devices.contains other = true) ∨ p.results.contains other = true := by
  rw [Table.contains, get?_record]
  split
  · rename_i hother
    exact ⟨fun _ => Or.inl hother, fun _ => rfl⟩
  · rename_i hother
    exact ⟨Or.inr, fun h => h.resolve_left hother⟩

/-! ## Waiting -/

/-- A request that waits: it has results only of its devices, and one of these has none. -/
structure Waits (p : PendingSync) : Prop where
  known : ∀ device, p.results.contains device = true → p.devices.contains device = true
  missing : ∃ device, p.devices.contains device = true ∧ p.results.contains device = false

theorem known_record {p : PendingSync}
    (h : ∀ device, p.results.contains device = true → p.devices.contains device = true)
    (device : String) (result : SyncResult) (other : String)
    (hgot : (p.record device result).results.contains other = true) :
    (p.record device result).devices.contains other = true := by
  rw [devices_record]
  obtain ⟨-, hdevice⟩ | hgot := (contains_record p device result other).mp hgot
  · exact hdevice
  · exact h other hgot

/-- Where all results are of devices of the request, equal counts mean that each device has one. -/
theorem isComplete_iff {p : PendingSync}
    (h : ∀ device, p.results.contains device = true → p.devices.contains device = true) :
    p.isComplete = true
      ↔ ∀ device, p.devices.contains device = true → p.results.contains device = true := by
  rw [isComplete, beq_iff_eq]
  exact Table.size_eq_iff h

/-- **The report that completes a request that waits** is the first of a device of the request, and
the others have reported. -/
theorem isComplete_record_iff {p : PendingSync} (h : p.Waits) (device : String)
    (result : SyncResult) :
    (p.record device result).isComplete = true
      ↔ p.devices.contains device = true ∧ p.results.contains device = false
        ∧ ∀ other, p.devices.contains other = true →
          other = device ∨ p.results.contains other = true := by
  rw [isComplete_iff (known_record h.known device result), devices_record]
  simp only [contains_record]
  constructor
  · intro hall
    -- the device that is missing can only be the one that reports
    obtain ⟨last, hlast, hnone⟩ := h.missing
    obtain ⟨rfl, -⟩ | hgot := hall last hlast
    · exact ⟨hlast, hnone, fun other hother => (hall other hother).imp_left And.left⟩
    · rw [hnone] at hgot
      cases hgot
  · rintro ⟨-, -, hothers⟩ other hother
    exact (hothers other hother).imp_left fun heq => ⟨heq, hother⟩

/-- A request goes on waiting after a report that does not complete it. -/
theorem Waits.record {p : PendingSync} (h : p.Waits) {device : String} {result : SyncResult}
    (hopen : (p.record device result).isComplete = false) : (p.record device result).Waits := by
  have hknown := known_record h.known device result
  refine ⟨hknown, ?_⟩
  rw [← Bool.not_eq_true, isComplete_iff hknown] at hopen
  push Not at hopen
  obtain ⟨missing, hmissing, hnone⟩ := hopen
  exact ⟨missing, hmissing, by simpa using hnone⟩

end PeerStore.PendingSync
