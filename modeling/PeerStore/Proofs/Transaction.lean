import Mathlib.Data.List.Basic
import Mathlib.Data.List.Induction
import PeerStore.Proofs.UndoLog

/-!
# Histories of a transaction slot

The calls made of a transaction slot, each with its answer, are its history. It tells by itself
whether a transaction is running, and since when (`Transaction.Open`): a call has started it, and
none has ended it. The undo log of a running transaction lists the first touch of each key since
then (`UndoLog.firstTouches`, **`Transaction.after_eq`**).
-/

set_option autoImplicit false

namespace PeerStore

/-! ## First touches -/

namespace UndoLog

/-- For each key of some touches the first touch of it, in the order of these. -/
def firstTouches (touches : List (Blob × Option Record)) : UndoLog :=
  (touches.map (·.1)).eraseDups.filterMap fun key => touches.find? (·.1 == key)

variable {touches : List (Blob × Option Record)}

/-- A touched key has a first touch, whatever comes after. -/
theorem find?_append_of_mem {key : Blob} (h : key ∈ touches.map (·.1))
    (more : List (Blob × Option Record)) :
    (touches ++ more).find? (·.1 == key) = touches.find? (·.1 == key) := by
  obtain ⟨touch, htouch, hkey⟩ := List.mem_map.mp h
  have hfound : (touches.find? (·.1 == key)).isSome = true :=
    List.find?_isSome.mpr ⟨touch, htouch, by simpa using hkey⟩
  rw [List.find?_append, Option.or_of_isSome hfound]

/-- First touches are of the touched keys, each once, in the order in which they first occur. -/
theorem map_fst_firstTouches (touches : List (Blob × Option Record)) :
    (firstTouches touches).map (·.1) = (touches.map (·.1)).eraseDups := by
  have hkey : ∀ key ∈ (touches.map (·.1)).eraseDups,
      (touches.find? (·.1 == key)).map (·.1) = some key := by
    intro key hmem
    obtain ⟨touch, htouch, hfst⟩ := List.mem_map.mp (List.mem_eraseDups.mp hmem)
    have hsome : (touches.find? (·.1 == key)).isSome = true :=
      List.find?_isSome.mpr ⟨touch, htouch, by simpa using hfst⟩
    obtain ⟨first, hfirst⟩ := Option.isSome_iff_exists.mp hsome
    have heq : first.1 = key := by simpa using List.find?_some hfirst
    rw [hfirst, Option.map_some, heq]
  rw [firstTouches, List.map_filterMap, List.filterMap_congr hkey, List.filterMap_some]

/-- The touch of a key that has been touched before is not a first one. -/
theorem firstTouches_concat_of_mem {key : Blob} (h : key ∈ touches.map (·.1))
    (prior : Option Record) : firstTouches (touches ++ [(key, prior)]) = firstTouches touches := by
  have hkeys : ((touches ++ [(key, prior)]).map (·.1)).eraseDups
      = (touches.map (·.1)).eraseDups := by
    rw [List.map_append, List.eraseDups_append]
    simp [List.removeAll, h]
  rw [firstTouches, hkeys, firstTouches]
  refine List.filterMap_congr fun other hother => ?_
  exact find?_append_of_mem (List.mem_eraseDups.mp hother) _

/-- The touch of a key that has not been touched before is the last of the first touches. -/
theorem firstTouches_concat_of_notMem {key : Blob} (h : key ∉ touches.map (·.1))
    (prior : Option Record) :
    firstTouches (touches ++ [(key, prior)]) = firstTouches touches ++ [(key, prior)] := by
  have hkeys : ((touches ++ [(key, prior)]).map (·.1)).eraseDups
      = (touches.map (·.1)).eraseDups ++ [key] := by
    rw [List.map_append, List.eraseDups_append]
    simp [List.removeAll, h, List.eraseDups_cons]
  have hnew : (touches ++ [(key, prior)]).find? (·.1 == key) = some (key, prior) := by
    have hnone : touches.find? (·.1 == key) = none := by
      refine List.find?_eq_none.mpr fun touch htouch hfst => ?_
      exact h (List.mem_map.mpr ⟨touch, htouch, by simpa using hfst⟩)
    rw [List.find?_append, hnone, Option.none_or]
    simp
  rw [firstTouches, hkeys, List.filterMap_append, firstTouches]
  congr 1
  · refine List.filterMap_congr fun other hother => ?_
    exact find?_append_of_mem (List.mem_eraseDups.mp hother) _
  · rw [List.filterMap_cons, hnew]
    rfl

end UndoLog

namespace Transaction

/-! ## Calls -/

/-- A call of a transaction slot. -/
inductive Call where
  | start
  | touch (key : Blob) (prior : Option Record)
  | undoLog
  | commit
  | rollback
  deriving DecidableEq

/-- What a call that succeeds answers. -/
inductive Reply where
  | number (id : Nat)
  | recorded (first : Bool)
  | log (log : UndoLog)
  | done
  deriving DecidableEq

/-- The answer to a call, and the slot after it. -/
def perform (t : Transaction) : Call → Except TransactionError Reply × Transaction
  | .start =>
      match t.start with
      | .ok t' => (.ok (.number t'.id), t')
      | .error e => (.error e, t)
  | .touch key prior => (.ok (.recorded (t.touch key prior).1), (t.touch key prior).2)
  | .undoLog => (t.undoLog.map .log, t)
  | .commit =>
      match t.commit with
      | .ok t' => (.ok .done, t')
      | .error e => (.error e, t)
  | .rollback =>
      match t.rollback with
      | .ok t' => (.ok .done, t')
      | .error e => (.error e, t)

/-- A call with its answer. -/
structure Exchange where
  call : Call
  answer : Except TransactionError Reply

namespace Exchange

/-- Whether a call has started a transaction. -/
def begins (x : Exchange) : Bool := x.call = .start && x.answer.isOk

/-- Whether a call has ended a transaction. -/
def ends (x : Exchange) : Bool := (x.call = .commit || x.call = .rollback) && x.answer.isOk

/-- The key that a call touches, with the record given. -/
def touch? (x : Exchange) : Option (Blob × Option Record) :=
  match x.call with
  | .touch key prior => some (key, prior)
  | _ => none

end Exchange

/-- The slot after calls, one after the other. -/
def after (t : Transaction) (calls : List Call) : Transaction :=
  calls.foldl (fun t call => (t.perform call).2) t

/-- The calls with their answers. -/
def history (t : Transaction) : List Call → List Exchange
  | [] => []
  | call :: calls => ⟨call, (t.perform call).1⟩ :: history (t.perform call).2 calls

theorem history_append (t : Transaction) (calls more : List Call) :
    t.history (calls ++ more) = t.history calls ++ (t.after calls).history more := by
  induction calls generalizing t with
  | nil => rfl
  | cons c calls ih => exact congrArg (_ :: ·) (ih (t.perform c).2)

theorem history_concat (t : Transaction) (calls : List Call) (call : Call) :
    t.history (calls ++ [call])
      = t.history calls ++ [⟨call, ((t.after calls).perform call).1⟩] :=
  history_append t calls [call]

/-! ## What a history tells -/

/-- Whether a history stops inside a transaction: a call has started one, and among those `since`
none has ended it or started another. -/
def Open (history since : List Exchange) : Prop :=
  ∃ before x, history = before ++ x :: since ∧ x.begins = true
    ∧ ∀ y ∈ since, y.begins = false ∧ y.ends = false

/-- What an exchange makes of the touches of the running transaction. -/
def Exchange.next (touches? : Option (List (Blob × Option Record))) (x : Exchange) :
    Option (List (Blob × Option Record)) :=
  if x.begins then some []
  else if x.ends then none
  else touches?.map (· ++ x.touch?.toList)

/-- The touches of the transaction inside of which a history stops. -/
def openTouches (history : List Exchange) : Option (List (Blob × Option Record)) :=
  history.foldl Exchange.next none

theorem openTouches_concat (history : List Exchange) (x : Exchange) :
    openTouches (history ++ [x]) = x.next (openTouches history) :=
  List.foldl_concat ..

theorem Open.openTouches_eq {history since : List Exchange} (h : Open history since) :
    openTouches history = some (since.filterMap Exchange.touch?) := by
  obtain ⟨before, x, rfl, hbegins, hsince⟩ := h
  induction since using List.reverseRecOn with
  | nil => rw [openTouches_concat, Exchange.next, if_pos hbegins, List.filterMap_nil]
  | append_singleton since y ih =>
      obtain ⟨hy, hy'⟩ := hsince y (by simp)
      have ih := ih fun z hz => hsince z (List.mem_append_left _ hz)
      rw [← List.cons_append, ← List.append_assoc, openTouches_concat, ih, Exchange.next, hy, hy',
        List.filterMap_append]
      cases htouch : y.touch? <;> simp [htouch]

theorem exists_open_of_openTouches {history : List Exchange}
    (h : (openTouches history).isSome = true) : ∃ since, Open history since := by
  induction history using List.reverseRecOn with
  | nil => exact absurd h Bool.false_ne_true
  | append_singleton history x ih =>
      rw [openTouches_concat, Exchange.next] at h
      by_cases hbegins : x.begins = true
      · exact ⟨[], history, x, rfl, hbegins, fun y hy => absurd hy List.not_mem_nil⟩
      by_cases hends : x.ends = true
      · rw [if_neg hbegins, if_pos hends] at h
        exact absurd h Bool.false_ne_true
      -- the transaction that was running goes on
      rw [if_neg hbegins, if_neg hends, Option.isSome_map] at h
      obtain ⟨since, before, y, rfl, hy, hsince⟩ := ih h
      refine ⟨since ++ [x], before, y, by simp, hy, fun z hz => ?_⟩
      rcases List.mem_append.mp hz with hz | hz
      · exact hsince z hz
      · obtain rfl := List.mem_singleton.mp hz
        exact ⟨Bool.eq_false_iff.mpr hbegins, Bool.eq_false_iff.mpr hends⟩

theorem isSome_openTouches_iff {history : List Exchange} :
    (openTouches history).isSome = true ↔ ∃ since, Open history since := by
  constructor
  · exact exists_open_of_openTouches
  · rintro ⟨since, h⟩
    rw [h.openTouches_eq]
    rfl

/-! ## Slots and their histories -/

/-- Whether a slot is as its history tells. -/
structure Follows (t : Transaction) (history : List Exchange) : Prop where
  isActive_eq : t.isActive = (openTouches history).isSome
  log_eq : ∀ touches, openTouches history = some touches → t.log = UndoLog.firstTouches touches
  id_eq : t.id = history.countP Exchange.begins

variable {t : Transaction} {hist : List Exchange} {x : Exchange}

theorem Follows.of_open {touches : List (Blob × Option Record)}
    (hopen : openTouches hist = some touches) (hactive : t.isActive = true)
    (hlog : t.log = UndoLog.firstTouches touches) (hid : t.id = hist.countP Exchange.begins) :
    Follows t hist where
  isActive_eq := by
    rw [hopen, hactive]
    rfl
  log_eq touches' hopen' := by
    obtain rfl : touches = touches' := Option.some.inj (hopen.symm.trans hopen')
    exact hlog
  id_eq := hid

theorem Follows.of_idle (hidle : openTouches hist = none) (hactive : t.isActive = false)
    (hid : t.id = hist.countP Exchange.begins) : Follows t hist where
  isActive_eq := by
    rw [hidle, hactive]
    rfl
  log_eq touches hopen := by
    rw [hidle] at hopen
    cases hopen
  id_eq := hid

theorem Follows.isActive_of_open (h : Follows t hist) {touches : List (Blob × Option Record)}
    (hopen : openTouches hist = some touches) : t.isActive = true := by
  rw [h.isActive_eq, hopen]
  rfl

theorem Follows.isActive_of_idle (h : Follows t hist) (hidle : openTouches hist = none) :
    t.isActive = false := by
  rw [h.isActive_eq, hidle]
  rfl

/-- An exchange that starts no transaction does not count. -/
theorem Follows.id_concat (h : Follows t hist) (hbegins : x.begins = false) :
    t.id = (hist ++ [x]).countP Exchange.begins := by
  rw [List.countP_append, ← h.id_eq]
  simp [hbegins]

/-- An exchange that neither starts nor ends a transaction, nor touches a key, tells nothing new. -/
theorem Follows.idle (h : Follows t hist) (hbegins : x.begins = false) (hends : x.ends = false)
    (htouch : x.touch? = none) : Follows t (hist ++ [x]) := by
  have hsame : openTouches (hist ++ [x]) = openTouches hist := by
    rw [openTouches_concat, Exchange.next, hbegins, hends, htouch]
    simp
  refine ⟨?_, ?_, h.id_concat hbegins⟩
  · rw [hsame, h.isActive_eq]
  · rw [hsame]
    exact h.log_eq

/-- A transaction that has been started has touched nothing. -/
theorem Follows.begun (h : Follows t hist) (hbegins : x.begins = true) :
    Follows { phase := .active, id := t.id + 1, log := [] } (hist ++ [x]) := by
  have hopen : openTouches (hist ++ [x]) = some [] := by
    rw [openTouches_concat, Exchange.next, if_pos hbegins]
  refine .of_open hopen rfl rfl ?_
  rw [List.countP_append, ← h.id_eq]
  simp [hbegins]

/-- Nothing is left of a transaction that has been ended. -/
theorem Follows.ended (h : Follows t hist) (hbegins : x.begins = false) (hends : x.ends = true)
    {phase : Phase} (hphase : phase ≠ .active) :
    Follows { t with phase, log := [] } (hist ++ [x]) := by
  have hidle : openTouches (hist ++ [x]) = none := by
    rw [openTouches_concat, Exchange.next, hbegins, if_neg Bool.false_ne_true, if_pos hends]
  exact .of_idle hidle (beq_eq_false_iff_ne.mpr hphase) (h.id_concat hbegins)

/-- **A touch is recorded if it is the first of its key in a running transaction.** -/
theorem Follows.touched (h : Follows t hist) {key : Blob} {prior : Option Record}
    (hbegins : x.begins = false) (hends : x.ends = false) (htouch : x.touch? = some (key, prior)) :
    Follows (t.touch key prior).2 (hist ++ [x]) := by
  have hnext : openTouches (hist ++ [x]) = (openTouches hist).map (· ++ [(key, prior)]) := by
    rw [openTouches_concat, Exchange.next, hbegins, hends, htouch]
    rfl
  have hid := h.id_concat hbegins
  cases hopen : openTouches hist with
  | none =>
      -- outside a transaction neither the slot changes nor what the history tells
      have hactive : t.isActive = false := h.isActive_of_idle hopen
      rw [hopen, Option.map_none] at hnext
      rw [touch_of_idle prior hactive]
      exact .of_idle hnext hactive hid
  | some touches =>
      have hactive : t.isActive = true := h.isActive_of_open hopen
      have hlog : t.log = UndoLog.firstTouches touches := h.log_eq touches hopen
      have hnoted : t.log.notes key = true ↔ key ∈ touches.map (·.1) := by
        rw [UndoLog.notes_iff, hlog, UndoLog.map_fst_firstTouches, List.mem_eraseDups]
      rw [hopen, Option.map_some] at hnext
      by_cases hkey : key ∈ touches.map (·.1)
      · rw [touch_of_noted prior (hnoted.mpr hkey)]
        refine .of_open hnext hactive ?_ hid
        rw [hlog, UndoLog.firstTouches_concat_of_mem hkey]
      · rw [touch_of_new prior hactive (Bool.eq_false_iff.mpr (mt hnoted.mp hkey))]
        refine .of_open hnext hactive ?_ hid
        rw [UndoLog.firstTouches_concat_of_notMem hkey, ← hlog]

/-! ## One call -/

theorem perform_start (t : Transaction) :
    t.perform .start = if t.isActive then (.error (.active t.id), t)
      else (.ok (.number (t.id + 1)), { phase := .active, id := t.id + 1, log := [] }) := by
  cases hactive : t.isActive <;> simp [perform, start, hactive]

theorem perform_undoLog (t : Transaction) :
    t.perform .undoLog
      = if t.isActive then (.ok (.log t.log), t) else (.error (.notActive t.phase), t) := by
  cases hactive : t.isActive <;> simp [perform, undoLog, hactive, Except.map]

theorem perform_commit (t : Transaction) :
    t.perform .commit = if t.isActive then (.ok .done, { t with phase := .committed, log := [] })
      else (.error (.notActive t.phase), t) := by
  cases hactive : t.isActive <;> simp [perform, commit, finish, hactive]

theorem perform_rollback (t : Transaction) :
    t.perform .rollback = if t.isActive then (.ok .done, { t with phase := .rolledBack, log := [] })
      else (.error (.notActive t.phase), t) := by
  cases hactive : t.isActive <;> simp [perform, rollback, finish, hactive]

/-- **A slot goes on to be as its history tells.** -/
theorem Follows.perform (h : Follows t hist) (call : Call) :
    Follows (t.perform call).2 (hist ++ [⟨call, (t.perform call).1⟩]) := by
  cases call with
  | start =>
      rw [perform_start]
      split
      · exact h.idle rfl rfl rfl
      · exact h.begun rfl
  | touch key prior => exact h.touched rfl rfl rfl
  | undoLog =>
      rw [perform_undoLog]
      split <;> exact h.idle rfl rfl rfl
  | commit =>
      rw [perform_commit]
      split
      · exact h.ended rfl rfl (by decide)
      · exact h.idle rfl rfl rfl
  | rollback =>
      rw [perform_rollback]
      split
      · exact h.ended rfl rfl (by decide)
      · exact h.idle rfl rfl rfl

theorem follows_after (calls : List Call) : Follows (after {} calls) (history {} calls) := by
  induction calls using List.reverseRecOn with
  | nil => exact .of_idle rfl rfl rfl
  | append_singleton calls call ih =>
      rw [history_concat, after, List.foldl_concat]
      exact ih.perform call

/-- **A slot is what its history tells.** A transaction is running exactly if a call has started one
and none has ended it since, and its number is how many have been started. While one is running its
log has the first touch of each key that was touched since, in the order of these. -/
theorem after_eq (calls : List Call) :
    let t := after {} calls
    let hist := history {} calls
    (t.isActive = true ↔ ∃ since, Open hist since)
      ∧ t.id = hist.countP Exchange.begins
      ∧ ∀ since, Open hist since →
          t.isActive = true
            ∧ t.log = UndoLog.firstTouches (since.filterMap Exchange.touch?) := by
  intro t hist
  have hfollows : Follows t hist := follows_after calls
  refine ⟨?_, hfollows.id_eq, fun since hopen => ?_⟩
  · rw [hfollows.isActive_eq]
    exact isSome_openTouches_iff
  · have htouches : openTouches hist = some (since.filterMap Exchange.touch?) :=
      hopen.openTouches_eq
    exact ⟨hfollows.isActive_of_open htouches, hfollows.log_eq _ htouches⟩

end Transaction

end PeerStore
