import PeerStore.Proofs.Manager.Run

/-!
# Handles that a manager gives

A manager gives the handle that its table has, whether it is open or not. So a handle that it gives
is open if and only if nobody has closed it by itself (**`getStore_isOpen_iff`**): closing by name
takes the handle from the table, closing by itself does not.
-/

set_option autoImplicit false

namespace PeerStore.Manager

variable {m m' : Manager} {app id : String} {options : Options} {n : Nat}

/-- A handle that is given is in the table. -/
theorem opened_of_getStore (hok : m.getStore app id options = (.ok n, m')) :
    m'.opened.get? (app, id) = some n := by
  unfold getStore at hok
  split at hok
  · cases hok
  · cases hok
  · split at hok
    · rename_i hopened
      cases hok
      exact hopened
    · unfold openNew at hok
      split at hok
      · cases hok
      · split at hok
        · cases hok
        · cases hok
          exact Table.get?_insert_self _ _ _

/-- **A manager gives an open handle exactly if nobody has closed it by itself.** Whatever happened
to a new manager, a store that it then gives is the one with the name, and it is open if and only if
no event of the run closed its handle by itself. Where it is open, no operation fails for a store
that is closed, unless the transport refuses a sync with that failure; where it is not, a valid entry
is refused for just that. -/
theorem getStore_isOpen_iff (hnew : m.IsNew) (events : List Event)
    (hget : (m.run events).getStore app id options = (.ok n, m')) :
    ∃ s, m'.session? n = some s ∧ s.profile.app = app ∧ s.profile.id = id
      ∧ (s.isOpen = true ↔ n ∉ m.closedDirectly events)
      ∧ (n ∉ m.closedDirectly events → ∀ now op e, (s.perform now op).1 = .error e →
          e.isNotOpen = true →
          ∃ link request, s.link = some link ∧ (link.transport request).outcome = .error e)
      ∧ (n ∈ m.closedDirectly events → ∀ now key value, s.checkEntry ⟨key, value⟩ = .ok () →
          s.perform now (.put key value) = (.error (.storeNotOpen id), s)) := by
  have hrun := (hnew.consistent.run events).getStore app id options
  rw [hget, List.nil_append] at hrun
  have hopened := opened_of_getStore hget
  obtain ⟨o, ho, hname⟩ := hrun.opened _ _ hopened
  obtain ⟨s, hs, hprofile, hopen⟩ := hrun.host.exists_session ho
  obtain ⟨happ, hid⟩ := Prod.mk.inj hname
  rw [← hprofile] at happ hid
  have hiff : s.isOpen = true ↔ n ∉ m.closedDirectly events := by
    rw [hopen, hrun.isOpen_iff n o ho, hname]
    exact and_iff_right hopened
  refine ⟨s, hs, happ, hid, hiff, fun hnot now op e => ?_, fun hmem now key value hvalid => ?_⟩
  · exact Session.error_of_open (hiff.mpr hnot)
  · have hclosed : s.isOpen = false :=
      Bool.eq_false_iff.mpr fun hopen => hiff.mp hopen hmem
    rw [← hid]
    exact Session.put_of_closed hclosed hvalid now

/-- A store that was closed by name and is opened again, next to one whose handle was closed by
itself. -/
theorem getStore_isOpen_iff_of_reopened :
    let m : Manager :=
      { directory := { self := "self" }, crashes := fun _ _ => false, config := {} }
    let events : List Event :=
      [.getStore "app" "store" .inMemory, .getStore "app" "other" .inMemory,
        .host (.perform 1 1 (.put [107] [118])), .host (.close 2), .closeStore "app" "store"]
    m.closedDirectly events = [2] ∧
      ∃ m' s, (m.run events).getStore "app" "store" .inMemory = (.ok 3, m')
        ∧ m'.session? 3 = some s ∧ s.isOpen = true := by
  intro m events
  have hnew : m.IsNew := ⟨rfl, rfl, rfl, rfl⟩
  have hclosed : m.closedDirectly events = [2] := by decide +kernel
  have hgiven : ((m.run events).getStore "app" "store" .inMemory).1 = .ok 3 := by decide +kernel
  have hget : (m.run events).getStore "app" "store" .inMemory
      = (.ok 3, ((m.run events).getStore "app" "store" .inMemory).2) := Prod.ext hgiven rfl
  obtain ⟨s, hs, -, -, hiff, -⟩ := getStore_isOpen_iff hnew events hget
  have hnot : 3 ∉ m.closedDirectly events := by
    rw [hclosed]
    decide
  exact ⟨hclosed, _, s, hget, hs, hiff.mpr hnot⟩

/-- A handle that was closed by itself is given again, and refuses a valid entry. -/
theorem getStore_gives_closed_handle :
    let m : Manager :=
      { directory := { self := "self" }, crashes := fun _ _ => false, config := {} }
    let events : List Event := [.getStore "app" "store" .inMemory, .host (.close 1)]
    m.IsNew ∧
      ∃ m' s, (m.run events).getStore "app" "store" .inMemory = (.ok 1, m')
        ∧ m'.session? 1 = some s ∧ s.isOpen = false
        ∧ s.checkEntry ⟨[107], [118]⟩ = .ok ()
        ∧ s.perform 1 (.put [107] [118]) = (.error (.storeNotOpen "store"), s) := by
  intro m events
  have hnew : m.IsNew := ⟨rfl, rfl, rfl, rfl⟩
  have hgiven : ((m.run events).getStore "app" "store" .inMemory).1 = .ok 1 := by decide +kernel
  have houtline : ((m.run events).getStore "app" "store" .inMemory).2.outline? 1
      = some ⟨⟨"app", "store", .inMemory, {}, "self"⟩, 1, false⟩ := by decide +kernel
  have hsound := ((hnew.consistent.run events).getStore "app" "store" .inMemory).host
  obtain ⟨s, hs, hprofile, hclosed⟩ := hsound.exists_session houtline
  have hvalid : s.checkEntry ⟨[107], [118]⟩ = .ok () := by
    unfold Session.checkEntry Session.checkKey Session.checkValue Session.space
    rw [hprofile]
    decide
  have hget : (m.run events).getStore "app" "store" .inMemory
      = (.ok 1, ((m.run events).getStore "app" "store" .inMemory).2) := Prod.ext hgiven rfl
  have hput := Session.put_of_closed hclosed hvalid 1
  rw [hprofile] at hput
  exact ⟨hnew, _, s, hget, hs, hclosed, hvalid, hput⟩

end PeerStore.Manager
