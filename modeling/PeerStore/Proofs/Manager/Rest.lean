import Mathlib.Data.List.Induction
import PeerStore.Proofs.Manager.Apart

/-!
# Backends at rest

A backend is at rest while every handle over it is closed. Then no event changes its tables, not
even one that opens a new handle over it (**`Assigned.tables?_handle`**). Handles are open when they
come, so one that is closed was closed by some event of the run (**`exists_shuts`**). Where it is
still the last one of its name, its backend has been at rest since, and has the tables that it had
then (**`Assigned.tables?_run`**).
-/

set_option autoImplicit false

namespace PeerStore.Manager

variable {m m' : Manager} {name : StoreName} {b n : Nat} {o : Outline}

/-- Whether every handle over a backend is closed. -/
def AtRest (m : Manager) (b : Nat) : Prop :=
  ∀ n o, m.outline? n = some o → o.backendId = b → o.isOpen = false

/-! ## Tables at rest -/

/-- Moves that open stores leave the tables of every backend that there is. -/
theorem tables?_opens (hb : m.backends.contains b = true) (hsound : m.toHost.Sound)
    (hmove : Opens name m m') : m'.tables? b = m.tables? b := by
  cases hmove with
  | backed => exact Host.tables?_addBackend (hsound.lt_nextBackend b hb)
  | @opened _ _ _ host _ _ _ _ _ hok =>
      obtain ⟨-, -, -, hbackends, -⟩ := Host.openStore_eq_ok hok
      show (host.backends.get? b).map Backend.toTables = _
      rw [hbackends]
      rfl

theorem contains_opens (hb : m.backends.contains b = true) (hmove : Opens name m m') :
    m'.backends.contains b = true := by
  cases hmove with
  | backed =>
      show m.toHost.addBackend.2.backends.contains b = true
      rw [Host.contains_addBackend, hb, Bool.or_true]
  | @opened _ _ _ host _ _ _ _ _ hok =>
      obtain ⟨-, -, -, hbackends, -⟩ := Host.openStore_eq_ok hok
      show host.backends.contains b = true
      rw [hbackends]
      exact hb

/-- Moves that end stores leave a backend at rest as it is. -/
theorem atRest_ends (h : m.Assigned) (hrest : m.AtRest b) (hmove : Ends name m m') :
    m'.AtRest b ∧ m'.tables? b = m.tables? b := by
  cases hmove with
  | @closed n =>
      refine ⟨fun k o' ho' hover => ?_, Host.tables?_handle hrest (.close n)⟩
      have ho' : (m.toHost.closeStore n).outline? k = some o' := ho'
      rw [(Host.closes_closeStore h.sound n).outline?] at ho'
      obtain ⟨o, ho, rfl⟩ := Option.map_eq_some_iff.mp ho'
      split at hover
      · rename_i hk
        rw [if_pos hk]
        rfl
      · rename_i hk
        rw [if_neg hk]
        exact hrest k o ho hover
  | forgot => exact ⟨hrest, rfl⟩

/-- **No event changes the tables of a backend at rest.** -/
theorem Assigned.tables?_handle (h : m.Assigned) (hb : m.backends.contains b = true)
    (hrest : m.AtRest b) (e : Event) : (m.handle e).tables? b = m.tables? b := by
  rcases h.moves e with hchain | hchain | ⟨e', rfl⟩
  · refine (hchain.keeps (P := fun m' =>
      m'.Assigned ∧ m'.backends.contains b = true ∧ m'.tables? b = m.tables? b)
      (fun _ _ _ _ hm hmove => ?_) ⟨h, hb, rfl⟩).2.2
    obtain ⟨h', hb', htables⟩ := hm
    exact ⟨h'.opens hmove, contains_opens hb' hmove,
      (tables?_opens hb' h'.sound hmove).trans htables⟩
  · refine (hchain.keeps (P := fun m' =>
      m'.Assigned ∧ m'.AtRest b ∧ m'.tables? b = m.tables? b)
      (fun _ _ _ _ hm hmove => ?_) ⟨h, hrest, rfl⟩).2.2
    obtain ⟨h', hrest', htables⟩ := hm
    obtain ⟨hrest'', hsame⟩ := atRest_ends h' hrest' hmove
    exact ⟨h'.ends hmove, hrest'', hsame.trans htables⟩
  · exact Host.tables?_handle hrest e'

/-! ## Closed by an event -/

/-- Whether an event closes a handle that was open. -/
def Shuts (n : Nat) (m : Manager) (e : Event) : Prop :=
  (∃ o, m.outline? n = some o ∧ o.isOpen = true)
    ∧ ∃ o, (m.handle e).outline? n = some o ∧ o.isOpen = false

/-- A handle is open when it comes. -/
theorem Assigned.isOpen_of_new (h : m.Assigned) {e : Event} (hnone : m.outline? n = none)
    (ho : (m.handle e).outline? n = some o) : o.isOpen = true := by
  rcases h.moves e with hchain | hchain | ⟨e', rfl⟩
  · refine hchain.keeps (P := fun m' => ∀ o, m'.outline? n = some o → o.isOpen = true)
      (fun _ m₁ m₂ _ hm hmove o ho => ?_) (fun o ho => ?_) o ho
    · cases hmove with
      | backed => exact hm o ho
      | @opened _ _ _ host _ _ _ _ _ hok =>
          obtain ⟨-, -, -, -, houtline⟩ := Host.openStore_eq_ok hok
          have ho : host.outline? n = some o := ho
          rw [houtline] at ho
          split at ho
          · cases ho
            rfl
          · exact hm o ho
    · rw [hnone] at ho
      cases ho
  · -- ending a store brings no handle
    have hnone' : (m.handle e).outline? n = none := by
      refine (hchain.keeps (P := fun m' => m'.Assigned ∧ m'.outline? n = none)
        (fun _ _ _ _ hm hmove => ⟨hm.1.ends hmove, ?_⟩) ⟨h, hnone⟩).2
      cases hmove with
      | @closed k =>
          refine ((Host.closes_closeStore hm.1.sound k).outline? n).trans ?_
          rw [hm.2]
          rfl
      | forgot => exact hm.2
    rw [hnone'] at ho
    cases ho
  · have ho : (m.toHost.handle e').outline? n = some o := ho
    rw [(Host.closes_handle h.sound e').outline?, hnone] at ho
    cases ho

/-- **A handle that is closed was closed by an event.** -/
theorem exists_shuts (hnew : m.IsNew) (events : List Event)
    (ho : (m.run events).outline? n = some o) (hclosed : o.isOpen = false) :
    ∃ before e after, events = before ++ e :: after ∧ Shuts n (m.run before) e := by
  induction events using List.reverseRecOn generalizing o with
  | nil =>
      rw [show (m.run []).outline? n = none from hnew.outline? n] at ho
      cases ho
  | append_singleton events e ih =>
      have h : (m.run events).Assigned := hnew.assigned.run events
      rw [run_concat] at ho
      cases hold : (m.run events).outline? n with
      | none =>
          rw [h.isOpen_of_new hold ho] at hclosed
          cases hclosed
      | some p =>
          cases hopen : p.isOpen with
          | true => exact ⟨events, e, [], rfl, ⟨p, hold, hopen⟩, o, ho, hclosed⟩
          | false =>
              -- it was closed before
              obtain ⟨before, e', after, rfl, hshuts⟩ := ih hold hopen
              exact ⟨before, e', after ++ [e], by simp, hshuts⟩

/-! ## The last handle of a name -/

/-- Whether a handle is the last one that was opened with a name. -/
def IsLast (m : Manager) (name : StoreName) (n : Nat) : Prop :=
  (∃ o, m.outline? n = some o ∧ o.name = name)
    ∧ ∀ k o, m.outline? k = some o → o.name = name → k ≤ n

/-- Handles keep their names. -/
theorem Ages.exists_name (hages : Ages m m') (ho : m.outline? n = some o) :
    ∃ o', m'.outline? n = some o' ∧ o'.name = o.name := by
  rcases hages n o ho with ho' | ho'
  · exact ⟨o, ho', rfl⟩
  · exact ⟨o.closed, ho', rfl⟩

/-- Where the last handle of a name is closed, no handle of the name is open. -/
theorem Assigned.isOpen_of_last (h : m.Assigned) {events : List Event}
    (hlast : (m.run events).IsLast name n) (ho : m.outline? n = some o) (hname : o.name = name)
    (hclosed : o.isOpen = false) {k : Nat} {p : Outline} (hp : m.outline? k = some p)
    (hpname : p.name = name) : p.isOpen = false := by
  refine Bool.eq_false_iff.mpr fun hopen => ?_
  -- an open handle is in the table, so it is the last one now, and it is there later
  have hle : n ≤ k := h.latest name k (hpname ▸ h.opened_of_isOpen hp hopen) n o ho hname
  obtain ⟨p', hp', hpname'⟩ := (h.ages_run events).exists_name hp
  have hge : k ≤ n := hlast.2 k p' hp' (hpname'.trans hpname)
  obtain rfl : n = k := Nat.le_antisymm hle hge
  obtain rfl : o = p := Option.some.inj (ho.symm.trans hp)
  rw [hclosed] at hopen
  cases hopen

/-- **While the last handle of a name is closed, the tables of its backend stay.** -/
theorem Assigned.tables?_run (h : m.Assigned) {events : List Event}
    (hlast : (m.run events).IsLast name n) (ho : m.outline? n = some o) (hname : o.name = name)
    (hclosed : o.isOpen = false) : (m.run events).tables? o.backendId = m.tables? o.backendId := by
  induction events generalizing m with
  | nil => rfl
  | cons e events ih =>
      have hlast' : (m.run (e :: events)).IsLast name n := hlast
      have hrest : m.AtRest o.backendId := fun k p hp hover => by
        refine h.isOpen_of_last hlast' ho hname hclosed hp ?_
        rw [← hname]
        exact h.unique o.backendId p.name o.name (.inr ⟨k, p, hp, rfl, hover⟩)
          (.inr ⟨n, o, ho, rfl, rfl⟩)
      have ho' := (h.ages e).outline?_of_closed ho hclosed
      refine (ih (h.handle e) hlast ho').trans ?_
      exact h.tables?_handle (h.sound.backed n o ho) hrest e

end PeerStore.Manager
