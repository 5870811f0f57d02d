import PeerStore.Manager
import PeerStore.Proofs.Host

/-!
# Runs of a manager

A run is a list of events: the calls of the manager, and whatever happens on its host. The handles
of a run are told apart by their numbers. That a handle is open is noted twice, in the handle and in
the table of the manager; the two agree, but for handles that were closed by themselves
(`Manager.Consistent`). Every event keeps to that, and so does every run (**`Consistent.run`**).
-/

set_option autoImplicit false

namespace PeerStore.Manager

/-- What can happen to a manager. -/
inductive Event where
  | getStore (app id : String) (options : Options)
  | closeStore (app id : String)
  | closeAll (app : String)
  | deleteStore (app id : String)
  | deleteAll (app : String)
  | host (e : Host.Event)

/-- The manager after an event. -/
def handle (m : Manager) : Event → Manager
  | .getStore app id options => (m.getStore app id options).2
  | .closeStore app id => (m.closeStore app id).2
  | .closeAll app => m.closeAll app
  | .deleteStore app id => (m.deleteStore app id).2
  | .deleteAll app => m.deleteAll app
  | .host e => { m with toHost := m.toHost.handle e }

/-- The manager after events, one after the other. -/
def run (m : Manager) (events : List Event) : Manager := events.foldl handle m

/-- The handles that an event closes by themselves. -/
def closes (m : Manager) : Event → List Nat
  | .host e => e.closing.filter fun n => (m.outline? n).isSome
  | _ => []

/-- The handles that are closed by themselves in the course of events. -/
def closedDirectly (m : Manager) : List Event → List Nat
  | [] => []
  | e :: es => m.closes e ++ (m.handle e).closedDirectly es

/-- Whether nothing has been opened yet. -/
structure IsNew (m : Manager) : Prop where
  stores : m.stores = Table.empty
  backends : m.backends = Table.empty
  opened : m.opened = Table.empty
  retained : m.retained = Table.empty

/-- Whether the tables of a manager agree with its host, where some handles were closed by
themselves. -/
structure Consistent (m : Manager) (closed : List Nat) : Prop where
  host : m.toHost.Sound
  opened : ∀ name n, m.opened.get? name = some n → ∃ o, m.outline? n = some o ∧ o.name = name
  /-- A handle is open exactly if the manager has it and it was not closed by itself. -/
  isOpen_iff : ∀ n o, m.outline? n = some o →
    (o.isOpen = true ↔ m.opened.get? o.name = some n ∧ n ∉ closed)
  retained : ∀ name b, m.retained.get? name = some b → m.backends.contains b = true
  lt_nextStore : ∀ n ∈ closed, n < m.nextStore

theorem IsNew.outline? {m : Manager} (hnew : m.IsNew) (n : Nat) : m.outline? n = none := by
  rw [Host.outline?, hnew.stores]
  rfl

theorem IsNew.consistent {m : Manager} (hnew : m.IsNew) : m.Consistent [] := by
  have houtline := hnew.outline?
  refine ⟨⟨fun n o ho => ?_, fun n o ho => ?_, fun b hb => ?_⟩, fun name n hn => ?_,
    fun n o ho => ?_, fun name b hb => ?_, by simp⟩
  · rw [houtline] at ho
    cases ho
  · rw [houtline] at ho
    cases ho
  · rw [hnew.backends] at hb
    cases hb
  · rw [hnew.opened] at hn
    cases hn
  · rw [houtline] at ho
    cases ho
  · rw [hnew.retained] at hb
    cases hb

namespace Consistent

variable {m m' : Manager} {closed : List Nat} {app id : String} {options : Options}

/-! ## The host -/

/-- Handles that are closed by themselves stay in the table. -/
theorem of_closes (h : m.Consistent closed) {closing : List Nat} {host : Host}
    (hcloses : Host.Closes closing m.toHost host) :
    ({ m with toHost := host } : Manager).Consistent
      (closed ++ closing.filter fun n => (m.outline? n).isSome) where
  host := hcloses.sound h.host
  opened name n hn := hcloses.exists_name (h.opened name n hn)
  isOpen_iff n o ho := by
    rw [hcloses.outline?] at ho
    obtain ⟨o', ho', rfl⟩ := Option.map_eq_some_iff.mp ho
    have hmem : n ∈ closing.filter (fun n => (m.outline? n).isSome) ↔ n ∈ closing := by
      simp [ho']
    rw [List.mem_append, hmem, not_or]
    split
    · rename_i hn
      exact iff_of_false Bool.false_ne_true fun ⟨_, _, hnot⟩ => hnot hn
    · rename_i hn
      rw [h.isOpen_iff n o' ho']
      simp [hn]
  retained name b hb := by
    rw [hcloses.contains]
    exact h.retained name b hb
  lt_nextStore n hn := by
    rw [hcloses.nextStore]
    rcases List.mem_append.mp hn with hn | hn
    · exact h.lt_nextStore n hn
    · obtain ⟨o, ho⟩ := Option.isSome_iff_exists.mp (List.mem_filter.mp hn).2
      exact h.host.lt_nextStore n o ho

/-! ## Opening -/

/-- A backend to open a store over is there, and the manager has the same stores as before. -/
theorem backendFor (h : m.Consistent closed) {b : Nat}
    (hok : m.backendFor app id options = .ok (b, m')) :
    m'.Consistent closed ∧ m'.opened = m.opened ∧ m'.backends.contains b = true := by
  unfold Manager.backendFor at hok
  split at hok
  · rename_i hretained
    cases hok
    exact ⟨h, rfl, h.retained _ _ hretained⟩
  · split at hok
    · cases hok
      have hcontains := m.toHost.contains_addBackend
      refine ⟨⟨h.host.addBackend, h.opened, h.isOpen_iff, fun name b hb => ?_, h.lt_nextStore⟩, rfl,
        ?_⟩
      · show m.toHost.addBackend.2.backends.contains b = true
        rw [hcontains]
        dsimp only at hb
        split at hb
        · rw [Table.get?_insert] at hb
          split at hb
          · cases hb
            simp
          · rw [h.retained name b hb, Bool.or_true]
        · rw [h.retained name b hb, Bool.or_true]
      · show m.toHost.addBackend.2.backends.contains _ = true
        rw [hcontains]
        simp
    · cases hok

/-- A store that is opened has a handle of its own, which is open and in the table. -/
theorem openStore (h : m.Consistent closed) {b n : Nat} {host : Host}
    (hbackend : m.backends.contains b = true) (hnone : m.opened.get? (app, id) = none)
    (hok : m.toHost.openStore app id options m.config b = .ok (n, host)) :
    ({ m with toHost := host, opened := m.opened.insert (app, id) n } : Manager).Consistent
      closed := by
  obtain ⟨hn, hstore, -, hbackends, houtline⟩ := Host.openStore_eq_ok hok
  -- the number of the new handle has never been given
  have hold {k : Nat} {o : Outline} (ho : m.outline? k = some o) : k ≠ n := by
    rw [hn]
    exact Nat.ne_of_lt (h.host.lt_nextStore k o ho)
  have hclosed : n ∉ closed := by
    intro hmem
    rw [hn] at hmem
    exact Nat.lt_irrefl _ (h.lt_nextStore _ hmem)
  refine ⟨h.host.openStore hbackend hok, fun name k hk => ?_, fun k o ho => ?_, fun name b hb => ?_,
    fun k hk => ?_⟩
  · show ∃ o, host.outline? k = some o ∧ o.name = name
    rw [houtline]
    rw [Table.get?_insert] at hk
    split at hk
    · rename_i hname
      cases hk
      rw [if_pos rfl]
      exact ⟨_, rfl, hname.symm⟩
    · obtain ⟨o, ho, hname⟩ := h.opened name k hk
      rw [if_neg (hold ho)]
      exact ⟨o, ho, hname⟩
  · have ho : host.outline? k = some o := ho
    rw [houtline] at ho
    rw [Table.get?_insert]
    split at ho
    · rename_i hk
      cases ho
      rw [hk]
      exact iff_of_true rfl ⟨if_pos rfl, hclosed⟩
    · rw [h.isOpen_iff k o ho]
      split
      · rename_i hname
        -- the table has had no handle of this name
        rw [hname, hnone]
        exact iff_of_false (by simp) (by simpa using fun hk => absurd hk.symm (hold ho))
      · rfl
  · show host.backends.contains b = true
    rw [hbackends]
    exact h.retained name b hb
  · show k < host.nextStore
    rw [hstore]
    exact Nat.lt_succ_of_lt (h.lt_nextStore k hk)

theorem getStore (h : m.Consistent closed) (app id : String) (options : Options) :
    (m.getStore app id options).2.Consistent closed := by
  unfold Manager.getStore
  split
  · exact h
  · exact h
  · split
    · exact h
    · rename_i hnone
      unfold openNew
      split
      · exact h
      · rename_i b m' hbackend
        obtain ⟨h', hopened, hcontains⟩ := h.backendFor hbackend
        split
        · exact h'
        · rename_i hok
          rw [← hopened] at hnone
          exact h'.openStore hcontains hnone hok

/-! ## Closing and deleting -/

theorem closeStore (h : m.Consistent closed) (app id : String) :
    (m.closeStore app id).2.Consistent closed := by
  unfold Manager.closeStore
  split
  · exact h
  · rename_i n hn
    have hcloses := Host.closes_closeStore h.host n
    obtain ⟨o, ho, hname⟩ := h.opened _ _ hn
    refine ⟨hcloses.sound h.host, fun name k hk => ?_, fun k o' ho' => ?_, fun name b hb => ?_,
      fun k hk => ?_⟩
    · rw [Table.get?_erase] at hk
      split at hk
      · cases hk
      · exact hcloses.exists_name (h.opened name k hk)
    · have ho' : (m.toHost.closeStore n).outline? k = some o' := ho'
      rw [hcloses.outline?] at ho'
      obtain ⟨p, hp, rfl⟩ := Option.map_eq_some_iff.mp ho'
      rw [Table.get?_erase]
      split
      · rename_i hk
        -- the handle that is closed has left the table
        obtain rfl := List.mem_singleton.mp hk
        obtain rfl : o = p := Option.some.inj (ho.symm.trans hp)
        rw [if_pos (show o.closed.name = (app, id) from hname)]
        exact iff_of_false Bool.false_ne_true (by simp)
      · rename_i hk
        rw [h.isOpen_iff k p hp]
        split
        · rename_i hsame
          -- another handle of this name was not in the table
          rw [hsame, hn]
          refine iff_of_false (fun ⟨heq, _⟩ => ?_) (by simp)
          exact hk (List.mem_singleton.mpr (Option.some.inj heq).symm)
        · rfl
    · show (m.toHost.closeStore n).backends.contains b = true
      rw [hcloses.contains]
      exact h.retained name b hb
    · show k < (m.toHost.closeStore n).nextStore
      rw [hcloses.nextStore]
      exact h.lt_nextStore k hk

theorem closeAll (h : m.Consistent closed) (app : String) : (m.closeAll app).Consistent closed := by
  unfold Manager.closeAll
  generalize idsOf m.opened app = ids
  induction ids generalizing m with
  | nil => exact h
  | cons id ids ih => exact ih (h.closeStore app id)

theorem deleteStore (h : m.Consistent closed) (app id : String) :
    (m.deleteStore app id).2.Consistent closed := by
  unfold Manager.deleteStore
  split
  · exact h
  · split
    · have h' := h.closeStore app id
      refine ⟨h'.host, h'.opened, h'.isOpen_iff, fun name b hb => ?_, h'.lt_nextStore⟩
      rw [Table.get?_erase] at hb
      split at hb
      · cases hb
      · exact h'.retained name b hb
    · exact h

theorem deleteAll (h : m.Consistent closed) (app : String) :
    (m.deleteAll app).Consistent closed := by
  unfold Manager.deleteAll
  generalize m.storeIds app = ids
  induction ids generalizing m with
  | nil => exact h
  | cons id ids ih => exact ih (h.deleteStore app id)

/-! ## Runs -/

theorem handle (h : m.Consistent closed) (e : Event) :
    (m.handle e).Consistent (closed ++ m.closes e) := by
  cases e with
  | host e => exact h.of_closes (Host.closes_handle h.host e)
  | getStore app id options => exact (List.append_nil closed).symm ▸ h.getStore app id options
  | closeStore app id => exact (List.append_nil closed).symm ▸ h.closeStore app id
  | closeAll app => exact (List.append_nil closed).symm ▸ h.closeAll app
  | deleteStore app id => exact (List.append_nil closed).symm ▸ h.deleteStore app id
  | deleteAll app => exact (List.append_nil closed).symm ▸ h.deleteAll app

/-- **Throughout a run the tables of the manager agree with its host.** -/
theorem run (h : m.Consistent closed) (events : List Event) :
    (m.run events).Consistent (closed ++ m.closedDirectly events) := by
  induction events generalizing m closed with
  | nil =>
      rw [closedDirectly, List.append_nil]
      exact h
  | cons e events ih =>
      rw [closedDirectly, ← List.append_assoc]
      exact ih (h.handle e)

end Consistent

/-! ## Along a run -/

section Along

variable {m : Manager} {p q : Manager → Event → Prop} {e : Event} {events : List Event}

theorem run_append (m : Manager) (events events' : List Event) :
    m.run (events ++ events') = (m.run events).run events' := List.foldl_append

theorem run_concat (m : Manager) (events : List Event) (e : Event) :
    m.run (events ++ [e]) = (m.run events).handle e := m.run_append events [e]

/-- A run goes on after any of its events. -/
theorem run_append_cons (m : Manager) (before after : List Event) (e : Event) :
    m.run (before ++ e :: after) = (m.run (before ++ [e])).run after := by
  rw [← run_append, List.append_assoc, List.singleton_append]

/-- Whether something never happens in a run. -/
def Never (q : Manager → Event → Prop) (m : Manager) (events : List Event) : Prop :=
  ∀ before e after, events = before ++ e :: after → ¬q (m.run before) e

/-- Whether something has happened in a run, and something else has not since. -/
def Since (p q : Manager → Event → Prop) (m : Manager) (events : List Event) : Prop :=
  ∃ before e after, events = before ++ e :: after ∧ p (m.run before) e
    ∧ Never q (m.run (before ++ [e])) after

theorem never_nil : Never q m [] := by
  intro before e after heq
  cases before <;> cases heq

theorem never_cons : Never q m (e :: events) ↔ ¬q m e ∧ Never q (m.handle e) events := by
  constructor
  · intro hnever
    exact ⟨hnever [] e events rfl, fun before e' after heq =>
      hnever (e :: before) e' after (by rw [heq]; rfl)⟩
  · rintro ⟨hfirst, hrest⟩ before e' after heq
    rcases List.cons_eq_append_iff.mp heq with ⟨rfl, hsplit⟩ | ⟨before', rfl, hsplit⟩
    · cases hsplit
      exact hfirst
    · exact hrest before' e' after hsplit

/-- An event of a longer run is the last one, or one of those before. -/
theorem concat_eq_append_cons_iff {before after : List Event} {e' : Event} :
    events ++ [e] = before ++ e' :: after
      ↔ before = events ∧ e' = e ∧ after = []
        ∨ ∃ after', after = after' ++ [e] ∧ events = before ++ e' :: after' := by
  constructor
  · intro heq
    rcases List.eq_nil_or_concat after with rfl | ⟨after', x, rfl⟩
    · obtain ⟨rfl, hlast⟩ := List.append_inj' heq rfl
      cases hlast
      exact .inl ⟨rfl, rfl, rfl⟩
    · rw [List.concat_eq_append, ← List.cons_append, ← List.append_assoc] at heq
      obtain ⟨rfl, hlast⟩ := List.append_inj' heq rfl
      cases hlast
      exact .inr ⟨after', List.concat_eq_append, rfl⟩
  · rintro (⟨rfl, rfl, rfl⟩ | ⟨after', rfl, rfl⟩)
    · rfl
    · rw [List.append_assoc, List.cons_append]

theorem never_concat :
    Never q m (events ++ [e]) ↔ Never q m events ∧ ¬q (m.run events) e := by
  constructor
  · intro hnever
    refine ⟨fun before e' after heq => hnever before e' (after ++ [e]) ?_,
      hnever events e [] rfl⟩
    rw [heq, List.append_assoc, List.cons_append]
  · rintro ⟨hbefore, hlast⟩ before e' after heq
    rcases concat_eq_append_cons_iff.mp heq with ⟨rfl, rfl, rfl⟩ | ⟨after', rfl, rfl⟩
    · exact hlast
    · exact hbefore before e' after' rfl

theorem not_since_nil : ¬Since p q m [] := by
  rintro ⟨before, e, after, heq, -⟩
  cases before <;> cases heq

/-- Something has happened since, after one more event, if it happens now, or it had and the other
thing does not happen now. -/
theorem since_concat :
    Since p q m (events ++ [e])
      ↔ p (m.run events) e ∨ Since p q m events ∧ ¬q (m.run events) e := by
  constructor
  · rintro ⟨before, e', after, heq, hp, hnever⟩
    rcases concat_eq_append_cons_iff.mp heq with ⟨rfl, rfl, rfl⟩ | ⟨after', rfl, rfl⟩
    · exact .inl hp
    · rw [never_concat, ← run_append_cons] at hnever
      exact .inr ⟨⟨before, e', after', rfl, hp, hnever.1⟩, hnever.2⟩
  · rintro (hp | ⟨⟨before, e', after, rfl, hp, hnever⟩, hnot⟩)
    · exact ⟨events, e, [], rfl, hp, never_nil⟩
    · refine ⟨before, e', after ++ [e], ?_, hp, ?_⟩
      · rw [List.append_assoc, List.cons_append]
      · rw [never_concat, ← run_append_cons]
        exact ⟨hnever, hnot⟩

end Along

end PeerStore.Manager
