import PeerStore.Proofs.Host
import PeerStore.Proofs.Store.Closed
import PeerStore.Proofs.Store.Handed

/-!
# Handles that are closed

A handle accounts for what it hands out (`Host.Attends`): the cursors that are still open of those
that it gave are the ones that it keeps track of, and the notices that it published have been
delivered to those that hear of them, or wait for that. Closing it closes the first and delivers the
second. From then on nothing happens to the handle any more, whatever happens on the host: every
operation through it is refused, and changes nothing (**`closed_for_good`**).
-/

set_option autoImplicit false

namespace PeerStore.Host

/-! ## What can happen -/

/-- What can happen on a host: a backend comes, a store is opened over one, or anything else. -/
inductive Happening where
  | addBackend
  | openStore (app id : String) (options : Options) (config : Config) (backendId : Nat)
  | event (e : Event)

/-- The host after a happening. -/
def occur (h : Host) : Happening → Host
  | .addBackend => h.addBackend.2
  | .openStore app id options config backendId =>
      match h.openStore app id options config backendId with
      | .ok (_, h') => h'
      | .error _ => h
  | .event e => h.handle e

/-- The host after happenings, one after the other. -/
def occurAll (h : Host) (es : List Happening) : Host := es.foldl occur h

/-- What a function gives for happenings, one after the other. -/
def gather {α : Type} (f : Host → Happening → List α) (h : Host) : List Happening → List α
  | [] => []
  | e :: es => f h e ++ gather f (h.occur e) es

/-- The cursors that a handle gives out. -/
def given (n : Nat) (h : Host) : Happening → List Nat
  | .event (.perform k now op) =>
      if k = n then ((h.perform k now op).1.bind Session.cursorOf?).toList else []
  | _ => []

/-- The notices that a handle publishes, each for those that hear of it at that moment. -/
def due (n : Nat) (h : Host) (e : Happening) : List Delivery :=
  match h.stores.get? n, (h.occur e).stores.get? n with
  | some x, some x' =>
      Notifier.deliveries x.notifier.registry (x'.published.drop x.published.length)
  | _, _ => []

/-! ## What a handle accounts for -/

/-- Whether a handle keeps track of the cursors that it gave out, and has the notices that it
published delivered. A handle that is closed has nothing left to do. -/
structure Attends (h : Host) (n : Nat) (x : Hosted) (given : List Nat) (due : List Delivery) :
    Prop where
  store : h.stores.get? n = some x
  backed : h.backends.contains x.backendId = true
  lt_nextStore : n < h.nextStore
  lt_next : ∀ id ∈ given, id < h.shelf.next
  tracked : ∀ id ∈ given, h.shelf.isOpen id = true → x.cursors.contains id = true
  served : x.notifier.Served h.crashes due
  stopped : x.notifier.dispatcher.stopped = !x.isOpen
  cursors : x.isOpen = false → x.cursors = Table.empty
  queue : x.isOpen = false → x.notifier.dispatcher.queue = []

variable {h h' : Host} {n k : Nat} {x : Hosted} {ids : List Nat} {ds : List Delivery}

/-- The session of a handle is the handle with what it shares. -/
theorem Attends.exists_session (hx : h.Attends n x ids ds) :
    ∃ s, h.session? n = some s ∧ s.toStore = x.toStore ∧ s.shelf = h.shelf :=
  exists_session?_of_backed hx.store hx.backed

/-- A new handle has nothing to account for. -/
theorem attends_openStore {app id : String} {options : Options} {config : Config} {backendId : Nat}
    (hbackend : h.backends.contains backendId = true)
    (hopen : h.openStore app id options config backendId = .ok (n, h')) :
    ∃ x, h'.Attends n x [] [] ∧ x.profile.id = id := by
  obtain ⟨rfl, rfl⟩ := openStore_inv hopen
  refine ⟨_, ⟨Table.get?_insert_self _ _ _, hbackend, Nat.lt_succ_self _, ?_, ?_,
    Notifier.served_ofMax _ _, rfl, ?_, ?_⟩, rfl⟩
  · exact fun id hid => absurd hid List.not_mem_nil
  · exact fun id hid => absurd hid List.not_mem_nil
  · exact fun hclosed => absurd hclosed Bool.false_ne_true.symm
  · exact fun hclosed => absurd hclosed Bool.false_ne_true.symm

/-- Nothing else matters to a handle than that it is there, and that no cursor is opened again. -/
theorem Attends.of_later (hx : h.Attends n x ids ds) (hstore : h'.stores.get? n = some x)
    (hbacked : h'.backends.contains x.backendId = true) (hnext : n < h'.nextStore)
    (hshelf : h.shelf.Later h'.shelf) (hcrashes : h'.crashes = h.crashes) :
    h'.Attends n x ids ds where
  store := hstore
  backed := hbacked
  lt_nextStore := hnext
  lt_next id hid := Nat.lt_of_lt_of_le (hx.lt_next id hid) hshelf.next_le
  tracked id hid hopen := hx.tracked id hid (hshelf.isOpen id (hx.lt_next id hid) hopen)
  served := hcrashes ▸ hx.served
  stopped := hx.stopped
  cursors := hx.cursors
  queue := hx.queue

/-! ## Operations through other handles -/

/-- An operation through one handle matters to no other. -/
theorem Attends.borrow_of_ne (hx : h.Attends n x ids ds) (hk : n ≠ k) {f : Session → Session}
    (hf : ∀ s : Session, s.shelf.Later (f s).shelf) : (h.borrow k f).Attends n x ids ds := by
  cases hs : h.session? k with
  | none =>
      rw [borrow, hs]
      exact hx
  | some s =>
      obtain ⟨y, b, hy, hb, -⟩ := exists_of_session? hs
      obtain ⟨hcontains, hnext, -⟩ := borrow_rest hs f
      have hshelf : s.shelf = h.shelf := congrArg (·.shelf) (eq_of_session? hs hy hb)
      refine hx.of_later ?_ ((hcontains _).trans hx.backed) (hnext ▸ hx.lt_nextStore) ?_ ?_
      · rw [borrow_eq hs hy]
        show (h.stores.insert k _).get? n = some x
        rw [Table.get?_insert, if_neg hk]
        exact hx.store
      · rw [borrow_eq hs hy, ← hshelf]
        exact hf s
      · rw [borrow_eq hs hy]

/-! ## Operations through the handle -/

/-- What is accepted when notices are published. -/
theorem served_of_publishes {crashes : Crashes} {y y' : Store}
    {notices : List (Origin × Notice)} (hserved : y.notifier.Served crashes ds)
    (haccepts : y.notifier.dispatcher.stopped = false) (hpublishes : y.Publishes notices y') :
    y'.notifier.Served crashes (ds ++ Notifier.deliveries y.notifier.registry notices)
      ∧ y'.notifier.dispatcher.stopped = false := by
  rw [hpublishes.notifier, haccepts]
  refine ⟨⟨hserved.crashes_eq, hserved.running, ?_, hserved.seen⟩, rfl⟩
  rw [if_neg Bool.false_ne_true, ← List.append_assoc, hserved.accepted]

/-- The deliveries due are those for the notices published. -/
theorem due_eq {e : Happening} {x' : Hosted} {notices : List (Origin × Notice)}
    (hx : h.stores.get? n = some x) (hx' : (h.occur e).stores.get? n = some x')
    (hpublished : x'.published = x.published ++ notices) :
    due n h e = Notifier.deliveries x.notifier.registry notices := by
  rw [due, hx, hx']
  dsimp only
  rw [hpublished, List.drop_left]

/-- A session that accounts for what it handed out is that of a handle that does. -/
theorem Attends.resume {s' : Session} {ids' : List Nat} {ds' : List Delivery}
    (hx : h.Attends n x ids ds) (hlt : ∀ id ∈ ids', id < s'.shelf.next)
    (htracked : ∀ id ∈ ids', s'.shelf.isOpen id = true → s'.cursors.contains id = true)
    (hserved : s'.notifier.Served h.crashes ds')
    (hstopped : s'.notifier.dispatcher.stopped = !s'.isOpen)
    (hcursors : s'.isOpen = false → s'.cursors = Table.empty)
    (hqueue : s'.isOpen = false → s'.notifier.dispatcher.queue = []) :
    (h.resume n s').Attends n { s'.toStore with backendId := x.backendId } ids' ds' := by
  rw [Host.resume, hx.store]
  refine ⟨Table.get?_insert_self _ _ _, ?_, hx.lt_nextStore, hlt, htracked, hserved, hstopped,
    hcursors, hqueue⟩
  rw [Table.contains, Table.get?_insert_self]
  rfl

/-- **What an operation through an open handle hands out is accounted for.** -/
theorem Attends.hands {s s' : Session} {answer : Except Status Answer}
    (hx : h.Attends n x ids ds) (hstore : s.toStore = x.toStore) (hshelf : s.shelf = h.shelf)
    (hopen : x.isOpen = true) (hhands : s.Hands answer s') (hopen' : s'.isOpen = true) :
    ∃ notices, s'.published = x.published ++ notices ∧
      (h.resume n s').Attends n { s'.toStore with backendId := x.backendId }
        (ids ++ (Session.cursorOf? answer).toList)
        (ds ++ Notifier.deliveries x.notifier.registry notices) := by
  have haccepts : x.notifier.dispatcher.stopped = false := by rw [hx.stopped, hopen, Bool.not_true]
  have hnot {p : Prop} (hclosed : s'.isOpen = false) : p := by
    rw [hopen'] at hclosed
    cases hclosed
  have hnotifier : s.notifier = x.notifier := congrArg Store.notifier hstore
  have hstopped : s.notifier.dispatcher.stopped = false := hnotifier ▸ haccepts
  have hcursors : s.cursors = x.cursors := congrArg Store.cursors hstore
  have hpublished : s.published = x.published := congrArg Store.published hstore
  -- where nothing is published, nothing new is due
  have hnone : ds ++ Notifier.deliveries x.notifier.registry [] = ds := List.append_nil ds
  cases hhands with
  | tells hanswer htells =>
      obtain ⟨notices, hpublishes⟩ := htells.publishes
      rw [hstore] at hpublishes
      obtain ⟨hserved, hstopped'⟩ := served_of_publishes hx.served haccepts hpublishes
      refine ⟨notices, hpublishes.published, ?_⟩
      rw [hanswer, Option.toList_none, List.append_nil]
      refine hx.resume ?_ ?_ hserved (by rw [hstopped', hopen', Bool.not_true]) hnot hnot
      · rw [htells.shelf, hshelf]
        exact hx.lt_next
      · rw [htells.shelf, htells.cursors, hshelf, hcursors]
        exact hx.tracked
  | lends es =>
      refine ⟨[], hpublished.trans (List.append_nil _).symm, ?_⟩
      have hlater := (s.shelf.ages_add (.ofEntries es)).later
      rw [hnone]
      refine hx.resume ?_ ?_ (hnotifier ▸ hx.served) ?_ hnot hnot
      · intro id hid
        rcases List.mem_append.mp hid with hid | hid
        · exact Nat.lt_of_lt_of_le (hshelf ▸ hx.lt_next id hid) hlater.next_le
        · rw [List.mem_singleton.mp hid]
          exact Nat.lt_succ_self _
      · intro id hid hidopen
        rw [KeySet.contains_add, Session.contains_prune]
        rcases List.mem_append.mp hid with hid | hid
        · have hlt : id < s.shelf.next := hshelf ▸ hx.lt_next id hid
          have hwas : s.shelf.isOpen id = true := hlater.isOpen id hlt hidopen
          rw [hcursors, hx.tracked id hid (hshelf ▸ hwas), hwas, Bool.and_self, Bool.or_true]
        · rw [List.mem_singleton.mp hid]
          simp
      · rw [hopen']
        exact hstopped
  | takes id hanswer hs' hlater hclosed =>
      refine ⟨[], ?_, ?_⟩
      · rw [hs', List.append_nil]
        exact hpublished
      rw [hnone, hanswer, Option.toList_none, List.append_nil]
      refine hx.resume ?_ ?_ ?_ ?_ hnot hnot
      · intro k hk
        exact Nat.lt_of_lt_of_le (hshelf ▸ hx.lt_next k hk) hlater.next_le
      · intro k hk hkopen
        have hmine : s.cursors.contains k = true :=
          hcursors ▸ hx.tracked k hk
            (hshelf ▸ hlater.isOpen k (hshelf ▸ hx.lt_next k hk) hkopen)
        -- the cursor that was taken back is not open any more
        have hother : k ≠ id := by
          rintro rfl
          rw [hclosed hmine] at hkopen
          cases hkopen
        rw [hs', Table.contains, Table.get?_erase, if_neg hother]
        exact hmine
      · rw [hs']
        exact hnotifier ▸ hx.served
      · rw [hopen', hs']
        exact hstopped

/-! ## Closing the handle -/

/-- **A handle that is closed has nothing left to account for**: no cursor that it gave is open, and
every notice that it published has been delivered. -/
theorem Attends.close {s : Session} (hx : h.Attends n x ids ds) (hstore : s.toStore = x.toStore)
    (hshelf : s.shelf = h.shelf) (hopen : x.isOpen = true) :
    (h.resume n s.close).Attends n { s.close.toStore with backendId := x.backendId } ids ds := by
  have hopen' : s.isOpen = true := (congrArg Store.isOpen hstore).trans hopen
  have hnotifier : s.abandon.notifier = x.notifier := by
    rw [Session.abandon_rest]
    show s.notifier = x.notifier
    rw [hstore]
  have hcursors : s.abandon.cursors = x.cursors := by
    rw [Session.abandon_rest]
    show s.cursors = x.cursors
    rw [hstore]
  have hshelf' : s.abandon.shelf = h.shelf := by
    rw [Session.abandon_rest]
    exact hshelf
  have hstopped : ({ x.notifier with dispatcher := x.notifier.dispatcher.stop } :
      Notifier).Served h.crashes ds :=
    ⟨hx.served.crashes_eq, hx.served.running, hx.served.accepted, hx.served.seen⟩
  obtain ⟨hserved, hqueue, -, hstops⟩ := hstopped.flush
  rw [Session.close_eq hopen', hnotifier, hcursors, hshelf']
  refine hx.resume ?_ ?_ ?_ hstops (fun _ => rfl) (fun _ => hqueue)
  · intro id hid
    exact Nat.lt_of_lt_of_le (hx.lt_next id hid) (h.shelf.ages_closeAll _).next_le
  · intro id hid hidopen
    -- a cursor that is still open was not tracked, so it was not open before
    rw [Shelf.isOpen_closeAll, Bool.and_eq_true, Bool.not_eq_true', decide_eq_false_iff_not,
      Table.mem_keys_iff] at hidopen
    exact absurd (hx.tracked id hid hidopen.1) hidopen.2
  · exact ⟨hserved.crashes_eq, hserved.running, hserved.accepted, hserved.seen⟩

/-! ## Deliveries -/

/-- Deliveries to observers matter to a handle only in that fewer notices wait. -/
theorem Attends.flushStore (hx : h.Attends n x ids ds) (k : Nat) :
    ∃ x', (h.flushStore k).Attends n x' ids ds ∧ x'.profile = x.profile
      ∧ x'.published = x.published ∧ (x.isOpen = false → x' = x) := by
  unfold Host.flushStore
  cases hk : h.stores.get? k with
  | none => exact ⟨x, hx, rfl, rfl, fun _ => rfl⟩
  | some y =>
      dsimp only
      by_cases hkn : n = k
      · subst hkn
        obtain rfl : x = y := Option.some.inj (hx.store.symm.trans hk)
        obtain ⟨hserved, hqueue, -, hstopped⟩ := hx.served.flush
        refine ⟨{ x with notifier := x.notifier.flush },
          ⟨Table.get?_insert_self _ _ _, hx.backed, hx.lt_nextStore, hx.lt_next, hx.tracked, hserved,
            hstopped.trans hx.stopped, hx.cursors, fun _ => hqueue⟩, rfl, rfl, fun hclosed => ?_⟩
        rw [Notifier.flush_of_queue_eq_nil (hx.queue hclosed)]
      · refine ⟨x, hx.of_later ?_ hx.backed hx.lt_nextStore (.refl _) rfl, rfl, rfl, fun _ => rfl⟩
        show (h.stores.insert k _).get? n = some x
        rw [Table.get?_insert, if_neg hkn]
        exact hx.store

theorem Attends.flush (hx : h.Attends n x ids ds) :
    ∃ x', h.flush.Attends n x' ids ds ∧ x'.profile = x.profile
      ∧ x'.published = x.published ∧ (x.isOpen = false → x' = x) := by
  refine flush_induction (P := fun h' => ∃ x', h'.Attends n x' ids ds ∧ x'.profile = x.profile
    ∧ x'.published = x.published ∧ (x.isOpen = false → x' = x))
    ⟨x, hx, rfl, rfl, fun _ => rfl⟩ fun h' k hkept => ?_
  obtain ⟨x₁, hx₁, hprofile, hpublished, hsame⟩ := hkept
  obtain ⟨x₂, hx₂, hprofile₂, hpublished₂, hsame₂⟩ := hx₁.flushStore k
  refine ⟨x₂, hx₂, hprofile₂.trans hprofile, hpublished₂.trans hpublished, fun hclosed => ?_⟩
  obtain rfl := hsame hclosed
  exact hsame₂ hclosed

/-! ## Every happening -/

/-- What becomes of a handle in a happening. -/
def Goes (h : Host) (n : Nat) (x : Hosted) (ids : List Nat) (ds : List Delivery) (e : Happening) :
    Prop :=
  ∃ x', (h.occur e).Attends n x' (ids ++ given n h e) (ds ++ due n h e)
    ∧ x'.profile = x.profile ∧ (x.isOpen = false → x' = x)

/-- A handle that published nothing and gave out no cursor. -/
theorem Attends.goes {e : Happening} {x' : Hosted} (hx : h.Attends n x ids ds)
    (hx' : (h.occur e).Attends n x' ids ds) (hprofile : x'.profile = x.profile)
    (hpublished : x'.published = x.published) (hgiven : given n h e = [])
    (hsame : x.isOpen = false → x' = x) : h.Goes n x ids ds e := by
  refine ⟨x', ?_, hprofile, hsame⟩
  have hnone : x'.published = x.published ++ [] := hpublished.trans (List.append_nil _).symm
  have hdue : due n h e = [] := due_eq hx.store hx'.store hnone
  rw [hgiven, hdue, List.append_nil, List.append_nil]
  exact hx'

theorem Attends.goes_same {e : Happening} (hx : h.Attends n x ids ds)
    (hx' : (h.occur e).Attends n x ids ds) (hgiven : given n h e = []) : h.Goes n x ids ds e :=
  hx.goes hx' rfl rfl hgiven fun _ => rfl

/-- What leaves a closed session alone leaves the host of a closed handle alone. -/
theorem Attends.borrow_of_closed {f : Session → Session} (hx : h.Attends n x ids ds)
    (hf : ∀ s : Session, s.isOpen = false → f s = s) (hclosed : x.isOpen = false) :
    h.borrow n f = h := by
  obtain ⟨s, hs, hstore, -⟩ := hx.exists_session
  refine borrow_of_same fun t ht => hf t ?_
  obtain rfl : s = t := Option.some.inj (hs.symm.trans ht)
  exact (congrArg Store.isOpen hstore).trans hclosed

theorem given_perform {s : Session} (hs : h.session? n = some s) (now : Int) (op : Operation) :
    given n h (.event (.perform n now op)) = (Session.cursorOf? (s.perform now op).1).toList := by
  rw [given, if_pos rfl, Host.perform, hs]
  rfl

theorem Attends.goes_perform (hx : h.Attends n x ids ds) (k : Nat) (now : Int) (op : Operation) :
    h.Goes n x ids ds (.event (.perform k now op)) := by
  have hoccur : h.occur (.event (.perform k now op)) = h.borrow k fun s => (s.perform now op).2 :=
    h.perform_snd k now op
  by_cases hk : k = n
  · subst hk
    obtain ⟨s, hs, hstore, hshelf⟩ := hx.exists_session
    have hsopen : s.isOpen = x.isOpen := congrArg Store.isOpen hstore
    by_cases hopen : x.isOpen = true
    · obtain ⟨hprofile, hopen'⟩ := s.perform_settled now op
      obtain ⟨notices, hpublished, hx'⟩ := hx.hands hstore hshelf hopen (s.perform_hands now op)
        (hopen'.trans (hsopen.trans hopen))
      rw [borrow_eq_resume hs] at hoccur
      rw [← hoccur] at hx'
      refine ⟨{ (s.perform now op).2.toStore with backendId := x.backendId }, ?_,
        hprofile.trans (congrArg Store.profile hstore), fun hclosed => ?_⟩
      · rw [given_perform hs, due_eq hx.store hx'.store hpublished]
        exact hx'
      · rw [hopen] at hclosed
        cases hclosed
    · have hclosed : x.isOpen = false := Bool.eq_false_iff.mpr hopen
      refine hx.goes_same ?_ ?_
      · rw [hoccur, hx.borrow_of_closed (fun t ht => by rw [Session.perform_of_closed ht]) hclosed]
        exact hx
      · rw [given_perform hs, Session.perform_of_closed (hsopen.trans hclosed)]
        rfl
  · refine hx.goes_same ?_ (if_neg hk)
    rw [hoccur]
    exact hx.borrow_of_ne (Ne.symm hk) fun s => (s.perform_hands now op).later

/-- A handle that is closed by itself is closed, and published nothing by that. -/
theorem Attends.closeStore (hx : h.Attends n x ids ds) :
    ∃ x', (h.closeStore n).Attends n x' ids ds ∧ x'.isOpen = false ∧ x'.profile = x.profile
      ∧ x'.published = x.published ∧ (x.isOpen = false → x' = x) := by
  obtain ⟨s, hs, hstore, hshelf⟩ := hx.exists_session
  rw [closeStore_eq_borrow]
  by_cases hopen : x.isOpen = true
  · have hx' := hx.close hstore hshelf hopen
    rw [← borrow_eq_resume hs] at hx'
    obtain ⟨hprofile, hclosed⟩ := s.close_settled
    refine ⟨_, hx', hclosed, ?_, ?_, fun hclosed' => ?_⟩
    · exact hprofile.trans (congrArg Store.profile hstore)
    · exact s.close_rest.1.trans (congrArg Store.published hstore)
    · rw [hopen] at hclosed'
      cases hclosed'
  · have hclosed : x.isOpen = false := Bool.eq_false_iff.mpr hopen
    rw [hx.borrow_of_closed (fun s => Session.close_of_closed) hclosed]
    exact ⟨x, hx, hclosed, rfl, rfl, fun _ => rfl⟩

theorem Attends.goes_close (hx : h.Attends n x ids ds) (k : Nat) :
    h.Goes n x ids ds (.event (.close k)) := by
  by_cases hk : k = n
  · subst hk
    obtain ⟨x', hx', -, hprofile, hpublished, hsame⟩ := hx.closeStore
    exact hx.goes hx' hprofile hpublished rfl hsame
  · refine hx.goes_same ?_ rfl
    show (h.closeStore k).Attends n x ids ds
    rw [closeStore_eq_borrow]
    exact hx.borrow_of_ne (Ne.symm hk) fun s => s.ages_close.later

/-- **Whatever happens on a host, a handle accounts for what it handed out**, and nothing happens to
one that is closed. -/
theorem Attends.occur (hx : h.Attends n x ids ds) (e : Happening) : h.Goes n x ids ds e := by
  cases e with
  | addBackend =>
      refine hx.goes_same (hx.of_later hx.store ?_ hx.lt_nextStore (.refl _) rfl) rfl
      rw [Host.occur, contains_addBackend, hx.backed, Bool.or_true]
  | openStore app id options config backendId =>
      refine hx.goes_same ?_ rfl
      rw [Host.occur]
      split
      · rename_i m h' hopen
        obtain ⟨rfl, rfl⟩ := openStore_inv hopen
        refine hx.of_later ?_ hx.backed (Nat.lt_succ_of_lt hx.lt_nextStore) (.refl _) rfl
        show (h.stores.insert h.nextStore _).get? n = some x
        rw [Table.get?_insert, if_neg (Nat.ne_of_lt hx.lt_nextStore)]
        exact hx.store
      · exact hx
  | event e =>
      cases e with
      | perform k now op => exact hx.goes_perform k now op
      | close k => exact hx.goes_close k
      | failWrites backendId on =>
          have hcontains := (h.closes_setFailing backendId on).contains x.backendId
          refine hx.goes_same ?_ rfl
          show (h.setFailing backendId on).Attends n x ids ds
          have hbacked := hcontains.trans hx.backed
          unfold setFailing at hbacked ⊢
          split at hbacked
          · exact hx.of_later hx.store hbacked hx.lt_nextStore (.refl _) rfl
          · exact hx
      | flush =>
          obtain ⟨x', hx', hprofile, hpublished, hsame⟩ := hx.flush
          exact hx.goes hx' hprofile hpublished rfl hsame
      | moveCursor cursor move =>
          have hlater := (h.shelf.ages_move cursor move).later
          exact hx.goes_same (hx.of_later hx.store hx.backed hx.lt_nextStore hlater rfl) rfl
      | closeCursor cursor =>
          have hlater := (h.shelf.ages_close cursor).later
          exact hx.goes_same (hx.of_later hx.store hx.backed hx.lt_nextStore hlater rfl) rfl
      | dropCursor cursor =>
          have hlater := (h.shelf.ages_drop cursor).later
          exact hx.goes_same (hx.of_later hx.store hx.backed hx.lt_nextStore hlater rfl) rfl
      | register | unregister | report | elapse | expire =>
          exact hx.goes_same (hx.of_later hx.store hx.backed hx.lt_nextStore (.refl _) rfl) rfl

theorem Attends.occurAll (hx : h.Attends n x ids ds) (es : List Happening) :
    ∃ x', (h.occurAll es).Attends n x' (ids ++ gather (given n) h es) (ds ++ gather (due n) h es)
      ∧ x'.profile = x.profile ∧ (x.isOpen = false → x' = x) := by
  induction es generalizing h x ids ds with
  | nil =>
      rw [gather, gather, List.append_nil, List.append_nil]
      exact ⟨x, hx, rfl, fun _ => rfl⟩
  | cons e es ih =>
      obtain ⟨x₁, hx₁, hprofile₁, hsame₁⟩ := hx.occur e
      obtain ⟨x₂, hx₂, hprofile₂, hsame₂⟩ := ih hx₁
      rw [List.append_assoc, List.append_assoc] at hx₂
      refine ⟨x₂, hx₂, hprofile₂.trans hprofile₁, fun hclosed => ?_⟩
      obtain rfl := hsame₁ hclosed
      exact hsame₂ hclosed

/-! ## Closed for good -/

/-- **Once closed, a handle is closed for good.** Whatever happened since it was opened: when it has
been closed, its dispatcher has nothing left, and the notices that it published have been delivered,
one after the other, each to those that heard of it when it was published. Whatever happens
afterwards, the handle stays as it is, and every cursor that it gave is closed. Every operation
through it fails with the failure of its check or, if the check succeeds, with the failure for being
closed. Neither that nor closing it once more changes anything on the host: no backend, no notifier,
no transport and no cursor. -/
theorem closed_for_good {app id : String} {options : Options} {config : Config} {backendId : Nat}
    (hbackend : h.backends.contains backendId = true)
    (hopen : h.openStore app id options config backendId = .ok (n, h'))
    (before after : List Happening) :
    let closed := (h'.occurAll before).closeStore n
    let later := closed.occurAll after
    let delivered := gather (due n) h' before
    (∃ x, closed.stores.get? n = some x ∧ later.stores.get? n = some x
        ∧ x.notifier.dispatcher.isIdle = true ∧ x.notifier.dispatcher.finished = delivered
        ∧ x.notifier.seen = Notifier.callsAfter x.notifier.crashes [] delivered)
      ∧ (∀ cursor ∈ gather (given n) h' before, later.shelf.isOpen cursor = false)
      ∧ (∃ s, later.session? n = some s ∧ s.profile.id = id ∧ s.isOpen = false
        ∧ ∀ now op, later.perform n now op = (some (.error (s.refusal op)), later)
          ∧ (s.checkFirst op = .ok () → s.refusal op = .storeNotOpen id))
      ∧ later.closeStore n = later := by
  intro closed later delivered
  obtain ⟨x₀, hx₀, hid⟩ := attends_openStore hbackend hopen
  obtain ⟨x₁, hx₁, hprofile₁, -⟩ := hx₀.occurAll before
  obtain ⟨x, hx, hclosed, hprofile, -⟩ := hx₁.closeStore
  obtain ⟨x', hx', -, hsame⟩ := hx.occurAll after
  obtain rfl := hsame hclosed
  obtain ⟨s, hs, hstore, -⟩ := hx'.exists_session
  have hsclosed : s.isOpen = false := (congrArg Store.isOpen hstore).trans hclosed
  have hsid : s.profile.id = id := by
    rw [hstore, hprofile, hprofile₁]
    exact hid
  have hqueue := hx.queue hclosed
  have hfinished : x'.notifier.dispatcher.finished = delivered := by
    have haccepted := hx.served.accepted
    rw [hqueue, List.append_nil] at haccepted
    exact haccepted
  refine ⟨⟨x', hx.store, hx'.store, ?_, ?_, ?_⟩, fun cursor hcursor => ?_,
    ⟨s, hs, hsid, hsclosed, fun now op => ⟨?_, fun hcheck => ?_⟩⟩, ?_⟩
  · rw [Dispatcher.isIdle, hqueue, hx.served.running]
    rfl
  · exact hfinished
  · rw [hx.served.seen, hx.served.crashes_eq, hfinished]
  · -- a handle that is closed keeps track of no cursor
    rw [Bool.eq_false_iff]
    intro hcopen
    have htracked := hx'.tracked cursor (by simp [hcursor]) hcopen
    rw [hx'.cursors hclosed] at htracked
    cases htracked
  · have hsame : (later.perform n now op).2 = later := by
      rw [perform_snd]
      refine hx'.borrow_of_closed (fun t ht => ?_) hclosed
      rw [Session.perform_of_closed ht]
    refine Prod.ext ?_ hsame
    rw [Host.perform, hs]
    show some (s.perform now op).1 = _
    rw [Session.perform_of_closed hsclosed]
  · rw [Session.refusal, hcheck, hsid]
  · exact hx'.borrow_of_closed (fun s => Session.close_of_closed) hclosed

/-- A handle with a cursor and an observer is closed, and the store is opened again. What the closed
handle is asked to write does not come to its successor. -/
theorem closed_for_good_beside_successor :
    let h : Host :=
      ({ directory := { self := "self" }, crashes := fun _ _ => false } : Host).addBackend.2
    let options : Options := .inMemory
    let h' := h.occur (.openStore "app" "store" options {} 1)
    let before : List Happening :=
      [.event (.perform 1 1 (.subscribe "observer" .all)), .event (.perform 1 2 (.put [107] [118])),
        .event (.perform 1 3 (.openResultSet (.keys [])))]
    let after : List Happening :=
      [.openStore "app" "store" options {} 1, .event (.perform 2 4 (.put [107] [119]))]
    let later := ((h'.occurAll before).closeStore 1).occurAll after
    later.perform 1 5 (.put [107] [120]) = (some (.error (.storeNotOpen "store")), later)
      ∧ later.shelf.isOpen 1 = false
      ∧ gather (due 1) h' before
        = [⟨["observer"], { inserts := [⟨[107], [118]⟩], device := "self" }⟩] := by
  intro h options h' before after later
  have hbackend : h.backends.contains 1 = true := by decide +kernel
  have hopen : h.openStore "app" "store" options {} 1 = .ok (1, h') := rfl
  have hgiven : gather (given 1) h' before = [1] := by decide +kernel
  obtain ⟨-, hcursors, ⟨s, hs, -, hclosed, hrefused⟩, -⟩ :=
    closed_for_good hbackend hopen before after
  have hmap : (later.session? 1).map (·.profile) = some ⟨"app", "store", options, {}, "self"⟩ := by
    decide +kernel
  rw [hs] at hmap
  have hprofile : s.profile = ⟨"app", "store", options, {}, "self"⟩ := Option.some.inj hmap
  have hvalid : s.checkEntry ⟨[107], [120]⟩ = .ok () := by
    unfold Session.checkEntry Session.checkKey Session.checkValue Session.space
    rw [hprofile]
    decide
  obtain ⟨hperform, hid⟩ := hrefused 5 (.put [107] [120])
  rw [hid hvalid] at hperform
  exact ⟨hperform, hcursors 1 (by rw [hgiven]; decide), by decide +kernel⟩

end PeerStore.Host
