import PeerStore.Host
import PeerStore.Proofs.Store.Open
import PeerStore.Proofs.Table

/-!
# Hosts and their handles

What a host settles of a handle is its `Outline`: the profile and the backend that it was opened
with, and whether it is open. Whatever happens on a host, operations through handles included, no
handle and no backend comes or goes, and outlines stay as they are, but for a handle that is closed
(**`Host.closes_handle`**).
-/

set_option autoImplicit false

namespace PeerStore

/-! ## Outlines -/

/-- What a host settles of a handle, and whether the handle is open. -/
structure Outline where
  profile : Profile
  backendId : Nat
  isOpen : Bool
  deriving DecidableEq, Repr

namespace Outline

/-- The application and the id that a handle was opened with. -/
def name (o : Outline) : String × String := (o.profile.app, o.profile.id)

/-- The outline of a handle that is closed. -/
def closed (o : Outline) : Outline := { o with isOpen := false }

end Outline

/-- The outline of a store. -/
def Hosted.outline (x : Hosted) : Outline := ⟨x.profile, x.backendId, x.isOpen⟩

namespace Host

/-- The outline of the handle with a number. -/
def outline? (h : Host) (n : Nat) : Option Outline := (h.stores.get? n).map Hosted.outline

/-- Whether a host is as one can come to be: its handles have backends, and the numbers that it
gives next are ahead of those that it gave. -/
structure Sound (h : Host) : Prop where
  backed : ∀ n o, h.outline? n = some o → h.backends.contains o.backendId = true
  lt_nextStore : ∀ n o, h.outline? n = some o → n < h.nextStore
  lt_nextBackend : ∀ b, h.backends.contains b = true → b < h.nextBackend

/-- Whether nothing has come or gone on a host, and no outline has changed but of handles that were
closed. -/
structure Closes (closing : List Nat) (h h' : Host) : Prop where
  outline? : ∀ n, h'.outline? n = (h.outline? n).map fun o => if n ∈ closing then o.closed else o
  contains : ∀ b, h'.backends.contains b = h.backends.contains b
  nextStore : h'.nextStore = h.nextStore
  nextBackend : h'.nextBackend = h.nextBackend

namespace Closes

variable {h h' h'' : Host} {closing : List Nat}

theorem of_outline? (houtline : ∀ n, h'.outline? n = h.outline? n)
    (hcontains : ∀ b, h'.backends.contains b = h.backends.contains b)
    (hstore : h'.nextStore = h.nextStore) (hbackend : h'.nextBackend = h.nextBackend) :
    Closes [] h h' := by
  refine ⟨fun n => ?_, hcontains, hstore, hbackend⟩
  rw [houtline]
  simp

theorem refl (h : Host) : Closes [] h h := .of_outline? (fun _ => rfl) (fun _ => rfl) rfl rfl

/-- Where nothing is closed, outlines stay. -/
theorem outline?_eq (hcloses : Closes [] h h') (n : Nat) : h'.outline? n = h.outline? n := by
  rw [hcloses.outline?]
  simp

theorem trans (hcloses : Closes [] h h') (hcloses' : Closes [] h' h'') : Closes [] h h'' :=
  .of_outline? (fun n => (hcloses'.outline?_eq n).trans (hcloses.outline?_eq n))
    (fun b => (hcloses'.contains b).trans (hcloses.contains b))
    (hcloses'.nextStore.trans hcloses.nextStore) (hcloses'.nextBackend.trans hcloses.nextBackend)

/-- Handles keep their names. -/
theorem exists_name (hcloses : Closes closing h h') {n : Nat} {name : String × String}
    (hnamed : ∃ o, h.outline? n = some o ∧ o.name = name) :
    ∃ o, h'.outline? n = some o ∧ o.name = name := by
  obtain ⟨o, ho, hname⟩ := hnamed
  refine ⟨_, (hcloses.outline? n).trans (congrArg (Option.map _) ho), ?_⟩
  split <;> exact hname

theorem lt_nextStore (hcloses : Closes closing h h')
    (hlt : ∀ n o, h.outline? n = some o → n < h.nextStore) :
    ∀ n o, h'.outline? n = some o → n < h'.nextStore := by
  intro n o ho
  rw [hcloses.outline?] at ho
  obtain ⟨o, ho, -⟩ := Option.map_eq_some_iff.mp ho
  rw [hcloses.nextStore]
  exact hlt n o ho

theorem sound (hcloses : Closes closing h h') (hsound : h.Sound) : h'.Sound where
  backed n o ho := by
    rw [hcloses.outline?] at ho
    obtain ⟨o', ho', rfl⟩ := Option.map_eq_some_iff.mp ho
    rw [hcloses.contains]
    split <;> exact hsound.backed n o' ho'
  lt_nextStore := hcloses.lt_nextStore hsound.lt_nextStore
  lt_nextBackend b hb := by
    rw [hcloses.contains] at hb
    rw [hcloses.nextBackend]
    exact hsound.lt_nextBackend b hb

end Closes

/-! ## Borrowing a session -/

variable {h : Host}

/-- A handle over a backend has a session, which is the handle with what it shares. -/
theorem exists_session?_of_backed {n : Nat} {x : Hosted} (hx : h.stores.get? n = some x)
    (hbacked : h.backends.contains x.backendId = true) :
    ∃ s, h.session? n = some s ∧ s.toStore = x.toStore ∧ s.shelf = h.shelf := by
  obtain ⟨b, hb⟩ := Option.isSome_iff_exists.mp hbacked
  refine ⟨{ x.toStore with
    backend := b, directory := h.directory, link := h.link, shelf := h.shelf }, ?_, rfl, rfl⟩
  rw [session?, hx]
  exact congrArg (Option.map _) hb

/-- On a sound host a handle has a session. -/
theorem Sound.exists_session (hsound : h.Sound) {n : Nat} {o : Outline} (ho : h.outline? n = some o) :
    ∃ s, h.session? n = some s ∧ s.profile = o.profile ∧ s.isOpen = o.isOpen := by
  have hbacked := hsound.backed n o ho
  obtain ⟨x, hx, rfl⟩ := Option.map_eq_some_iff.mp ho
  obtain ⟨s, hs, hstore, -⟩ := exists_session?_of_backed hx hbacked
  exact ⟨s, hs, congrArg Store.profile hstore, congrArg Store.isOpen hstore⟩

/-- A session is that of a handle over a backend. -/
theorem exists_of_session? {n : Nat} {s : Session} (hs : h.session? n = some s) :
    ∃ x b, h.stores.get? n = some x ∧ h.backends.get? x.backendId = some b
      ∧ s.profile = x.profile ∧ s.isOpen = x.isOpen := by
  unfold session? at hs
  split at hs
  · cases hs
  · rename_i x hx
    obtain ⟨b, hb, rfl⟩ := Option.map_eq_some_iff.mp hs
    exact ⟨x, b, hx, hb, rfl, rfl⟩

/-- A session is its handle with its backend and what all share. -/
theorem eq_of_session? {n : Nat} {s : Session} {x : Hosted} {b : Backend}
    (hs : h.session? n = some s) (hx : h.stores.get? n = some x)
    (hb : h.backends.get? x.backendId = some b) :
    s = { x.toStore with
      backend := b, directory := h.directory, link := h.link, shelf := h.shelf } := by
  rw [session?, hx] at hs
  dsimp only at hs
  rw [hb] at hs
  exact (Option.some.inj hs).symm

/-- Exchanges the session of a handle for what a function makes of it. -/
def borrow (h : Host) (n : Nat) (f : Session → Session) : Host :=
  match h.session? n with
  | none => h
  | some s => h.resume n (f s)

theorem perform_snd (h : Host) (n : Nat) (now : Int) (op : Operation) :
    (h.perform n now op).2 = h.borrow n fun s => (s.perform now op).2 := by
  unfold perform borrow
  cases h.session? n <;> rfl

theorem closeStore_eq_borrow (h : Host) (n : Nat) : h.closeStore n = h.borrow n Session.close := rfl

theorem borrow_eq {n : Nat} {s : Session} {x : Hosted} (hs : h.session? n = some s)
    (hx : h.stores.get? n = some x) (f : Session → Session) :
    h.borrow n f = { h with
      stores := h.stores.insert n { (f s).toStore with backendId := x.backendId }
      backends := h.backends.insert x.backendId (f s).backend
      directory := (f s).directory
      link := (f s).link
      shelf := (f s).shelf } := by
  rw [borrow, hs]
  dsimp only
  rw [resume, hx]

/-- **What is borrowed is put back**: one handle and its backend change, and no other handle. -/
theorem outline?_borrow {n : Nat} {s : Session} (hs : h.session? n = some s)
    (f : Session → Session) (m : Nat) :
    (h.borrow n f).outline? m
      = if m = n then (h.outline? n).map fun o => ⟨(f s).profile, o.backendId, (f s).isOpen⟩
        else h.outline? m := by
  obtain ⟨x, b, hx, -, -⟩ := exists_of_session? hs
  rw [borrow_eq hs hx]
  unfold outline?
  rw [Table.get?_insert, hx]
  split <;> rfl

theorem borrow_rest {n : Nat} {s : Session} (hs : h.session? n = some s) (f : Session → Session) :
    (∀ b, (h.borrow n f).backends.contains b = h.backends.contains b)
      ∧ (h.borrow n f).nextStore = h.nextStore ∧ (h.borrow n f).nextBackend = h.nextBackend := by
  obtain ⟨x, b, hx, hb, -⟩ := exists_of_session? hs
  rw [borrow_eq hs hx]
  refine ⟨fun m => ?_, rfl, rfl⟩
  rw [Table.contains, Table.get?_insert, Table.contains]
  split
  · rename_i hm
    rw [hm, hb]
    rfl
  · rfl

/-- What a session becomes becomes of its handle. -/
theorem borrow_eq_resume {n : Nat} {s : Session} (hs : h.session? n = some s) (f : Session → Session) :
    h.borrow n f = h.resume n (f s) := by
  rw [borrow, hs]

/-- A session that is put back as it was changes nothing. -/
theorem borrow_of_same {n : Nat} {f : Session → Session} (hf : ∀ s, h.session? n = some s → f s = s) :
    h.borrow n f = h := by
  cases hs : h.session? n with
  | none => rw [borrow, hs]
  | some s =>
      obtain ⟨x, b, hx, hb, -⟩ := exists_of_session? hs
      have hsame := hf s hs
      rw [borrow_eq hs hx, hsame, eq_of_session? hs hx hb]
      dsimp only
      rw [Table.insert_of_get? hx, Table.insert_of_get? hb]

/-- A function that opens and closes nothing changes no outline. -/
theorem closes_borrow (h : Host) (n : Nat) {f : Session → Session}
    (hf : ∀ s, (f s).profile = s.profile ∧ (f s).isOpen = s.isOpen) :
    Closes [] h (h.borrow n f) := by
  cases hs : h.session? n with
  | none =>
      rw [borrow, hs]
      exact .refl h
  | some s =>
      obtain ⟨hcontains, hstore, hbackend⟩ := borrow_rest hs f
      refine .of_outline? (fun m => ?_) hcontains hstore hbackend
      rw [outline?_borrow hs]
      split
      · rename_i hm
        obtain ⟨x, b, hx, -, hxprofile, hxopen⟩ := exists_of_session? hs
        obtain ⟨hprofile, hopen⟩ := hf s
        rw [hm, outline?, hx, hprofile, hopen, hxprofile, hxopen]
        rfl
      · rfl

/-- A handle that is closed is closed, and nothing else happens to any outline. -/
theorem closes_closeStore (hsound : h.Sound) (n : Nat) : Closes [n] h (h.closeStore n) := by
  rw [closeStore_eq_borrow]
  cases hs : h.session? n with
  | none =>
      -- there is no such handle, for handles have backends
      have hnone : h.outline? n = none := by
        cases ho : h.outline? n with
        | none => rfl
        | some o =>
            obtain ⟨s, hsome, -⟩ := hsound.exists_session ho
            rw [hs] at hsome
            cases hsome
      rw [borrow, hs]
      refine ⟨fun m => ?_, fun _ => rfl, rfl, rfl⟩
      by_cases hm : m = n
      · rw [hm, hnone]
        rfl
      · simp [hm]
  | some s =>
      obtain ⟨hcontains, hstore, hbackend⟩ := borrow_rest hs Session.close
      refine ⟨fun m => ?_, hcontains, hstore, hbackend⟩
      rw [outline?_borrow hs]
      obtain ⟨hprofile, hclosed⟩ := s.close_settled
      split
      · rename_i hm
        obtain ⟨x, b, hx, -, hxprofile, -⟩ := exists_of_session? hs
        rw [hm, outline?, hx, hprofile, hclosed, hxprofile]
        simp [Hosted.outline, Outline.closed]
      · rename_i hm
        simp [hm]

/-! ## New backends and handles -/

theorem Sound.addBackend (hsound : h.Sound) : h.addBackend.2.Sound where
  backed n o ho := by
    rw [Host.addBackend, Table.contains, Table.get?_insert]
    split
    · rfl
    · exact hsound.backed n o ho
  lt_nextStore := hsound.lt_nextStore
  lt_nextBackend b hb := by
    rw [Host.addBackend, Table.contains, Table.get?_insert] at hb
    split at hb
    · rename_i hnew
      rw [hnew]
      exact Nat.lt_succ_self _
    · exact Nat.lt_succ_of_lt (hsound.lt_nextBackend b hb)

theorem contains_addBackend (h : Host) (b : Nat) :
    h.addBackend.2.backends.contains b = (decide (b = h.nextBackend) || h.backends.contains b) := by
  rw [addBackend, Table.contains, Table.get?_insert]
  by_cases hb : b = h.nextBackend
  · simp [hb]
  · simp [hb, Table.contains]

/-- What a host is when a store has been opened. -/
theorem openStore_inv {app id : String} {options : Options} {config : Config}
    {backendId n : Nat} {h' : Host}
    (hok : h.openStore app id options config backendId = .ok (n, h')) :
    n = h.nextStore ∧ h' = { h with
      nextStore := h.nextStore + 1
      stores := h.stores.insert h.nextStore
        { profile := ⟨app, id, options, config.limits, h.directory.self⟩
          notifier := Notifier.ofMax config.limits.observers h.crashes
          backendId } } := by
  unfold openStore Store.openWith at hok
  cases hoptions : options.check with
  | error e =>
      rw [hoptions] at hok
      cases hok
  | ok _ =>
      cases hconfig : config.check with
      | error e =>
          rw [hoptions, hconfig] at hok
          cases hok
      | ok _ =>
          rw [hoptions, hconfig] at hok
          cases hok
          exact ⟨rfl, rfl⟩

/-- **A handle that is opened is new, and open**; nothing else changes. -/
theorem openStore_eq_ok {app id : String} {options : Options} {config : Config}
    {backendId n : Nat} {h' : Host}
    (hok : h.openStore app id options config backendId = .ok (n, h')) :
    n = h.nextStore ∧ h'.nextStore = h.nextStore + 1 ∧ h'.nextBackend = h.nextBackend
      ∧ h'.backends = h.backends
      ∧ ∀ m, h'.outline? m
        = if m = n then
            some ⟨⟨app, id, options, config.limits, h.directory.self⟩, backendId, true⟩
          else h.outline? m := by
  obtain ⟨rfl, rfl⟩ := openStore_inv hok
  refine ⟨rfl, rfl, rfl, rfl, fun m => ?_⟩
  unfold outline?
  rw [Table.get?_insert]
  split <;> rfl

/-- A handle that is opened matters to no other. -/
theorem openStore_rest {app id : String} {options : Options} {config : Config} {backendId n : Nat}
    {h' : Host} (hok : h.openStore app id options config backendId = .ok (n, h')) :
    h'.directory = h.directory ∧ ∀ k, k ≠ n → h'.stores.get? k = h.stores.get? k := by
  obtain ⟨rfl, rfl⟩ := openStore_inv hok
  exact ⟨rfl, fun k hk => Table.get?_insert_of_ne _ _ (Ne.symm hk)⟩

theorem Sound.openStore (hsound : h.Sound) {app id : String} {options : Options} {config : Config}
    {backendId n : Nat} {h' : Host} (hbackend : h.backends.contains backendId = true)
    (hok : h.openStore app id options config backendId = .ok (n, h')) : h'.Sound := by
  obtain ⟨hn, hstore, hnext, hbackends, houtline⟩ := openStore_eq_ok hok
  constructor
  · intro m o ho
    rw [hbackends]
    rw [houtline] at ho
    split at ho
    · cases ho
      exact hbackend
    · exact hsound.backed m o ho
  · intro m o ho
    rw [hstore]
    rw [houtline] at ho
    split at ho
    · rename_i hm
      rw [hm, hn]
      exact Nat.lt_succ_self _
    · exact Nat.lt_succ_of_lt (hsound.lt_nextStore m o ho)
  · intro b hb
    rw [hnext]
    rw [hbackends] at hb
    exact hsound.lt_nextBackend b hb

/-! ## Events -/

/-- What can happen on a host: operations through a handle at the time that the clock reads, a
handle that is closed by itself, writes of a backend that begin or cease to fail, devices that come
and go, deliveries to observers, reports of devices and time that passes for syncs, and moves and
closings of cursors. -/
inductive Event where
  | perform (store : Nat) (now : Int) (op : Operation)
  | close (store : Nat)
  | failWrites (backendId : Nat) (on : Bool)
  | register (network device : String)
  | unregister (network : String)
  | flush
  | report (seq : Nat) (device : String) (result : SyncResult)
  | elapse (milliseconds : Nat)
  | expire
  | moveCursor (cursor : Nat) (move : Cursor.Move)
  | closeCursor (cursor : Nat)
  | dropCursor (cursor : Nat)

/-- The handles that an event closes by themselves. -/
def Event.closing : Event → List Nat
  | .close n => [n]
  | _ => []

/-- The host after an event. -/
def handle (h : Host) : Event → Host
  | .perform n now op => (h.perform n now op).2
  | .close n => h.closeStore n
  | .failWrites backendId on => h.setFailing backendId on
  | .register network device => { h with directory := h.directory.register network device }
  | .unregister network => { h with directory := (h.directory.unregister network).2 }
  | .flush => h.flush
  | .report seq device result => h.report seq device result
  | .elapse milliseconds => h.coordinate (·.elapse milliseconds)
  | .expire => h.coordinate Coordinator.expire
  | .moveCursor cursor move => (h.moveCursor cursor move).2
  | .closeCursor cursor => h.closeCursor cursor
  | .dropCursor cursor => h.dropCursor cursor

theorem closes_setFailing (h : Host) (backendId : Nat) (on : Bool) :
    Closes [] h (h.setFailing backendId on) := by
  unfold setFailing
  split
  · rename_i b hb
    refine .of_outline? (fun _ => rfl) (fun m => ?_) rfl rfl
    rw [Table.contains, Table.get?_insert, Table.contains]
    split
    · rename_i hm
      rw [hm, hb]
      rfl
    · rfl
  · exact .refl h

theorem closes_flushStore (h : Host) (n : Nat) : Closes [] h (h.flushStore n) := by
  unfold flushStore
  split
  · exact .refl h
  · rename_i x hx
    refine .of_outline? (fun m => ?_) (fun _ => rfl) rfl rfl
    unfold outline?
    rw [Table.get?_insert]
    split
    · rename_i hm
      rw [hm, hx]
      rfl
    · rfl

/-- What deliveries from one store keep, deliveries from every store keep. -/
theorem flush_induction {P : Host → Prop} (hP : P h) (hstep : ∀ h n, P h → P (h.flushStore n)) :
    P h.flush := by
  unfold flush
  generalize h.stores.keys = ns
  induction ns generalizing h with
  | nil => exact hP
  | cons n ns ih => exact ih (hstep h n hP)

theorem closes_flush (h : Host) : Closes [] h h.flush :=
  flush_induction (.refl h) fun h' n hcloses => hcloses.trans (closes_flushStore h' n)

/-- **Whatever happens on a host**, no handle and no backend comes or goes, and an outline changes
only in that its handle is closed by itself. -/
theorem closes_handle (hsound : h.Sound) (e : Event) : Closes e.closing h (h.handle e) := by
  cases e with
  | perform n now op =>
      show Closes [] h (h.perform n now op).2
      rw [perform_snd]
      exact closes_borrow h n fun s => s.perform_settled now op
  | close n => exact closes_closeStore hsound n
  | failWrites backendId on => exact closes_setFailing h backendId on
  | flush => exact closes_flush h
  | register | unregister | report | elapse | expire | moveCursor | closeCursor | dropCursor =>
      exact .of_outline? (fun _ => rfl) (fun _ => rfl) rfl rfl

end Host

end PeerStore
