import PeerStore.Proofs.Host
import PeerStore.Proofs.Store.Closed
import PeerStore.Proofs.Store.Handed

/-!
# What an event reaches

An event reaches the handle that it goes through and the backend of that handle; deliveries reach
all handles, and no backend. Everything else on the host is as it was (**`reaches_handle`**), but
for what is not kept for one store: the transport, the devices that are known, and the cursors. A
handle that is closed lets nothing through (`handle_of_closed`), so the tables of a backend change
only through an open handle over it (**`tables?_handle`**).
-/

set_option autoImplicit false

namespace PeerStore.Host

variable {h h' h'' : Host} {n b : Nat}

/-- Whether two hosts have the same handles and backends, but for some of either. -/
structure Reaches (handles backends : Nat → Prop) (h h' : Host) : Prop where
  stores : ∀ n, ¬handles n → h'.stores.get? n = h.stores.get? n
  backends : ∀ b, ¬backends b → h'.backends.get? b = h.backends.get? b
  self : h'.directory.self = h.directory.self

/-- The handles that an event reaches. -/
def Event.reaches : Event → Nat → Prop
  | .perform n .. | .close n => (· = n)
  | .flush => fun _ => True
  | _ => fun _ => False

/-- The backends that an event reaches. -/
def reached (h : Host) : Event → Nat → Prop
  | .perform n .. | .close n => fun b => ∃ o, h.outline? n = some o ∧ o.backendId = b
  | .failWrites b _ => (· = b)
  | _ => fun _ => False

theorem Reaches.trans {handles backends : Nat → Prop} (h₁ : Reaches handles backends h h')
    (h₂ : Reaches handles backends h' h'') : Reaches handles backends h h'' where
  stores n hn := (h₂.stores n hn).trans (h₁.stores n hn)
  backends b hb := (h₂.backends b hb).trans (h₁.backends b hb)
  self := h₂.self.trans h₁.self

theorem Reaches.refl (handles backends : Nat → Prop) (h : Host) : Reaches handles backends h h :=
  ⟨fun _ _ => rfl, fun _ _ => rfl, rfl⟩

/-- What is done through a handle reaches it and its backend. -/
theorem reaches_borrow (h : Host) (n : Nat) {f : Session → Session}
    (hf : ∀ s, (f s).directory = s.directory) :
    Reaches (· = n) (fun b => ∃ o, h.outline? n = some o ∧ o.backendId = b) h (h.borrow n f) := by
  cases hs : h.session? n with
  | none =>
      rw [borrow, hs]
      exact .refl _ _ h
  | some s =>
      obtain ⟨x, b, hx, hb, -⟩ := exists_of_session? hs
      have hdirectory : s.directory = h.directory :=
        congrArg (·.directory) (eq_of_session? hs hx hb)
      rw [borrow_eq hs hx]
      refine ⟨fun k hk => ?_, fun c hc => ?_, ?_⟩
      · exact Table.get?_insert_of_ne _ _ (Ne.symm hk)
      · refine Table.get?_insert_of_ne _ _ fun hne => hc ⟨x.outline, ?_, hne⟩
        rw [outline?, hx]
        rfl
      · exact congrArg Directory.self ((hf s).trans hdirectory)

theorem reaches_flushStore (h : Host) (n : Nat) :
    Reaches (fun _ => True) (fun _ => False) h (h.flushStore n) := by
  unfold flushStore
  split
  · exact .refl _ _ h
  · exact ⟨fun _ hn => absurd trivial hn, fun _ _ => rfl, rfl⟩

theorem reaches_flush (h : Host) : Reaches (fun _ => True) (fun _ => False) h h.flush :=
  flush_induction (.refl _ _ h) fun h' n hreaches => hreaches.trans (reaches_flushStore h' n)

/-- **An event reaches what it goes through, and nothing else.** -/
theorem reaches_handle (h : Host) (e : Event) : Reaches e.reaches (h.reached e) h (h.handle e) := by
  cases e with
  | perform n now op =>
      show Reaches (· = n) _ h (h.perform n now op).2
      rw [perform_snd]
      exact reaches_borrow h n fun s => (s.perform_hands now op).directory
  | close n => exact reaches_borrow h n fun s => s.close_rest.2
  | failWrites b on =>
      show Reaches (fun _ => False) (· = b) h (h.setFailing b on)
      unfold setFailing
      split
      · exact ⟨fun _ _ => rfl, fun c hc => Table.get?_insert_of_ne _ _ (Ne.symm hc), rfl⟩
      · exact .refl _ _ h
  | flush => exact reaches_flush h
  | register | unregister | report | elapse | expire | moveCursor | closeCursor | dropCursor =>
      exact ⟨fun _ _ => rfl, fun _ _ => rfl, rfl⟩

/-! ## Through handles that are closed -/

/-- A session is as open as its handle. -/
theorem isOpen_of_session? {s : Session} {o : Outline} (hs : h.session? n = some s)
    (ho : h.outline? n = some o) : s.isOpen = o.isOpen := by
  obtain ⟨x, -, hx, -, -, hopen⟩ := exists_of_session? hs
  rw [outline?, hx] at ho
  cases ho
  exact hopen

/-- A session has the profile of its handle. -/
theorem profile_of_session? {s : Session} {o : Outline} (hs : h.session? n = some s)
    (ho : h.outline? n = some o) : s.profile = o.profile := by
  obtain ⟨x, -, hx, -, hprofile, -⟩ := exists_of_session? hs
  rw [outline?, hx] at ho
  cases ho
  exact hprofile

/-- What goes through a handle that is closed changes nothing. -/
theorem handle_of_closed {o : Outline} (ho : h.outline? n = some o) (hclosed : o.isOpen = false) :
    (∀ now op, h.handle (.perform n now op) = h) ∧ h.handle (.close n) = h := by
  refine ⟨fun now op => ?_, ?_⟩
  · show (h.perform n now op).2 = h
    rw [perform_snd]
    refine borrow_of_same fun s hs => ?_
    rw [Session.perform_of_closed ((isOpen_of_session? hs ho).trans hclosed)]
  · show h.closeStore n = h
    rw [closeStore_eq_borrow]
    exact borrow_of_same fun s hs =>
      Session.close_of_closed ((isOpen_of_session? hs ho).trans hclosed)

/-- The tables of a backend. -/
def tables? (h : Host) (b : Nat) : Option Tables := (h.backends.get? b).map Backend.toTables

/-- A new backend is beside those that there are. -/
theorem tables?_addBackend (hb : b < h.nextBackend) : h.addBackend.2.tables? b = h.tables? b :=
  congrArg (Option.map Backend.toTables)
    (Table.get?_insert_of_ne h.backends {} (Ne.symm (Nat.ne_of_lt hb)))

/-- What a handle gives access to: the tables of its backend. -/
def contents? (h : Host) (n : Nat) : Option Tables :=
  (h.session? n).map fun s => s.backend.toTables

theorem contents?_eq {o : Outline} (ho : h.outline? n = some o) :
    h.contents? n = h.tables? o.backendId := by
  obtain ⟨x, hx, rfl⟩ := Option.map_eq_some_iff.mp ho
  rw [contents?, session?, hx]
  exact Option.map_map _ _ _

theorem tables?_setFailing (h : Host) (c : Nat) (on : Bool) :
    (h.setFailing c on).tables? b = h.tables? b := by
  unfold setFailing
  split
  · rename_i backend hc
    rw [tables?, tables?, Table.get?_insert]
    split
    · rename_i hb
      rw [hb, hc]
      rfl
    · rfl
  · rfl

/-- **Tables change only through an open handle over the backend.** -/
theorem tables?_handle (hclosed : ∀ n o, h.outline? n = some o → o.backendId = b → o.isOpen = false)
    (e : Event) : (h.handle e).tables? b = h.tables? b := by
  by_cases hb : h.reached e b
  · cases e with
    | perform n now op =>
        obtain ⟨o, ho, hover⟩ := hb
        rw [(handle_of_closed ho (hclosed n o ho hover)).1]
    | close n =>
        obtain ⟨o, ho, hover⟩ := hb
        rw [(handle_of_closed ho (hclosed n o ho hover)).2]
    | failWrites c on => exact h.tables?_setFailing c on
    | _ => exact hb.elim
  · rw [tables?, tables?, (h.reaches_handle e).backends b hb]

end PeerStore.Host
