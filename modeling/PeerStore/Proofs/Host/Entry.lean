import PeerStore.Proofs.Host.Reach
import PeerStore.Proofs.Store.Entry

/-!
# One entry of a backend

Handles over one backend come and go, with transactions of their own. What is stored under a key of
the backend stays as long as no call that succeeds through any of them touches the key
(**`Stores.handle`**).
-/

set_option autoImplicit false

namespace PeerStore.Host

/-- Whether a value is stored under a key of a backend, and stays there if a transaction over the
backend is taken back. -/
structure Stores (h : Host) (b : Nat) (stored value : Blob) : Prop where
  now : ∃ t, h.tables? b = some t ∧ t.contents.values stored = some value
  spared : ∀ n x, h.stores.get? n = some x → x.backendId = b → x.isOpen = true →
    x.transaction.Spares stored

/-- Whether an event is a call that succeeds through a handle over a backend, and touches a key. -/
def Touches (h : Host) (b : Nat) (stored : Blob) : Event → Prop
  | .perform n now op =>
      ∃ o s, h.outline? n = some o ∧ o.backendId = b ∧ h.session? n = some s
        ∧ (s.perform now op).1.isOk = true ∧ s.Touches stored op
  | _ => False

variable {h h' : Host} {b n : Nat} {stored value : Blob}

namespace Stores

/-- What is stored in a backend is what every handle over it reads. -/
theorem session (hstores : h.Stores b stored value) {o : Outline} {s : Session}
    (ho : h.outline? n = some o) (hover : o.backendId = b) (hs : h.session? n = some s) :
    s.Stores stored value := by
  obtain ⟨x, backend, hx, hbackend, -⟩ := exists_of_session? hs
  have hxb : x.backendId = b := by
    rw [outline?, hx] at ho
    cases ho
    exact hover
  obtain ⟨t, ht, hvalue⟩ := hstores.now
  rw [eq_of_session? hs hx hbackend]
  refine ⟨?_, hstores.spared n x hx hxb⟩
  rw [← hxb, tables?, hbackend] at ht
  cases ht
  exact hvalue

/-- What is done through a handle keeps what it keeps of the entry. -/
theorem borrow (hstores : h.Stores b stored value) {f : Session → Session}
    (hf : ∀ o s, h.outline? n = some o → o.backendId = b → h.session? n = some s →
      s.Stores stored value → (f s).Stores stored value) : (h.borrow n f).Stores b stored value := by
  cases hs : h.session? n with
  | none =>
      rw [Host.borrow, hs]
      exact hstores
  | some s =>
      obtain ⟨x, backend, hx, hbackend, -⟩ := exists_of_session? hs
      have ho : h.outline? n = some x.outline := by
        rw [outline?, hx]
        rfl
      rw [borrow_eq hs hx]
      by_cases hxb : x.backendId = b
      · have hfs := hf x.outline s ho hxb hs (hstores.session ho hxb hs)
        refine ⟨⟨(f s).backend.toTables, ?_, hfs.now⟩, fun k y hy hyb hopen => ?_⟩
        · rw [tables?, hxb, Table.get?_insert_self]
          rfl
        · rw [Table.get?_insert] at hy
          split at hy
          · cases hy
            exact hfs.spared hopen
          · exact hstores.spared k y hy hyb hopen
      · refine ⟨?_, fun k y hy hyb hopen => ?_⟩
        · rw [tables?, Table.get?_insert_of_ne _ _ hxb]
          exact hstores.now
        · rw [Table.get?_insert] at hy
          split at hy
          · cases hy
            exact absurd hyb hxb
          · exact hstores.spared k y hy hyb hopen

theorem closeStore (hstores : h.Stores b stored value) (n : Nat) :
    (h.closeStore n).Stores b stored value := by
  rw [closeStore_eq_borrow]
  exact hstores.borrow fun _ _ _ _ _ hs => hs.close

theorem flush (hstores : h.Stores b stored value) : h.flush.Stores b stored value := by
  refine flush_induction (P := fun h => h.Stores b stored value) hstores fun h n hstores => ?_
  unfold flushStore
  split
  · exact hstores
  · rename_i x hx
    refine ⟨hstores.now, fun k y hy hyb hopen => ?_⟩
    rw [Table.get?_insert] at hy
    split at hy
    · cases hy
      exact hstores.spared n x hx hyb hopen
    · exact hstores.spared k y hy hyb hopen

/-- **An event that does not touch the key keeps the entry.** -/
theorem handle (hstores : h.Stores b stored value) {e : Event} (hnot : ¬h.Touches b stored e) :
    (h.handle e).Stores b stored value := by
  cases e with
  | perform n now op =>
      show (h.perform n now op).2.Stores b stored value
      rw [perform_snd]
      exact hstores.borrow fun o s ho hover hs hold => hold.perform fun hok htouches =>
        hnot ⟨o, s, ho, hover, hs, hok, htouches⟩
  | close n => exact hstores.closeStore n
  | failWrites c on =>
      refine ⟨?_, fun n x hx => hstores.spared n x ?_⟩
      · show ∃ t, (h.setFailing c on).tables? b = some t ∧ _
        rw [tables?_setFailing]
        exact hstores.now
      · have hx : (h.setFailing c on).stores.get? n = some x := hx
        unfold setFailing at hx
        split at hx <;> exact hx
  | flush => exact hstores.flush
  | register | unregister | report | elapse | expire | moveCursor | closeCursor | dropCursor =>
      exact ⟨hstores.now, hstores.spared⟩

/-- What a call stores through a handle is stored in the backend, if no other handle over it is
open. -/
theorem of_perform {o : Outline} {s : Session} {now : Int} {op : Operation}
    (ho : h.outline? n = some o) (hs : h.session? n = some s)
    (hstored : (s.perform now op).2.Stores stored value)
    (halone : ∀ k p, h.outline? k = some p → p.backendId = o.backendId → p.isOpen = true → k = n) :
    (h.handle (.perform n now op)).Stores o.backendId stored value := by
  obtain ⟨x, hx, rfl⟩ := Option.map_eq_some_iff.mp ho
  show (h.perform n now op).2.Stores x.backendId stored value
  rw [perform_snd, borrow_eq hs hx]
  refine ⟨⟨_, congrArg (Option.map Backend.toTables) (Table.get?_insert_self ..), hstored.now⟩,
    fun k y hy hyb hopen => ?_⟩
  rw [Table.get?_insert] at hy
  split at hy
  · cases hy
    exact hstored.spared hopen
  · rename_i hne
    exact absurd (halone k y.outline (congrArg (Option.map Hosted.outline) hy) hyb hopen) hne

/-! ## New backends and handles -/

theorem addBackend (hstores : h.Stores b stored value) (hb : b < h.nextBackend) :
    h.addBackend.2.Stores b stored value := by
  refine ⟨?_, hstores.spared⟩
  rw [tables?_addBackend hb]
  exact hstores.now

/-- A handle that is opened has no transaction. -/
theorem openStore (hstores : h.Stores b stored value) {app id : String} {options : Options}
    {config : Config} {c : Nat} (hok : h.openStore app id options config c = .ok (n, h')) :
    h'.Stores b stored value := by
  obtain ⟨rfl, rfl⟩ := openStore_inv hok
  refine ⟨hstores.now, fun k y hy hyb hopen => ?_⟩
  rw [Table.get?_insert] at hy
  split at hy
  · cases hy
    exact Transaction.spares_of_idle rfl
  · exact hstores.spared k y hy hyb hopen

end Stores

end PeerStore.Host
