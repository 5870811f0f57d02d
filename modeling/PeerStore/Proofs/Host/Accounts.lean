import PeerStore.Proofs.Host.Outstanding

/-!
# What happens to the cursors outstanding

One happening after the other: those that concern no cursor, operations through a store, and the
ends of cursors. Whatever happens on a host, its stores and its shelf account for the cursors that
are outstanding (**`Accounts.occur`**).
-/

set_option autoImplicit false

namespace PeerStore.Host

variable {h h' : Host} {out : Nat → List Nat} {k n c : Nat} {s : Session}

namespace Accounts

/-! ## Happenings that concern no cursor -/

/-- Deliveries to observers concern no cursor. -/
theorem flushStore (ha : Accounts out h) (k : Nat) : Accounts out (h.flushStore k) := by
  have hcloses := h.closes_flushStore k
  refine ha.of_same (fun n c => ?_) (fun c => ?_) ?_ (fun n => ?_)
    (hcloses.lt_nextStore ha.lt_nextStore)
  · unfold Host.flushStore tracks
    cases hk : h.stores.get? k with
    | none => rfl
    | some x =>
        dsimp only
        rw [Table.get?_insert]
        split
        · rename_i hn
          rw [hn, hk]
          rfl
        · rfl
  · unfold Host.flushStore
    split <;> rfl
  · unfold Host.flushStore
    split <;> rfl
  · rw [hcloses.serves]
    exact id

theorem flush (ha : Accounts out h) : Accounts out h.flush :=
  flush_induction ha fun _ k ha => ha.flushStore k

theorem addBackend (ha : Accounts out h) : Accounts out h.addBackend.2 := by
  refine ha.of_same (fun _ _ => rfl) (fun _ => rfl) rfl (fun n hserves => ?_) ha.lt_nextStore
  obtain ⟨o, ho, hand⟩ := (Option.any_eq_true _ _).mp hserves
  rw [Bool.and_eq_true] at hand
  refine (Option.any_eq_true _ _).mpr ⟨o, ho, ?_⟩
  rw [contains_addBackend, hand.1, hand.2, Bool.or_true]
  rfl

/-- A store that is opened has given out no cursor, and is no store that was there. -/
theorem openStore (ha : Accounts out h) {app id : String} {options : Options} {config : Config}
    {backendId m : Nat} (hok : h.openStore app id options config backendId = .ok (m, h')) :
    Accounts out h' := by
  obtain ⟨hm, hnext, -, hbackends, houtline⟩ := openStore_eq_ok hok
  obtain ⟨-, rfl⟩ := openStore_inv hok
  have hfresh : h.outline? m = none := by
    cases ho : h.outline? m with
    | none => rfl
    | some o => exact absurd (ha.lt_nextStore m o ho) (hm ▸ Nat.lt_irrefl _)
  refine ha.of_same (fun n c => ?_) (fun c => rfl) rfl (fun n hserves => ?_) (fun n o ho => ?_)
  · rw [tracks, tracks, Table.get?_insert]
    split
    · rename_i hn
      rw [hn, ← hm, Option.map_eq_none_iff.mp hfresh]
      rfl
    · rfl
  · rw [Host.serves, houtline, hbackends]
    split
    · rename_i hn
      rw [Host.serves, hn, hfresh] at hserves
      cases hserves
    · exact hserves
  · rw [hnext]
    rw [houtline] at ho
    split at ho
    · rename_i hn
      rw [hn, hm]
      exact Nat.lt_succ_self _
    · exact Nat.lt_succ_of_lt (ha.lt_nextStore n o ho)

end Accounts

/-! ## Operations through a store -/

theorem perform_of_session (hs : h.session? k = some s) (now : Int) (op : Operation) :
    (h.perform k now op).1 = some (s.perform now op).1 := by
  rw [perform, hs]

theorem given_of_session (hs : h.session? k = some s) (now : Int) (op : Operation) (n : Nat) :
    given n h (.event (.perform k now op))
      = if n = k then (Session.cursorOf? (s.perform now op).1).toList else [] := by
  rw [given, perform_of_session hs]
  by_cases hn : n = k
  · rw [if_pos hn, if_pos hn.symm]
    rfl
  · rw [if_neg hn, if_neg (Ne.symm hn)]

/-- No operation but one that closes a result set ends a cursor. -/
theorem ends_perform {op : Operation} (hop : ∀ id, op ≠ .closeResultSet id) (now : Int)
    (n c : Nat) : ends n c h (.event (.perform k now op)) = false := by
  cases op with
  | closeResultSet id => exact absurd rfl (hop id)
  | _ => rfl

/-- It is the store that is asked to take a cursor back that takes it, if one does. -/
theorem takers_closeResultSet (h : Host) (k : Nat) (now : Int) (d c : Nat) :
    takers c h (.event (.perform k now (.closeResultSet d)))
      = if d = c ∧ (h.session? k).any (·.takes c) = true then [k] else [] := by
  rw [takers]
  by_cases hd : d = c
  · subst hd
    cases hs : h.session? k with
    | none =>
        rw [perform, hs]
        rfl
    | some s =>
        rw [perform_of_session hs, Option.any_some, s.isOk_perform_closeResultSet]
        rfl
  · rw [if_neg fun h => hd h.1, if_neg fun h => hd h.1]

/-- A store ends a cursor that it takes back, and no other. -/
theorem ends_closeResultSet (h : Host) (k : Nat) (now : Int) (d n c : Nat) :
    ends n c h (.event (.perform k now (.closeResultSet d)))
      = (decide (c = d) && (h.session? k).any (·.takes d)) := by
  show (!(takers c h _).isEmpty) = _
  rw [takers_closeResultSet]
  by_cases hd : d = c
  · subst hd
    cases (h.session? k).any (·.takes d) <;> simp
  · simp [hd, Ne.symm hd]

/-- A cursor that a store takes back is closed, and no other. -/
theorem isOpen_closeResultSet (hs : h.session? k = some s) (now : Int) (d c : Nat) :
    (h.perform k now (.closeResultSet d)).2.shelf.isOpen c
      = (h.shelf.isOpen c && !(decide (c = d) && s.takes d)) := by
  rw [perform_snd, shelf_borrow hs, Shelf.isOpen_eq, s.entries?_perform_closeResultSet,
    shelf_of_session hs, Shelf.isOpen_eq]
  by_cases hc : c = d <;> cases s.takes d <;> simp [hc]

/-- A store that opens a result set keeps track of its cursor, and of those others that are open. -/
theorem tracks_openResultSet (hs : h.session? k = some s) {source : Source} {es : List Entry}
    (hread : (s.read source).1 = .ok es) (now : Int) (n c : Nat) :
    (h.borrow k fun s => (s.perform now (.openResultSet source)).2).tracks n c
      = if n = k then decide (c = h.shelf.next) || (h.tracks n c && h.shelf.isOpen c)
        else h.tracks n c := by
  rw [tracks_borrow hs, Session.perform_openResultSet_of_read hread]
  split
  · rename_i hn
    rw [hn, tracks_of_session hs, KeySet.contains_add, Session.contains_prune,
      shelf_of_session hs]
  · rfl

/-- The cursor of a result set that is opened is open, and the others are as they were. -/
theorem isOpen_openResultSet_iff (hs : h.session? k = some s) {source : Source} {es : List Entry}
    (hread : (s.read source).1 = .ok es) (now : Int) (c : Nat) :
    (h.borrow k fun s => (s.perform now (.openResultSet source)).2).shelf.isOpen c = true
      ↔ h.shelf.isOpen c = true ∨ c = h.shelf.next := by
  rw [shelf_borrow hs, Session.perform_openResultSet_of_read hread, Shelf.isOpen_eq,
    Shelf.entries?_add, shelf_of_session hs, Shelf.isOpen_eq]
  split
  · rename_i hc
    exact iff_of_true rfl (.inr hc)
  · rename_i hc
    exact (or_iff_left hc).symm

namespace Accounts

/-- A store that has a cursor outstanding is open. -/
theorem isOpen_of_mem (ha : Accounts out h) (hc : c ∈ out k) (hs : h.session? k = some s) :
    s.isOpen = true := by
  obtain ⟨t, ht, hopen⟩ := serves_iff.mp (ha.serves k c hc)
  obtain rfl : s = t := Option.some.inj (hs.symm.trans ht)
  exact hopen

/-- An operation that neither opens nor closes a result set concerns no cursor. -/
theorem tells (ha : Accounts out h) (hs : h.session? k = some s) {f : Session → Session}
    (htells : s.Tells (f s)) (hcloses : Closes [] h (h.borrow k f)) :
    Accounts out (h.borrow k f) := by
  have hshelf : (h.borrow k f).shelf = h.shelf := by
    rw [shelf_borrow hs, htells.shelf, shelf_of_session hs]
  refine ha.of_same (fun n c => ?_) (fun c => by rw [hshelf]) (by rw [hshelf]) (fun n => ?_)
    (hcloses.lt_nextStore ha.lt_nextStore)
  · rw [tracks_borrow hs, htells.cursors]
    split
    · rename_i hn
      rw [hn, tracks_of_session hs]
    · rfl
  · rw [hcloses.serves]
    exact id

/-- A result set that is opened gives out a cursor, if anything can be read. -/
theorem openResultSet (ha : Accounts out h) (hs : h.session? k = some s) (now : Int)
    (source : Source) :
    Accounts (outstanding out h (.event (.perform k now (.openResultSet source))))
      (h.occur (.event (.perform k now (.openResultSet source)))) := by
  have hoccur : h.occur (.event (.perform k now (.openResultSet source)))
      = h.borrow k fun s => (s.perform now (.openResultSet source)).2 :=
    h.perform_snd k now (.openResultSet source)
  have hcloses := closes_borrow h k fun s => s.perform_settled now (.openResultSet source)
  have hends : ∀ n c, ends n c h (.event (.perform k now (.openResultSet source))) = false :=
    fun n c => ends_perform (fun _ heq => Operation.noConfusion heq) now n c
  cases hread : (s.read source).1 with
  | error e =>
      have hperform := Session.perform_openResultSet_of_error hread now
      refine of_quiet ?_ hends fun n => ?_
      · rw [hoccur]
        refine ha.tells hs ?_ hcloses
        rw [hperform]
        exact .refl s
      · rw [given_of_session hs, hperform]
        exact ite_self _
  | ok es =>
      have hshared := shelf_of_session hs
      have hperform := Session.perform_openResultSet_of_read hread now
      have hout : outstanding out h (.event (.perform k now (.openResultSet source)))
          = fun n => out n ++ if n = k then [h.shelf.next] else [] := by
        funext n
        rw [outstanding, given_of_session hs, hperform, hshared]
        congr 1
        rw [List.filter_eq_self]
        intro c _
        rw [hends]
        rfl
      have hserves : ∀ n, (h.borrow k fun s => (s.perform now (.openResultSet source)).2).serves n
          = h.serves n := hcloses.serves
      rw [hout, hoccur]
      have htracks := tracks_openResultSet hs hread now
      refine ha.of_lent (fun n c hc => ?_) (fun n c hc => ?_)
        (isOpen_openResultSet_iff hs hread now) ?_ (fun n => ?_) ?_
        (hcloses.lt_nextStore ha.lt_nextStore)
      · rw [htracks] at hc
        split at hc
        · rename_i hn
          rw [Bool.or_eq_true, decide_eq_true_eq, Bool.and_eq_true] at hc
          exact hc.symm.imp (·.1) fun hnew => ⟨hn, hnew⟩
        · exact .inl hc
      · rw [htracks]
        rcases hc with hold | ⟨hn, hnew⟩
        · obtain ⟨htracked, hcopen⟩ := (ha.mem_iff n c).mp hold
          rw [htracked, hcopen, Bool.and_self, Bool.or_true, ite_self]
        · rw [if_pos hn, hnew, decide_eq_true rfl, Bool.true_or]
      · rw [shelf_borrow hs, hperform, hshared]
        rfl
      · rw [hserves]
        exact id
      · -- what can be read can be read of an open store only
        rw [hserves, serves_iff]
        refine ⟨s, hs, ?_⟩
        by_contra hclosed
        rw [Session.perform_of_closed (Bool.eq_false_iff.mpr hclosed)] at hperform
        cases hperform

/-- A store that is asked to take a cursor back ends it, or does nothing that counts. -/
theorem closeResultSet (ha : Accounts out h) (hs : h.session? k = some s) (now : Int) (d : Nat) :
    Accounts (outstanding out h (.event (.perform k now (.closeResultSet d))))
      (h.occur (.event (.perform k now (.closeResultSet d)))) := by
  have hoccur : h.occur (.event (.perform k now (.closeResultSet d)))
      = h.borrow k fun s => (s.perform now (.closeResultSet d)).2 :=
    h.perform_snd k now (.closeResultSet d)
  have hcloses := closes_borrow h k fun s => s.perform_settled now (.closeResultSet d)
  have hopen : ∀ c, (h.borrow k fun s => (s.perform now (.closeResultSet d)).2).shelf.isOpen c
      = (h.shelf.isOpen c && !(decide (c = d) && s.takes d)) :=
    fun c => hoccur ▸ isOpen_closeResultSet hs now d c
  have hcursors := s.contains_perform_closeResultSet now d
  refine of_silent ?_ fun n => ?_
  · rw [hoccur]
    refine ha.of_ended (fun n c hc => ?_) (fun c hc => ?_) ?_ (fun n c hc => ?_)
      (fun n c hc hnot => ⟨?_, ?_⟩) (hcloses.lt_nextStore ha.lt_nextStore)
    · rw [tracks_borrow hs] at hc
      split at hc
      · rename_i hn
        rw [hn, tracks_of_session hs]
        exact (hcursors c).1 hc
      · exact hc
    · rw [hopen, Bool.and_eq_true] at hc
      exact hc.1
    · rw [shelf_borrow hs, s.next_perform_closeResultSet, shelf_of_session hs]
    · rw [hopen, ((ha.mem_iff n c).mp hc).2, ends_closeResultSet, hs, Option.any_some,
        Bool.true_and, Bool.not_eq_true']
    · obtain ⟨htracked, hcopen⟩ := (ha.mem_iff n c).mp hc
      rw [tracks_borrow hs]
      split
      · rename_i hn
        rw [hn, tracks_of_session hs] at htracked
        rw [(hcursors c).2, htracked]
        -- one that the store keeps track of would have been taken back
        rintro rfl
        have hsopen := ha.isOpen_of_mem (hn ▸ hc) hs
        rw [ends_closeResultSet, hs, Option.any_some, Session.takes, hsopen, htracked,
          shelf_of_session hs, hcopen, decide_eq_true rfl] at hnot
        cases hnot
      · exact htracked
    · rw [hcloses.serves]
      exact ha.serves n c hc
  · rw [given_of_session hs, Session.cursorOf?_perform (fun _ heq => Operation.noConfusion heq)]
    exact ite_self _

/-- **An operation through a store** leaves the account right. -/
theorem perform (ha : Accounts out h) (k : Nat) (now : Int) (op : Operation) :
    Accounts (outstanding out h (.event (.perform k now op)))
      (h.occur (.event (.perform k now op))) := by
  have hoccur : h.occur (.event (.perform k now op)) = h.borrow k fun s => (s.perform now op).2 :=
    h.perform_snd k now op
  cases hs : h.session? k with
  | none =>
      have hnone : h.perform k now op = (none, h) := by rw [Host.perform, hs]
      refine of_quiet ?_ (fun n c => ?_) fun n => ?_
      · rw [hoccur, borrow, hs]
        exact ha
      · by_cases hop : ∃ id, op = .closeResultSet id
        · obtain ⟨id, rfl⟩ := hop
          rw [ends_closeResultSet, hs]
          exact Bool.and_false _
        · exact ends_perform (not_exists.mp hop) now n c
      · rw [given, hnone]
        exact ite_self _
  | some s =>
      by_cases hopening : ∃ source, op = .openResultSet source
      · obtain ⟨source, rfl⟩ := hopening
        exact ha.openResultSet hs now source
      by_cases hclosing : ∃ id, op = .closeResultSet id
      · obtain ⟨id, rfl⟩ := hclosing
        exact ha.closeResultSet hs now id
      rw [not_exists] at hopening hclosing
      refine of_quiet ?_ (fun n c => ends_perform hclosing now n c) fun n => ?_
      · rw [hoccur]
        exact ha.tells hs (Session.perform_tells hopening hclosing s now)
          (closes_borrow h k fun s => s.perform_settled now op)
      · rw [given_of_session hs, Session.cursorOf?_perform hopening]
        exact ite_self _

/-! ## Ends of cursors -/

/-- A cursor that is closed by itself, or dropped, comes to its end, whichever store gave it out. -/
theorem of_closed (ha : Accounts out h) {shelf : Shelf} (d : Nat)
    (hnext : shelf.next = h.shelf.next)
    (hentries : ∀ c, shelf.entries? c = if c = d then none else h.shelf.entries? c) :
    Accounts (fun n => (out n).filter fun c => !(d == c)) { h with shelf } := by
  have hopen : ∀ c, shelf.isOpen c = (h.shelf.isOpen c && !(d == c)) := by
    intro c
    rw [Shelf.isOpen_eq, hentries, Shelf.isOpen_eq]
    by_cases hc : c = d
    · simp [hc]
    · simp [hc, Ne.symm hc]
  refine ha.of_ended (fun _ _ => id) (fun c hc => ?_) hnext (fun n c hc => ?_)
    (fun n c hc _ => ⟨((ha.mem_iff n c).mp hc).1, ha.serves n c hc⟩) ha.lt_nextStore
  · rw [hopen, Bool.and_eq_true] at hc
    exact hc.1
  · rw [hopen, ((ha.mem_iff n c).mp hc).2, Bool.true_and, Bool.not_eq_true']

/-- A store that is closed closes the cursors that it has outstanding, and those of no other. -/
theorem close (ha : Accounts out h) (k : Nat) :
    Accounts (fun n => (out n).filter fun _ => !(k == n)) (h.closeStore k) := by
  rw [closeStore_eq_borrow]
  by_cases hserves : h.serves k = true
  · obtain ⟨s, hs, hopen⟩ := serves_iff.mp hserves
    have hmine : ∀ c, h.tracks k c = s.cursors.contains c := tracks_of_session hs
    have hcopen : ∀ c, (h.borrow k Session.close).shelf.isOpen c
        = (h.shelf.isOpen c && !h.tracks k c) := by
      intro c
      rw [shelf_borrow hs, Shelf.isOpen_eq, Session.entries?_close hopen, hmine,
        shelf_of_session hs, Shelf.isOpen_eq]
      cases s.cursors.contains c <;> simp
    refine ha.of_ended (fun n c hc => ?_) (fun c hc => ?_) ?_ (fun n c hc => ?_)
      (fun n c hc hnot => ?_) ?_
    · rw [tracks_borrow hs, Session.cursors_close hopen] at hc
      split at hc
      · cases hc
      · exact hc
    · rw [hcopen, Bool.and_eq_true] at hc
      exact hc.1
    · rw [shelf_borrow hs, Session.next_close hopen, shelf_of_session hs]
    · -- an open cursor that this store keeps track of is outstanding of it, and of no other
      obtain ⟨htracked, hopened⟩ := (ha.mem_iff n c).mp hc
      rw [hcopen, hopened, Bool.true_and, Bool.not_eq_true', ← Bool.not_eq_true,
        beq_eq_false_iff_ne]
      refine not_congr ⟨fun hk => ?_, fun hk => hk ▸ htracked⟩
      exact ha.apart k n c ((ha.mem_iff k c).mpr ⟨hk, hopened⟩) hc
    · have hn : n ≠ k := Ne.symm (beq_eq_false_iff_ne.mp hnot)
      obtain ⟨hcontains, -, -⟩ := borrow_rest hs Session.close
      refine ⟨?_, ?_⟩
      · rw [tracks_borrow hs, if_neg hn]
        exact ((ha.mem_iff n c).mp hc).1
      · rw [Host.serves, outline?_borrow hs, if_neg hn]
        simp only [hcontains]
        exact ha.serves n c hc
    · intro n o ho
      rw [(borrow_rest hs Session.close).2.1]
      rw [outline?_borrow hs] at ho
      split at ho
      · rename_i hn
        obtain ⟨o, hk, -⟩ := Option.map_eq_some_iff.mp ho
        exact hn ▸ ha.lt_nextStore k o hk
      · exact ha.lt_nextStore n o ho
  · -- a store that is not open has nothing outstanding
    have hnone : (fun n => (out n).filter fun _ => !(k == n)) = out := by
      funext n
      rw [List.filter_eq_self]
      intro c hc
      rw [Bool.not_eq_true', beq_eq_false_iff_ne]
      rintro rfl
      exact hserves (ha.serves k c hc)
    have hsame : h.borrow k Session.close = h := by
      refine borrow_of_same fun s hs => Session.close_of_closed ?_
      rw [← Bool.not_eq_true]
      exact fun hopen => hserves (serves_iff.mpr ⟨s, hs, hopen⟩)
    rw [hnone, hsame]
    exact ha

/-! ## Every happening -/

/-- **Whatever happens on a host**, its stores and its shelf agree with what is outstanding. -/
theorem occur (ha : Accounts out h) (e : Happening) :
    Accounts (outstanding out h e) (h.occur e) := by
  cases e with
  | addBackend => exact of_quiet ha.addBackend (fun _ _ => rfl) fun _ => rfl
  | openStore app id options config backendId =>
      refine of_quiet ?_ (fun _ _ => rfl) fun _ => rfl
      rw [Host.occur]
      split
      · rename_i hok
        exact ha.openStore hok
      · exact ha
  | event e =>
      cases e with
      | perform k now op => exact ha.perform k now op
      | close k => exact of_silent (ha.close k) fun _ => rfl
      | closeCursor d =>
          have hclosed : Accounts _ (h.closeCursor d) :=
            ha.of_closed d (h.shelf.next_update d _) (h.shelf.entries?_close d)
          exact of_silent hclosed fun _ => rfl
      | dropCursor d =>
          have hdropped : Accounts _ (h.dropCursor d) :=
            ha.of_closed d rfl (h.shelf.entries?_drop d)
          exact of_silent hdropped fun _ => rfl
      | flush => exact of_quiet ha.flush (fun _ _ => rfl) fun _ => rfl
      | failWrites backendId on =>
          refine of_quiet ?_ (fun _ _ => rfl) fun _ => rfl
          have hcloses := h.closes_setFailing backendId on
          have hrest : (h.setFailing backendId on).stores = h.stores
              ∧ (h.setFailing backendId on).shelf = h.shelf := by
            unfold setFailing
            split <;> exact ⟨rfl, rfl⟩
          refine ha.of_same (fun n c => ?_) (fun c => ?_) (congrArg Shelf.next hrest.2)
            (fun n => ?_) (hcloses.lt_nextStore ha.lt_nextStore)
          · show ((h.setFailing backendId on).stores.get? n).any _ = _
            rw [hrest.1]
            rfl
          · exact congrArg (Shelf.isOpen · c) hrest.2
          · rw [← hcloses.serves]
            exact id
      | moveCursor cursor move =>
          refine of_quiet ?_ (fun _ _ => rfl) fun _ => rfl
          exact ha.of_same (fun _ _ => rfl) (h.shelf.isOpen_move cursor move)
            (h.shelf.next_update cursor _) (fun _ => id) ha.lt_nextStore
      | register | unregister | report | elapse | expire =>
          refine of_quiet ?_ (fun _ _ => rfl) fun _ => rfl
          exact ha.of_same (fun _ _ => rfl) (fun _ => rfl) rfl (fun _ => id) ha.lt_nextStore

theorem occurAll (ha : Accounts out h) (es : List Happening) :
    Accounts (outstandingAll out h es) (h.occurAll es) := by
  induction es generalizing h out with
  | nil => exact ha
  | cons e es ih => exact ih (ha.occur e)

end Accounts

end PeerStore.Host
