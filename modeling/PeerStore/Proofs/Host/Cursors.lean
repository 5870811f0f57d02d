import PeerStore.Proofs.Host.Accounts

/-!
# Who has which cursor

Cursors have the entries that they had when they were opened, as long as they are open
(`ages_occurAll`), and those of a store that are open are the ones outstanding of it
(`Accounts.mem_outstandingAll_of_given`). So a store takes back exactly the cursors that it has
outstanding, and each only once (**`cursors_close_once`**).
-/

set_option autoImplicit false

namespace PeerStore.Host

variable {h h' : Host} {out : Nat → List Nat} {k n c : Nat} {s : Session}

/-! ## Shelves that age -/

theorem ages_borrow (h : Host) (k : Nat) {f : Session → Session}
    (hf : ∀ s : Session, s.shelf.Ages (f s).shelf) : h.shelf.Ages (h.borrow k f).shelf := by
  cases hs : h.session? k with
  | none =>
      rw [borrow, hs]
      exact .refl _
  | some s =>
      rw [shelf_borrow hs, ← shelf_of_session hs]
      exact hf s

theorem shelf_flush (h : Host) : h.flush.shelf = h.shelf := by
  refine flush_induction (P := fun h' => h'.shelf = h.shelf) rfl fun h' k hshelf => ?_
  unfold flushStore
  split <;> exact hshelf

/-- **Whatever happens on a host**, no cursor comes to other entries by it. -/
theorem ages_occur (h : Host) (e : Happening) : h.shelf.Ages (h.occur e).shelf := by
  cases e with
  | addBackend => exact .refl _
  | openStore app id options config backendId =>
      rw [occur]
      split
      · rename_i hok
        obtain ⟨-, rfl⟩ := openStore_inv hok
        exact .refl _
      · exact .refl _
  | event e =>
      cases e with
      | perform k now op =>
          show h.shelf.Ages (h.perform k now op).2.shelf
          rw [perform_snd]
          exact h.ages_borrow k fun s : Session => s.ages_perform now op
      | close k => exact h.ages_borrow k fun s : Session => s.ages_close
      | failWrites backendId on =>
          show h.shelf.Ages (h.setFailing backendId on).shelf
          unfold setFailing
          split <;> exact .refl _
      | flush =>
          show h.shelf.Ages h.flush.shelf
          rw [shelf_flush]
          exact .refl _
      | moveCursor cursor move => exact h.shelf.ages_move cursor move
      | closeCursor cursor => exact h.shelf.ages_close cursor
      | dropCursor cursor => exact h.shelf.ages_drop cursor
      | register | unregister | report | elapse | expire => exact .refl _

theorem ages_occurAll (h : Host) (es : List Happening) : h.shelf.Ages (h.occurAll es).shelf := by
  induction es generalizing h with
  | nil => exact .refl _
  | cons e es ih => exact (h.ages_occur e).trans (ih (h.occur e))

/-! ## The account of a run -/

/-- A cursor that is given out has the next number. -/
theorem eq_next_of_given {e : Happening} (hc : c ∈ given n h e) : c = h.shelf.next := by
  cases e with
  | addBackend | openStore => cases hc
  | event e =>
      cases e with
      | perform k now op =>
          cases hs : h.session? k with
          | none =>
              rw [given, perform, hs] at hc
              split at hc <;> cases hc
          | some s =>
              rw [given_of_session hs] at hc
              split at hc
              · rw [← shelf_of_session hs]
                exact (s.perform_hands now op).cursor_eq (Option.mem_toList.mp hc)
              · cases hc
      | _ => cases hc

/-- A store that takes a cursor back keeps track of it while it is open, and the cursor ends. -/
theorem of_mem_takers {e : Happening} (hk : k ∈ takers c h e) :
    h.tracks k c = true ∧ h.shelf.isOpen c = true ∧ ends k c h e = true := by
  cases e with
  | addBackend | openStore => cases hk
  | event e =>
      cases e with
      | perform m now op =>
          cases op with
          | closeResultSet d =>
              rw [takers_closeResultSet] at hk
              split at hk
              · rename_i htaken
                obtain rfl := List.mem_singleton.mp hk
                obtain ⟨rfl, hany⟩ := htaken
                obtain ⟨s, hs, htakes⟩ := (Option.any_eq_true _ _).mp hany
                rw [ends_closeResultSet, hany, tracks_of_session hs, ← shelf_of_session hs,
                  decide_eq_true rfl]
                rw [Session.takes, Bool.and_eq_true, Bool.and_eq_true] at htakes
                exact ⟨htakes.2.1, htakes.2.2, rfl⟩
              · cases hk
          | _ => cases hk
      | _ => cases hk

namespace Accounts

theorem lt_next_of_mem (ha : Accounts out h) (hc : c ∈ out n) : c < h.shelf.next :=
  ha.lt_next n c ((ha.mem_iff n c).mp hc).1

/-- A cursor that is still open after a happening is still outstanding. -/
theorem mem_outstanding (ha : Accounts out h) (hc : c ∈ out n) {e : Happening}
    (hopen : (h.occur e).shelf.isOpen c = true) : c ∈ outstanding out h e n := by
  obtain ⟨m, hm⟩ := (ha.occur e).owned c hopen
  rcases List.mem_append.mp hm with hold | hnew
  · obtain rfl := ha.apart m n c (List.mem_filter.mp hold).1 hc
    exact hm
  · exact absurd (eq_next_of_given hnew ▸ hc) (ha.not_mem_next n)

theorem mem_outstandingAll (ha : Accounts out h) (hc : c ∈ out n) {es : List Happening}
    (hopen : (h.occurAll es).shelf.isOpen c = true) : c ∈ outstandingAll out h es n := by
  induction es generalizing h out with
  | nil => exact hc
  | cons e es ih =>
      have hlt : c < (h.occur e).shelf.next :=
        Nat.lt_of_lt_of_le (ha.lt_next_of_mem hc) (h.ages_occur e).next_le
      have hsoon := ((h.occur e).ages_occurAll es).later.isOpen c hlt hopen
      exact ih (ha.occur e) (ha.mem_outstanding hc hsoon) hopen

/-- **Of the cursors that a store gave out**, those are outstanding that are still open. -/
theorem mem_outstandingAll_of_given (ha : Accounts out h) {es : List Happening}
    (hc : c ∈ gather (given n) h es) (hopen : (h.occurAll es).shelf.isOpen c = true) :
    c ∈ outstandingAll out h es n := by
  induction es generalizing h out with
  | nil => cases hc
  | cons e es ih =>
      rcases List.mem_append.mp hc with hnow | hsoon
      · exact (ha.occur e).mem_outstandingAll (List.mem_append.mpr (.inr hnow)) hopen
      · exact ih (ha.occur e) hsoon hopen

/-- A number that was given is not given again. -/
theorem lt_next_of_given (ha : Accounts out h) {es : List Happening}
    (hc : c ∈ gather (given n) h es) : c < (h.occurAll es).shelf.next := by
  induction es generalizing h out with
  | nil => cases hc
  | cons e es ih =>
      rcases List.mem_append.mp hc with hnow | hsoon
      · have hlt := (ha.occur e).lt_next_of_mem (List.mem_append.mpr (.inr hnow))
        exact Nat.lt_of_lt_of_le hlt ((h.occur e).ages_occurAll es).next_le
      · exact ih (ha.occur e) hsoon

end Accounts

/-- What is outstanding after a run was so before, or was given out in it. -/
theorem mem_of_outstandingAll {es : List Happening} (hc : c ∈ outstandingAll out h es n) :
    c ∈ out n ∨ c ∈ gather (given n) h es := by
  induction es generalizing h out with
  | nil => exact .inl hc
  | cons e es ih =>
      rcases ih hc with hnow | hsoon
      · rcases List.mem_append.mp hnow with hold | hnew
        · exact .inl (List.mem_filter.mp hold).1
        · exact .inr (List.mem_append.mpr (.inl hnew))
      · exact .inr (List.mem_append.mpr (.inr hsoon))

/-! ## Cursors that are closed -/

/-- **A cursor that is closed stays closed**, whatever happens. -/
theorem isOpen_occurAll_of_closed (hlt : c < h.shelf.next) (hclosed : h.shelf.isOpen c = false)
    (es : List Happening) : (h.occurAll es).shelf.isOpen c = false := by
  rw [← Bool.not_eq_true] at hclosed ⊢
  exact fun hopen => hclosed ((h.ages_occurAll es).later.isOpen c hlt hopen)

/-- No store takes back a cursor that is closed. -/
theorem gather_takers_of_closed (hlt : c < h.shelf.next) (hclosed : h.shelf.isOpen c = false)
    (es : List Happening) : gather (takers c) h es = [] := by
  induction es generalizing h with
  | nil => rfl
  | cons e es ih =>
      have hnone : takers c h e = [] := by
        rw [List.eq_nil_iff_forall_not_mem]
        intro k hk
        rw [(of_mem_takers hk).2.1] at hclosed
        cases hclosed
      have hlt' : c < (h.occur e).shelf.next := Nat.lt_of_lt_of_le hlt (h.ages_occur e).next_le
      rw [gather, hnone, ih hlt' (isOpen_occurAll_of_closed hlt hclosed [e])]
      rfl

theorem length_takers_le (c : Nat) (h : Host) (e : Happening) : (takers c h e).length ≤ 1 := by
  cases e with
  | addBackend | openStore => exact Nat.zero_le _
  | event e =>
      cases e with
      | perform m now op =>
          cases op with
          | closeResultSet d =>
              rw [takers]
              split
              · exact Nat.le_refl _
              · exact Nat.zero_le _
          | _ => exact Nat.zero_le _
      | _ => exact Nat.zero_le _

namespace Accounts

/-- A cursor that a store takes back is closed by that. -/
theorem closed_of_takers (ha : Accounts out h) {e : Happening} (hk : k ∈ takers c h e) :
    (h.occur e).shelf.isOpen c = false := by
  obtain ⟨htracked, hopen, hends⟩ := of_mem_takers hk
  have hc : c ∈ out k := (ha.mem_iff k c).mpr ⟨htracked, hopen⟩
  rw [← Bool.not_eq_true]
  intro hstill
  -- were it still open, it would be outstanding, and so not have ended
  rcases List.mem_append.mp (ha.mem_outstanding hc hstill) with hold | hnew
  · have hnot := (List.mem_filter.mp hold).2
    rw [hends] at hnot
    cases hnot
  · exact ha.not_mem_next k (eq_next_of_given hnew ▸ hc)

/-- **A cursor is taken back once at most**, by whatever store. -/
theorem length_gather_takers_le (ha : Accounts out h) (c : Nat) (es : List Happening) :
    (gather (takers c) h es).length ≤ 1 := by
  induction es generalizing h out with
  | nil => exact Nat.zero_le _
  | cons e es ih =>
      rw [gather, List.length_append]
      cases htakers : takers c h e with
      | nil =>
          rw [List.length_nil, Nat.zero_add]
          exact ih (ha.occur e)
      | cons k ks =>
          have hk : k ∈ takers c h e := htakers ▸ List.mem_cons_self
          have hlt : c < (h.occur e).shelf.next := by
            obtain ⟨htracked, -, -⟩ := of_mem_takers hk
            exact Nat.lt_of_lt_of_le (ha.lt_next k c htracked) (h.ages_occur e).next_le
          rw [gather_takers_of_closed hlt (ha.closed_of_takers hk), ← htakers]
          exact length_takers_le c h e

/-- The number of result sets of a store is that of its cursors outstanding. -/
theorem openResultSets_eq (ha : Accounts out h) (hs : h.session? n = some s) :
    s.openResultSets = (out n).length := by
  have hperm : (s.cursors.keys.filter s.shelf.isOpen).Perm (out n) := by
    refine (List.perm_ext_iff_of_nodup (s.cursors.nodup_keys.filter _) (ha.nodup n)).mpr fun c => ?_
    rw [List.mem_filter, Table.mem_keys_iff, ha.mem_iff, tracks_of_session hs, shelf_of_session hs]
  rw [Session.openResultSets_eq_countP, List.countP_eq_length_filter]
  exact hperm.length_eq

end Accounts

/-! ## Any host -/

/-- Where there is no store and no cursor, none is outstanding. -/
theorem accounts_of_empty (hstores : h.stores = Table.empty) (hshelf : h.shelf = {}) :
    Accounts (fun _ => []) h := by
  have htracks : ∀ n c, h.tracks n c = false := fun n c => by
    rw [tracks, hstores]
    rfl
  have hopen : ∀ c, h.shelf.isOpen c = false := fun c => by
    rw [hshelf]
    rfl
  constructor
  case mem_iff =>
    intro n c
    rw [htracks]
    simp
  case owned =>
    intro c hc
    rw [hopen] at hc
    cases hc
  case apart =>
    exact fun _ _ _ hm => absurd hm List.not_mem_nil
  case nodup =>
    exact fun _ => List.nodup_nil
  case serves =>
    exact fun _ _ hc => absurd hc List.not_mem_nil
  case lt_next =>
    intro n c hc
    rw [htracks] at hc
    cases hc
  case lt_nextStore =>
    intro n o ho
    rw [outline?, hstores] at ho
    cases ho

/-- A result set that is opened has the entries that were read as long as it is open. -/
theorem entries?_openResultSet (hs : h.session? n = some s) {source : Source} {es : List Entry}
    (hread : (s.read source).1 = .ok es) (now : Int) :
    let opened := h.perform n now (.openResultSet source)
    opened.1 = some (.ok (.cursor h.shelf.next))
      ∧ opened.2.shelf.entries? h.shelf.next = some es
      ∧ ∀ after, (opened.2.occurAll after).shelf.isOpen h.shelf.next = true →
        (opened.2.occurAll after).shelf.entries? h.shelf.next = some es := by
  intro opened
  have hperform := Session.perform_openResultSet_of_read hread now
  have hanswer : opened.1 = some (.ok (.cursor h.shelf.next)) := by
    rw [← shelf_of_session hs]
    exact (perform_of_session hs now _).trans (congrArg (fun r => some r.1) hperform)
  have hshelf : opened.2.shelf = (h.shelf.add (.ofEntries es)).2 := by
    show (h.perform n now _).2.shelf = _
    rw [perform_snd, shelf_borrow hs, hperform, shelf_of_session hs]
  have hentries : opened.2.shelf.entries? h.shelf.next = some es := by
    rw [hshelf, Shelf.entries?_add, if_pos rfl]
    rfl
  refine ⟨hanswer, hentries, fun after hopen => ?_⟩
  rw [Shelf.isOpen_eq, Option.isSome_iff_exists] at hopen
  obtain ⟨es', hes'⟩ := hopen
  have hlt : h.shelf.next < opened.2.shelf.next := by
    rw [hshelf]
    exact Nat.lt_succ_self _
  have hthen := (opened.2.ages_occurAll after).entries? _ hlt es' hes'
  rw [hes', ← hthen, hentries]

/-- A store closes a result set exactly if it has the cursor outstanding. -/
theorem Accounts.closeResultSet_eq_ok_iff (ha : Accounts out h) (hs : h.session? n = some s)
    (now : Int) (c : Nat) :
    (h.perform n now (.closeResultSet c)).1 = some (.ok .done) ↔ c ∈ out n ∧ s.isOpen = true := by
  rw [perform_of_session hs, Option.some.injEq, Session.perform_closeResultSet_eq_ok_iff,
    Session.takes, Bool.and_eq_true, Bool.and_eq_true, ← tracks_of_session hs, shelf_of_session hs,
    ← ha.mem_iff]
  exact and_comm

/-- What an attempt to close a result set does to any cursor. -/
theorem isOpen_closeResultSet_iff (hs : h.session? n = some s) (now : Int) (c d : Nat) :
    (h.perform n now (.closeResultSet c)).2.shelf.isOpen d = true
      ↔ h.shelf.isOpen d = true
        ∧ ¬(d = c ∧ (h.perform n now (.closeResultSet c)).1 = some (.ok .done)) := by
  rw [isOpen_closeResultSet hs, perform_of_session hs, Option.some.injEq,
    Session.perform_closeResultSet_eq_ok_iff, Bool.and_eq_true, Bool.not_eq_true',
    ← Bool.not_eq_true, Bool.and_eq_true, decide_eq_true_eq]

/-- **Every cursor is closed once.** Let anything have happened on a host that began without stores
and cursors. A result set that is opened is a cursor over the entries that were read, and has these
entries as long as it is open, whatever happens afterwards. A store closes a result set if and only
if it gave out this cursor, the store is open, and the cursor is still open; that closes this cursor
and no other, and nothing else about cursors comes of the attempt. Those cursors of a store are
still open that have not come to their end since they were given out (`ends`): by themselves, by
being taken back, or with their store. So no cursor is taken back twice, be it by different stores,
and one that is closed stays closed. The number of result sets of a store is that of the cursors
that it gave out and that have not come to their end. -/
theorem cursors_close_once {h₀ : Host} (hstores : h₀.stores = Table.empty) (hshelf : h₀.shelf = {})
    (before : List Happening) :
    let h := h₀.occurAll before
    let handed := fun n => gather (given n) h₀ before
    let out := outstandingAll (fun _ => []) h₀ before
    (∀ n s now source es, h.session? n = some s → (s.read source).1 = .ok es →
        let opened := h.perform n now (.openResultSet source)
        opened.1 = some (.ok (.cursor h.shelf.next))
          ∧ opened.2.shelf.entries? h.shelf.next = some es
          ∧ ∀ after, (opened.2.occurAll after).shelf.isOpen h.shelf.next = true →
            (opened.2.occurAll after).shelf.entries? h.shelf.next = some es)
      ∧ (∀ n s now c, h.session? n = some s →
        let closing := h.perform n now (.closeResultSet c)
        (closing.1 = some (.ok .done)
            ↔ c ∈ handed n ∧ s.isOpen = true ∧ h.shelf.isOpen c = true)
          ∧ ∀ d, closing.2.shelf.isOpen d = true
            ↔ h.shelf.isOpen d = true ∧ ¬(d = c ∧ closing.1 = some (.ok .done)))
      ∧ (∀ n c, c ∈ out n ↔ c ∈ handed n ∧ h.shelf.isOpen c = true)
      ∧ (∀ c, (gather (takers c) h₀ before).length ≤ 1)
      ∧ (∀ n c after, c ∈ handed n → h.shelf.isOpen c = false →
        (h.occurAll after).shelf.isOpen c = false)
      ∧ ∀ n s, h.session? n = some s → s.openResultSets = (out n).length ∧ (out n).Nodup := by
  intro h handed out
  have hempty := accounts_of_empty hstores hshelf
  have ha : Accounts out h := hempty.occurAll before
  have hout : ∀ n c, c ∈ out n ↔ c ∈ handed n ∧ h.shelf.isOpen c = true := by
    intro n c
    constructor
    · intro hc
      exact ⟨(mem_of_outstandingAll hc).resolve_left List.not_mem_nil,
        ((ha.mem_iff n c).mp hc).2⟩
    · rintro ⟨hc, hopen⟩
      exact hempty.mem_outstandingAll_of_given hc hopen
  refine ⟨?_, ?_, hout, fun c => hempty.length_gather_takers_le c before, ?_, ?_⟩
  · exact fun n s now source es hs hread => entries?_openResultSet hs hread now
  · intro n s now c hs closing
    refine ⟨?_, isOpen_closeResultSet_iff hs now c⟩
    show (h.perform n now _).1 = _ ↔ _
    rw [ha.closeResultSet_eq_ok_iff hs, hout, and_right_comm, and_assoc]
  · intro n c after hc hclosed
    exact isOpen_occurAll_of_closed (hempty.lt_next_of_given hc) hclosed after
  · exact fun n s hs => ⟨ha.openResultSets_eq hs, ha.nodup n⟩

/-- Two stores have a cursor each. The first may not close that of the second, which does so itself
and cannot do so again; then the first closes its own. What is read when one more result set is
opened is there as long as it is open, though the store is cleared. -/
theorem cursors_close_once_of_two_stores :
    let h₀ : Host := { directory := { self := "self" }, crashes := fun _ _ => false }
    let before : List Happening :=
      [.addBackend, .openStore "app" "left" .inMemory {} 1, .addBackend,
        .openStore "app" "right" .inMemory {} 2, .event (.perform 1 1 (.put [107] [118])),
        .event (.perform 1 2 (.openResultSet (.keys []))),
        .event (.perform 2 3 (.openResultSet (.keys []))),
        .event (.perform 1 4 (.closeResultSet 2)), .event (.perform 2 5 (.closeResultSet 2))]
    ((h₀.occurAll before).perform 1 6 (.closeResultSet 1)).1 = some (.ok .done)
      ∧ ((h₀.occurAll before).perform 2 6 (.closeResultSet 1)).1 ≠ some (.ok .done)
      ∧ ((h₀.occurAll before).perform 2 6 (.closeResultSet 2)).1 ≠ some (.ok .done)
      ∧ gather (takers 2) h₀ before = [2]
      ∧ (((h₀.occurAll before).perform 1 6 (.openResultSet (.keys []))).2.occurAll
          [.event (.perform 1 7 .clear)]).shelf.entries? (h₀.occurAll before).shelf.next
        = some [⟨[107], [118]⟩] := by
  intro h₀ before
  obtain ⟨hentries, hcloses, -⟩ := @cursors_close_once h₀ rfl rfl before
  obtain ⟨left, hleft⟩ : ∃ s, (h₀.occurAll before).session? 1 = some s :=
    Option.isSome_iff_exists.mp (by decide +kernel)
  obtain ⟨right, hright⟩ : ∃ s, (h₀.occurAll before).session? 2 = some s :=
    Option.isSome_iff_exists.mp (by decide +kernel)
  have hleftopen : left.isOpen = true := by
    have hmap : ((h₀.occurAll before).session? 1).map (·.isOpen) = some true := by decide +kernel
    rw [hleft] at hmap
    exact Option.some.inj hmap
  have hread : (left.read (.keys [])).1 = .ok [⟨[107], [118]⟩] := by
    have hmap : ((h₀.occurAll before).session? 1).map (fun s => (s.read (.keys [])).1.toOption)
        = some (some [⟨[107], [118]⟩]) := by decide +kernel
    rw [hleft, Option.map_some, Option.some.injEq] at hmap
    cases hok : (left.read (.keys [])).1 with
    | error e =>
        rw [hok] at hmap
        cases hmap
    | ok es =>
        rw [hok] at hmap
        cases hmap
        rfl
  have hown := (hcloses 1 left 6 1 hleft).1.mpr ⟨by decide +kernel, hleftopen, by decide +kernel⟩
  refine ⟨hown, fun hforeign => ?_, fun hagain => ?_, by decide +kernel, ?_⟩
  · exact absurd ((hcloses 2 right 6 1 hright).1.mp hforeign).1 (by decide +kernel)
  · exact absurd ((hcloses 2 right 6 2 hright).1.mp hagain).2.2 (by decide +kernel)
  · exact (hentries 1 left 6 (.keys []) _ hleft hread).2.2 [.event (.perform 1 7 .clear)]
      (by decide +kernel)

end PeerStore.Host
