import PeerStore.Proofs.Host.Closed
import PeerStore.Proofs.Store.ResultSet

/-!
# Cursors outstanding

A cursor comes to its end in one of four ways: it is closed by itself, everybody who holds it drops
it, a store takes it back, or the store that gave it out is closed. From what happened on a host one
can tell which cursors each store gave out that have not come to their end (`outstandingAll`).
Stores and shelf account for these if the cursors of a store that are open are those that it keeps
track of, and no two stores keep track of one (`Accounts`).
-/

set_option autoImplicit false

namespace PeerStore.Host

/-! ## What becomes of a cursor -/

/-- The store that takes a cursor back in a happening, if one does. -/
def takers (c : Nat) (h : Host) : Happening → List Nat
  | .event (.perform n now (.closeResultSet d)) =>
      if d = c ∧ (h.perform n now (.closeResultSet d)).1.any Except.isOk = true then [n] else []
  | _ => []

/-- Whether a cursor that a store gave out comes to its end in a happening. -/
def ends (n c : Nat) (h : Host) : Happening → Bool
  | .event (.closeCursor d) | .event (.dropCursor d) => d == c
  | .event (.close k) => k == n
  | e => !(takers c h e).isEmpty

/-- The cursors of each store that are outstanding after a happening: those that were and have not
come to their end, and those that it gives out. -/
def outstanding (out : Nat → List Nat) (h : Host) (e : Happening) (n : Nat) : List Nat :=
  ((out n).filter fun c => !ends n c h e) ++ given n h e

/-- The cursors of each store that are outstanding after happenings, one after the other. -/
def outstandingAll (out : Nat → List Nat) (h : Host) : List Happening → Nat → List Nat
  | [] => out
  | e :: es => outstandingAll (outstanding out h e) (h.occur e) es

/-- Whether a store keeps track of a cursor. -/
def tracks (h : Host) (n c : Nat) : Bool := (h.stores.get? n).any fun x => x.cursors.contains c

/-- Whether there is a store with a number that is open and has its backend. -/
def serves (h : Host) (n : Nat) : Bool :=
  (h.outline? n).any fun o => o.isOpen && h.backends.contains o.backendId

/-- Whether stores and shelf agree with what is outstanding of each store. -/
structure Accounts (out : Nat → List Nat) (h : Host) : Prop where
  mem_iff : ∀ n c, c ∈ out n ↔ h.tracks n c = true ∧ h.shelf.isOpen c = true
  owned : ∀ c, h.shelf.isOpen c = true → ∃ n, c ∈ out n
  apart : ∀ m n c, c ∈ out m → c ∈ out n → m = n
  nodup : ∀ n, (out n).Nodup
  serves : ∀ n c, c ∈ out n → h.serves n = true
  lt_next : ∀ n c, h.tracks n c = true → c < h.shelf.next
  lt_nextStore : ∀ n o, h.outline? n = some o → n < h.nextStore

variable {h h' : Host} {out : Nat → List Nat} {k n c : Nat} {s : Session}

/-! ## Stores and their sessions -/

theorem serves_iff : h.serves n = true ↔ ∃ s, h.session? n = some s ∧ s.isOpen = true := by
  constructor
  · intro hserves
    obtain ⟨o, ho, hand⟩ := (Option.any_eq_true _ _).mp hserves
    rw [Bool.and_eq_true] at hand
    obtain ⟨x, hx, rfl⟩ := Option.map_eq_some_iff.mp ho
    obtain ⟨s, hs, hstore, -⟩ := exists_session?_of_backed hx hand.2
    exact ⟨s, hs, (congrArg Store.isOpen hstore).trans hand.1⟩
  · rintro ⟨s, hs, hopen⟩
    obtain ⟨x, b, hx, hb, -, hxopen⟩ := exists_of_session? hs
    have hcontains : h.backends.contains x.backendId = true := by
      rw [Table.contains, hb]
      rfl
    rw [serves, outline?, hx]
    show (x.isOpen && h.backends.contains x.backendId) = true
    rw [hcontains, ← hxopen, hopen]
    rfl

/-- A store keeps track of what its session does. -/
theorem tracks_of_session (hs : h.session? k = some s) (c : Nat) :
    h.tracks k c = s.cursors.contains c := by
  obtain ⟨x, b, hx, hb, -⟩ := exists_of_session? hs
  rw [tracks, hx, eq_of_session? hs hx hb]
  rfl

theorem shelf_of_session (hs : h.session? k = some s) : s.shelf = h.shelf := by
  obtain ⟨x, b, hx, hb, -⟩ := exists_of_session? hs
  exact congrArg (·.shelf) (eq_of_session? hs hx hb)

theorem tracks_borrow (hs : h.session? k = some s) (f : Session → Session) (n c : Nat) :
    (h.borrow k f).tracks n c = if n = k then (f s).cursors.contains c else h.tracks n c := by
  obtain ⟨x, b, hx, -, -⟩ := exists_of_session? hs
  rw [borrow_eq hs hx]
  unfold tracks
  rw [Table.get?_insert]
  split <;> rfl

theorem shelf_borrow (hs : h.session? k = some s) (f : Session → Session) :
    (h.borrow k f).shelf = (f s).shelf := by
  obtain ⟨x, b, hx, -, -⟩ := exists_of_session? hs
  rw [borrow_eq hs hx]

theorem Closes.serves (hcloses : Closes [] h h') (n : Nat) : h'.serves n = h.serves n := by
  unfold Host.serves
  rw [hcloses.outline?_eq]
  exact congrArg (Option.any · _) (funext fun o => by rw [hcloses.contains])

/-! ## The account -/

namespace Accounts

/-- The cursor that is given out next is new to every store. -/
theorem not_mem_next (ha : Accounts out h) (n : Nat) : h.shelf.next ∉ out n := by
  intro hmem
  exact Nat.lt_irrefl _ (ha.lt_next n _ ((ha.mem_iff n _).mp hmem).1)

/-- Where the same cursors are open and kept track of, the same are outstanding. -/
theorem of_same (ha : Accounts out h) (htracks : ∀ n c, h'.tracks n c = h.tracks n c)
    (hopen : ∀ c, h'.shelf.isOpen c = h.shelf.isOpen c) (hnext : h'.shelf.next = h.shelf.next)
    (hserves : ∀ n, h.serves n = true → h'.serves n = true)
    (hlt : ∀ n o, h'.outline? n = some o → n < h'.nextStore) : Accounts out h' where
  mem_iff n c := by rw [htracks, hopen, ha.mem_iff]
  owned c hc := ha.owned c ((hopen c).symm.trans hc)
  apart := ha.apart
  nodup := ha.nodup
  serves n c hc := hserves n (ha.serves n c hc)
  lt_next n c hc := by
    rw [hnext]
    exact ha.lt_next n c ((htracks n c).symm.trans hc)
  lt_nextStore := hlt

/-- Where cursors come to their end and none is given out, those are outstanding that have not. -/
theorem of_ended {ended : Nat → Nat → Bool} (ha : Accounts out h)
    (htracks : ∀ n c, h'.tracks n c = true → h.tracks n c = true)
    (hopen : ∀ c, h'.shelf.isOpen c = true → h.shelf.isOpen c = true)
    (hnext : h'.shelf.next = h.shelf.next)
    (hended : ∀ n c, c ∈ out n → (h'.shelf.isOpen c = true ↔ ended n c = false))
    (hstill : ∀ n c, c ∈ out n → ended n c = false → h'.tracks n c = true ∧ h'.serves n = true)
    (hlt : ∀ n o, h'.outline? n = some o → n < h'.nextStore) :
    Accounts (fun n => (out n).filter fun c => !ended n c) h' := by
  have hmem : ∀ n c, c ∈ ((out n).filter fun c => !ended n c) ↔ c ∈ out n ∧ ended n c = false := by
    intro n c
    rw [List.mem_filter, Bool.not_eq_true']
  constructor
  case mem_iff =>
    intro n c
    rw [hmem]
    constructor
    · rintro ⟨hc, hnot⟩
      exact ⟨(hstill n c hc hnot).1, (hended n c hc).mpr hnot⟩
    · rintro ⟨htracked, hcopen⟩
      have hc := (ha.mem_iff n c).mpr ⟨htracks n c htracked, hopen c hcopen⟩
      exact ⟨hc, (hended n c hc).mp hcopen⟩
  case owned =>
    intro c hcopen
    obtain ⟨n, hc⟩ := ha.owned c (hopen c hcopen)
    exact ⟨n, (hmem n c).mpr ⟨hc, (hended n c hc).mp hcopen⟩⟩
  case apart =>
    intro m n c hm hn
    exact ha.apart m n c ((hmem m c).mp hm).1 ((hmem n c).mp hn).1
  case nodup =>
    exact fun n => (ha.nodup n).filter _
  case serves =>
    intro n c hc
    obtain ⟨hc, hnot⟩ := (hmem n c).mp hc
    exact (hstill n c hc hnot).2
  case lt_next =>
    intro n c hc
    rw [hnext]
    exact ha.lt_next n c (htracks n c hc)
  case lt_nextStore =>
    exact hlt

/-- Where a store gives out a new cursor, this one is outstanding besides. -/
theorem of_lent (ha : Accounts out h)
    (htracks : ∀ n c, h'.tracks n c = true → h.tracks n c = true ∨ n = k ∧ c = h.shelf.next)
    (hkept : ∀ n c, c ∈ out n ∨ n = k ∧ c = h.shelf.next → h'.tracks n c = true)
    (hopen : ∀ c, h'.shelf.isOpen c = true ↔ h.shelf.isOpen c = true ∨ c = h.shelf.next)
    (hnext : h'.shelf.next = h.shelf.next + 1)
    (hserves : ∀ n, h.serves n = true → h'.serves n = true) (hk : h'.serves k = true)
    (hlt : ∀ n o, h'.outline? n = some o → n < h'.nextStore) :
    Accounts (fun n => out n ++ if n = k then [h.shelf.next] else []) h' := by
  have hmem : ∀ n c, c ∈ (out n ++ if n = k then [h.shelf.next] else [])
      ↔ c ∈ out n ∨ n = k ∧ c = h.shelf.next := by
    intro n c
    rw [List.mem_append]
    by_cases hn : n = k <;> simp [hn]
  constructor
  case mem_iff =>
    intro n c
    rw [hmem, hopen]
    constructor
    · intro hc
      refine ⟨hkept n c hc, ?_⟩
      rcases hc with hold | hnew
      · exact .inl ((ha.mem_iff n c).mp hold).2
      · exact .inr hnew.2
    · rintro ⟨htracked, hcopen⟩
      rcases htracks n c htracked with hold | hnew
      · -- a cursor that was kept track of has another number
        have hne : c ≠ h.shelf.next := Nat.ne_of_lt (ha.lt_next n c hold)
        exact .inl ((ha.mem_iff n c).mpr ⟨hold, hcopen.resolve_right hne⟩)
      · exact .inr hnew
  case owned =>
    intro c hcopen
    rcases (hopen c).mp hcopen with hold | hnew
    · obtain ⟨n, hc⟩ := ha.owned c hold
      exact ⟨n, (hmem n c).mpr (.inl hc)⟩
    · exact ⟨k, (hmem k c).mpr (.inr ⟨rfl, hnew⟩)⟩
  case apart =>
    intro m n c hm hn
    rcases (hmem m c).mp hm with hm | ⟨hmk, hnew⟩
    · rcases (hmem n c).mp hn with hn | ⟨-, hnew⟩
      · exact ha.apart m n c hm hn
      · exact absurd (hnew ▸ hm) (ha.not_mem_next m)
    · rcases (hmem n c).mp hn with hn | ⟨hnk, -⟩
      · exact absurd (hnew ▸ hn) (ha.not_mem_next n)
      · exact hmk.trans hnk.symm
  case nodup =>
    intro n
    by_cases hn : n = k
    · rw [if_pos hn]
      refine List.nodup_append.mpr ⟨ha.nodup n, List.nodup_singleton _, ?_⟩
      rintro c hc _ hnew rfl
      rw [List.mem_singleton.mp hnew] at hc
      exact ha.not_mem_next n hc
    · rw [if_neg hn, List.append_nil]
      exact ha.nodup n
  case serves =>
    intro n c hc
    rcases (hmem n c).mp hc with hold | ⟨rfl, -⟩
    · exact hserves n (ha.serves n c hold)
    · exact hk
  case lt_next =>
    intro n c hc
    rw [hnext]
    rcases htracks n c hc with hold | ⟨-, rfl⟩
    · exact Nat.lt_succ_of_lt (ha.lt_next n c hold)
    · exact Nat.lt_succ_self _
  case lt_nextStore =>
    exact hlt

/-- A happening that gives out no cursor leaves outstanding what has not come to its end. -/
theorem of_silent {e : Happening}
    (ha : Accounts (fun n => (out n).filter fun c => !ends n c h e) (h.occur e))
    (hgiven : ∀ n, given n h e = []) : Accounts (outstanding out h e) (h.occur e) := by
  have hsame : outstanding out h e = fun n => (out n).filter fun c => !ends n c h e := by
    funext n
    rw [outstanding, hgiven, List.append_nil]
  rw [hsame]
  exact ha

/-- A happening that gives out no cursor and ends none leaves outstanding what was. -/
theorem of_quiet {e : Happening} (ha : Accounts out (h.occur e))
    (hends : ∀ n c, ends n c h e = false) (hgiven : ∀ n, given n h e = []) :
    Accounts (outstanding out h e) (h.occur e) := by
  have hsame : (fun n => (out n).filter fun c => !ends n c h e) = out := by
    funext n
    rw [List.filter_eq_self]
    intro c _
    rw [hends]
    rfl
  exact of_silent (hsame.symm ▸ ha) hgiven

end Accounts

end PeerStore.Host
