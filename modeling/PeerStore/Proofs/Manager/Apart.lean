import PeerStore.Proofs.Manager.Moves

/-!
# Stores that are kept apart

What a manager has under a name is a handle in the table, a retained backend, every handle of the
name, and the backends that the name holds. Each event concerns names, and leaves all of that as it
is under every other name (`Leaves`, **`leaves_handle`**). A handle that is closed stays closed
(`Assigned.ages_run`), and nothing gets through it. So the stores of a manager are kept apart
(**`stores_apart`**): no backend has two open handles over it, no call reaches the store of another
name, and a handle that is closed reaches no store at all.
-/

set_option autoImplicit false

namespace PeerStore.Manager

variable {m m' m'' : Manager} {name other : StoreName} {n : Nat}

/-! ## What there is under a name -/

/-- The handle with a number, if it is one of a name. -/
def named? (m : Manager) (name : StoreName) (n : Nat) : Option Hosted :=
  (m.stores.get? n).filter fun x => x.outline.name == name

/-- Whether everything under a name is as it was. -/
structure Leaves (name : StoreName) (m m' : Manager) : Prop where
  opened : m'.opened.get? name = m.opened.get? name
  retained : m'.retained.get? name = m.retained.get? name
  handles : ∀ n, m'.named? name n = m.named? name n
  backends : ∀ b, m.Holds name b → m'.backends.get? b = m.backends.get? b

theorem named?_eq_some_iff {x : Hosted} :
    m.named? name n = some x ↔ m.stores.get? n = some x ∧ x.outline.name = name := by
  rw [named?, Option.filter_eq_some_iff, beq_iff_eq]

theorem named?_eq_none_iff :
    m.named? name n = none ↔ ∀ o, m.outline? n = some o → o.name ≠ name := by
  rw [named?, Option.filter_eq_none_iff, Host.outline?]
  cases m.stores.get? n with
  | none => simp
  | some x => simp

/-- A backend is held through what there is under the name. -/
theorem holds_iff {b : Nat} : m.Holds name b ↔
    m.retained.get? name = some b ∨ ∃ n x, m.named? name n = some x ∧ x.backendId = b := by
  refine or_congr_right ⟨?_, ?_⟩
  · rintro ⟨n, o, ho, hname, hover⟩
    obtain ⟨x, hx, rfl⟩ := Option.map_eq_some_iff.mp ho
    exact ⟨n, x, named?_eq_some_iff.mpr ⟨hx, hname⟩, hover⟩
  · rintro ⟨n, x, hx, hover⟩
    obtain ⟨hx, hname⟩ := named?_eq_some_iff.mp hx
    exact ⟨n, x.outline, congrArg (Option.map _) hx, hname, hover⟩

namespace Leaves

theorem refl (name : StoreName) (m : Manager) : Leaves name m m :=
  ⟨rfl, rfl, fun _ => rfl, fun _ _ => rfl⟩

theorem holds (h : Leaves name m m') {b : Nat} (hb : m.Holds name b) : m'.Holds name b := by
  rw [holds_iff] at hb ⊢
  simp only [h.retained, h.handles]
  exact hb

theorem trans (h : Leaves name m m') (h' : Leaves name m' m'') : Leaves name m m'' where
  opened := h'.opened.trans h.opened
  retained := h'.retained.trans h.retained
  handles n := (h'.handles n).trans (h.handles n)
  backends b hb := (h'.backends b (h.holds hb)).trans (h.backends b hb)

end Leaves

/-! ## What concerns a name -/

/-- Whether an event concerns a name: a call that does, what goes through a handle of the name, or
failing writes to a backend that the name holds. -/
def Concerns (m : Manager) : Event → StoreName → Prop
  | .host (.failWrites b _), name => m.Holds name b
  | .host e, name => ∃ n o, e.reaches n ∧ m.outline? n = some o ∧ o.name = name
  | e, name => e.concerns name

theorem concerns_of_reaches {e : Host.Event} {o : Outline} (hn : e.reaches n)
    (ho : m.outline? n = some o) (hname : o.name = name) : m.Concerns (.host e) name := by
  cases e with
  | failWrites => exact hn.elim
  | _ => exact ⟨n, o, hn, ho, hname⟩

/-- An event that reaches a backend concerns the name that holds it, for no other one does. -/
theorem Assigned.concerns_of_reached (h : m.Assigned) {e : Host.Event} {b : Nat}
    (hb : m.toHost.reached e b) (hholds : m.Holds name b) : m.Concerns (.host e) name := by
  cases e with
  | perform n | close n =>
      obtain ⟨o, ho, hover⟩ := hb
      exact ⟨n, o, rfl, ho, h.unique b o.name name (.inr ⟨n, o, ho, rfl, hover⟩) hholds⟩
  | failWrites c on =>
      obtain rfl : b = c := hb
      exact hholds
  | _ => exact hb.elim

/-! ## Moves leave other names alone -/

theorem leaves_opens (h : m.Assigned) (hne : name ≠ other) (hmove : Opens other m m') :
    Leaves name m m' := by
  cases hmove with
  | backed persistent =>
      refine ⟨rfl, ?_, fun _ => rfl, fun b hb => Table.get?_insert_of_ne _ _ ?_⟩
      · show (if persistent = true then _ else _ : Table StoreName Nat).get? name = _
        split
        · exact Table.get?_insert_of_ne _ _ (Ne.symm hne)
        · rfl
      · rintro rfl
        exact h.not_holds_nextBackend name hb
  | @opened options b n host _ _ _ _ _ hok =>
      obtain ⟨hn, -, -, hbackends, houtline⟩ := Host.openStore_eq_ok hok
      refine ⟨Table.get?_insert_of_ne _ _ (Ne.symm hne), rfl, fun k => ?_, fun b _ => ?_⟩
      · by_cases hk : k = n
        · -- the new handle is none of this name, and its number was that of no handle
          have hnone : m.outline? k = none := by
            cases ho : m.outline? k with
            | none => rfl
            | some o =>
                have hlt := h.sound.lt_nextStore k o ho
                rw [hk, hn] at hlt
                exact absurd hlt (Nat.lt_irrefl _)
          have hbefore : m.named? name k = none := by
            refine named?_eq_none_iff.mpr fun o ho => ?_
            rw [hnone] at ho
            cases ho
          rw [hbefore, named?_eq_none_iff]
          intro o ho
          have ho : host.outline? k = some o := ho
          rw [houtline, if_pos hk] at ho
          cases ho
          exact Ne.symm hne
        · show (host.stores.get? k).filter _ = _
          rw [(Host.openStore_rest hok).2 k hk]
          rfl
      · show host.backends.get? b = _
        rw [hbackends]

theorem leaves_host (h : m.Assigned) {e : Host.Event} (hnot : ¬m.Concerns (.host e) name) :
    Leaves name m (m.handle (.host e)) := by
  have hreaches := m.toHost.reaches_handle e
  refine ⟨rfl, rfl, fun n => ?_, fun b hb =>
    hreaches.backends b fun hb' => hnot (h.concerns_of_reached hb' hb)⟩
  by_cases hn : e.reaches n
  · -- a handle that is reached has another name, before and after
    have hbefore : m.named? name n = none :=
      named?_eq_none_iff.mpr fun o ho hname => hnot (concerns_of_reaches hn ho hname)
    rw [hbefore, named?_eq_none_iff]
    intro o' ho'
    have hcloses := Host.closes_handle h.sound e
    have ho' : (m.toHost.handle e).outline? n = some o' := ho'
    rw [hcloses.outline?] at ho'
    obtain ⟨o, ho, rfl⟩ := Option.map_eq_some_iff.mp ho'
    split <;> exact fun hname => hnot (concerns_of_reaches hn ho hname)
  · show ((m.toHost.handle e).stores.get? n).filter _ = _
    rw [hreaches.stores n hn]
    rfl

theorem leaves_ends (h : m.Assigned) (hne : name ≠ other) (hmove : Ends other m m') :
    Leaves name m m' := by
  cases hmove with
  | @closed n hn =>
      obtain ⟨o, ho, hname⟩ := h.exists_outline hn
      -- the handle that is closed is one of the other name
      have hhost : Leaves name m (m.handle (.host (.close n))) := by
        refine leaves_host h ?_
        rintro ⟨k, p, rfl, hp, rfl⟩
        obtain rfl : o = p := Option.some.inj (ho.symm.trans hp)
        exact hne hname
      exact ⟨Table.get?_erase_of_ne _ (Ne.symm hne), hhost.retained, hhost.handles, hhost.backends⟩
  | forgot =>
      exact ⟨rfl, Table.get?_erase_of_ne _ (Ne.symm hne), fun _ => rfl, fun _ _ => rfl⟩

/-- **An event leaves alone every name that it does not concern.** -/
theorem leaves_handle (h : m.Assigned) {e : Event} (hnot : ¬m.Concerns e name) :
    Leaves name m (m.handle e) := by
  -- a call makes moves for names that it concerns, so for other ones
  have hother {app : StoreName} (hcall : e.concerns app) : name ≠ app := by
    rintro rfl
    cases e with
    | host => exact hcall
    | _ => exact hnot hcall
  refine h.handle_of_moves e (R := Leaves name) (.refl name) .trans
    (fun hm hcall hmove => leaves_opens hm (hother hcall) hmove)
    (fun hm hcall hmove => leaves_ends hm (hother hcall) hmove) fun e' he => ?_
  subst he
  exact leaves_host h hnot

/-! ## Handles that are closed stay closed -/

/-- Whether handles stay as they were opened, but for being closed. -/
def Ages (m m' : Manager) : Prop :=
  ∀ n o, m.outline? n = some o → m'.outline? n = some o ∨ m'.outline? n = some o.closed

theorem Ages.refl (m : Manager) : Ages m m := fun _ _ ho => .inl ho

theorem Ages.trans (h : Ages m m') (h' : Ages m' m'') : Ages m m'' := by
  intro n o ho
  rcases h n o ho with ho | ho
  · exact h' n o ho
  · rcases h' n o.closed ho with ho | ho
    · exact .inr ho
    · exact .inr ho

theorem ages_of_closes {closing : List Nat} (h : Host.Closes closing m.toHost m'.toHost) :
    Ages m m' := by
  intro n o ho
  rw [h.outline?, ho, Option.map_some]
  split
  · exact .inr rfl
  · exact .inl rfl

theorem ages_opens (h : m.Assigned) (hmove : Opens name m m') : Ages m m' := by
  cases hmove with
  | backed => exact .refl m
  | @opened options b k host _ _ _ _ _ hok =>
      obtain ⟨hk, -, -, -, houtline⟩ := Host.openStore_eq_ok hok
      intro n o ho
      have hne : n ≠ k := by
        rw [hk]
        exact Nat.ne_of_lt (h.sound.lt_nextStore n o ho)
      refine .inl ((houtline n).trans ?_)
      rw [if_neg hne]
      exact ho

theorem ages_ends (h : m.Assigned) (hmove : Ends name m m') : Ages m m' := by
  cases hmove with
  | @closed n => exact ages_of_closes (Host.closes_closeStore h.sound n)
  | forgot => exact .refl m

/-- **Handles stay as they were opened, but for being closed.** -/
theorem Assigned.ages (h : m.Assigned) (e : Event) : Ages m (m.handle e) := by
  refine h.handle_of_moves e .refl .trans (fun hm _ hmove => ages_opens hm hmove)
    (fun hm _ hmove => ages_ends hm hmove) fun e' he => ?_
  subst he
  exact ages_of_closes (Host.closes_handle h.sound e')

theorem Assigned.ages_run (h : m.Assigned) (events : List Event) : Ages m (m.run events) :=
  h.run_of_handle .refl .trans ages events

/-- A handle that is closed stays as it is. -/
theorem Ages.outline?_of_closed (h : Ages m m') {o : Outline} (ho : m.outline? n = some o)
    (hclosed : o.isOpen = false) : m'.outline? n = some o := by
  have hsame : o.closed = o := by rw [Outline.closed, ← hclosed]
  rcases h n o ho with ho' | ho'
  · exact ho'
  · exact hsame ▸ ho'

/-! ## Stores that are kept apart -/

/-- **The stores of a manager are kept apart.** Whatever happened to a new manager: no backend has
two open handles over it. Where the table has a handle of a name, the manager gives that one if it
gives any, and changes nothing. An event leaves everything as it is under the names that it does not
concern: their handles, what is retained, and the backends that they hold. And a handle that is
closed lets nothing through, whatever happens later, so it changes neither a backend of its own name
nor anything else. -/
theorem stores_apart (hnew : m.IsNew) (events : List Event) :
    let m' := m.run events
    (∀ n k o p, m'.outline? n = some o → m'.outline? k = some p → o.isOpen = true →
        p.isOpen = true → o.backendId = p.backendId → n = k)
      ∧ (∀ app id options n k m'', m'.opened.get? (app, id) = some n →
        m'.getStore app id options = (.ok k, m'') → k = n ∧ m'' = m')
      ∧ (∀ e name, ¬m'.Concerns e name → Leaves name m' (m'.handle e))
      ∧ ∀ n o, m'.outline? n = some o → o.isOpen = false → ∀ later,
        let m'' := m'.run later
        (∀ now op, m''.handle (.host (.perform n now op)) = m'')
          ∧ m''.handle (.host (.close n)) = m'' := by
  intro m'
  have h : m'.Assigned := hnew.assigned.run events
  refine ⟨fun n k o p => h.eq_of_isOpen, fun app id options n k m'' hn hget => ?_,
    fun e name hnot => leaves_handle h hnot, fun n o ho hclosed later => ?_⟩
  · unfold Manager.getStore at hget
    split at hget
    · cases hget
    · cases hget
    · rw [hn] at hget
      cases hget
      exact ⟨rfl, rfl⟩
  · have ho' := (h.ages_run later).outline?_of_closed ho hclosed
    obtain ⟨hperform, hclose⟩ := Host.handle_of_closed ho' hclosed
    have hsame {host : Host} (hhost : host = (m'.run later).toHost) :
        ({ m'.run later with toHost := host } : Manager) = m'.run later := by rw [hhost]
    exact ⟨fun now op => hsame (hperform now op), hsame hclose⟩

/-- The store of one application is closed and opened again, next to one of the same id of another
application. Its first handle does not reach the new one. Neither clearing the new one nor closing
every store of its application touches the other application. -/
theorem stores_apart_of_two_applications :
    let m : Manager :=
      { directory := { self := "self" }, crashes := fun _ _ => false, config := {} }
    let events : List Event :=
      [.getStore "one" "store" .inMemory, .getStore "two" "store" .inMemory,
        .closeStore "one" "store", .getStore "one" "store" .inMemory]
    let m' := m.run events
    m'.handle (.host (.perform 1 1 (.put [107] [118]))) = m'
      ∧ Leaves ("two", "store") m' (m'.handle (.host (.perform 3 1 .clear)))
      ∧ Leaves ("two", "store") m' (m'.handle (.closeAll "one")) := by
  intro m events m'
  have hnew : m.IsNew := ⟨rfl, rfl, rfl, rfl⟩
  obtain ⟨-, -, hleaves, hclosed⟩ := stores_apart hnew events
  have ho : m'.outline? 1 = some ⟨⟨"one", "store", .inMemory, {}, "self"⟩, 1, false⟩ := by
    decide +kernel
  have hname : (m'.outline? 3).map Outline.name = some ("one", "store") := by decide +kernel
  have hclear : ¬m'.Concerns (.host (.perform 3 1 .clear)) ("two", "store") := by
    rintro ⟨n, o, rfl, ho, hother⟩
    rw [ho, Option.map_some, hother] at hname
    exact absurd hname (by decide)
  have hcloseAll : ¬m'.Concerns (.closeAll "one") ("two", "store") := by
    show ¬"two" = "one"
    decide
  exact ⟨(hclosed 1 _ ho rfl []).1 1 (.put [107] [118]), hleaves _ _ hclear, hleaves _ _ hcloseAll⟩

end PeerStore.Manager
