import PeerStore.Proofs.Host.Entry
import PeerStore.Proofs.Manager.Handle
import PeerStore.Proofs.Manager.Retained

/-!
# Entries of persistent stores

An entry that is written to a persistent store is there when the store is opened again, whatever
happened to it and to others in between, unless something touched the key or the store was deleted
(**`persistent_entry_survives`**). Whether a store is persistent is settled when its backend is
created, not by the options of those who share it later, and the key is found again only by a handle
that keeps keys in the same way (`persistent_entry_lost`).
-/

set_option autoImplicit false

namespace PeerStore.Manager

variable {m m' : Manager} {name : StoreName} {app id : String} {options : Options} {b n : Nat}
  {stored value : Blob} {e : Event}

/-! ## A persistent store -/

/-- A store that is given as persistent is retained, unless it was open and is not. -/
theorem retained_of_getStore (h : m.Assigned) (hpersistent : options.persistent = true)
    (hkept : m.opened.get? (app, id) = none ∨ m.retained.contains (app, id) = true)
    (hget : m.getStore app id options = (.ok n, m')) :
    ∃ b, m'.retained.get? (app, id) = some b := by
  have hm' : m' = m.handle (.getStore app id options) := by
    rw [Manager.handle, hget]
  by_cases hretained : m.retained.contains (app, id) = true
  · obtain ⟨b, hb⟩ := Option.isSome_iff_exists.mp hretained
    exact ⟨b, hm' ▸ retained_of_not_deletes h hb not_false⟩
  · have hnone := hkept.resolve_right hretained
    have habsent : m.Absent (app, id) :=
      ⟨hnone, Option.not_isSome_iff_eq_none.mp hretained⟩
    have hcreates : Creates (app, id) m (.getStore app id options) :=
      ⟨rfl, hpersistent, habsent, n, by rw [hget]⟩
    have hafter := (retained_getStore h (getStore_of_new hnone hget).1).mpr (.inl hcreates)
    rw [hget] at hafter
    exact Option.isSome_iff_exists.mp hafter

/-- While a handle of a retained store is open, the store stays retained. -/
theorem retained_run_of_isOpen (h : m.Assigned) {o o' : Outline} (ho : m.outline? n = some o)
    (hname : o.name = name) (hb : m.retained.get? name = some b) (events : List Event)
    (ho' : (m.run events).outline? n = some o') (hopen : o'.isOpen = true) :
    (m.run events).retained.get? name = some b := by
  induction events generalizing m o with
  | nil => exact hb
  | cons e events ih =>
      obtain ⟨p, hp, hpname⟩ := (h.ages e).exists_name ho
      refine ih (h.handle e) hp (hpname.trans hname) (retained_of_not_deletes h hb ?_) ho'
      intro hdeletes
      -- the handle would be closed now, and then for good
      have hclosed : p.isOpen = false := Bool.eq_false_iff.mpr fun hpopen => by
        have hopened := (h.handle e).opened_of_isOpen hp hpopen
        rw [hpname, hname, (absent_of_deletes h hdeletes).opened] at hopened
        cases hopened
      have hsame := ((h.handle e).ages_run events).outline?_of_closed hp hclosed
      rw [show (m.handle e).run events = m.run (e :: events) from rfl, ho'] at hsame
      cases hsame
      rw [hclosed] at hopen
      cases hopen

/-! ## An entry that stays -/

/-- Whether an event deletes a store, or is a call that succeeds through one of its handles and
touches a stored key. -/
def Disturbs (name : StoreName) (stored : Blob) (m : Manager) : Event → Prop
  | .host (.perform n now op) =>
      ∃ o s, m.outline? n = some o ∧ o.name = name ∧ m.session? n = some s
        ∧ (s.perform now op).1.isOk = true ∧ s.Touches stored op
  | e => Deletes name m e

theorem disturbs_of_deletes (hdeletes : Deletes name m e) : Disturbs name stored m e := by
  cases e with
  | host => exact hdeletes.elim
  | _ => exact hdeletes

/-- An event keeps an entry of a backend, unless it touches it on the host. -/
theorem Assigned.stores_handle (h : m.Assigned) (hstores : m.toHost.Stores b stored value)
    (hnot : ∀ e', e = .host e' → ¬m.toHost.Touches b stored e') :
    (m.handle e).toHost.Stores b stored value := by
  refine h.handle_of_moves e
    (R := fun m m' => m.toHost.Stores b stored value → m'.toHost.Stores b stored value)
    (fun _ hstores => hstores) (fun hmm' hm'm'' hstores => hm'm'' (hmm' hstores))
    (fun {_ m _} h _ hmove hstores => ?_) (fun _ _ hmove hstores => ?_)
    (fun e' he hstores => ?_) hstores
  · cases hmove with
    | backed =>
        obtain ⟨t, ht, -⟩ := hstores.now
        obtain ⟨backend, hbackend, -⟩ := Option.map_eq_some_iff.mp ht
        refine hstores.addBackend (h.sound.lt_nextBackend b ?_)
        rw [Table.contains, hbackend]
        rfl
    | opened _ _ _ _ _ hok => exact hstores.openStore hok
  · cases hmove with
    | @closed n => exact hstores.closeStore n
    | forgot => exact hstores
  · subst he
    exact hstores.handle (hnot e' rfl)

/-- **What is not disturbed stays**: the store stays retained, and the entry stored. -/
theorem Assigned.stores_run (h : m.Assigned) (hb : m.retained.get? name = some b)
    (hstores : m.toHost.Stores b stored value) {events : List Event}
    (hnever : Never (Disturbs name stored) m events) :
    (m.run events).retained.get? name = some b
      ∧ (m.run events).toHost.Stores b stored value := by
  induction events generalizing m with
  | nil => exact ⟨hb, hstores⟩
  | cons e events ih =>
      obtain ⟨hnot, hrest⟩ := never_cons.mp hnever
      refine ih (h.handle e)
        (retained_of_not_deletes h hb fun hdeletes => hnot (disturbs_of_deletes hdeletes))
        (h.stores_handle hstores fun e' he htouches => hnot ?_) hrest
      subst he
      cases e' with
      | perform n now op =>
          obtain ⟨o, s, ho, hover, hs, hok, htouch⟩ := htouches
          -- a handle over the backend is one of the name that retains it
          exact ⟨o, s, ho, h.unique b o.name name (.inr ⟨n, o, ho, rfl, hover⟩) (.inl hb), hs, hok,
            htouch⟩
      | _ => exact htouches.elim

/-- An entry that is written through a handle of a retained store is stored in its backend. -/
theorem Assigned.stores_of_perform (h : m.Assigned) (hb : m.retained.get? name = some b)
    {o : Outline} {s : Session} (ho : m.outline? n = some o) (hname : o.name = name)
    (hs : m.session? n = some s) (hidle : s.inTransaction = false) {now : Int} {op : Operation}
    {key : Blob} (henters : op.Enters key value) (hok : (s.perform now op).1.isOk = true) :
    (m.handle (.host (.perform n now op))).toHost.Stores b (s.space.ownKey key) value := by
  obtain ⟨hopen, hstored⟩ := Session.stores_of_enters hidle henters hok
  rw [Host.isOpen_of_session? hs ho] at hopen
  obtain ⟨p, hp, hover⟩ := h.agrees name n b (hname ▸ h.opened_of_isOpen ho hopen) hb
  obtain rfl : o = p := Option.some.inj (ho.symm.trans hp)
  rw [← hover]
  exact Host.Stores.of_perform ho hs hstored fun k q hq hqover hqopen =>
    h.eq_of_isOpen hq ho hqopen hopen hqover

/-- What is stored for a retained store is what its next handle reads. -/
theorem Assigned.stores_of_getStore (h : m.Assigned) (hb : m.retained.get? (app, id) = some b)
    (hstores : m.toHost.Stores b stored value) (hget : m.getStore app id options = (.ok n, m')) :
    ∃ o s, m'.outline? n = some o ∧ m'.session? n = some s ∧ s.Stores stored value := by
  have h' := h.of_getStore hget
  have hb' := retained_of_not_deletes h hb (e := .getStore app id options) not_false
  have hstores' := h.stores_handle (e := .getStore app id options) hstores fun e' he => by cases he
  rw [Manager.handle, hget] at hb' hstores'
  obtain ⟨o, ho, hover⟩ := h'.agrees _ _ _ (opened_of_getStore hget) hb'
  obtain ⟨s, hs, -⟩ := h'.sound.exists_session ho
  exact ⟨o, s, ho, hs, hstores'.session ho hover hs⟩

/-- An open handle of the same kind reads the entry, while the settings and the device stay. -/
theorem Assigned.get_of_stores (h : m.Assigned) (h' : m'.Assigned)
    (hsettings : m'.config = m.config ∧ m'.directory.self = m.directory.self) {k : Nat}
    {o o' : Outline} {s s' : Session} {key : Blob} (ho : m.outline? n = some o)
    (hs : m.session? n = some s) (ho' : m'.outline? k = some o') (hs' : m'.session? k = some s')
    (hstores : s'.Stores (s.space.ownKey key) value) (hvalid : s.checkKey key = .ok ())
    (hopen : s'.isOpen = true)
    (hkind : s'.profile.options.isPerDevice = s.profile.options.isPerDevice) :
    (s'.get key).1 = .ok value := by
  have hprofile : s.profile = o.profile := Host.profile_of_session? hs ho
  have hprofile' : s'.profile = o'.profile := Host.profile_of_session? hs' ho'
  obtain ⟨hlimits, hdevice⟩ := h.settled n o ho
  obtain ⟨hlimits', hdevice'⟩ := h'.settled k o' ho'
  rw [hsettings.1, ← hlimits, ← hprofile, ← hprofile'] at hlimits'
  rw [hsettings.2, ← hdevice, ← hprofile, ← hprofile'] at hdevice'
  have hspace : s'.space = s.space := by
    unfold Session.space Profile.space
    rw [hkind, hdevice']
  exact hstores.get hopen hvalid hlimits' hspace

/-- **An entry of a persistent store survives.** Whatever happened to a new manager: if it gives a
store as persistent that is not open or is retained, and an entry is written through the handle
outside a transaction, then and later, and nothing that succeeds touches what is stored under the key
from then on, and the store is not deleted, then the store that the manager gives under the name at
any later time reads the entry, if its handle is open and keeps devices apart or not as the first one
does. -/
theorem persistent_entry_survives (hnew : m.IsNew) {before between after : List Event}
    {options' : Options} {n' : Nat} {m₁ m₂ : Manager} {s : Session} {now : Int} {op : Operation}
    {key : Blob} (hpersistent : options.persistent = true)
    (hkept : (m.run before).opened.get? (app, id) = none
      ∨ (m.run before).retained.contains (app, id) = true)
    (hget : (m.run before).getStore app id options = (.ok n, m₁))
    (hs : (m₁.run between).session? n = some s) (hidle : s.inTransaction = false)
    (henters : op.Enters key value) (hok : (s.perform now op).1.isOk = true)
    (hnever : Never (Disturbs (app, id) (s.space.ownKey key))
      (m₁.run (between ++ [.host (.perform n now op)])) after)
    (hget' : (m₁.run (between ++ .host (.perform n now op) :: after)).getStore app id options'
      = (.ok n', m₂)) :
    ∃ s', m₂.session? n' = some s' ∧
      (s'.isOpen = true → s'.profile.options.isPerDevice = s.profile.options.isPerDevice →
        (s'.get key).1 = .ok value) := by
  have h := hnew.assigned.run before
  have h₁ := h.of_getStore hget
  have hw := h₁.run between
  -- the store is retained, also when the entry is written
  obtain ⟨b, hb⟩ := retained_of_getStore h hpersistent hkept hget
  obtain ⟨o₁, ho₁, hname₁⟩ := h₁.exists_outline (opened_of_getStore hget)
  obtain ⟨o, ho, hname⟩ := (h₁.ages_run between).exists_name ho₁
  rw [hname₁] at hname
  have hopen : o.isOpen = true := by
    rw [← Host.isOpen_of_session? hs ho]
    exact (Session.stores_of_enters hidle henters hok).1
  have hbw := retained_run_of_isOpen h₁ ho₁ hname₁ hb between ho hopen
  have hstored := hw.stores_of_perform hbw ho hname hs hidle henters hok
  -- it stays retained, and the entry stays, until the store is given again
  rw [run_concat] at hnever
  rw [run_append] at hget'
  obtain ⟨hbr, hstores⟩ := (hw.handle (.host (.perform n now op))).stores_run hbw hstored hnever
  have hr := hw.run (.host (.perform n now op) :: after)
  obtain ⟨o', s', ho', hs', hstores'⟩ := hr.stores_of_getStore hbr hstores hget'
  refine ⟨s', hs', hw.get_of_stores (hr.of_getStore hget') ?_ ho hs ho' hs' hstores'
    (Session.checkKey_of_enters henters hok)⟩
  obtain ⟨hconfig, hself⟩ := hw.settings_run (.host (.perform n now op) :: after)
  obtain ⟨hconfig', hself'⟩ := hr.settings_run [.getStore app id options']
  rw [show (Manager.run _ [.getStore app id options']) = m₂ from congrArg Prod.snd hget']
    at hconfig' hself'
  exact ⟨hconfig'.trans hconfig, hself'.trans hself⟩

/-- The entry of a batch that writes its key twice survives a transaction that removes another key
and is taken back by closing, and a time in which the store was open with other options. -/
theorem persistent_entry_survives_of_taken_back :
    let m : Manager :=
      { directory := { self := "self" }, crashes := fun _ _ => false, config := {} }
    let kept : Options := { baseDir := "/data" }
    let m₁ := (m.getStore "app" "store" kept).2
    let batch : Operation := .putBatch [⟨[107], [1]⟩, ⟨[108], [2]⟩, ⟨[107], [3]⟩]
    let after : List Event :=
      [.host (.perform 1 2 .startTransaction), .host (.perform 1 3 (.delete [108])),
        .closeStore "app" "store", .getStore "app" "store" .inMemory, .closeStore "app" "store"]
    ∃ m₂ s', (m₁.run (.host (.perform 1 1 batch) :: after)).getStore "app" "store" kept = (.ok 3, m₂)
      ∧ m₂.session? 3 = some s' ∧ (s'.get [107]).1 = .ok [3] := by
  intro m kept m₁ batch after
  have hnew : m.IsNew := ⟨rfl, rfl, rfl, rfl⟩
  have hgiven : (m.getStore "app" "store" kept).1 = .ok 1 := by decide +kernel
  have hagain : ((m₁.run (.host (.perform 1 1 batch) :: after)).getStore "app" "store" kept).1
      = .ok 3 := by decide +kernel
  have hfirst : ((m₁.run []).session? 1).map (fun s =>
      (s.space, s.profile.options.isPerDevice, s.inTransaction, (s.perform 1 batch).1.isOk))
      = some (.shared, false, false, true) := by decide +kernel
  obtain ⟨s, hs, hfirst⟩ := Option.map_eq_some_iff.mp hfirst
  simp only [Prod.mk.injEq] at hfirst
  obtain ⟨hspace, hkind, hidle, hok⟩ := hfirst
  have hshared : ((m₁.run [.host (.perform 1 1 batch), .host (.perform 1 2 .startTransaction)]).session?
      1).map Session.space = some .shared := by decide +kernel
  -- neither the start of a transaction nor another key disturbs the entry
  have hnever : Never (Disturbs ("app", "store") (s.space.ownKey [107]))
      (m₁.run ([] ++ [.host (.perform 1 1 batch)])) after := by
    refine never_cons.mpr ⟨?_, never_cons.mpr ⟨?_, never_cons.mpr ⟨not_false, never_cons.mpr
      ⟨not_false, never_cons.mpr ⟨not_false, never_nil⟩⟩⟩⟩⟩
    · rintro ⟨o, t, -, -, -, -, hclear | ⟨origin, written, hbatch, -⟩⟩
      · cases hclear
      · cases hbatch
    · rintro ⟨o, t, -, -, ht, -, hclear | ⟨origin, written, hbatch, hmem⟩⟩
      · cases hclear
      · have ht : (m₁.run [.host (.perform 1 1 batch),
            .host (.perform 1 2 .startTransaction)]).session? 1 = some t := ht
        rw [ht] at hshared
        cases hbatch
        rw [hspace, Option.some.inj hshared] at hmem
        revert hmem
        decide
  have henters : batch.Enters [107] [3] :=
    ⟨[⟨[107], [1]⟩, ⟨[108], [2]⟩], [], rfl, fun _ he => absurd he List.not_mem_nil⟩
  have hget : (m.run []).getStore "app" "store" kept = (.ok 1, m₁) := Prod.ext hgiven rfl
  have hget' : (m₁.run ([] ++ .host (.perform 1 1 batch) :: after)).getStore "app" "store" kept
      = (.ok 3, ((m₁.run (.host (.perform 1 1 batch) :: after)).getStore "app" "store" kept).2) :=
    Prod.ext hagain rfl
  obtain ⟨s', hs', hread⟩ :=
    persistent_entry_survives hnew rfl (.inl rfl) hget hs hidle henters hok hnever hget'
  have hsecond : (((m₁.run (.host (.perform 1 1 batch) :: after)).getStore "app" "store"
      kept).2.session? 3).map (fun s => (s.isOpen, s.profile.options.isPerDevice))
      = some (true, false) := by decide +kernel
  rw [hs'] at hsecond
  obtain ⟨hopen, hkind'⟩ := Prod.mk.inj (Option.some.inj hsecond)
  exact ⟨_, s', hget', hs', hread hopen (hkind'.trans hkind.symm)⟩

/-- An entry is lost, although it was written through a store that was asked for as persistent and
nothing has disturbed it: where that store was open already, with other options, and where it is
opened again as one that keeps devices apart. -/
theorem persistent_entry_lost :
    let m : Manager :=
      { directory := { self := "self" }, crashes := fun _ _ => false, config := {} }
    let kept : Options := { baseDir := "/data" }
    let apart : Options := { kind := .deviceCollaboration, baseDir := "/data" }
    let put : Operation := .put [107] [118]
    let loses (m : Manager) (options : Options) : Prop :=
      let m₁ := (m.getStore "app" "store" kept).2
      let m₂ := m₁.run [.host (.perform 1 1 put), .closeStore "app" "store"]
      (m.getStore "app" "store" kept).1 = .ok 1
        ∧ (m₁.session? 1).map (fun s => (s.inTransaction, (s.perform 1 put).1.isOk))
          = some (false, true)
        ∧ Never (Disturbs ("app", "store") [107]) (m₁.handle (.host (.perform 1 1 put)))
          [.closeStore "app" "store"]
        ∧ (m₂.getStore "app" "store" options).1 = .ok 2
        ∧ ((m₂.getStore "app" "store" options).2.session? 2).map
            (fun s => (s.isOpen, (s.get [107]).1)) = some (true, .error .keyNotFound)
    m.IsNew ∧ loses (m.getStore "app" "store" .inMemory).2 kept ∧ loses m apart := by
  intro m kept apart put loses
  have hnever (m : Manager) :
      Never (Disturbs ("app", "store") [107]) m [.closeStore "app" "store"] :=
    never_cons.mpr ⟨not_false, never_nil⟩
  refine ⟨⟨rfl, rfl, rfl, rfl⟩, ?_, ?_⟩
  · exact ⟨by decide +kernel, by decide +kernel, hnever _, by decide +kernel, by decide +kernel⟩
  · exact ⟨by decide +kernel, by decide +kernel, hnever _, by decide +kernel, by decide +kernel⟩

end PeerStore.Manager
