import PeerStore.Proofs.Store.Handed
import PeerStore.Proofs.Store.Open
import PeerStore.Proofs.Store.Records
import PeerStore.Proofs.Store.Request

/-!
# Automatic syncs

A store that was opened with automatic syncs pushes to all devices online after a change made here
has been published. An operation that is no sync call does so as the last thing that it does, or
leaves the link alone (`Session.Pushes`, `handle_pushes`). What decides is whether it has
published a notice of a change made here. There is one exception: a removal of the data of a device
publishes such a notice and pushes nothing (**`pushes_after_notice_here`**,
`removal_pushes_nothing`).
-/

set_option autoImplicit false

namespace PeerStore

/-- Whether an operation removes the data of a device. -/
def Operation.removesDevice : Operation → Bool
  | .removeDeviceData _ => true
  | _ => false

/-- Whether an event is a sync call. -/
def Event.isSync : Event → Bool
  | .perform _ op => op.isSync
  | _ => false

/-- Whether an event is a removal of the data of a device. -/
def Event.removesDevice : Event → Bool
  | .perform _ op => op.removesDevice
  | _ => false

namespace Session

variable {s s' t : Session}

/-! ## What reaches the link -/

/-- Whether a notice of a change made here is published between two sessions. -/
def PublishesHere (s s' : Session) : Prop :=
  ∃ notice, s'.published = s.published ++ [(.here, notice)]

theorem not_publishesHere_of_eq (h : s'.published = s.published) : ¬s.PublishesHere s' := by
  rintro ⟨notice, hnotice⟩
  rw [h] at hnotice
  exact absurd hnotice (by simp)

/-- What an event can do to the link of a session: it pushes as the last thing that it does, having
published a notice of a change made here, or it leaves the link alone. -/
inductive Pushes (s : Session) (e : Event) : Session → Prop where
  | quiet {s' : Session} : s'.link = s.link → (s.PublishesHere s' → e.removesDevice = true) →
      Pushes s e s'
  | pushed {t : Session} : t.isOpen = true → t.link = s.link → t.directory = s.directory →
      s.PublishesHere t → e.removesDevice = false → Pushes s e t.pushOnline

/-- Where nothing is published nothing is pushed. -/
theorem Pushes.of_eq {e : Event} (hlink : s'.link = s.link) (h : s'.published = s.published) :
    s.Pushes e s' :=
  .quiet hlink fun hpublishes => absurd hpublishes (not_publishesHere_of_eq h)

/-- A notice that is announced is followed by a push if it is published and of a change made
here. -/
theorem Pushes.of_announce {e : Event} (hopen : t.isOpen = true) (hlink : t.link = s.link)
    (hdirectory : t.directory = s.directory) (hpublished : t.published = s.published)
    (hremoves : e.removesDevice = false) (origin : Origin) (notice : Notice) :
    s.Pushes e (t.announce origin notice) := by
  unfold announce publish
  by_cases hheld : (notice.isEmpty || (t.transaction.isActive && origin == .here)) = true
  · -- a notice that is empty or held back is not published
    rw [if_pos hheld]
    exact .of_eq hlink hpublished
  · rw [if_neg hheld]
    by_cases horigin : origin = .here
    · subst horigin
      exact .pushed hopen hlink hdirectory ⟨notice, by rw [← hpublished]⟩ hremoves
    · dsimp only
      rw [if_neg horigin]
      -- the notice that was published is of a batch of another device
      refine .quiet hlink fun ⟨notice', hnotice'⟩ => absurd ?_ horigin
      have hsame := List.append_cancel_left (hpublished ▸ hnotice')
      exact congrArg Prod.fst (List.singleton_inj.mp hsame)

theorem Wrote.pushes {origin : Origin} {batch : List Write} {e : Event}
    (h : s.Wrote origin batch t) (hopen : s.isOpen = true) (hremoves : e.removesDevice = false)
    (notice : Notice) : s.Pushes e (t.announce origin notice) := by
  refine .of_announce (h.isOpen.trans hopen) ?_ ?_ h.published hremoves origin notice
  · rw [h.rest]
  · rw [h.rest]

theorem pushes_of_mutate {now : Int} {batch : List Write} {origin : Origin} {e : Event}
    (h : s.mutate now batch origin = (.ok (), s')) (hremoves : e.removesDevice = false) :
    s.Pushes e s' := by
  obtain ⟨hopen, t, hwrote, rfl⟩ := mutate_eq_ok h
  exact hwrote.pushes hopen hremoves _

theorem pushes_of_clear {now : Int} {e : Event} (h : s.clear now = (.ok (), s'))
    (hremoves : e.removesDevice = false) : s.Pushes e s' := by
  obtain ⟨hopen, ⟨-, hmutate⟩ | ⟨-, rfl⟩⟩ := clear_eq_ok h
  · exact pushes_of_mutate hmutate hremoves
  · refine .of_announce ?_ ?_ ?_ ?_ hremoves _ _
    · exact hopen
    all_goals rfl

/-- A removal publishes its notice and leaves it at that. -/
theorem link_of_removeDeviceData {now : Int} {network : String}
    (h : s.removeDeviceData now network = (.ok (), s')) : s'.link = s.link := by
  obtain ⟨device, notice, t, -, -, -, happly, rfl⟩ := removeDeviceData_eq_ok h
  have hlink : (t.publish .here notice).2.link = t.link := by
    unfold publish
    split <;> rfl
  rw [hlink, (applyBatch_eq_ok happly).2.rest]

/-- An operation that changes the store and succeeds. -/
theorem pushes_of_ok {now : Int} {op : Operation} {answer : Answer} (hop : op.isChange = true)
    (h : s.perform now op = (.ok answer, s')) : s.Pushes (.perform now op) s' := by
  cases op with
  | put | putBatch | delete | deleteBatch | applyRemote =>
      exact pushes_of_mutate (mutate_of_perform rfl h) rfl
  | clear => exact pushes_of_clear (eq_ok_of_answer h) rfl
  | removeDeviceData network =>
      exact .quiet (link_of_removeDeviceData (eq_ok_of_answer h)) fun _ => rfl
  | startTransaction =>
      obtain ⟨-, -, rfl⟩ := startTransaction_eq_ok (eq_ok_of_answer h)
      exact .of_eq rfl rfl
  | commit =>
      have hcommit := eq_ok_of_answer h
      obtain ⟨hopen, -⟩ := whenOpen_eq_ok hcommit
      obtain ⟨-, rfl⟩ := commit_eq_ok hcommit
      refine .of_announce ?_ ?_ ?_ ?_ rfl _ _
      · exact hopen
      all_goals rfl
  | rollback =>
      obtain ⟨-, rfl⟩ := undone_of_rollback (eq_ok_of_answer h)
      exact .of_eq rfl rfl
  | _ => cases hop

/-- An operation beside the entries leaves the link alone, unless it is a sync call. -/
theorem link_of_aside {now : Int} {op : Operation} (hop : op.isChange = false)
    (hsync : op.isSync = false) : (s.perform now op).2.link = s.link := by
  cases op with
  | get key => rw [perform, answer_snd, get_snd]
  | entries pfx => rw [perform, answer_snd, entries_snd]
  | query selection => rw [perform, answer_snd, query_snd]
  | count selection => rw [perform, answer_snd, count_snd]
  | openResultSet source =>
      have hread := s.read_snd source
      rw [perform, answer_snd, openResultSet]
      split
      all_goals
        rename_i heq
        rw [heq] at hread
        cases hread
        rfl
  | closeResultSet id =>
      rw [perform, answer_snd]
      refine after_snd (P := fun t => t.link = s.link) rfl ?_
      dsimp only
      split <;> rfl
  | subscribe | unsubscribe =>
      rw [perform, answer_snd]
      refine after_snd (P := fun t => t.link = s.link) rfl ?_
      split <;> rfl
  | registerCallback | unregisterCallback | securityLevel =>
      rw [perform, answer_snd]
      exact after_snd (P := fun t => t.link = s.link) rfl rfl
  | sync | syncWithQuery => cases hsync
  | put | putBatch | delete | deleteBatch | clear | removeDeviceData | applyRemote
  | startTransaction | commit | rollback => cases hop

/-- **What an event that is no sync call can do to the link.** -/
theorem handle_pushes (s : Session) {e : Event} (hsync : e.isSync = false) :
    s.Pushes e (s.handle e) := by
  cases e with
  | failWrites | register | unregister => exact .of_eq rfl rfl
  | perform now op =>
      show s.Pushes (.perform now op) (s.perform now op).2
      cases hop : op.isChange with
      | false =>
          have hpublished : (s.perform now op).2.published = s.published := by
            rw [perform_aside hop now]
          exact .of_eq (link_of_aside hop hsync) hpublished
      | true =>
          cases hperform : s.perform now op with
          | mk result t =>
              cases result with
              | ok answer => exact pushes_of_ok hop hperform
              | error err =>
                  rw [(perform_eq_error hop hperform).rest]
                  exact .of_eq rfl rfl

/-! ## Pushing -/

/-- Networks that are online are known. -/
theorem exists_devices_of_online (d : Directory) :
    ∃ devices : List String, d.online.map d.resolve? = devices.map some := by
  refine ⟨d.online.map fun network => (d.resolve? network).getD "", ?_⟩
  rw [List.map_map]
  refine List.map_congr_left fun network hnetwork => ?_
  have hknown : (d.devices.get? network).isSome = true :=
    (d.devices.mem_keys_iff network).mp hnetwork
  have hresolves : (d.resolve? network).isSome = true := by
    rw [Directory.resolve?]
    split
    · rfl
    · exact hknown
  obtain ⟨device, hdevice⟩ := Option.isSome_iff_exists.mp hresolves
  simp [hdevice]

/-- A session has a link that takes requests. -/
def HasLink (s : Session) : Prop := ∃ link, s.link = some link ∧ link.coordinator.stopped = false

theorem HasLink.startSync (h : s.HasLink) (networks : List String) (mode : SyncMode) (delay : Nat)
    (query : Option Query) (callback : Option String) :
    (s.startSync networks mode delay query callback).2.HasLink := by
  by_cases haddresses : ∃ link devices, s.Addresses networks link devices
  · obtain ⟨link, devices, haddresses⟩ := haddresses
    obtain ⟨link', hlink', hrunning⟩ := h
    obtain rfl : link' = link := Option.some.inj (hlink'.symm.trans haddresses.link)
    rw [startSync_of_addresses haddresses]
    exact ⟨_, rfl, (SyncLink.start_rest ..).1.trans hrunning⟩
  · obtain ⟨e, he⟩ := startSync_of_not_addresses haddresses mode delay query callback
    rw [he]
    exact h

theorem HasLink.pushOnline (h : s.HasLink) : s.pushOnline.HasLink := by
  unfold Session.pushOnline
  split
  · exact h.startSync ..
  · exact h

theorem HasLink.congr (h : s.HasLink) (hlink : s'.link = s.link) : s'.HasLink := by
  unfold HasLink
  rw [hlink]
  exact h

theorem Pushes.hasLink {e : Event} (hpushes : s.Pushes e s') (h : s.HasLink) : s'.HasLink := by
  cases hpushes with
  | quiet hlink _ => exact h.congr hlink
  | pushed _ hlink _ _ _ => exact (h.congr hlink).pushOnline

theorem HasLink.handle (h : s.HasLink) (e : Event) : (s.handle e).HasLink := by
  cases hsync : e.isSync with
  | false => exact (s.handle_pushes hsync).hasLink h
  | true =>
      cases e with
      | perform now op =>
          cases op with
          | sync | syncWithQuery =>
              show (Session.perform ..).2.HasLink
              rw [perform, answer_snd]
              exact h.startSync ..
          | _ => cases hsync
      | _ => cases hsync

/-- **No run takes the link away.** -/
theorem HasLink.run (h : s.HasLink) (events : List Event) : (s.run events).HasLink := by
  induction events generalizing s with
  | nil => exact h
  | cons e events ih => exact ih (h.handle e)

/-- A push to the devices online is one request. -/
theorem pushOnline_eq {link : SyncLink} (hopen : t.isOpen = true)
    (hauto : t.profile.options.autoSync = true) (hlink : t.link = some link)
    (hrunning : link.coordinator.stopped = false) (honline : t.directory.online ≠ []) :
    ∃ devices link', t.directory.online.map t.directory.resolve? = devices.map some
      ∧ t.pushOnline.link = some link'
      ∧ link'.handed = link.handed
          ++ [⟨link.coordinator.nextSeq, t.profile.id, devices, .push, none⟩] := by
  obtain ⟨devices, hdevices⟩ := exists_devices_of_online t.directory
  have hregisters : link.Registers devices := by
    refine ⟨?_, hrunning⟩
    rintro rfl
    exact honline (List.map_eq_nil_iff.mp hdevices)
  have hpushes : (t.profile.options.autoSync && t.link.isSome && !t.directory.online.isEmpty)
      = true := by
    simp [hauto, hlink, honline]
  refine ⟨devices, (link.start t.profile.id devices .push none 0 t.callback).2, hdevices, ?_, ?_⟩
  · rw [pushOnline, if_pos hpushes, startSync_of_addresses ⟨hopen, hlink, hdevices⟩]
  · rw [SyncLink.start_eq hregisters]
    rfl

/-- **One event pushes once or not at all**, as it has published a notice of a change made here or
not; a removal does not push. -/
theorem Pushes.handed {e : Event} {link : SyncLink} (h : s.Pushes e s')
    (hprofile : s'.profile = s.profile) (hauto : s.profile.options.autoSync = true)
    (hlink : s.link = some link) (hrunning : link.coordinator.stopped = false)
    (honline : s.directory.online ≠ []) :
    (s.PublishesHere s' ∧ e.removesDevice = false →
        ({ s' with link := some link } : Session).pushOnline = s'
        ∧ ∃ devices link', s.directory.online.map s.directory.resolve? = devices.map some
          ∧ s'.link = some link'
          ∧ link'.handed = link.handed
              ++ [⟨link.coordinator.nextSeq, s.profile.id, devices, .push, none⟩])
      ∧ (¬(s.PublishesHere s' ∧ e.removesDevice = false) → s'.link = some link) := by
  cases h with
  | quiet hsame hremoval =>
      refine ⟨fun ⟨hpublishes, hremoves⟩ => ?_, fun _ => hsame.trans hlink⟩
      rw [hremoval hpublishes] at hremoves
      cases hremoves
  | @pushed t hopen hsame hdirectory hpublishes hremoves =>
      have hrest := t.pushOnline_rest
      have hthere : s.PublishesHere t.pushOnline := by
        rw [hrest]
        exact hpublishes
      refine ⟨fun _ => ⟨?_, ?_⟩, fun hnot => absurd ⟨hthere, hremoves⟩ hnot⟩
      · -- all that the push did is on the link
        have hbefore : ({ t.pushOnline with link := some link } : Session) = t := by
          rw [hrest, ← hlink, ← hsame]
        rw [hbefore]
      · have hsettled : t.profile = s.profile := by
          rw [hrest] at hprofile
          exact hprofile
        obtain ⟨devices, link', hdevices, hlink', hhanded⟩ := pushOnline_eq hopen
          (hsettled ▸ hauto) (hsame.trans hlink) hrunning (hdirectory ▸ honline)
        rw [hdirectory] at hdevices
        rw [hsettled] at hhanded
        exact ⟨devices, link', hdevices, hlink', hhanded⟩

/-! ## Every event of every run -/

/-- A store that is closed pushes nothing by that. -/
theorem link_close (s : Session) : s.close.link = s.link := by
  by_cases hopen : s.isOpen = true
  · rw [close_eq hopen, abandon_rest]
  · rw [close, if_neg hopen]

/-- **A store with automatic syncs pushes once after each notice of a change made here**, but for a
removal of the data of a device. In every run over a link that takes requests, take an event that is
no sync call, while some device is online. If it publishes a notice of a change made here and is no
such removal, then with all else done it pushes, and by that the transport is handed one request,
for all the devices online and without a query. Any other event leaves the link as it is, and so
does closing the store. -/
theorem pushes_after_notice_here {s₀ : Session} {link₀ : SyncLink} {before : List Event} {e : Event}
    (hauto : s₀.profile.options.autoSync = true) (hlink : s₀.link = some link₀)
    (hrunning : link₀.coordinator.stopped = false) (hsync : e.isSync = false)
    (honline : (s₀.run before).directory.online ≠ []) :
    let s := s₀.run before
    let s' := s.handle e
    ∃ link, s.link = some link
      ∧ (s.PublishesHere s' ∧ e.removesDevice = false →
          ({ s' with link := some link } : Session).pushOnline = s'
          ∧ ∃ devices link', s.directory.online.map s.directory.resolve? = devices.map some
            ∧ s'.link = some link'
            ∧ link'.handed = link.handed
                ++ [⟨link.coordinator.nextSeq, s.profile.id, devices, .push, none⟩])
      ∧ (¬(s.PublishesHere s' ∧ e.removesDevice = false) → s'.link = some link)
      ∧ s.close.link = some link := by
  intro s s'
  obtain ⟨link, hlink, hrunning⟩ : s.HasLink := HasLink.run ⟨link₀, hlink, hrunning⟩ before
  have hauto : s.profile.options.autoSync = true := by
    rw [profile_run]
    exact hauto
  have hhanded := (s.handle_pushes hsync).handed (s.handle_turn e).profile hauto hlink hrunning
    honline
  exact ⟨link, hlink, hhanded.1, hhanded.2, s.link_close.trans hlink⟩

/-! ## Removals -/

/-- A store with automatic syncs over a link. -/
def pushing : Session :=
  { linked with profile := ⟨"app", "store", { persistent := false, autoSync := true }, {}, "self"⟩ }

/-- The commit of a transaction that has written pushes, once. -/
theorem pushes_after_notice_here_of_commit :
    let before : List Event := [.perform 1 (.applyRemote "a" [⟨[1], [10]⟩] []),
      .perform 2 .startTransaction, .perform 3 (.put [2] [20]), .perform 4 (.delete [1])]
    let s' := (pushing.run before).handle (.perform 5 .commit)
    ∃ link', s'.link = some link' ∧ link'.handed = [⟨1, "store", ["a", "b"], .push, none⟩] := by
  intro before s'
  have honline : (pushing.run before).directory.online ≠ [] := by decide +kernel
  obtain ⟨link, hlink, hpushes, -, -⟩ :=
    pushes_after_notice_here (e := .perform 5 .commit) rfl rfl rfl rfl honline
  have hpublishes : (pushing.run before).PublishesHere s' :=
    ⟨{ inserts := [⟨[2], [20]⟩], deletes := [⟨[1], [10]⟩], device := "self" }, by decide +kernel⟩
  obtain ⟨-, devices, link', hdevices, hlink', hhanded⟩ := hpushes ⟨hpublishes, rfl⟩
  have hab : devices = ["a", "b"] := map_some_inj.mp (hdevices.symm.trans rfl)
  cases hlink
  exact ⟨link', hlink', by rw [hhanded, hab]; rfl⟩

/-- **A removal pushes nothing.** The store removes what a device has written, and publishes a
notice of it as of a change made here. The transport is handed nothing, although two devices are
online. -/
theorem removal_pushes_nothing :
    let s := pushing.run [.perform 1 (.applyRemote "a" [⟨[1], [10]⟩] [])]
    let s' := s.handle (.perform 2 (.removeDeviceData "net-a"))
    s.profile.options.autoSync = true ∧ s.directory.online = ["net-a", "net-b"]
      ∧ s'.published
        = s.published ++ [(.here, { deletes := [⟨[1], [10]⟩], device := "self" })]
      ∧ s'.backend.get? [1] = none
      ∧ (∃ link, s.link = some link ∧ link.handed = [] ∧ s'.link = some link) := by
  intro s s'
  refine ⟨rfl, by decide +kernel, by decide +kernel, by decide +kernel, _, rfl, rfl, rfl⟩

end Session

end PeerStore
