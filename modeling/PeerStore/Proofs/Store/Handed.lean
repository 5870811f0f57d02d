import PeerStore.Proofs.Notifier.Run
import PeerStore.Proofs.Shelf
import PeerStore.Proofs.Store.Turn

/-!
# What a store hands out

Two things leave a store for good: notices, which go to its observers, and cursors, which go on the
shelf. Whatever an operation does to the entries of the store, it hands out one cursor, or takes one
back, or publishes notices, at most one of the three (**`perform_hands`**). A notice that is
published is queued for those that hear of it (`Store.Publishes`).
-/

set_option autoImplicit false

namespace PeerStore

/-! ## Notices -/

/-- The deliveries that notices lead to. -/
def Notifier.deliveries (r : Registry) (notices : List (Origin × Notice)) : List Delivery :=
  notices.filterMap fun p => delivery? r (.notify p.1 p.2)

/-- Whether a store has published notices. Each is queued for those that hear of it, unless the
notifier is shut down; nothing else happens to the notifier, but observers may come and go. -/
structure Store.Publishes (x : Store) (notices : List (Origin × Notice)) (x' : Store) : Prop where
  published : x'.published = x.published ++ notices
  notifier : x'.notifier = { x.notifier with
    registry := x'.notifier.registry
    dispatcher := { x.notifier.dispatcher with
      queue := x.notifier.dispatcher.queue ++
        if x.notifier.dispatcher.stopped then []
        else Notifier.deliveries x.notifier.registry notices } }

/-- Nothing is published of a store whose notifier changes only in its observers. -/
theorem Store.publishes_nil {x x' : Store} (hpublished : x'.published = x.published)
    (hnotifier : x'.notifier = { x.notifier with registry := x'.notifier.registry }) :
    x.Publishes [] x' where
  published := hpublished.trans (List.append_nil _).symm
  notifier := by
    rw [hnotifier, Notifier.deliveries]
    simp

namespace Session

variable {s s' t : Session}

theorem publishes_publish (s : Session) (origin : Origin) (notice : Notice) :
    ∃ notices, s.toStore.Publishes notices (s.publish origin notice).2.toStore := by
  unfold publish
  split
  · exact ⟨[], Store.publishes_nil rfl rfl⟩
  · refine ⟨[(origin, notice)], rfl, ?_⟩
    show (s.notifier.notify origin notice).2 = _
    rw [Notifier.notify_snd]
    simp only [Notifier.deliveries, List.filterMap_cons, List.filterMap_nil]
    cases Notifier.delivery? s.notifier.registry (.notify origin notice) <;> rfl

/-- An automatic sync that follows a notice concerns no observer. -/
theorem announce_eq_publish (s : Session) (origin : Origin) (notice : Notice) :
    s.announce origin notice
      = { (s.publish origin notice).2 with link := (s.announce origin notice).link } := by
  unfold announce
  split
  · rename_i heq
    rw [heq]
    split
    · rw [pushOnline_rest]
    · rfl
  · rename_i heq
    rw [heq]

/-! ## Cursors -/

theorem contains_prune (s : Session) (id : Nat) :
    s.prune.cursors.contains id = (s.cursors.contains id && s.shelf.isOpen id) :=
  s.cursors.contains_filter s.shelf.isOpen id

/-- Whether nothing is handed out but notices. -/
structure Tells (s s' : Session) : Prop where
  publishes : ∃ notices, s.toStore.Publishes notices s'.toStore
  cursors : s'.cursors = s.cursors
  shelf : s'.shelf = s.shelf
  directory : s'.directory = s.directory

/-- The cursor that an outcome gives. -/
def cursorOf? : Except Status Answer → Option Nat
  | .ok (.cursor id) => some id
  | _ => none

/-- All that an operation can hand out, by its outcome. -/
inductive Hands (s : Session) : Except Status Answer → Session → Prop where
  | tells {answer : Except Status Answer} {s' : Session} :
      cursorOf? answer = none → s.Tells s' → Hands s answer s'
  /-- A new cursor is put on the shelf, and the store keeps its number with those of the others that
  are open. -/
  | lends (es : List Entry) :
      Hands s (.ok (.cursor s.shelf.next))
        { s with
          shelf := (s.shelf.add (.ofEntries es)).2,
          cursors := s.prune.cursors.add s.shelf.next }
  /-- A cursor is taken back: if it was one of the store, it is not open any more. -/
  | takes {answer : Except Status Answer} {s' : Session} (id : Nat) :
      cursorOf? answer = none →
      s' = { s with cursors := s.cursors.erase id, shelf := s'.shelf } →
      s.shelf.Later s'.shelf → (s.cursors.contains id = true → s'.shelf.isOpen id = false) →
      Hands s answer s'

/-! ## Operations that change the store -/

/-- A session whose notifier, cursors and shelf are as they were hands nothing out. -/
theorem Tells.of_eq (hpublished : s'.published = s.published)
    (hnotifier : s'.notifier = s.notifier) (hcursors : s'.cursors = s.cursors)
    (hshelf : s'.shelf = s.shelf) (hdirectory : s'.directory = s.directory) : s.Tells s' :=
  ⟨⟨[], Store.publishes_nil hpublished (by rw [hnotifier])⟩, hcursors, hshelf, hdirectory⟩

theorem Tells.refl (s : Session) : s.Tells s := .of_eq rfl rfl rfl rfl rfl

theorem Failed.tells {e : Status} (h : s.Failed e s') : s.Tells s' := by
  rw [h.rest]
  exact .of_eq rfl rfl rfl rfl rfl

/-- What is published after a change that concerns nobody. -/
theorem Tells.publish (hpublished : t.published = s.published)
    (hnotifier : t.notifier = s.notifier) (hcursors : t.cursors = s.cursors)
    (hshelf : t.shelf = s.shelf) (hdirectory : t.directory = s.directory) (origin : Origin)
    (notice : Notice) : s.Tells (t.publish origin notice).2 := by
  have hrest : (t.publish origin notice).2.cursors = t.cursors
      ∧ (t.publish origin notice).2.toServices = t.toServices := by
    unfold Session.publish
    split <;> exact ⟨rfl, rfl⟩
  obtain ⟨notices, hpublishes⟩ := t.publishes_publish origin notice
  refine ⟨⟨notices, ?_, ?_⟩, hrest.1.trans hcursors, ?_, ?_⟩
  · rw [hpublishes.published, hpublished]
  · rw [hpublishes.notifier, hnotifier]
  · rw [hrest.2]
    exact hshelf
  · rw [hrest.2]
    exact hdirectory

theorem Tells.announce (hpublished : t.published = s.published)
    (hnotifier : t.notifier = s.notifier) (hcursors : t.cursors = s.cursors)
    (hshelf : t.shelf = s.shelf) (hdirectory : t.directory = s.directory) (origin : Origin)
    (notice : Notice) : s.Tells (t.announce origin notice) := by
  have h := Tells.publish hpublished hnotifier hcursors hshelf hdirectory origin notice
  rw [announce_eq_publish]
  exact ⟨h.publishes, h.cursors, h.shelf, h.directory⟩

theorem Wrote.tells {origin : Origin} {batch : List Write} (h : s.Wrote origin batch t)
    (notice : Notice) :
    s.Tells (t.publish origin notice).2 ∧ s.Tells (t.announce origin notice) := by
  have hcursors : t.cursors = s.cursors := by rw [h.rest]
  have hshelf : t.shelf = s.shelf := by rw [h.rest]
  have hdirectory : t.directory = s.directory := by rw [h.rest]
  exact ⟨.publish h.published h.notifier hcursors hshelf hdirectory origin notice,
    .announce h.published h.notifier hcursors hshelf hdirectory origin notice⟩

theorem tells_of_mutate {now : Int} {batch : List Write} {origin : Origin}
    (h : s.mutate now batch origin = (.ok (), s')) : s.Tells s' := by
  obtain ⟨-, t, hwrote, rfl⟩ := mutate_eq_ok h
  exact (hwrote.tells _).2

theorem tells_of_clear {now : Int} (h : s.clear now = (.ok (), s')) : s.Tells s' := by
  obtain ⟨-, ⟨-, hmutate⟩ | ⟨-, rfl⟩⟩ := clear_eq_ok h
  · exact tells_of_mutate hmutate
  · refine .announce ?_ ?_ ?_ ?_ ?_ _ _ <;> rfl

theorem tells_of_removeDeviceData {now : Int} {network : String}
    (h : s.removeDeviceData now network = (.ok (), s')) : s.Tells s' := by
  obtain ⟨device, notice, t, -, -, -, happly, rfl⟩ := removeDeviceData_eq_ok h
  exact ((applyBatch_eq_ok happly).2.tells notice).1

/-- **An operation that changes the store hands out nothing but notices.** -/
theorem tells_of_isChange {op : Operation} (hop : op.isChange = true) (s : Session) (now : Int) :
    s.Tells (s.perform now op).2 := by
  cases hperform : s.perform now op with
  | mk result s' =>
      cases result with
      | error e => exact (perform_eq_error hop hperform).tells
      | ok answer =>
          cases op with
          | put | putBatch | delete | deleteBatch | applyRemote =>
              exact tells_of_mutate (mutate_of_perform rfl hperform)
          | clear => exact tells_of_clear (eq_ok_of_answer hperform)
          | removeDeviceData network => exact tells_of_removeDeviceData (eq_ok_of_answer hperform)
          | startTransaction =>
              obtain ⟨-, -, rfl⟩ := startTransaction_eq_ok (eq_ok_of_answer hperform)
              exact .of_eq rfl rfl rfl rfl rfl
          | commit =>
              obtain ⟨-, rfl⟩ := commit_eq_ok (eq_ok_of_answer hperform)
              refine .announce ?_ ?_ ?_ ?_ ?_ _ _ <;> rfl
          | rollback =>
              obtain ⟨-, rfl⟩ := undone_of_rollback (eq_ok_of_answer hperform)
              exact .of_eq rfl rfl rfl rfl rfl
          | _ => cases hop

/-! ## Every operation -/

theorem cursorOf?_answer {α : Type} {f : α → Answer} (h : ∀ a, cursorOf? (.ok (f a)) = none)
    (r : Result α) : cursorOf? (r.answer f).1 = none := by
  obtain ⟨result, t⟩ := r
  cases result with
  | error e => rfl
  | ok a => exact h a

/-- No operation but one that opens a result set gives a cursor. -/
theorem cursorOf?_perform {op : Operation} (hop : ∀ source, op ≠ .openResultSet source)
    (s : Session) (now : Int) : cursorOf? (s.perform now op).1 = none := by
  cases op with
  | openResultSet source => exact absurd rfl (hop source)
  | _ => exact cursorOf?_answer (fun _ => rfl) _

theorem hands_openResultSet (s : Session) (source : Source) :
    s.Hands ((s.openResultSet source).answer .cursor).1
      ((s.openResultSet source).answer .cursor).2 := by
  have hread := s.read_snd source
  unfold openResultSet
  split
  · rename_i es t heq
    rw [heq] at hread
    obtain rfl : t = s := hread
    exact .lends es
  · rename_i t heq
    rw [heq] at hread
    obtain rfl : t = s := hread
    exact .tells rfl (.refl t)

theorem hands_closeResultSet (s : Session) (id : Nat) :
    s.Hands ((s.closeResultSet id).answer fun _ => .done).1 (s.closeResultSet id).2 := by
  by_cases hopen : s.isOpen = true
  · have heq : s.closeResultSet id = _ := whenOpen_of_isOpen hopen _
    rw [heq]
    dsimp only
    split
    · exact .takes id rfl rfl (s.shelf.ages_close id).later fun _ => s.shelf.isOpen_close id
    · rename_i hhere
      refine .takes id rfl rfl (.refl _) fun hmine => ?_
      rw [hmine, Bool.true_and] at hhere
      exact Bool.eq_false_iff.mpr hhere
  · have heq : s.closeResultSet id = (.error (.storeNotOpen s.profile.id), s) := by
      rw [closeResultSet, whenOpen, requireOpen, if_neg hopen]
      rfl
    rw [heq]
    exact .tells rfl (.refl s)

theorem tells_subscribe (s : Session) (observer : String) (scope : Scope) :
    s.Tells (s.subscribe observer scope).2 := by
  refine after_snd (P := s.Tells) (.refl s) ?_
  split
  · rename_i n hsubscribe
    rw [Notifier.subscribe] at hsubscribe
    cases hregistry : s.notifier.registry.subscribe observer scope with
    | error e =>
        rw [hregistry] at hsubscribe
        cases hsubscribe
    | ok r =>
        rw [hregistry] at hsubscribe
        cases hsubscribe
        exact ⟨⟨[], Store.publishes_nil rfl rfl⟩, rfl, rfl, rfl⟩
  · exact .refl s

theorem tells_unsubscribe (s : Session) (observer : String) (scope : Scope) :
    s.Tells (s.unsubscribe observer scope).2 := by
  refine after_snd (P := s.Tells) (.refl s) ?_
  split
  · rename_i n hunsubscribe
    rw [Notifier.unsubscribe] at hunsubscribe
    cases hregistry : s.notifier.registry.unsubscribe observer scope with
    | error e =>
        rw [hregistry] at hunsubscribe
        cases hunsubscribe
    | ok r =>
        rw [hregistry] at hunsubscribe
        cases hunsubscribe
        exact ⟨⟨[], Store.publishes_nil rfl rfl⟩, rfl, rfl, rfl⟩
  · exact .refl s

theorem tells_startSync (s : Session) (networks : List String) (mode : SyncMode) (delay : Nat)
    (query : Option Query) (callback : Option String) :
    s.Tells (s.startSync networks mode delay query callback).2 := by
  rw [startSync_rest]
  exact .of_eq rfl rfl rfl rfl rfl

/-- An operation that neither opens nor closes a result set hands out nothing but notices. -/
theorem perform_tells {op : Operation} (hopen : ∀ source, op ≠ .openResultSet source)
    (hclose : ∀ id, op ≠ .closeResultSet id) (s : Session) (now : Int) :
    s.Tells (s.perform now op).2 := by
  cases op with
  | put | putBatch | delete | deleteBatch | clear | removeDeviceData | applyRemote
  | startTransaction | commit | rollback => exact tells_of_isChange rfl s now
  | openResultSet source => exact absurd rfl (hopen source)
  | closeResultSet id => exact absurd rfl (hclose id)
  | get key => rw [perform, answer_snd, get_snd]; exact .refl s
  | entries pfx => rw [perform, answer_snd, entries_snd]; exact .refl s
  | query selection => rw [perform, answer_snd, query_snd]; exact .refl s
  | count selection => rw [perform, answer_snd, count_snd]; exact .refl s
  | subscribe observer scope => rw [perform, answer_snd]; exact s.tells_subscribe observer scope
  | unsubscribe observer scope => rw [perform, answer_snd]; exact s.tells_unsubscribe observer scope
  | registerCallback | unregisterCallback | securityLevel =>
      rw [perform, answer_snd]
      exact after_snd (P := s.Tells) (.refl s) (.of_eq rfl rfl rfl rfl rfl)
  | sync | syncWithQuery =>
      rw [perform, answer_snd]
      exact s.tells_startSync ..

/-- **All that an operation hands out**: a cursor, or notices, or nothing. -/
theorem perform_hands (s : Session) (now : Int) (op : Operation) :
    s.Hands (s.perform now op).1 (s.perform now op).2 := by
  by_cases hopen : ∃ source, op = .openResultSet source
  · obtain ⟨source, rfl⟩ := hopen
    exact s.hands_openResultSet source
  by_cases hclose : ∃ id, op = .closeResultSet id
  · obtain ⟨id, rfl⟩ := hclose
    rw [perform, answer_snd]
    exact s.hands_closeResultSet id
  · rw [not_exists] at hopen hclose
    exact .tells (cursorOf?_perform hopen s now) (perform_tells hopen hclose s now)

/-! ## What becomes of the rest -/

/-- Whatever is handed out, no cursor is opened again. -/
theorem Hands.later {answer : Except Status Answer} (h : s.Hands answer s') :
    s.shelf.Later s'.shelf := by
  cases h with
  | tells _ htells =>
      rw [htells.shelf]
      exact .refl _
  | lends es => exact (s.shelf.ages_add _).later
  | takes _ _ _ hlater => exact hlater

/-- A cursor that is given has the next number. -/
theorem Hands.cursor_eq {answer : Except Status Answer} (h : s.Hands answer s') {id : Nat}
    (hid : cursorOf? answer = some id) : id = s.shelf.next := by
  cases h with
  | tells hnone =>
      rw [hnone] at hid
      cases hid
  | lends es => exact (Option.some.inj hid).symm
  | takes _ hnone =>
      rw [hnone] at hid
      cases hid

/-- No operation changes the directory. -/
theorem Hands.directory {answer : Except Status Answer} (h : s.Hands answer s') :
    s'.directory = s.directory := by
  cases h with
  | tells _ htells => exact htells.directory
  | lends es => rfl
  | takes _ _ hs' => rw [hs']

theorem ages_close (s : Session) : s.shelf.Ages s.close.shelf := by
  by_cases hopen : s.isOpen = true
  · rw [close_eq hopen, abandon_rest]
    exact s.shelf.ages_closeAll _
  · rw [close, if_neg hopen]
    exact .refl _

/-- A store that is closed publishes nothing by that, and leaves the directory alone. -/
theorem close_rest (s : Session) :
    s.close.published = s.published ∧ s.close.directory = s.directory := by
  by_cases hopen : s.isOpen = true
  · rw [close_eq hopen, abandon_rest]
    exact ⟨rfl, rfl⟩
  · rw [close, if_neg hopen]
    exact ⟨rfl, rfl⟩

end Session

end PeerStore
