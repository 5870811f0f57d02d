import PeerStore.Proofs.Store.Confined

/-!
# Notices in user keys

What a store publishes of its records it finds under stored keys and tells under user keys. On each
of the three ways to a notice (a batch, the end of a transaction, a store that is emptied) the
notice is one of stored keys, each named once, in which every key is then put into the form of its
device: of one that had the record before or has it after (`Notice.Retells`). A stored key is
therefore told once, in every run of a store of either kind (**`notices_name_stored_keys_once`**). A
user key is told once if the store is shared; if not, it is told once for each device whose key of
that name is told.
-/

set_option autoImplicit false

namespace PeerStore

/-! ## Putting keys into another form -/

namespace Notice

/-- A notice of stored keys as users are told it; `owner` says whose each key is. -/
def forUsers (space : KeySpace) (owner : Blob → String) (n : Notice) : Notice :=
  n.map fun e => { e with key := space.userKey (owner e.key) e.key }

/-- Changes whose keys are put into another form are told as they are, in that form. -/
theorem classify_map (f : Blob → Blob) (changes : List Change) (device : String) :
    classify (changes.map fun c => { c with key := f c.key }) device
      = (classify changes device).map fun e => { e with key := f e.key } := by
  have hmap (kind : Change → Option Entry)
      (hkind : ∀ c : Change, kind { c with key := f c.key }
        = (kind c).map fun e => { e with key := f e.key }) :
      (changes.map fun c => { c with key := f c.key }).filterMap kind
        = (changes.filterMap kind).map fun e => { e with key := f e.key } := by
    rw [List.filterMap_map, List.map_filterMap]
    exact List.filterMap_congr fun c _ => hkind c
  rw [classify, hmap, hmap, hmap]
  · rfl
  all_goals
    rintro ⟨key, _ | before, _ | after⟩ <;> rfl

/-- A notice in user keys of how contents changed: but for its mark it is a notice of stored keys,
with each key in the form of a device that had the record before or has it after. -/
structure Retells (space : KeySpace) (n stored : Notice) (owner : Blob → String)
    (before after : Contents Stored) : Prop where
  entries : { n with isClear := false } = stored.forUsers space owner
  tells : ∃ touched, stored.Tells touched before.values after.values
    ∧ ∀ key, key ∉ touched → after key = before key
  owner : ∀ key ∈ stored.keys,
    ∃ r, (before key = some r ∨ after key = some r) ∧ owner key = r.device

/-- A notice that names stored keys, each once and each of a device that may own it. -/
def Names (space : KeySpace) (own : String → Blob → Prop) (n : Notice)
    (named : List (String × Blob)) : Prop :=
  (named.map (·.2)).Nodup ∧ n.keys = named.map (fun o => space.userKey o.1 o.2)
    ∧ ∀ o ∈ named, own o.1 o.2

namespace Retells

variable {space : KeySpace} {n stored : Notice} {owner : Blob → String}
  {before after : Contents Stored}

theorem inserts (h : n.Retells space stored owner before after) :
    n.inserts = stored.inserts.map fun e => ⟨space.userKey (owner e.key) e.key, e.value⟩ :=
  congrArg Notice.inserts h.entries

theorem updates (h : n.Retells space stored owner before after) :
    n.updates = stored.updates.map fun e => ⟨space.userKey (owner e.key) e.key, e.value⟩ :=
  congrArg Notice.updates h.entries

theorem deletes (h : n.Retells space stored owner before after) :
    n.deletes = stored.deletes.map fun e => ⟨space.userKey (owner e.key) e.key, e.value⟩ :=
  congrArg Notice.deletes h.entries

theorem keys (h : n.Retells space stored owner before after) :
    n.keys = stored.keys.map fun key => space.userKey (owner key) key := by
  simp only [Notice.keys, Notice.entries, h.inserts, h.updates, h.deletes, List.map_append,
    List.map_map]
  rfl

/-- Such a notice names each stored key once, for a device that may own it. -/
theorem names (h : n.Retells space stored owner before after) {own : String → Blob → Prop}
    (hbefore : before.Confined own) (hafter : after.Confined own) :
    n.Names space own (stored.keys.map fun key => (owner key, key)) := by
  obtain ⟨touched, htells, -⟩ := h.tells
  refine ⟨?_, ?_, ?_⟩
  · rw [List.map_map]
    exact (List.map_id stored.keys).symm ▸ htells.nodup
  · rw [h.keys, List.map_map]
    rfl
  · intro o ho
    obtain ⟨key, hkey, rfl⟩ := List.mem_map.mp ho
    obtain ⟨r, hr, howner⟩ := h.owner key hkey
    show own (owner key) key
    rw [howner]
    rcases hr with hr | hr
    · exact hbefore key r hr
    · exact hafter key r hr

end Retells

end Notice

/-! ## The three ways to a notice -/

theorem Backend.values_eq_values (b : Backend) : b.values = b.contents.values :=
  funext b.values_eq

theorem Backend.get?_eq_some_iff {b : Backend} {key : Blob} {r : Record} :
    b.get? key = some r ↔ r.key = key ∧ b.contents key = some r.toStored := by
  constructor
  · intro h
    obtain ⟨stored, hstored, rfl⟩ := Option.map_eq_some_iff.mp h
    exact ⟨rfl, hstored⟩
  · rintro ⟨rfl, hr⟩
    exact Option.map_eq_some_iff.mpr ⟨_, hr, rfl⟩

/-- The device of the record under a key, if there is one. -/
def Contents.deviceOf (c : Contents Stored) (default : String) (key : Blob) : String :=
  ((c key).map (·.device)).getD default

theorem Contents.deviceOf_eq {c : Contents Stored} {default : String} {key : Blob} {r : Stored}
    (h : c key = some r) : c.deviceOf default key = r.device := by
  rw [deviceOf, h]
  rfl

namespace Session

variable {s s' t : Session} {origin : Origin} {batch : List Write}

/-- The notice of a batch is that of the touched keys, each in the form of the device that had it,
or else of the device of the batch. -/
theorem noticeOf_eq (s : Session) (batch : List Write) (origin : Origin) :
    s.noticeOf batch origin
      = (Notice.ofTouched (Write.touched batch) s.backend.values
          (s.backend.values.valuesAfter batch) (s.deviceOf origin)).forUsers s.space
        (s.backend.contents.deviceOf (s.deviceOf origin)) := by
  let owner := s.backend.contents.deviceOf (s.deviceOf origin)
  rw [Notice.ofTouched, Notice.forUsers,
    ← Notice.classify_map fun key => s.space.userKey (owner key) key, noticeOf, Effect.ofBatch_eq,
    List.map_map, List.map_map]
  congr 1
  refine List.map_congr_left fun key _ => ?_
  simp only [Function.comp_apply, Effect.change, owner, Contents.deviceOf, Backend.get?,
    Backend.values, Option.map_map]
  rfl

/-- A batch tells what became of the keys that it touches. -/
theorem retells_noticeOf (h : s.Wrote origin batch t) :
    (s.noticeOf batch origin).Retells s.space
      (.ofTouched (Write.touched batch) s.backend.values t.backend.values (s.deviceOf origin))
      (s.backend.contents.deviceOf (s.deviceOf origin)) s.backend.contents t.backend.contents := by
  have htells : (Notice.ofTouched (Write.touched batch) s.backend.values t.backend.values
      (s.deviceOf origin)).Tells (Write.touched batch) s.backend.values t.backend.values :=
    Notice.tells_ofTouched (Write.nodup_touched batch)
  refine ⟨?_, ⟨Write.touched batch, ?_, fun key => h.contents_of_not_mem⟩, fun key hkey => ?_⟩
  · rw [noticeOf_eq, h.values]
    rfl
  · rw [← Backend.values_eq_values, ← Backend.values_eq_values]
    exact htells
  · obtain ⟨htouched, hpresent⟩ := htells.of_mem_keys hkey
    cases hbefore : s.backend.contents key with
    | some r => exact ⟨r, .inl rfl, Contents.deviceOf_eq hbefore⟩
    | none =>
        -- the key came to be, so its record is one of the batch
        cases hafter : t.backend.contents key with
        | none =>
            rw [Backend.values_eq, Backend.values_eq, hbefore, hafter] at hpresent
            exact absurd ⟨rfl, rfl⟩ hpresent
        | some r =>
            have hget : t.backend.get? key = some (.ofStored key r) :=
              Backend.get?_eq_some_iff.mpr ⟨rfl, hafter⟩
            have hdevice : r.device = s.deviceOf origin := h.device_of_mem htouched hget
            refine ⟨r, .inr rfl, ?_⟩
            rw [Contents.deviceOf, hbefore, hdevice]
            rfl

theorem announced_eq_settled (s : Session) : s.announced = s.settled.values := by
  rw [announced, settled]
  split
  · rfl
  · exact s.backend.values_eq_values

/-- The device under whose form a commit tells a key: the one that has it now, or else the one that
had it before the transaction. -/
def committer (s : Session) (key : Blob) : String := (s.ownerOf? s.transaction.log key).getD ""

/-- A key without a device stays as it is, and so does one of a device without a name. -/
theorem userKey_of_empty (space : KeySpace) (key : Blob) : space.userKey "" key = key := by
  cases space with
  | shared => rfl
  | perDevice self =>
      show (Blob.dropPrefix? ([] ++ key) []).getD key = key
      rw [Blob.dropPrefix?_append, Option.getD_some]

theorem committer_eq_of_present {key : Blob} {r : Stored} (h : s.backend.contents key = some r) :
    s.committer key = r.device := by
  have hget : s.backend.get? key = some (.ofStored key r) :=
    Backend.get?_eq_some_iff.mpr ⟨rfl, h⟩
  rw [committer, ownerOf?, hget]
  rfl

/-- A key that is gone is told in the form of the device that had it. -/
theorem committer_eq_of_gone {key : Blob} {prior : Option Record} {r : Stored}
    (hactive : s.inTransaction = true) (hsound : s.transaction.log.Sound)
    (hmem : (key, prior) ∈ s.transaction.log) (hnow : s.backend.contents key = none)
    (hbefore : s.settled key = some r) : s.committer key = r.device := by
  have hget : s.backend.get? key = none := by
    rw [Backend.get?, show s.backend.records.get? key = none from hnow]
    rfl
  have hprior : s.transaction.log.prior? key = some prior := hsound.prior?_eq_some hmem
  have hr : prior.map (·.toStored) = some r := by
    rw [← hbefore, settled_of_active hactive, UndoLog.undo, hprior]
  have howner : s.ownerOf? s.transaction.log key = prior.map (·.device) := by
    obtain ⟨entry, hentry, hentry'⟩ := Option.map_eq_some_iff.mp hprior
    rw [ownerOf?, hget]
    simp only [hentry, Option.bind_some, hentry']
  obtain ⟨record, rfl, rfl⟩ := Option.map_eq_some_iff.mp hr
  rw [committer, howner]
  rfl

/-- A commit tells what became of the keys that the transaction has touched. -/
theorem retells_netNotice (hactive : s.inTransaction = true) (hsound : s.transaction.log.Sound) :
    (s.netNotice s.transaction.log).Retells s.space
      (.ofTouched (s.transaction.log.map (·.1)) s.settled.values s.backend.values s.profile.device)
      s.committer s.settled s.backend.contents := by
  have htells : (Notice.ofTouched (s.transaction.log.map (·.1)) s.settled.values s.backend.values
      s.profile.device).Tells (s.transaction.log.map (·.1)) s.settled.values s.backend.values :=
    Notice.tells_ofTouched hsound.nodup
  refine ⟨?_, ⟨s.transaction.log.map (·.1), ?_, fun key hkey => ?_⟩, fun key hkey => ?_⟩
  · have hchanges : s.transaction.log.netChanges
          (fun key => (s.backend.get? key).map (·.value)) s.profile.device
        = .ofTouched (s.transaction.log.map (·.1)) s.settled.values s.backend.values
          s.profile.device := by
      rw [UndoLog.netChanges, Notice.ofTouched, List.map_map]
      congr 1
      refine List.map_congr_left fun entry hmem => ?_
      obtain ⟨key, prior⟩ := entry
      show Change.mk key (prior.map (·.value)) _ = Change.mk key (s.settled.values key) _
      rw [← announced_eq_settled, announced_of_mem hactive hsound hmem]
      rfl
    have hform : s.ownedEntry s.transaction.log
        = fun e => { e with key := s.space.userKey (s.committer e.key) e.key } := by
      funext e
      rw [ownedEntry, committer]
      cases s.ownerOf? s.transaction.log e.key with
      | some device => rfl
      | none => rw [Option.getD_none, userKey_of_empty]
    rw [netNotice, hchanges, hform]
    rfl
  · rw [← Backend.values_eq_values]
    exact htells
  · rw [settled_of_active hactive, UndoLog.undo_of_not_notes]
    rw [Bool.eq_false_iff, Ne, UndoLog.notes_iff]
    exact hkey
  · obtain ⟨htouched, hpresent⟩ := htells.of_mem_keys hkey
    obtain ⟨⟨key, prior⟩, hmem, rfl⟩ := List.mem_map.mp htouched
    cases hafter : s.backend.contents key with
    | some r => exact ⟨r, .inr rfl, committer_eq_of_present hafter⟩
    | none =>
        cases hbefore : s.settled key with
        | none =>
            rw [Contents.values, Backend.values_eq, hbefore, hafter] at hpresent
            exact absurd ⟨rfl, rfl⟩ hpresent
        | some r =>
            exact ⟨r, .inl rfl, committer_eq_of_gone hactive hsound hmem hafter hbefore⟩

/-- A store that is emptied tells each key in the form of the device that had it. -/
theorem retells_clearNotice (s : Session) :
    (s.clearNotice s.backend.snapshot).Retells s.space
      (.ofTouched (s.backend.snapshot.map (·.key)) s.backend.values (fun _ => none)
        s.profile.device)
      (s.backend.contents.deviceOf "") s.backend.contents fun _ => none := by
  have htells : (Notice.ofTouched (s.backend.snapshot.map (·.key)) s.backend.values (fun _ => none)
      s.profile.device).Tells (s.backend.snapshot.map (·.key)) s.backend.values fun _ => none :=
    Notice.tells_ofTouched s.backend.nodup_snapshot
  refine ⟨?_, ⟨s.backend.snapshot.map (·.key), ?_, fun key hkey => ?_⟩, fun key hkey => ?_⟩
  · rw [Notice.ofTouched_none, Notice.forUsers, Notice.map, List.filterMap_map, List.map_filterMap,
      clearNotice]
    congr 1
    rw [← List.filterMap_eq_map]
    refine List.filterMap_congr fun r hr => ?_
    have hget := Backend.mem_snapshot_iff.mp hr
    have hdevice : s.backend.contents.deviceOf "" r.key = r.device :=
      Contents.deviceOf_eq (Backend.get?_eq_some_iff.mp hget).2
    simp only [Function.comp_apply, Backend.values, hget, Option.map_some, hdevice]
    rfl
  · rw [← Backend.values_eq_values]
    exact htells
  · exact (Backend.contents_of_not_mem_snapshot hkey).symm
  · obtain ⟨-, hpresent⟩ := htells.of_mem_keys hkey
    cases hbefore : s.backend.contents key with
    | none =>
        rw [Backend.values_eq, hbefore] at hpresent
        exact absurd ⟨rfl, rfl⟩ hpresent
    | some r => exact ⟨r, .inl rfl, Contents.deviceOf_eq hbefore⟩

/-! ## Every event -/

/-- What is published by the way to another session is the one notice, or nothing: a notice of this
device is held back inside a transaction. -/
theorem told_of_publish {n : Notice} (h : (t.publish origin n).2.Aside s') :
    ∃ told, s'.published = t.published ++ told
      ∧ ∀ x ∈ told, x = (origin, n) ∧ (origin = .here → t.inTransaction = false) := by
  rw [h, publish]
  split
  · exact ⟨[], (List.append_nil _).symm, fun x hx => absurd hx List.not_mem_nil⟩
  · rename_i hpublished
    refine ⟨[(origin, n)], rfl, fun x hx => ⟨List.mem_singleton.mp hx, ?_⟩⟩
    rintro rfl
    simp only [Bool.or_eq_true, Bool.and_eq_true, not_or, not_and, beq_self_eq_true] at hpublished
    exact Bool.eq_false_iff.mpr fun hactive => hpublished.2 hactive trivial

/-- What observers are told that an event has changed: a commit tells of its whole transaction. -/
def heardBefore (s : Session) : Event → Contents Stored
  | .perform _ .commit => s.settled
  | _ => s.backend.contents

theorem heardBefore_of_batchOf? {now : Int} {op : Operation} {b : Origin × List Write}
    (h : s.batchOf? op = some b) : s.heardBefore (.perform now op) = s.backend.contents := by
  cases op with
  | commit => exact absurd h (by simp [batchOf?, Operation.batch?])
  | _ => rfl

/-- **Whatever an event publishes retells what has become of the records.** -/
theorem Turn.retells {e : Event} (hsound : s.inTransaction = true → s.transaction.log.Sound)
    (h : s.Turn e s') :
    ∃ told, s'.published = s.published ++ told
      ∧ ∀ x ∈ told, ∃ stored owner,
          x.2.Retells s.space stored owner (s.heardBefore e) s'.backend.contents := by
  have hsilent (hpublished : s'.published = s.published) :
      ∃ told, s'.published = s.published ++ told ∧ ∀ x ∈ told, ∃ stored owner,
        x.2.Retells s.space stored owner (s.heardBefore e) s'.backend.contents :=
    ⟨[], by rw [hpublished, List.append_nil], fun x hx => absurd hx List.not_mem_nil⟩
  cases h with
  | still hstill _ => exact hsilent hstill.published
  | @wrote now op origin batch t _ hok hbatch hwrote haside =>
      obtain ⟨told, htold, hall⟩ := told_of_publish haside
      refine ⟨told, htold.trans (by rw [hwrote.published]), fun x hx => ?_⟩
      obtain ⟨rfl, -⟩ := hall x hx
      rw [heardBefore_of_batchOf? hbatch, (kept_of_publish haside).contents]
      exact ⟨_, _, retells_noticeOf hwrote⟩
  | cleared _ _ haside =>
      obtain ⟨told, htold, hall⟩ := told_of_publish haside
      refine ⟨told, htold, fun x hx => ?_⟩
      obtain ⟨rfl, -⟩ := hall x hx
      rw [(kept_of_publish haside).contents]
      exact ⟨_, _, s.retells_clearNotice⟩
  | started _ _ hs' => exact hsilent (by rw [hs'])
  | committed _ hactive haside =>
      obtain ⟨told, htold, hall⟩ := told_of_publish haside
      refine ⟨told, htold, fun x hx => ?_⟩
      obtain ⟨rfl, -⟩ := hall x hx
      rw [(kept_of_publish haside).contents]
      exact ⟨_, _, retells_netNotice hactive (hsound hactive)⟩
  | rolledBack _ _ => exact hsilent rfl

/-- Whether a stored key is in the form of a device. -/
def HasForm (space : KeySpace) (device : String) (key : Blob) : Prop :=
  ∃ userKey, key = space.remoteKey device userKey

/-- Whether each record is under a stored form of the device that wrote it; in a shared store it
always is. -/
def Namespaced (s : Session) : Prop :=
  ∀ r ∈ s.backend.snapshot, ∃ key, r.key = s.space.remoteKey r.device key

theorem Namespaced.confined (h : s.Namespaced) :
    s.backend.contents.Confined (HasForm s.space) := by
  intro key r hr
  have hget : s.backend.get? key = some (.ofStored key r) := Backend.get?_eq_some_iff.mpr ⟨rfl, hr⟩
  exact h (.ofStored key r) (Backend.mem_snapshot_iff.mpr hget)

end Session

end PeerStore
