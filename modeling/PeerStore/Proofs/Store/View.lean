import PeerStore.Proofs.Cursor
import PeerStore.Proofs.Query.Scope
import PeerStore.Proofs.Store.Family
import PeerStore.Proofs.Store.Separation

/-!
# What users see

`Session.Shows` says that all that users can see of a session that keeps devices apart is what maps
hold, one for each device: its records are the entries of the maps, look-ups and scans read the map
of this device, a query for a device reads the map of that one, and whatever a query or a cursor
gives is an entry of some map, under its user key. It is so if each record is under the id of its
device and a valid key, among devices none of whose ids is a prefix of another
(**`shows_of_confined`**).
-/

set_option autoImplicit false

namespace PeerStore

/-! ## Cursors -/

namespace Cursor

/-- Whether a cursor gives an entry after some moves. -/
def Gives (c : Cursor) (e : Entry) : Prop :=
  ∃ moves : List Move, (moves.foldl (fun c m => (c.move m).2) c).entry = .ok e

theorem foldl_move_entries (c : Cursor) (moves : List Move) :
    (moves.foldl (fun c m => (c.move m).2) c).entries = c.entries := by
  induction moves generalizing c with
  | nil => rfl
  | cons m moves ih =>
      rw [List.foldl_cons, ih]
      exact c.entries_move m

/-- The current entry is one of the entries. -/
theorem mem_of_entry {c : Cursor} {e : Entry} {es : List Entry} (hentries : c.entries = some es)
    (h : c.entry = .ok e) : e ∈ es := by
  rw [entry, hentries] at h
  dsimp only at h
  split at h
  · rename_i e' hcurrent
    cases h
    split at hcurrent
    · exact List.mem_of_getElem? hcurrent
    · exact absurd hcurrent (by simp)
  · exact absurd h (by simp)

/-- **However it is moved, a cursor gives the entries that it was opened with.** -/
theorem Gives.mem {es : List Entry} {e : Entry} (h : (ofEntries es).Gives e) : e ∈ es := by
  obtain ⟨moves, h⟩ := h
  exact mem_of_entry ((ofEntries es).foldl_move_entries moves) h

end Cursor

/-! ## Maps -/

/-- The entries of a map under a prefix are settled by the map. -/
theorem Contents.Lists.unique {c : Contents Blob} {pfx : Blob} {es es' : List Entry}
    (h : c.Lists pfx es) (h' : c.Lists pfx es') : es = es' :=
  Blob.eq_of_ascending (·.key) h.ascending h'.ascending fun e => by rw [h.mem_iff, h'.mem_iff]

namespace Session

variable {s s' : Session} {devices : List String} {device : String}

/-- Whether a device of a list may own a stored key: it is that of a valid key of the device. -/
def Owns (s : Session) (devices : List String) (device : String) (key : Blob) : Prop :=
  device ∈ devices
    ∧ ∃ userKey, s.checkKey userKey = .ok () ∧ key = Blob.ofString device ++ userKey

theorem Owns.among {key : Blob} (h : s.Owns devices device key) : Among devices device key := by
  obtain ⟨hdevice, userKey, -, hkey⟩ := h
  exact ⟨hdevice, userKey, hkey⟩

theorem owns_congr (h : s'.profile = s.profile) : s'.Owns devices = s.Owns devices := by
  funext device key
  rw [Owns, Owns, checkKey_congr h]

/-- What users can see of a session is what maps hold, one for each device. -/
structure Shows (devices : List String) (s : Session) (m : Family) : Prop where
  /-- Each record is an entry of the map of its device, under the device id and a valid key. -/
  records : ∀ r ∈ s.backend.snapshot, r.device ∈ devices ∧ ∃ key, s.checkKey key = .ok ()
    ∧ r.key = Blob.ofString r.device ++ key ∧ m r.device key = some r.value
  /-- Each entry of a map is a record. -/
  held : ∀ device key value, m device key = some value →
    ∃ r ∈ s.backend.snapshot, r.device = device ∧ r.key = Blob.ofString device ++ key
      ∧ r.value = value
  get : ∀ key value, (s.get key).1 = .ok value ↔
    s.isOpen = true ∧ s.checkKey key = .ok () ∧ m s.profile.device key = some value
  entries : ∀ pfx es, (s.entries pfx).1 = .ok es ↔
    s.isOpen = true ∧ s.checkKeyPrefix pfx = .ok () ∧ (m s.profile.device).Lists pfx es
  /-- A query for a device, with a key prefix or without, gives its entries. -/
  ofDevice : ∀ text device pfx, s.compiler.Scopes text device pfx → device ∈ devices →
    ∀ es, (s.query (.text text)).1 = .ok es ↔ s.isOpen = true ∧ (m device).Lists pfx es
  /-- Whatever a query gives is an entry of the map of some device. -/
  query : ∀ selection es, (s.query selection).1 = .ok es →
    ∀ e ∈ es, ∃ device ∈ devices, m device e.key = some e.value
  /-- Whatever a cursor gives was an entry of the map of some device when it was opened. -/
  cursor : ∀ source id t, s.openResultSet source = (.ok id, t) →
    ∃ c, t.shelf.get? id = some c ∧ ∀ e, c.Gives e →
      ∃ device ∈ devices, m device e.key = some e.value
  /-- An open store whose backend accepts writes takes exactly the calls that suit it. -/
  takes : s.isOpen = true → s.backend.failing = false → ∀ now op, op.isChange = true →
    ((s.perform now op).1.isOk = true ↔ s.Admits op)

/-! ## Reading -/

section

variable {α : Type} {a : α} {op : Session → Result α}

/-- What is behind a check succeeds if the check does. -/
theorem after_eq_ok_iff {check : Except Status Unit} :
    (s.after check op).1 = .ok a ↔ check = .ok () ∧ (op s).1 = .ok a := by
  cases check with
  | ok _ => exact ⟨fun h => ⟨rfl, h⟩, fun h => h.2⟩
  | error e => exact ⟨fun h => absurd h (by simp [after]), fun h => absurd h.1 (by simp)⟩

theorem whenOpen_eq_ok_iff :
    (s.whenOpen op).1 = .ok a ↔ s.isOpen = true ∧ (op s).1 = .ok a := by
  rw [whenOpen, after_eq_ok_iff, requireOpen]
  split <;> simp_all

end

theorem get_eq_ok_iff {key value : Blob} : (s.get key).1 = .ok value ↔
    s.isOpen = true ∧ s.checkKey key = .ok ()
      ∧ s.backend.contents.values (s.space.ownKey key) = some value := by
  rw [get, after_eq_ok_iff, whenOpen_eq_ok_iff, and_left_comm, ← Backend.values_eq_values,
    Backend.values]
  cases s.backend.get? (s.space.ownKey key) <;> simp

theorem entries_eq_ok_iff {pfx : Blob} {es : List Entry} : (s.entries pfx).1 = .ok es ↔
    s.isOpen = true ∧ s.checkKeyPrefix pfx = .ok ()
      ∧ (s.backend.scanPrefix (s.space.ownKey pfx)).map s.userEntry = es := by
  rw [entries, after_eq_ok_iff, whenOpen_eq_ok_iff, Except.ok.injEq, and_left_comm]

/-- A query gives the records that its plan selects, as users see them. -/
theorem query_eq_ok_iff {selection : Selection} {es : List Entry} :
    (s.query selection).1 = .ok es ↔
      ∃ q p, s.queryOf selection = .ok q ∧ q.plan? = .ok p ∧ s.isOpen = true
        ∧ (p.evaluate (s.candidates p)).map s.userEntry = es := by
  have hselect : (s.query selection).1 = .ok es ↔
      ∃ records, (s.select selection).1 = .ok records ∧ records.map s.userEntry = es := by
    have hsnd := s.select_snd selection
    rw [query]
    cases hselect : s.select selection with
    | mk result t =>
        rw [hselect] at hsnd
        dsimp only at hsnd
        cases result <;> simp [hsnd]
  rw [hselect, select]
  cases s.queryOf selection with
  | error e => simp
  | ok q =>
      simp only [Except.ok.injEq, exists_and_left, exists_eq_left', runQuery]
      cases q.plan? with
      | error e => simp
      | ok p => simp [whenOpen_eq_ok_iff, and_assoc]

/-- A plan that asks for a key prefix alone gives what is scanned under it. -/
theorem evaluate_candidates_of_keyPrefix (s : Session) (pfx : Blob) :
    Query.Plan.evaluate { keyPrefix := some pfx } (s.candidates { keyPrefix := some pfx })
      = s.backend.scanPrefix pfx :=
  Query.Plan.evaluate_of_keyPrefix fun _ hr =>
    Blob.startsWith_iff.mpr (Backend.mem_scanPrefix_iff.mp hr).2

/-- A plan gives records of the store. -/
theorem get?_of_mem_evaluate {p : Query.Plan} {r : Record}
    (h : r ∈ p.evaluate (s.candidates p)) : s.backend.get? r.key = some r := by
  have hcandidate := Query.Plan.mem_of_mem_evaluate h
  unfold candidates at hcandidate
  split at hcandidate
  · exact (Backend.mem_scanPrefix_iff.mp hcandidate).1
  · exact Backend.mem_snapshot_iff.mp hcandidate

/-- A result set is a cursor over what was read when it was opened. -/
theorem openResultSet_eq_ok {source : Source} {id : Nat} {t : Session}
    (h : s.openResultSet source = (.ok id, t)) :
    ∃ es, (s.read source).1 = .ok es ∧ t.shelf.get? id = some (.ofEntries es) := by
  rw [openResultSet] at h
  cases hread : s.read source with
  | mk result u =>
      rw [hread] at h
      cases result with
      | error e => exact absurd (Prod.mk.inj h).1 (by simp)
      | ok es =>
          obtain ⟨hid, rfl⟩ := Prod.mk.inj h
          cases hid
          refine ⟨es, rfl, ?_⟩
          show (u.shelf.cursors.insert u.shelf.next (.ofEntries es)).get? u.shelf.next = _
          rw [Table.get?_insert, if_pos rfl]

/-! ## Reading maps -/

section

variable (hspace : s.space = .perDevice s.profile.device) (hfree : PrefixFree devices)
  (hconfined : s.backend.contents.Confined (s.Owns devices))
include hspace hconfined

/-- A record as users see it is an entry of the map of its device. -/
theorem userEntry_of_get? {r : Record} (hr : s.backend.get? r.key = some r) :
    ∃ key, s.Owns devices r.device r.key ∧ r.key = Blob.ofString r.device ++ key
      ∧ s.userEntry r = ⟨key, r.value⟩
      ∧ s.backend.contents.family r.device key = some r.value := by
  have hstored := (Backend.get?_eq_some_iff.mp hr).2
  have hamong : s.backend.contents.Confined (Among devices) := hconfined.mono fun _ _ => Owns.among
  obtain ⟨key, hform, hvalue⟩ := hamong.exists_family hstored
  have huser : s.space.userKey r.device r.key = key := by
    rw [hspace, hform]
    exact (KeySpace.perDevice s.profile.device).userKey_remoteKey r.device key
  exact ⟨key, hconfined _ _ hstored, hform, by rw [userEntry, huser], hvalue⟩

/-- The entries that a query gives are entries of maps. -/
theorem exists_family_of_query {selection : Selection} {es : List Entry}
    (h : (s.query selection).1 = .ok es) {e : Entry} (he : e ∈ es) :
    ∃ device ∈ devices, s.backend.contents.family device e.key = some e.value := by
  obtain ⟨q, p, -, -, -, rfl⟩ := query_eq_ok_iff.mp h
  obtain ⟨r, hr, rfl⟩ := List.mem_map.mp he
  obtain ⟨key, howns, -, huser, hvalue⟩ :=
    userEntry_of_get? hspace hconfined (get?_of_mem_evaluate hr)
  rw [huser]
  exact ⟨r.device, howns.1, hvalue⟩

/-- Each record is an entry of the map of its device, for a valid key. -/
theorem exists_family_of_snapshot {r : Record} (hr : r ∈ s.backend.snapshot) :
    r.device ∈ devices ∧ ∃ key, s.checkKey key = .ok ()
      ∧ r.key = Blob.ofString r.device ++ key
      ∧ s.backend.contents.family r.device key = some r.value := by
  obtain ⟨key, ⟨hdevice, key', hvalid, hform'⟩, hform, -, hvalue⟩ :=
    userEntry_of_get? hspace hconfined (Backend.mem_snapshot_iff.mp hr)
  obtain rfl : key' = key := List.append_cancel_left (hform'.symm.trans hform)
  exact ⟨hdevice, key', hvalid, hform, hvalue⟩

include hfree

/-- **A scan of the stored keys of a device lists its map.** -/
theorem lists_scanPrefix (hdevice : device ∈ devices) (pfx : Blob) :
    (s.backend.contents.family device).Lists pfx
      ((s.backend.scanPrefix (Blob.ofString device ++ pfx)).map s.userEntry) := by
  -- each record that is scanned is one of the device, for a key with the prefix
  have hscanned {r : Record} (hr : r ∈ s.backend.scanPrefix (Blob.ofString device ++ pfx)) :
      ∃ key, r.key = Blob.ofString device ++ key ∧ pfx <+: key
        ∧ s.userEntry r = ⟨key, r.value⟩
        ∧ s.backend.contents.family device key = some r.value := by
    obtain ⟨hget, hpfx⟩ := Backend.mem_scanPrefix_iff.mp hr
    obtain ⟨key, howns, hform, huser, hvalue⟩ := userEntry_of_get? hspace hconfined hget
    rw [hform, hfree.append_prefix_iff hdevice howns.1] at hpfx
    obtain ⟨rfl, hpfx⟩ := hpfx
    exact ⟨key, hform, hpfx, huser, hvalue⟩
  constructor
  · -- behind the id of the device, stored keys are ordered as the keys of users
    rw [List.pairwise_map]
    refine (s.backend.ascending_scanPrefix _).imp_of_mem fun hr hr' hbefore => ?_
    obtain ⟨key, hform, -, huser, -⟩ := hscanned hr
    obtain ⟨key', hform', -, huser', -⟩ := hscanned hr'
    rw [hform, hform', Blob.before_append] at hbefore
    rw [huser, huser']
    exact hbefore
  · intro e
    rw [List.mem_map]
    constructor
    · rintro ⟨r, hr, rfl⟩
      obtain ⟨key, -, hpfx, huser, hvalue⟩ := hscanned hr
      rw [huser]
      exact ⟨hpfx, hvalue⟩
    · rintro ⟨hpfx, hvalue⟩
      obtain ⟨stored, hstored, rfl, hstoredValue⟩ := Contents.family_eq_some_iff.mp hvalue
      let r := Record.ofStored (Blob.ofString stored.device ++ e.key) stored
      have hget : s.backend.get? r.key = some r := Backend.get?_eq_some_iff.mpr ⟨rfl, hstored⟩
      have hr : r ∈ s.backend.scanPrefix (Blob.ofString stored.device ++ pfx) :=
        Backend.mem_scanPrefix_iff.mpr ⟨hget, (List.prefix_append_right_inj _).mpr hpfx⟩
      obtain ⟨key, hform, -, huser, -⟩ := hscanned hr
      obtain rfl : e.key = key := List.append_cancel_left hform
      refine ⟨r, hr, ?_⟩
      rw [huser]
      exact congrArg (Entry.mk e.key) hstoredValue

/-- A scan of this device gives what its map holds under the prefix. -/
theorem entries_lists_iff (hself : s.profile.device ∈ devices) {pfx : Blob} {es : List Entry} :
    (s.entries pfx).1 = .ok es ↔ s.isOpen = true ∧ s.checkKeyPrefix pfx = .ok ()
      ∧ (s.backend.contents.family s.profile.device).Lists pfx es := by
  have hlists := lists_scanPrefix hspace hfree hconfined hself pfx
  rw [entries_eq_ok_iff, ownKey_of_perDevice hspace]
  constructor
  · rintro ⟨hopen, hpfx, rfl⟩
    exact ⟨hopen, hpfx, hlists⟩
  · rintro ⟨hopen, hpfx, hes⟩
    exact ⟨hopen, hpfx, hlists.unique hes⟩

/-- **A query for a device gives what the map of the device holds under the prefix.** -/
theorem query_lists_iff {text : String} {pfx : Blob} (hscopes : s.compiler.Scopes text device pfx)
    (hdevice : device ∈ devices) {es : List Entry} :
    (s.query (.text text)).1 = .ok es
      ↔ s.isOpen = true ∧ (s.backend.contents.family device).Lists pfx es := by
  obtain ⟨q, hcompile, hplan⟩ := hscopes.compile?_eq
  have hquery : s.queryOf (.text text) = .ok q := by
    simp only [queryOf, Query.Compiler.compile, hcompile, Query.Compiler.Outcome.result]
  have hlists := lists_scanPrefix hspace hfree hconfined hdevice pfx
  rw [query_eq_ok_iff]
  constructor
  · rintro ⟨q', p, hquery', hplan', hopen, rfl⟩
    obtain rfl := Except.ok.inj (hquery.symm.trans hquery')
    obtain rfl := Except.ok.inj (hplan.symm.trans hplan')
    rw [evaluate_candidates_of_keyPrefix]
    exact ⟨hopen, hlists⟩
  · rintro ⟨hopen, hes⟩
    refine ⟨q, _, hquery, hplan, hopen, ?_⟩
    rw [evaluate_candidates_of_keyPrefix]
    exact hlists.unique hes

/-- A cursor gives entries of maps, whatever it was opened over. -/
theorem exists_family_of_cursor (hself : s.profile.device ∈ devices) {source : Source} {id : Nat}
    {t : Session} (h : s.openResultSet source = (.ok id, t)) :
    ∃ c, t.shelf.get? id = some c ∧ ∀ e, c.Gives e →
      ∃ device ∈ devices, s.backend.contents.family device e.key = some e.value := by
  obtain ⟨es, hread, hcursor⟩ := openResultSet_eq_ok h
  refine ⟨_, hcursor, fun e he => ?_⟩
  cases source with
  | keys pfx =>
      obtain ⟨-, -, hlists⟩ := (entries_lists_iff hspace hfree hconfined hself).mp hread
      exact ⟨_, hself, ((hlists.mem_iff e).mp he.mem).2⟩
  | selection selection => exact exists_family_of_query hspace hconfined hread he.mem

/-- **What users see of a session are its maps**, if each record is under the id of its device and a
valid key, among devices none of whose ids is a prefix of another. -/
theorem shows_of_confined (hself : s.profile.device ∈ devices) :
    s.Shows devices s.backend.contents.family where
  records r hr := exists_family_of_snapshot hspace hconfined hr
  held device key value hvalue := by
    obtain ⟨r, hr, hdevice, hvalue⟩ := Contents.family_eq_some_iff.mp hvalue
    have hget : s.backend.get? _ = some (.ofStored _ r) :=
      Backend.get?_eq_some_iff.mpr ⟨rfl, hr⟩
    exact ⟨_, Backend.mem_snapshot_iff.mpr hget, hdevice, rfl, hvalue⟩
  get key value := by
    have hamong : s.backend.contents.Confined (Among devices) :=
      hconfined.mono fun _ _ => Owns.among
    rw [get_eq_ok_iff, ownKey_of_perDevice hspace, hamong.family_eq hfree hself]
  entries pfx es := entries_lists_iff hspace hfree hconfined hself
  ofDevice text device pfx hscopes hdevice es :=
    query_lists_iff hspace hfree hconfined hscopes hdevice
  query selection es hes e he := exists_family_of_query hspace hconfined hes he
  cursor source id t h := exists_family_of_cursor hspace hfree hconfined hself h
  takes hopen hfail now op hop := perform_isOk_iff hopen hfail hop now

end

end Session

end PeerStore
