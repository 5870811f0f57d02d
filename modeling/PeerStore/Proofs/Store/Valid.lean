import PeerStore.Proofs.Store.View

/-!
# Entries of a shared store

Look-ups check their key and scans do not, so the two agree only if no key that is stored would be
refused. `Limits.Admits` says which entries a shared store takes. Every path into the store keeps to
it: batches of this device and of others are checked (`admits_of_batchOf?`), and a rollback brings
back what was there. So after any run all that is stored has been admitted, and a scan gives the
entries with its prefix that look-ups give (**`scan_gives_what_get_gives`**).
-/

set_option autoImplicit false

namespace PeerStore

/-! ## What the limits admit -/

/-- Whether a shared store takes a value under a key. -/
structure Limits.Admits (l : Limits) (key value : Blob) : Prop where
  nonempty : key ≠ []
  nonblank : ∃ b ∈ key, isBlankByte b = false
  keyLength : key.length ≤ l.keyBytes
  valueLength : value.length ≤ l.valueBytes

theorem checkKey_eq_ok_iff {l : Limits} {perDevice : Bool} {key : Blob} :
    checkKey l perDevice key = .ok () ↔
      key ≠ [] ∧ (∃ b ∈ key, isBlankByte b = false) ∧ key.length ≤ l.keyLimit perDevice := by
  have hempty : key.isEmpty = true ↔ key = [] := List.isEmpty_iff
  have hblank : key.all isBlankByte = true ↔ ¬∃ b ∈ key, isBlankByte b = false := by
    rw [List.all_eq_true]
    simp
  unfold checkKey
  by_cases hkey : key = []
  · simp [hkey]
  · rw [if_neg (mt hempty.mp hkey)]
    by_cases hbytes : ∃ b ∈ key, isBlankByte b = false
    · rw [if_neg fun hall => hblank.mp hall hbytes]
      by_cases hlength : key.length ≤ l.keyLimit perDevice <;> simp [hkey, hbytes, hlength]
    · rw [if_pos (hblank.mpr hbytes)]
      simp [hbytes]

theorem Limits.checkValue_eq_ok_iff {l : Limits} {value : Blob} :
    l.checkValue value = .ok () ↔ value.length ≤ l.valueBytes := by
  unfold Limits.checkValue
  split <;> simp_all

namespace Session

variable {s s' : Session}

theorem mapError_eq_ok_iff {ε ε' : Type} {f : ε → ε'} {r : Except ε Unit} :
    r.mapError f = .ok () ↔ r = .ok () := by
  cases r <;> simp [Except.mapError]

/-- **A shared store takes the entries that its limits admit.** -/
theorem admits_iff (hspace : s.space = .shared) {key value : Blob} :
    s.profile.limits.Admits key value ↔ s.checkEntry ⟨key, value⟩ = .ok () := by
  have hkey : s.checkKey key = .ok () ↔ key ≠ [] ∧ (∃ b ∈ key, isBlankByte b = false)
      ∧ key.length ≤ s.profile.limits.keyBytes := by
    rw [checkKey, mapError_eq_ok_iff, checkKey_eq_ok_iff, hspace]
    rfl
  have hvalue : s.checkValue value = .ok () ↔ value.length ≤ s.profile.limits.valueBytes := by
    rw [checkValue, mapError_eq_ok_iff, Limits.checkValue_eq_ok_iff]
  rw [checkEntry_eq_ok_iff, hkey, hvalue]
  constructor
  · intro h
    exact ⟨⟨h.nonempty, h.nonblank, h.keyLength⟩, h.valueLength⟩
  · rintro ⟨⟨hnonempty, hnonblank, hlength⟩, hvalueLength⟩
    exact ⟨hnonempty, hnonblank, hlength, hvalueLength⟩

/-! ## Batches -/

section

variable {now : Int} {op : Operation} {origin : Origin} {batch : List Write} {w : Write}
  {value : Blob}

/-- A call that succeeds writes valid values. -/
theorem value_of_batch? (h : op.batch? s.space = some (origin, batch))
    (hok : (s.perform now op).1.isOk = true) (hw : w ∈ batch) (hvalue : w.value = some value) :
    s.checkValue value = .ok () := by
  cases op with
  | put key value' =>
      cases h
      obtain rfl := List.mem_singleton.mp hw
      cases hvalue
      obtain ⟨hentry, -⟩ := check_of_after hok
      exact (checkEntry_eq_ok_iff.mp hentry).2
  | putBatch es =>
      cases h
      obtain ⟨e, he, rfl⟩ := List.mem_map.mp hw
      cases hvalue
      obtain ⟨hentries, -⟩ := check_of_after hok
      exact (checkEntry_eq_ok_iff.mp (checkAll_eq_ok_iff.mp hentries e he)).2
  | delete key =>
      cases h
      obtain rfl := List.mem_singleton.mp hw
      cases hvalue
  | deleteBatch keys =>
      cases h
      obtain ⟨key, -, rfl⟩ := List.mem_map.mp hw
      cases hvalue
  | applyRemote device puts deletes =>
      cases h
      obtain ⟨-, -, hputs, -⟩ := perform_applyRemote_isOk hok
      rcases List.mem_append.mp hw with hput | hdelete
      · obtain ⟨e, he, rfl⟩ := List.mem_map.mp hput
        cases hvalue
        exact (checkEntry_eq_ok_iff.mp (hputs e he)).2
      · obtain ⟨key, -, rfl⟩ := List.mem_map.mp hdelete
        cases hvalue
  | _ => exact absurd h (by simp [Operation.batch?])

theorem value_of_batchOf? (h : s.batchOf? op = some (origin, batch))
    (hok : (s.perform now op).1.isOk = true) (hw : w ∈ batch) (hvalue : w.value = some value) :
    s.checkValue value = .ok () := by
  cases op with
  | clear =>
      cases h
      obtain ⟨r, -, rfl⟩ := List.mem_map.mp hw
      cases hvalue
  | removeDeviceData network =>
      obtain ⟨device, -, hbatch⟩ := Option.map_eq_some_iff.mp h
      cases hbatch
      obtain ⟨key, -, rfl⟩ := List.mem_map.mp hw
      cases hvalue
  -- the other calls write the same batch whatever the store holds
  | _ =>
      simp only [batchOf?] at h
      exact value_of_batch? h hok hw hvalue

/-- **What a call writes in a shared store has been admitted.** -/
theorem admits_of_batchOf? (hspace : s.space = .shared) (h : s.batchOf? op = some (origin, batch))
    (hok : (s.perform now op).1.isOk = true) (hw : w ∈ batch) (hvalue : w.value = some value) :
    s.profile.limits.Admits w.key value := by
  have hput : w.value ≠ none := by simp [hvalue]
  obtain ⟨-, key, hkey, hform⟩ := put_of_batchOf? hok h hw hput
  rw [hspace] at hform
  rw [admits_iff hspace, hform, checkEntry_eq_ok_iff]
  exact ⟨hkey, value_of_batchOf? h hok hw hvalue⟩

end

/-! ## Runs -/

/-- Whether all that is stored has been admitted. -/
abbrev Admitted (s : Session) : Prop :=
  s.AllRecords fun key r => s.profile.limits.Admits key r.value

theorem admitted_run (h : s.Admitted) (hspace : s.space = .shared) (events : List Event) :
    (s.run events).Admitted := by
  have hputs (t : Session) (hprofile : t.profile = s.profile) (e : Event) :
      t.PutsOnly (fun key r => s.profile.limits.Admits key r.value) e := by
    rintro now op origin batch rfl hok hbatch w hw value hvalue time
    have htspace : t.space = .shared := by
      rw [space, hprofile]
      exact hspace
    rw [← hprofile]
    exact admits_of_batchOf? htspace hbatch hok hw hvalue
  rw [Admitted, profile_run]
  exact h.run hputs events

/-! ## Reading -/

/-- In a shared store users see records as they are stored. -/
theorem userEntry_of_shared (hspace : s.space = .shared) (r : Record) :
    s.userEntry r = ⟨r.key, r.value⟩ := by
  rw [userEntry, hspace]
  rfl

/-- A look-up in a shared store whose records have been admitted finds whatever is stored. -/
theorem get_eq_ok_iff_of_admitted (hspace : s.space = .shared) (hopen : s.isOpen = true)
    (h : s.Admitted) {key value : Blob} :
    s.get key = (.ok value, s) ↔ s.backend.contents.values key = some value := by
  have hfst : s.get key = (.ok value, s) ↔ (s.get key).1 = .ok value := by
    rw [Prod.ext_iff]
    simp [get_snd]
  rw [hfst, get_eq_ok_iff, hspace]
  constructor
  · rintro ⟨-, -, hstored⟩
    exact hstored
  · intro hstored
    obtain ⟨r, hr, hvalue⟩ := Option.map_eq_some_iff.mp hstored
    have hentry := (admits_iff hspace).mp (h.now key r hr)
    exact ⟨hopen, (checkEntry_eq_ok_iff.mp hentry).1, hstored⟩

/-- **A scan of a shared store lists what is stored under its prefix.** -/
theorem lists_scanPrefix_of_shared (hspace : s.space = .shared) (pfx : Blob) :
    s.backend.contents.values.Lists pfx ((s.backend.scanPrefix pfx).map s.userEntry) := by
  have huser : s.userEntry = fun r => ⟨r.key, r.value⟩ := funext (userEntry_of_shared hspace)
  rw [huser]
  constructor
  · rw [List.pairwise_map]
    exact s.backend.ascending_scanPrefix pfx
  · intro e
    rw [List.mem_map, Contents.values, Option.map_eq_some_iff]
    constructor
    · rintro ⟨r, hr, rfl⟩
      obtain ⟨hget, hpfx⟩ := Backend.mem_scanPrefix_iff.mp hr
      have hstored := (Backend.get?_eq_some_iff.mp hget).2
      exact ⟨hpfx, _, hstored, rfl⟩
    · rintro ⟨hpfx, stored, hstored, hvalue⟩
      have hget : s.backend.get? e.key = some (.ofStored e.key stored) :=
        Backend.get?_eq_some_iff.mpr ⟨rfl, hstored⟩
      refine ⟨.ofStored e.key stored, Backend.mem_scanPrefix_iff.mpr ⟨hget, hpfx⟩, ?_⟩
      exact congrArg (Entry.mk e.key) hvalue

/-- **Scans give what look-ups give.** Whatever has happened to a shared store that began empty,
under whatever limits: each key that is stored has a byte that is not white space and is within the
limit for keys, and each value is within the limit for values; and they still are when the store has
been closed. A scan for a valid prefix succeeds on the open store, and gives in ascending order each
key that begins with the prefix and has a value by a look-up, with this value. -/
theorem scan_gives_what_get_gives {s₀ s : Session} {events : List Event}
    (hspace : s₀.space = .shared) (hidle : s₀.inTransaction = false)
    (hempty : s₀.backend.toTables = {}) (hrun : s₀.run events = s) :
    (∀ key r, s.backend.contents key = some r → s₀.profile.limits.Admits key r.value)
      ∧ (∀ key r, s.close.backend.contents key = some r → s₀.profile.limits.Admits key r.value)
      ∧ (s.isOpen = true → ∀ pfx, s.checkKeyPrefix pfx = .ok () →
          ∃ es, s.entries pfx = (.ok es, s)
            ∧ es.Pairwise (fun e e' => Blob.before e.key e'.key = true)
            ∧ ∀ key value, ⟨key, value⟩ ∈ es ↔ pfx <+: key ∧ s.get key = (.ok value, s)) := by
  have hadmitted : s.Admitted := hrun ▸ admitted_run (.of_empty hidle hempty) hspace events
  have hprofile : s.profile = s₀.profile := hrun ▸ s₀.profile_run events
  have hspace' : s.space = .shared := by
    rw [space, hprofile]
    exact hspace
  rw [← hprofile]
  refine ⟨hadmitted.now, hadmitted.close.now, fun hopen pfx hpfx => ?_⟩
  have hlists := lists_scanPrefix_of_shared hspace' pfx
  refine ⟨_, ?_, hlists.ascending, fun key value => ?_⟩
  · rw [entries, after_of_ok hpfx, whenOpen_of_isOpen hopen, hspace']
    rfl
  · rw [hlists.mem_iff, get_eq_ok_iff_of_admitted hspace' hopen hadmitted]

/-- A store with small limits. A batch fails with the backend, one is refused for its blank key,
and one for a key that is too long; a batch of another device arrives inside a transaction that
empties the store and is rolled back, and takes away a key that the transaction had not noted. -/
theorem scan_gives_what_get_gives_after_rollback :
    let limits : Limits := { keyBytes := 2, valueBytes := 1 }
    let s₀ : Session := { fresh .singleVersion "self" with
      profile := ⟨"app", "store", { kind := .singleVersion }, limits, "self"⟩ }
    let events : List Event := [.perform 1 (.putBatch [⟨[1, 2], [10]⟩, ⟨[1], [11]⟩, ⟨[2], [12]⟩]),
      .failWrites true, .perform 2 (.put [1] [20]), .failWrites false,
      .perform 3 (.putBatch [⟨[1], [30]⟩, ⟨[32, 9], [31]⟩]), .perform 4 (.put [1, 1, 1] [40]),
      .perform 5 .startTransaction, .perform 6 (.put [3] [60]),
      .perform 7 (.applyRemote "peer" [⟨[1, 3], [70]⟩] [[2]]), .perform 8 .clear,
      .perform 9 .rollback]
    ∃ es, ((s₀.run events).entries [1]).1 = .ok es
      ∧ es = [⟨[1], [11]⟩, ⟨[1, 2], [10]⟩, ⟨[1, 3], [70]⟩]
      ∧ ∀ key value, ⟨key, value⟩ ∈ es ↔
          [1] <+: key ∧ (s₀.run events).get key = (.ok value, s₀.run events) := by
  intro limits s₀ events
  obtain ⟨-, -, hreads⟩ := @scan_gives_what_get_gives s₀ (s₀.run events) events rfl rfl rfl rfl
  obtain ⟨es, hentries, -, hmem⟩ := hreads (by decide +kernel) [1] (by decide +kernel)
  have hscan : ((s₀.run events).entries [1]).1 = .ok es := by rw [hentries]
  refine ⟨es, hscan, Except.ok.inj (hscan.symm.trans ?_), hmem⟩
  decide +kernel

end Session

end PeerStore
