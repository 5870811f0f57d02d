import PeerStore.Proofs.KeySpace
import PeerStore.Proofs.Store.Turn

/-!
# What this device sees of remote batches

In a store that keeps devices apart, look-ups and scans ask for stored keys that begin with the id
of this device, so they see nothing of a write under another stored key (`readsAlike_of_get?`). A
batch of another device writes stored keys that begin with *its* id, and these may begin with the id
of this device all the same. **`applyRemote_unseen_iff`** says exactly for which devices this
happens: for those whose id, with some valid key behind it, begins with the id of this device.
-/

set_option autoImplicit false

namespace PeerStore.Session

variable {s s' t : Session} {device : String} {key pfx : Blob}

/-! ## Reading -/

/-- Two sessions in which look-ups and scans give the same, whatever they are asked for. -/
def ReadsAlike (s s' : Session) : Prop :=
  (∀ key, (s'.get key).1 = (s.get key).1) ∧ ∀ pfx, (s'.entries pfx).1 = (s.entries pfx).1

theorem space_of_isPerDevice (h : s.profile.options.isPerDevice = true) :
    s.space = .perDevice s.profile.device := by
  rw [space, Profile.space, if_pos h]

/-- A store that keeps devices apart puts its own id in front of a key. -/
theorem ownKey_of_perDevice (hspace : s.space = .perDevice s.profile.device) (key : Blob) :
    s.space.ownKey key = Blob.ofString s.profile.device ++ key := by
  rw [hspace]
  rfl

/-- A scan gives the records whose key begins with the stored form of the prefix. -/
theorem entries_eq (hopen : s.isOpen = true) (hpfx : s.checkKeyPrefix pfx = .ok ()) :
    s.entries pfx = (.ok ((s.backend.scanPrefix (s.space.ownKey pfx)).map s.userEntry), s) := by
  rw [entries, after_of_ok hpfx, whenOpen_of_isOpen hopen]

/-- The empty prefix is always valid. -/
theorem checkKeyPrefix_nil (s : Session) : s.checkKeyPrefix [] = .ok () := rfl

/-- The empty value is always valid. -/
theorem checkValue_nil (s : Session) : s.checkValue [] = .ok () := by
  rw [checkValue, Limits.checkValue, if_pos (by exact Nat.zero_le _)]
  rfl

/-- **Reads see the records of this device alone**: those under its id. -/
theorem readsAlike_of_get? (hspace : s.space = .perDevice s.profile.device)
    (hprofile : s'.profile = s.profile) (hopen : s'.isOpen = s.isOpen)
    (h : ∀ key, Blob.ofString s.profile.device <+: key → s'.backend.get? key = s.backend.get? key) :
    s.ReadsAlike s' := by
  have hown := ownKey_of_perDevice hspace
  refine ⟨fun key => ?_, fun pfx => ?_⟩
  · have hget : s'.backend.get? (s.space.ownKey key) = s.backend.get? (s.space.ownKey key) :=
      h _ (by rw [hown]; exact List.prefix_append _ _)
    simp only [get, after, whenOpen, requireOpen, checkKey, space, hprofile, hopen] at hget ⊢
    split
    · split
      · rw [hget]
        split <;> rfl
      · rfl
    · rfl
  · have hscan : s'.backend.scanPrefix (s.space.ownKey pfx)
        = s.backend.scanPrefix (s.space.ownKey pfx) := by
      refine Backend.scanPrefix_congr fun key hkey => h key ?_
      rw [hown] at hkey
      exact (List.prefix_append _ _).trans hkey
    have huser : s'.userEntry = s.userEntry := by
      funext r
      rw [userEntry, userEntry, space, space, hprofile]
    simp only [space] at hscan
    simp only [entries, after, whenOpen, requireOpen, checkKeyPrefix, space, hprofile, hopen, hscan,
      huser]
    split
    · split <;> rfl
    · rfl

/-- Sessions in which one holds a key of this device that the other does not hold differ in what a
scan of everything gives. -/
theorem not_readsAlike (hspace : s.space = .perDevice s.profile.device)
    (hprofile : s'.profile = s.profile) (hopen : s.isOpen = true) (hopen' : s'.isOpen = true)
    (h : (s.backend.scanPrefix (Blob.ofString s.profile.device)).length
      ≠ (s'.backend.scanPrefix (Blob.ofString s.profile.device)).length) : ¬s.ReadsAlike s' := by
  rintro ⟨-, hentries⟩
  have hown : s.space.ownKey [] = Blob.ofString s.profile.device :=
    (ownKey_of_perDevice hspace []).trans (List.append_nil _)
  have hspace' : s'.space = s.space := by rw [space, hprofile, space]
  have hall := hentries []
  rw [entries_eq hopen s.checkKeyPrefix_nil, entries_eq hopen' s'.checkKeyPrefix_nil, hspace',
    hown] at hall
  have hlength := congrArg List.length (Except.ok.inj hall)
  rw [List.length_map, List.length_map] at hlength
  exact h hlength.symm

/-! ## Remote batches -/

/-- A batch that does nothing leaves the records as they are. -/
theorem Wrote.get?_of_idle {origin : Origin} {batch : List Write} (h : s.Wrote origin batch t)
    (hidle : s.backend.values.Idle batch) (key : Blob) :
    t.backend.get? key = s.backend.get? key := by
  by_cases hkey : key ∈ Write.touched batch
  · have hbefore : s.backend.get? key = none := Option.map_eq_none_iff.mp (hidle key hkey).1
    have hafter : t.backend.get? key = none := by
      have hvalue : t.backend.values key = none := by
        rw [h.values]
        exact (hidle key hkey).2
      exact Option.map_eq_none_iff.mp hvalue
    rw [hbefore, hafter]
  · exact h.get?_of_not_mem hkey

/-- A remote batch with valid keys is written to an open store that accepts writes. -/
theorem exists_applyRemote (hopen : s.isOpen = true) (hfail : s.backend.failing = false)
    (hempty : device ≠ "") (hother : device ≠ s.profile.device) (now : Int) (puts : List Entry)
    (deletes : List Blob) (hputs : ∀ e ∈ puts, s.checkEntry e = .ok ())
    (hdeletes : ∀ key ∈ deletes, s.checkKey key = .ok ()) :
    ∃ s', s.perform now (.applyRemote device puts deletes) = (.ok .done, s')
      ∧ s'.profile = s.profile ∧ s'.isOpen = true
      ∧ ∃ time, s'.backend.contents = s.backend.contents.writeAll (fun v => ⟨v, time, device⟩)
          (puts.map (fun e => .put (s.space.remoteKey device e.key) e.value) ++
            deletes.map fun key => .remove (s.space.remoteKey device key)) := by
  let batch : List Write :=
    puts.map (fun e => .put (s.space.remoteKey device e.key) e.value) ++
      deletes.map fun key => .remove (s.space.remoteKey device key)
  have haccepts : s.backend.failing = true → s.backend.values.Idle batch := fun hfails =>
    absurd (hfail ▸ hfails) Bool.false_ne_true
  obtain ⟨s', hmutate⟩ := exists_mutate_eq_ok hopen haccepts now (.remote device)
  obtain ⟨-, t, hwrote, rfl⟩ := mutate_eq_ok hmutate
  have hdone : s.perform now (.applyRemote device puts deletes)
      = (s.mutate now batch (.remote device)).answer fun _ => .done :=
    perform_applyRemote_eq hempty hother hputs hdeletes
  rw [hmutate] at hdone
  refine ⟨_, hdone, ?_, ?_, t.lastWrite, ?_⟩
  · rw [announce_rest]
    exact hwrote.profile
  · rw [announce_rest]
    exact hwrote.isOpen.trans hopen
  · rw [announce_backend]
    exact hwrote.contents

/-- A device with a key whose stored form begins with the id of this one can make itself seen: it
puts the key if it is absent, and removes it if it is present. -/
theorem exists_applyRemote_seen (hspace : s.space = .perDevice s.profile.device)
    (hopen : s.isOpen = true) (hfail : s.backend.failing = false) (hempty : device ≠ "")
    (hother : device ≠ s.profile.device) (hkey : s.checkKey key = .ok ())
    (hpfx : Blob.ofString s.profile.device <+: s.space.remoteKey device key) :
    ∃ puts deletes s', s.perform 0 (.applyRemote device puts deletes) = (.ok .done, s')
      ∧ ¬s.ReadsAlike s' := by
  cases hget : s.backend.get? (s.space.remoteKey device key) with
  | none =>
      have hentry : s.checkEntry ⟨key, []⟩ = .ok () :=
        checkEntry_eq_ok_iff.mpr ⟨hkey, s.checkValue_nil⟩
      obtain ⟨s', hok, hprofile, hopen', time, hcontents⟩ :=
        exists_applyRemote hopen hfail hempty hother 0 [⟨key, []⟩] [] (by simpa using hentry)
          (by simp)
      refine ⟨_, _, s', hok, not_readsAlike hspace hprofile hopen hopen' (Nat.ne_of_lt ?_)⟩
      refine Backend.length_scanPrefix_lt hpfx hget ?_ fun k hk => ?_
      · show (s'.backend.contents _).map _ ≠ none
        simp [hcontents, Contents.writeAll, Contents.write, Write.put]
      · show (s'.backend.contents k).map _ = (s.backend.contents k).map _
        rw [hcontents, Contents.writeAll_of_not_mem _ fun hmem => hk (List.mem_singleton.mp hmem)]
  | some r =>
      obtain ⟨s', hok, hprofile, hopen', time, hcontents⟩ :=
        exists_applyRemote hopen hfail hempty hother 0 [] [key] (by simp) (by simpa using hkey)
      refine ⟨_, _, s', hok, not_readsAlike hspace hprofile hopen hopen' (Nat.ne_of_gt ?_)⟩
      refine Backend.length_scanPrefix_lt hpfx ?_ (by simp [hget]) fun k hk => ?_
      · show (s'.backend.contents _).map _ = none
        simp [hcontents, Contents.writeAll, Contents.write, Write.remove]
      · show (s.backend.contents k).map _ = (s'.backend.contents k).map _
        rw [hcontents, Contents.writeAll_of_not_mem _ fun hmem => hk (List.mem_singleton.mp hmem)]

/-- A remote batch leaves every record that is not under a stored form of a valid key of its
device. -/
theorem get?_of_applyRemote {now : Int} {puts : List Entry} {deletes : List Blob}
    (hok : s.perform now (.applyRemote device puts deletes) = (.ok .done, s'))
    (hapart : s.isOpen = true → s.backend.failing = false → ∀ userKey,
      s.checkKey userKey = .ok () → key ≠ s.space.remoteKey device userKey) :
    s'.backend.get? key = s.backend.get? key := by
  obtain ⟨hopen, t, hwrote, rfl⟩ := mutate_eq_ok (mutate_of_perform rfl hok)
  rw [announce_backend]
  by_cases hfail : s.backend.failing = true
  · exact hwrote.get?_of_idle (hwrote.idle hfail) key
  · refine hwrote.get?_of_not_mem fun htouched => ?_
    obtain ⟨w, hw, rfl⟩ := List.mem_map.mp (Write.mem_touched.mp htouched)
    have hisOk : (s.perform now (.applyRemote device puts deletes)).1.isOk = true := by
      rw [hok]
      rfl
    obtain ⟨userKey, hvalid, hkey⟩ := valid_of_batch? rfl hisOk w hw
    exact hapart hopen (Bool.eq_false_iff.mpr hfail) userKey hvalid hkey

/-- **When this device sees nothing of a remote device.** In every state of a store that keeps
devices apart, the batches of a device that are applied change nothing of what look-ups and scans
give, if and only if no valid key of that device has a stored form that begins with the id of this
one. (A store that is closed, or whose backend refuses to write, applies no batch that does
anything.) -/
theorem applyRemote_unseen_iff (hspace : s.profile.options.isPerDevice = true)
    (hempty : device ≠ "") (hother : device ≠ s.profile.device) :
    (∀ now puts deletes s', s.perform now (.applyRemote device puts deletes) = (.ok .done, s') →
        s.ReadsAlike s')
      ↔ (s.isOpen = true → s.backend.failing = false → ∀ key, s.checkKey key = .ok () →
          ¬Blob.ofString s.profile.device <+: Blob.ofString device ++ key) := by
  have hspace' := space_of_isPerDevice hspace
  have hremote (key : Blob) : s.space.remoteKey device key = Blob.ofString device ++ key := by
    rw [hspace']
    rfl
  constructor
  · intro hsame hopen hfail key hkey hpfx
    rw [← hremote] at hpfx
    obtain ⟨puts, deletes, s', hok, hseen⟩ :=
      exists_applyRemote_seen hspace' hopen hfail hempty hother hkey hpfx
    exact hseen (hsame _ _ _ _ hok)
  · intro hapart now puts deletes s' hok
    obtain ⟨-, t, hwrote, hs'⟩ := mutate_eq_ok (mutate_of_perform rfl hok)
    refine readsAlike_of_get? hspace' ?_ ?_ fun key hpfx => ?_
    · rw [hs', announce_rest]
      exact hwrote.profile
    · rw [hs', announce_rest]
      exact hwrote.isOpen
    · refine get?_of_applyRemote hok fun hopen hfail userKey hvalid hkey => ?_
      rw [hkey, hremote] at hpfx
      exact hapart hopen hfail userKey hvalid hpfx

/-- The ids `self` and `peer` exclude each other: a batch that brings keys of the peer under the
names that this device uses, and removes one, changes nothing here. -/
theorem applyRemote_unseen_by_self :
    let s := (fresh .deviceCollaboration "self").run
      [.perform 1 (.put [1] [10]), .perform 2 (.put [2] [20])]
    ∃ s', s.perform 3 (.applyRemote "peer" [⟨[1], [30]⟩] [[2]]) = (.ok .done, s')
      ∧ s.ReadsAlike s' ∧ s'.backend.size = 3 := by
  intro s
  have hspace : s.profile.options.isPerDevice = true := by decide +kernel
  have hdevice : s.profile.device = "self" := by decide +kernel
  have hfree : PrefixFree ["self", "peer"] := by decide +kernel
  have happly : s.perform 3 (.applyRemote "peer" [⟨[1], [30]⟩] [[2]])
      = (.ok .done, (s.perform 3 (.applyRemote "peer" [⟨[1], [30]⟩] [[2]])).2) := rfl
  refine ⟨_, happly, ?_, by decide +kernel⟩
  refine (applyRemote_unseen_iff hspace (by decide) (by rw [hdevice]; decide)).mpr ?_ _ _ _ _ happly
  intro _ _ key _ hpfx
  rw [hdevice, ← List.append_nil (Blob.ofString "self"),
    hfree.append_prefix_iff (by simp) (by simp)] at hpfx
  exact absurd hpfx.1 (by decide)

/-- The id `a` is a prefix of the id `ab`: a device `a` that writes its key `bk` writes over the key
`k` of a device `ab`. -/
theorem applyRemote_seen_through_prefix :
    let s := (fresh .deviceCollaboration "ab").run
      [.perform 1 (.put (Blob.ofString "k") (Blob.ofString "mine"))]
    let batch : Operation := .applyRemote "a" [⟨Blob.ofString "bk", Blob.ofString "theirs"⟩] []
    (s.perform 2 batch).1.isOk = true
      ∧ (s.get (Blob.ofString "k")).1.toOption = some (Blob.ofString "mine")
      ∧ ((s.perform 2 batch).2.get (Blob.ofString "k")).1.toOption
        = some (Blob.ofString "theirs") := by
  decide +kernel

end PeerStore.Session
