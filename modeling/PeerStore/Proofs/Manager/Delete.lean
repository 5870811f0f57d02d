import PeerStore.Proofs.Manager.Apart

/-!
# Stores that there are

A manager has a store if its name is in the table of open stores or in that of retained ones. Those
are the stores that it lists (**`mem_storeIds_iff`**) and the ones that can be deleted
(**`deleteStore_isOk_iff`**). A store that has been deleted is there no more, and is not until it may
be created (**`Absent.run`**).
-/

set_option autoImplicit false

namespace PeerStore.Manager

variable {m m' : Manager} {name : StoreName} {app id : String}

/-- Whether a manager has a store with a name. -/
def has (m : Manager) (name : StoreName) : Bool := m.opened.contains name || m.retained.contains name

/-- Whether a manager has no store with a name. -/
structure Absent (m : Manager) (name : StoreName) : Prop where
  opened : m.opened.get? name = none
  retained : m.retained.get? name = none

theorem absent_iff : m.Absent name ↔ m.has name = false := by
  rw [has, Bool.or_eq_false_iff, Table.contains, Table.contains, Option.isSome_eq_false_iff,
    Option.isSome_eq_false_iff, Option.isNone_iff_eq_none, Option.isNone_iff_eq_none]
  exact ⟨fun h => ⟨h.opened, h.retained⟩, fun h => ⟨h.1, h.2⟩⟩

/-! ## The list of stores -/

theorem mem_idsOf_iff {t : Table StoreName Nat} :
    id ∈ idsOf t app ↔ t.contains (app, id) = true := by
  rw [idsOf, List.mem_map, ← Table.mem_keys_iff]
  constructor
  · rintro ⟨name, hname, rfl⟩
    obtain ⟨hkey, happ⟩ := List.mem_filter.mp hname
    rw [beq_iff_eq] at happ
    rw [← happ]
    exact hkey
  · intro hkey
    exact ⟨(app, id), List.mem_filter.mpr ⟨hkey, beq_self_eq_true app⟩, rfl⟩

/-- **A manager lists the stores that it has.** -/
theorem mem_storeIds_iff : id ∈ m.storeIds app ↔ m.has (app, id) = true := by
  rw [storeIds, Table.mem_keys_iff, KeySet.contains_ofList, decide_eq_true_eq, List.mem_append,
    mem_idsOf_iff, mem_idsOf_iff, has, Bool.or_eq_true]

/-- The list is strictly ascending. -/
theorem ascending_storeIds (m : Manager) (app : String) : (m.storeIds app).Pairwise (· < ·) := by
  have hkeys : (m.storeIds app).Pairwise fun a b => KeyOrder.before a b = true :=
    List.Pairwise.map _ (fun _ _ h => h) (KeySet.ofList _).ascending
  exact hkeys.imp fun h => of_decide_eq_true h

/-! ## Deleting -/

/-- What a manager has has a valid name. -/
theorem Assigned.checkName_of_has (h : m.Assigned) (hhas : m.has (app, id) = true) :
    checkName app id = .ok () := by
  rw [has, Bool.or_eq_true, Table.contains, Table.contains, Option.isSome_iff_exists,
    Option.isSome_iff_exists] at hhas
  rcases hhas with ⟨n, hn⟩ | ⟨b, hb⟩
  · exact h.valid (app, id) n (.inl hn)
  · exact h.valid (app, id) b (.inr hb)

/-- **A store can be deleted exactly if the manager has it.** -/
theorem deleteStore_isOk_iff (h : m.Assigned) :
    (m.deleteStore app id).1 = .ok () ↔ m.has (app, id) = true := by
  rw [deleteStore]
  cases hcheck : checkName app id with
  | error e =>
      refine iff_of_false (fun hok => by cases hok) fun hhas => ?_
      rw [h.checkName_of_has hhas] at hcheck
      cases hcheck
  | ok _ =>
      show (if m.has (app, id) = true then _ else _ : Except Status Unit × Manager).1 = _ ↔ _
      by_cases hhas : m.has (app, id) = true
      · rw [if_pos hhas]
        exact iff_of_true rfl hhas
      · rw [if_neg hhas]
        exact iff_of_false (fun hok => by cases hok) hhas

/-- A store that is deleted is there no more, and nor is one that could not be. -/
theorem absent_deleteStore (h : m.Assigned) (app id : String) :
    (m.deleteStore app id).2.Absent (app, id) := by
  have hiff : (m.deleteStore app id).1 = .ok () ↔ _ := deleteStore_isOk_iff h
  rw [deleteStore] at hiff ⊢
  cases hcheck : checkName app id with
  | error e =>
      rw [hcheck] at hiff
      have hnot : ¬m.has (app, id) = true := fun hhas => by cases hiff.mpr hhas
      exact absent_iff.mpr (Bool.eq_false_iff.mpr hnot)
  | ok _ =>
      dsimp only
      split
      · exact ⟨m.opened_closeStore app id, Table.get?_erase_self _ _⟩
      · rename_i hnot
        exact absent_iff.mpr (Bool.eq_false_iff.mpr hnot)

/-! ## Stores come only where they may be created -/

/-- Moves that end stores bring no name into either table. -/
theorem absent_ends {other : StoreName} (hmove : Ends other m m') (h : m.Absent name) :
    m'.Absent name := by
  have herase {t : Table StoreName Nat} (ht : t.get? name = none) :
      (t.erase other).get? name = none := by
    rw [Table.get?_erase]
    split
    · rfl
    · exact ht
  cases hmove with
  | closed => exact ⟨herase h.opened, h.retained⟩
  | forgot => exact ⟨h.opened, herase h.retained⟩

theorem Leaves.absent (hleaves : Leaves name m m') (h : m.Absent name) : m'.Absent name :=
  ⟨hleaves.opened.trans h.opened, hleaves.retained.trans h.retained⟩

/-- A store that is not there is not opened unless it may be created. -/
theorem Absent.getStore_eq (habsent : m.Absent (app, id)) {options : Options}
    (hvalid : checkName app id = .ok ()) (hoptions : options.check = .ok ())
    (hcreate : options.createIfMissing = false) :
    m.getStore app id options = (.error (.storeNotFound id), m) := by
  rw [getStore, hvalid, hoptions]
  dsimp only
  rw [habsent.opened]
  dsimp only
  rw [openNew, backendFor, habsent.retained, hcreate]
  rfl

theorem Absent.getStore_snd (habsent : m.Absent (app, id)) {options : Options}
    (hcreate : options.createIfMissing = false) : (m.getStore app id options).2 = m := by
  cases hvalid : checkName app id with
  | error e => rw [getStore, hvalid]
  | ok _ =>
      cases hoptions : options.check with
      | error e => rw [getStore, hvalid, hoptions]
      | ok _ => rw [habsent.getStore_eq hvalid hoptions hcreate]

/-- Whether an event may create the store with a name. -/
def Event.mayCreate : Event → StoreName → Prop
  | .getStore app id options => fun name => name = (app, id) ∧ options.createIfMissing = true
  | _ => fun _ => False

theorem Absent.handle (habsent : m.Absent name) (h : m.Assigned) {e : Event}
    (hcreate : ¬e.mayCreate name) : (m.handle e).Absent name := by
  by_cases hconcerns : m.Concerns e name
  · cases e with
    | getStore app id options =>
        obtain rfl : name = (app, id) := hconcerns
        rw [Manager.handle, habsent.getStore_snd]
        · exact habsent
        · exact Bool.eq_false_iff.mpr fun htrue => hcreate ⟨rfl, htrue⟩
    | host e => exact ⟨habsent.opened, habsent.retained⟩
    | _ =>
        refine (ends_of_not_getStore (fun _ _ _ he => by cases he) (fun _ he => by cases he) m).keeps
          (P := fun m => m.Absent name) (fun _ _ _ _ hm hmove => absent_ends hmove hm) habsent
  · exact (leaves_handle h hconcerns).absent habsent

/-- **A store that is not there is not there until it may be created.** -/
theorem Absent.run (habsent : m.Absent name) (h : m.Assigned) {events : List Event}
    (hcreate : ∀ e ∈ events, ¬e.mayCreate name) : (m.run events).Absent name := by
  induction events generalizing m with
  | nil => exact habsent
  | cons e events ih =>
      refine ih (habsent.handle h (hcreate e List.mem_cons_self)) (h.handle e) fun e' he' => ?_
      exact hcreate e' (List.mem_cons_of_mem e he')

/-- Deleting every store of an application leaves none. -/
theorem absent_deleteAll (h : m.Assigned) (app : String) (happ : name.1 = app) :
    (m.deleteAll app).Absent name := by
  -- a store that is there is among those that are deleted
  have hids : name.2 ∈ m.storeIds app ∨ m.Absent name := by
    by_cases hhas : m.has name = true
    · exact .inl (mem_storeIds_iff.mpr (happ ▸ hhas))
    · exact .inr (absent_iff.mpr (Bool.eq_false_iff.mpr hhas))
  unfold Manager.deleteAll
  generalize m.storeIds app = ids at hids
  induction ids generalizing m with
  | nil => exact hids.resolve_left List.not_mem_nil
  | cons id ids ih =>
      refine ih (h.handle (.deleteStore app id)) ?_
      rcases hids with hmem | habsent
      · rcases List.mem_cons.mp hmem with hid | hmem
        · have hname : name = (app, id) := Prod.ext happ hid
          exact .inr (hname ▸ absent_deleteStore h app id)
        · exact .inl hmem
      · exact .inr (habsent.handle h (e := .deleteStore app id) fun hget => hget)

end PeerStore.Manager
