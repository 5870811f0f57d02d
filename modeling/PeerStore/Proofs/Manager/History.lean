import PeerStore.Proofs.Manager.Retained

/-!
# What a store has in it when it is opened

A store that is opened anew is over a new backend, which is empty, or over the one that is retained
(`contents?_of_new`). That is the backend of the last handle of the name, and has been at rest since
the handle was closed (`exists_left`). So what a store has in it is settled by the history of its name
(**`contents_of_new_handle`**).
-/

set_option autoImplicit false

namespace PeerStore.Manager

variable {m m' : Manager} {name : StoreName} {app id : String} {options : Options} {n : Nat}

/-! ## What a new handle gives access to -/

/-- A new handle is over a new backend, which is empty, or over the one that is retained. -/
theorem contents?_of_new (hnone : m.opened.get? (app, id) = none)
    (hget : m.getStore app id options = (.ok n, m')) :
    (m.retained.get? (app, id) = none → m'.contents? n = some {})
      ∧ ∀ b, m.retained.get? (app, id) = some b → m'.contents? n = m.tables? b := by
  obtain ⟨-, -, b, m₁, host, hbackend, hopen, rfl⟩ := getStore_of_new hnone hget
  obtain ⟨-, -, -, hbackends, houtline⟩ := Host.openStore_eq_ok hopen
  have hcontents : host.contents? n = m₁.tables? b := by
    rw [Host.contents?_eq ((houtline n).trans (if_pos rfl))]
    exact congrArg (fun t => (t.get? b).map Backend.toTables) hbackends
  refine ⟨fun hretained => hcontents.trans ?_, fun b' hb' => hcontents.trans ?_⟩
  · rcases backendFor_eq_ok hbackend with ⟨hsome, -⟩ | ⟨-, -, rfl, rfl⟩
    · rw [hretained] at hsome
      cases hsome
    · exact congrArg (Option.map Backend.toTables) (Table.get?_insert_self m.backends _ {})
  · rcases backendFor_eq_ok hbackend with ⟨hsome, rfl⟩ | ⟨hretained, -⟩
    · rw [hb'] at hsome
      cases hsome
      rfl
    · rw [hb'] at hretained
      cases hretained

/-- What the last handle of a name left when it was closed is still there. -/
theorem exists_left (hnew : m.IsNew) (events : List Event)
    (hlast : (m.run events).IsLast name n) {o : Outline} (ho : (m.run events).outline? n = some o)
    (hclosed : o.isOpen = false) :
    ∃ before e after, events = before ++ e :: after ∧ Shuts n (m.run before) e
      ∧ (m.run events).tables? o.backendId = (m.run (before ++ [e])).contents? n := by
  obtain ⟨before, e, after, rfl, hshuts⟩ := exists_shuts hnew events ho hclosed
  refine ⟨before, e, after, rfl, hshuts, ?_⟩
  obtain ⟨-, o', ho', hclosed'⟩ := hshuts
  rw [← run_concat] at ho'
  have h : (m.run (before ++ [e])).Assigned := hnew.assigned.run _
  rw [run_append_cons] at hlast ho ⊢
  -- the handle is as it was when it was closed
  have hsame := (h.ages_run after).outline?_of_closed ho' hclosed'
  rw [hsame] at ho
  cases ho
  obtain ⟨p, hp, hname⟩ := hlast.1
  rw [hsame] at hp
  cases hp
  rw [Host.contents?_eq ho']
  exact h.tables?_run hlast ho' hname hclosed'

/-- **What a store has in it when it is opened.** Whatever happened to a new manager: a store that is
not open and is given has nothing in it unless its backend is retained, that is, unless a persistent
store was created under its name and has not been deleted since. Then it has what the last handle of
the name left when it was closed. A store can be deleted exactly if it is open or retained, and once
it is, it is not found until it may be created. And the stores of an application that are listed are
those that are open or retained, in strictly ascending order. -/
theorem contents_of_new_handle (hnew : m.IsNew) (events : List Event) (app id : String) :
    let m' := m.run events
    (∀ options n m'', m'.opened.get? (app, id) = none →
        m'.getStore app id options = (.ok n, m'') →
        (m'.retained.contains (app, id) = true
            ↔ Since (Creates (app, id)) (Deletes (app, id)) m events)
          ∧ (m'.retained.contains (app, id) = false → m''.contents? n = some {})
          ∧ (m'.retained.contains (app, id) = true →
              ∃ p before e after, m'.IsLast (app, id) p ∧ events = before ++ e :: after
                ∧ Shuts p (m.run before) e
                ∧ m''.contents? n = (m.run (before ++ [e])).contents? p))
      ∧ ((m'.deleteStore app id).1 = .ok () ↔ m'.has (app, id) = true)
      ∧ (∀ m'', m'.deleteStore app id = (.ok (), m'') → ∀ later options,
          (∀ e ∈ later, ¬e.mayCreate (app, id)) → options.check = .ok () →
          options.createIfMissing = false →
          (m''.run later).getStore app id options
            = (.error (.storeNotFound id), m''.run later))
      ∧ (m'.storeIds app).Pairwise (· < ·)
      ∧ ∀ id', id' ∈ m'.storeIds app ↔ m'.has (app, id') = true := by
  intro m'
  have h : m'.Assigned := hnew.assigned.run events
  refine ⟨fun options n m'' hnone hget => ?_, deleteStore_isOk_iff h,
    fun m'' hdelete later options hcreate hoptions hmissing => ?_, m'.ascending_storeIds app,
    fun id' => mem_storeIds_iff⟩
  · have hconfig : m.config.check = .ok () := by
      rw [← (hnew.assigned.settings_run events).1]
      exact (getStore_of_new hnone hget).1
    obtain ⟨hempty, hkept⟩ := contents?_of_new hnone hget
    refine ⟨retained_run hnew hconfig events, fun hnot => hempty ?_, fun hretained => ?_⟩
    · exact Option.isSome_eq_false_iff.mp hnot |> Option.isNone_iff_eq_none.mp
    · obtain ⟨b, hb⟩ := Option.isSome_iff_exists.mp hretained
      have hkeeps : m'.KeepsLast (app, id) := keepsLast_run hnew hconfig events
      obtain ⟨p, o, ho, rfl, hlast⟩ := hkeeps b hb
      -- the table has no handle of the name, so none is open
      have hclosed : o.isOpen = false := Bool.eq_false_iff.mpr fun hopen => by
        obtain ⟨q, hq, hname⟩ := hlast.1
        obtain rfl : o = q := Option.some.inj (ho.symm.trans hq)
        have hopened := h.opened_of_isOpen ho hopen
        rw [hname, hnone] at hopened
        cases hopened
      obtain ⟨before, e, after, hsplit, hshuts, hleft⟩ := exists_left hnew events hlast ho hclosed
      exact ⟨p, before, e, after, hlast, hsplit, hshuts, (hkept _ hb).trans hleft⟩
  · have habsent := absent_deleteStore h app id
    have h' := h.handle (.deleteStore app id)
    rw [Manager.handle, hdelete] at h'
    rw [hdelete] at habsent
    have hhas := (deleteStore_isOk_iff h).mp (congrArg Prod.fst hdelete)
    exact (habsent.run h' hcreate).getStore_eq (h.checkName_of_has hhas) hoptions hmissing

/-- A persistent store is closed and opened again with other options: it has the entry that its first
handle left. Once it is deleted, it is not found, whatever happens to another store. -/
theorem contents_of_new_handle_of_reopened :
    let m : Manager :=
      { directory := { self := "self" }, crashes := fun _ _ => false, config := {} }
    let events : List Event :=
      [.getStore "app" "store" { baseDir := "/data" }, .host (.perform 1 1 (.put [107] [118])),
        .closeStore "app" "store"]
    let m' := m.run events
    let m'' := (m'.getStore "app" "store" .inMemory).2
    (∃ p before e after, m'.IsLast ("app", "store") p ∧ events = before ++ e :: after
        ∧ Shuts p (m.run before) e ∧ m''.contents? 2 = (m.run (before ++ [e])).contents? p)
      ∧ m''.contents? 2 ≠ some {}
      ∧ let d := (m'.deleteStore "app" "store").2.run [.getStore "app" "other" .inMemory]
        d.getStore "app" "store" { createIfMissing := false, baseDir := "/data" }
          = (.error (.storeNotFound "store"), d) := by
  intro m events m' m''
  have hnew : m.IsNew := ⟨rfl, rfl, rfl, rfl⟩
  obtain ⟨hcontents, -, hdeleted, -⟩ := contents_of_new_handle hnew events "app" "store"
  have hgiven : (m'.getStore "app" "store" .inMemory).1 = .ok 2 := by decide +kernel
  have hnone : m'.opened.get? ("app", "store") = none := by decide +kernel
  have hretained : m'.retained.contains ("app", "store") = true := by decide +kernel
  have hdelete : (m'.deleteStore "app" "store").1 = .ok () := by decide +kernel
  refine ⟨(hcontents .inMemory 2 m'' hnone (Prod.ext hgiven rfl)).2.2 hretained, by decide +kernel,
    hdeleted _ (Prod.ext hdelete rfl) _ _ (fun e he hcreate => ?_) (by decide) rfl⟩
  obtain rfl := List.mem_singleton.mp he
  exact absurd hcreate.1 (by decide)

end PeerStore.Manager
