import PeerStore.Proofs.Manager.Delete
import PeerStore.Proofs.Manager.Rest

/-!
# What is retained

A backend is retained if and only if a persistent store was created under the name and has not been
deleted since (**`retained_run`**). It is the backend of the last handle of the name
(**`keepsLast_run`**).
-/

set_option autoImplicit false

namespace PeerStore

/-- Opening a store over a backend fails only where the checks do. -/
theorem Host.exists_openStore_iff {h : Host} {app id : String} {options : Options} {config : Config}
    {b : Nat} : (∃ n h', h.openStore app id options config b = .ok (n, h'))
      ↔ options.check = .ok () ∧ config.check = .ok () := by
  unfold Host.openStore Store.openWith
  cases options.check with
  | error e => exact iff_of_false (fun ⟨_, _, hok⟩ => by cases hok) fun hchecks => by cases hchecks.1
  | ok _ =>
      cases config.check with
      | error e =>
          exact iff_of_false (fun ⟨_, _, hok⟩ => by cases hok) fun hchecks => by cases hchecks.2
      | ok _ => exact iff_of_true ⟨_, _, rfl⟩ ⟨rfl, rfl⟩

namespace Manager

variable {m m' : Manager} {name : StoreName} {app id : String} {options : Options} {b n : Nat}
  {e : Event}

/-! ## Opening a store -/

/-- A store that is not open and is given has been opened, over a backend that was found or added. -/
theorem getStore_of_new (hnone : m.opened.get? (app, id) = none)
    (hok : m.getStore app id options = (.ok n, m')) :
    m.config.check = .ok () ∧ checkName app id = .ok ()
      ∧ ∃ b m₁ host, m.backendFor app id options = .ok (b, m₁)
        ∧ m₁.toHost.openStore app id options m₁.config b = .ok (n, host)
        ∧ m' = { m₁ with toHost := host, opened := m₁.opened.insert (app, id) n } := by
  unfold Manager.getStore at hok
  split at hok
  · cases hok
  · cases hok
  · rename_i hvalid _
    rw [hnone] at hok
    dsimp only at hok
    unfold openNew at hok
    split at hok
    · cases hok
    · rename_i b m₁ hbackend
      split at hok
      · cases hok
      · rename_i n host hopen
        cases hok
        have hconfig : m₁.config = m.config := by
          rcases backendFor_eq_ok hbackend with ⟨-, rfl⟩ | ⟨-, -, -, rfl⟩ <;> rfl
        have hchecks := Host.exists_openStore_iff.mp ⟨n, host, hopen⟩
        exact ⟨hconfig ▸ hchecks.2, hvalid, b, m₁, host, hbackend, hopen, rfl⟩

/-- A manager that has given a store is as one can come to be. -/
theorem Assigned.of_getStore (h : m.Assigned) (hget : m.getStore app id options = (.ok n, m')) :
    m'.Assigned := by
  have hhandle := h.handle (.getStore app id options)
  rw [Manager.handle, hget] at hhandle
  exact hhandle

/-- Unless a store is opened, nothing changes. -/
theorem getStore_of_not_new (hconfig : m.config.check = .ok ())
    (hnot : ¬(m.opened.get? (app, id) = none ∧ ∃ n, (m.getStore app id options).1 = .ok n)) :
    (m.getStore app id options).2 = m := by
  unfold Manager.getStore at hnot ⊢
  split
  · rfl
  · rfl
  · rename_i hvalid hoptions
    rw [hvalid, hoptions] at hnot
    split
    · rfl
    · rename_i hnone
      rw [hnone] at hnot
      unfold openNew at hnot ⊢
      split
      · rfl
      · rename_i b m₁ hbackend
        have hsame : m₁.config = m.config := by
          rcases backendFor_eq_ok hbackend with ⟨-, rfl⟩ | ⟨-, -, -, rfl⟩ <;> rfl
        obtain ⟨n, host, hopen⟩ := Host.exists_openStore_iff (h := m₁.toHost) (b := b) |>.mpr
          ⟨hoptions, (congrArg Config.check hsame).trans hconfig⟩
        rw [hbackend] at hnot
        dsimp only at hnot
        rw [hopen] at hnot
        exact absurd ⟨rfl, n, rfl⟩ hnot

/-! ## What is retained -/

/-- Whether an event creates a persistent store: one that is neither open nor retained. -/
def Creates (name : StoreName) (m : Manager) : Event → Prop
  | .getStore app id options =>
      name = (app, id) ∧ options.persistent = true ∧ m.Absent (app, id)
        ∧ ∃ n, (m.getStore app id options).1 = .ok n
  | _ => False

/-- Whether an event deletes a store. -/
def Deletes (name : StoreName) (m : Manager) : Event → Prop
  | .deleteStore app id => name = (app, id) ∧ (m.deleteStore app id).1 = .ok ()
  | .deleteAll app => name.1 = app ∧ name.2 ∈ m.storeIds app
  | _ => False

theorem retained_closeStore (m : Manager) (app id : String) :
    (m.closeStore app id).2.retained = m.retained := by
  unfold Manager.closeStore
  split <;> rfl

theorem retained_closeAll (m : Manager) (app : String) :
    (m.closeAll app).retained = m.retained := by
  unfold Manager.closeAll
  generalize idsOf m.opened app = ids
  induction ids generalizing m with
  | nil => rfl
  | cons id ids ih => exact (ih _).trans (m.retained_closeStore app id)

theorem retained_getStore (h : m.Assigned) (hconfig : m.config.check = .ok ()) :
    (m.getStore app id options).2.retained.contains (app, id) = true
      ↔ Creates (app, id) m (.getStore app id options) ∨ m.retained.contains (app, id) = true := by
  by_cases hnew : m.opened.get? (app, id) = none ∧ ∃ n, (m.getStore app id options).1 = .ok n
  · obtain ⟨hnone, n, hn⟩ := hnew
    obtain ⟨m', hget⟩ : ∃ m', m.getStore app id options = (.ok n, m') := ⟨_, Prod.ext hn rfl⟩
    obtain ⟨-, -, b, m₁, host, hbackend, -, rfl⟩ := getStore_of_new hnone hget
    rw [hget]
    rcases backendFor_eq_ok hbackend with ⟨hretained, rfl⟩ | ⟨hretained, -, -, rfl⟩
    · have hcontains : m₁.retained.contains (app, id) = true := by
        rw [Table.contains, hretained]
        rfl
      exact iff_of_true hcontains (.inr hcontains)
    · have hcontains : m.retained.contains (app, id) = false := by
        rw [Table.contains, hretained]
        rfl
      show (if options.persistent = true then _ else _ : Table StoreName Nat).contains _ = true ↔ _
      rw [hcontains]
      cases hpersistent : options.persistent with
      | true =>
          refine iff_of_true ?_ (.inl ⟨rfl, hpersistent, ⟨hnone, hretained⟩, n, hn⟩)
          rw [if_pos rfl, Table.contains, Table.get?_insert_self]
          rfl
      | false =>
          refine iff_of_false ?_ ?_
          · rw [if_neg Bool.false_ne_true, hcontains]
            exact Bool.false_ne_true
          · rintro (⟨-, hcreates, -⟩ | hfalse)
            · rw [hpersistent] at hcreates
              cases hcreates
            · cases hfalse
  · rw [getStore_of_not_new hconfig hnew]
    refine ⟨.inr, fun hor => hor.resolve_left ?_⟩
    rintro ⟨-, -, habsent, n, hn⟩
    exact hnew ⟨habsent.opened, n, hn⟩

/-- A store that is deleted is there no more. -/
theorem absent_of_deletes (h : m.Assigned) (hdeletes : Deletes name m e) :
    (m.handle e).Absent name := by
  cases e with
  | deleteStore app id =>
      obtain ⟨rfl, -⟩ := hdeletes
      exact absent_deleteStore h app id
  | deleteAll app => exact absent_deleteAll h app hdeletes.1
  | _ => exact hdeletes.elim

/-- What is retained stays retained unless it is deleted. -/
theorem retained_of_not_deletes (h : m.Assigned) (hb : m.retained.get? name = some b)
    (hnot : ¬Deletes name m e) : (m.handle e).retained.get? name = some b := by
  have hhas : m.has name = true := by
    rw [has, Table.contains, Table.contains, hb]
    exact Bool.or_true _
  by_cases hconcerns : m.Concerns e name
  · cases e with
    | getStore app id options =>
        refine (h.opens_getStore app id options).keeps (P := fun m' => m'.retained.get? name = some b)
          (fun other _ _ _ hm hmove => ?_) hb
        cases hmove with
        | backed persistent _ _ hnone =>
            -- a backend is added only where none is retained
            have hne : other ≠ name := by
              rintro rfl
              rw [hm] at hnone
              cases hnone
            show (if persistent = true then _ else _ : Table StoreName Nat).get? name = some b
            split
            · exact (Table.get?_insert_of_ne _ _ hne).trans hm
            · exact hm
        | opened => exact hm
    | closeStore app id => exact (congrArg (Table.get? · name) (m.retained_closeStore app id)).trans hb
    | closeAll app => exact (congrArg (Table.get? · name) (m.retained_closeAll app)).trans hb
    | deleteStore app id =>
        obtain rfl : name = (app, id) := hconcerns
        exact absurd ⟨rfl, (deleteStore_isOk_iff h).mpr hhas⟩ hnot
    | deleteAll app =>
        obtain rfl : name.1 = app := hconcerns
        exact absurd ⟨rfl, mem_storeIds_iff.mpr hhas⟩ hnot
    | host e => exact hb
  · exact (leaves_handle h hconcerns).retained.trans hb

/-- What comes to be retained has been created. -/
theorem creates_of_retained (h : m.Assigned) (hconfig : m.config.check = .ok ())
    (hbefore : ¬m.retained.contains name = true)
    (hafter : (m.handle e).retained.contains name = true) : Creates name m e := by
  have hsame (hretained : (m.handle e).retained.get? name = m.retained.get? name) :
      Creates name m e := by
    rw [Table.contains, hretained] at hafter
    exact absurd hafter hbefore
  have hgone (habsent : (m.handle e).Absent name) : Creates name m e := by
    rw [Table.contains, habsent.retained] at hafter
    cases hafter
  by_cases hconcerns : m.Concerns e name
  · cases e with
    | getStore app id options =>
        obtain rfl : name = (app, id) := hconcerns
        exact ((retained_getStore h hconfig).mp hafter).resolve_right hbefore
    | closeStore app id => exact hsame (congrArg (Table.get? · name) (m.retained_closeStore app id))
    | closeAll app => exact hsame (congrArg (Table.get? · name) (m.retained_closeAll app))
    | deleteStore app id =>
        obtain rfl : name = (app, id) := hconcerns
        exact hgone (absent_deleteStore h app id)
    | deleteAll app => exact hgone (absent_deleteAll h app hconcerns)
    | host e => exact hsame rfl
  · exact hsame (leaves_handle h hconcerns).retained

/-- **What an event does to what is retained**: a persistent store that is created is retained, until
it is deleted. -/
theorem retained_handle (h : m.Assigned) (hconfig : m.config.check = .ok ()) (e : Event) :
    (m.handle e).retained.contains name = true
      ↔ Creates name m e ∨ m.retained.contains name = true ∧ ¬Deletes name m e := by
  constructor
  · intro hafter
    by_cases hbefore : m.retained.contains name = true
    · refine .inr ⟨hbefore, fun hdeletes => ?_⟩
      rw [Table.contains, (absent_of_deletes h hdeletes).retained] at hafter
      cases hafter
    · exact .inl (creates_of_retained h hconfig hbefore hafter)
  · rintro (hcreates | ⟨hbefore, hnot⟩)
    · cases e with
      | getStore app id options =>
          obtain rfl : name = (app, id) := hcreates.1
          exact (retained_getStore h hconfig).mpr (.inl hcreates)
      | _ => exact hcreates.elim
    · obtain ⟨b, hb⟩ := Option.isSome_iff_exists.mp hbefore
      rw [Table.contains, retained_of_not_deletes h hb hnot]
      rfl

/-- **What is retained are the persistent stores that were created and not deleted since.** -/
theorem retained_run (hnew : m.IsNew) (hconfig : m.config.check = .ok ()) (events : List Event) :
    (m.run events).retained.contains name = true
      ↔ Since (Creates name) (Deletes name) m events := by
  induction events using List.reverseRecOn with
  | nil =>
      refine iff_of_false ?_ not_since_nil
      show ¬m.retained.contains name = true
      rw [hnew.retained]
      exact Bool.false_ne_true
  | append_singleton events e ih =>
      have hconfig' := hnew.assigned.check_run hconfig events
      rw [run_concat, retained_handle (hnew.assigned.run events) hconfig' e, since_concat, ih]

/-! ## The last handle of a retained backend -/

/-- Whether what is retained under a name is the backend of the last handle of the name. -/
def KeepsLast (m : Manager) (name : StoreName) : Prop :=
  ∀ b, m.retained.get? name = some b →
    ∃ n o, m.outline? n = some o ∧ o.backendId = b ∧ m.IsLast name n

theorem outline?_iff_named? {o : Outline} :
    m.outline? n = some o ∧ o.name = name ↔ (m.named? name n).map Hosted.outline = some o := by
  rw [Option.map_eq_some_iff]
  constructor
  · rintro ⟨ho, hname⟩
    obtain ⟨x, hx, rfl⟩ := Option.map_eq_some_iff.mp ho
    exact ⟨x, named?_eq_some_iff.mpr ⟨hx, hname⟩, rfl⟩
  · rintro ⟨x, hx, rfl⟩
    obtain ⟨hx, hname⟩ := named?_eq_some_iff.mp hx
    exact ⟨congrArg (Option.map Hosted.outline) hx, hname⟩

theorem keepsLast_of_closes {closing : List Nat} (hcloses : Host.Closes closing m.toHost m'.toHost)
    (hretained : ∀ b, m'.retained.get? name = some b → m.retained.get? name = some b)
    (h : m.KeepsLast name) : m'.KeepsLast name := by
  intro b hb
  obtain ⟨n, o, ho, hover, ⟨p, hp, hname⟩, hlast⟩ := h b (hretained b hb)
  have hages : Ages m m' := ages_of_closes hcloses
  obtain ⟨o', ho', hname'⟩ := hages.exists_name hp
  refine ⟨n, o', ho', ?_, ⟨o', ho', hname'.trans hname⟩, fun k q' hq' hqname => ?_⟩
  · rcases hages n o ho with hsame | hsame
    · rw [hsame] at ho'
      cases ho'
      exact hover
    · rw [hsame] at ho'
      cases ho'
      exact hover
  · have hq' : m'.toHost.outline? k = some q' := hq'
    rw [hcloses.outline?] at hq'
    obtain ⟨q, hq, rfl⟩ := Option.map_eq_some_iff.mp hq'
    refine hlast k q hq ?_
    split at hqname <;> exact hqname

theorem Leaves.keepsLast (hleaves : Leaves name m m') (h : m.KeepsLast name) :
    m'.KeepsLast name := by
  have hiff {k : Nat} {p : Outline} :
      m'.outline? k = some p ∧ p.name = name ↔ m.outline? k = some p ∧ p.name = name := by
    rw [outline?_iff_named?, outline?_iff_named?, hleaves.handles]
  intro b hb
  rw [hleaves.retained] at hb
  obtain ⟨n, o, ho, hover, ⟨p, hp, hname⟩, hlast⟩ := h b hb
  obtain rfl : o = p := Option.some.inj (ho.symm.trans hp)
  have ho' := hiff.mpr ⟨ho, hname⟩
  exact ⟨n, o, ho'.1, hover, ⟨o, ho'⟩, fun k q hq hqname => hlast k q (hiff.mp ⟨hq, hqname⟩).1 hqname⟩

/-- A handle that is opened is the last one of its name, and over what is retained. -/
theorem keepsLast_of_new (h : m.Assigned) (hnone : m.opened.get? (app, id) = none)
    (hget : m.getStore app id options = (.ok n, m')) : m'.KeepsLast (app, id) := by
  have h' := h.of_getStore hget
  obtain ⟨-, hvalid, b, m₁, host, hbackend, hopen, rfl⟩ := getStore_of_new hnone hget
  obtain ⟨-, -, -, -, hretained⟩ := h.backendFor hvalid hnone hbackend
  obtain ⟨hn, hnext, -, -, houtline⟩ := Host.openStore_eq_ok hopen
  intro b' hb'
  refine ⟨n, _, (houtline n).trans (if_pos rfl), (hretained b' hb').symm,
    ⟨_, (houtline n).trans (if_pos rfl), rfl⟩, fun k p hp _ => ?_⟩
  have hlt : k < host.nextStore := h'.sound.lt_nextStore k p hp
  rw [hnext, ← hn] at hlt
  exact Nat.le_of_lt_succ hlt

theorem keepsLast_ends {other : StoreName} (h : m.Assigned) (hmove : Ends other m m')
    (hkeeps : m.KeepsLast name) : m'.KeepsLast name := by
  cases hmove with
  | @closed n =>
      exact keepsLast_of_closes (Host.closes_closeStore h.sound n) (fun _ hb => hb) hkeeps
  | forgot =>
      refine keepsLast_of_closes (.refl m.toHost) (fun b hb => ?_) hkeeps
      rw [Table.get?_erase] at hb
      split at hb
      · cases hb
      · exact hb

theorem keepsLast_handle (h : m.Assigned) (hconfig : m.config.check = .ok ())
    (hkeeps : m.KeepsLast name) (e : Event) : (m.handle e).KeepsLast name := by
  by_cases hconcerns : m.Concerns e name
  · cases e with
    | getStore app id options =>
        obtain rfl : name = (app, id) := hconcerns
        by_cases hnew : m.opened.get? (app, id) = none ∧ ∃ n, (m.getStore app id options).1 = .ok n
        · obtain ⟨hnone, n, hn⟩ := hnew
          exact keepsLast_of_new h hnone (Prod.ext hn rfl)
        · rw [Manager.handle, getStore_of_not_new hconfig hnew]
          exact hkeeps
    | host e => exact keepsLast_of_closes (Host.closes_handle h.sound e) (fun _ hb => hb) hkeeps
    | _ =>
        refine ((ends_of_not_getStore (fun _ _ _ he => by cases he) (fun _ he => by cases he)
          m).keeps (P := fun m => m.Assigned ∧ m.KeepsLast name) (fun _ _ _ _ hm hmove => ?_)
          ⟨h, hkeeps⟩).2
        exact ⟨hm.1.ends hmove, keepsLast_ends hm.1 hmove hm.2⟩
  · exact (leaves_handle h hconcerns).keepsLast hkeeps

/-- **What is retained is the backend of the last handle of its name.** -/
theorem keepsLast_run (hnew : m.IsNew) (hconfig : m.config.check = .ok ()) (events : List Event) :
    (m.run events).KeepsLast name := by
  induction events using List.reverseRecOn with
  | nil =>
      intro b hb
      have hb : m.retained.get? name = some b := hb
      rw [hnew.retained] at hb
      cases hb
  | append_singleton events e ih =>
      have hconfig' := hnew.assigned.check_run hconfig events
      rw [run_concat]
      exact keepsLast_handle (hnew.assigned.run events) hconfig' ih e

end Manager

end PeerStore
