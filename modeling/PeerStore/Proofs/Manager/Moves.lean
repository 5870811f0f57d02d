import Mathlib.Logic.Relation
import PeerStore.Proofs.Host.Reach
import PeerStore.Proofs.Manager.Run

/-!
# What the calls of a manager do

Every call of a manager is a chain of moves, each for one name that the call concerns: moves that
open a store (`Opens`), and moves that end one (`Ends`). A call opens one store at most, and
otherwise only ends (**`opens_getStore`**, **`ends_of_not_getStore`**). Every move, and everything
that happens on the host, keeps backends assigned to names: no backend is held by two names, the
handle in the table is the last one of its name, and what is retained is what it is over
(`Assigned`, **`Assigned.run`**).
-/

set_option autoImplicit false

namespace PeerStore.Manager

variable {m m' : Manager} {name : StoreName}

/-! ## Moves -/

/-- Whether a name holds a backend: it is retained under the name, or a handle of the name is over
it. -/
def Holds (m : Manager) (name : StoreName) (b : Nat) : Prop :=
  m.retained.get? name = some b
    ∨ ∃ n o, m.outline? n = some o ∧ o.name = name ∧ o.backendId = b

/-- Adds a backend for a name, which is retained or not. -/
def withBackend (m : Manager) (name : StoreName) (persistent : Bool) : Manager :=
  { m with
    toHost := m.toHost.addBackend.2
    retained := if persistent then m.retained.insert name m.nextBackend else m.retained }

/-- The moves that open a store. -/
inductive Opens (name : StoreName) (m : Manager) : Manager → Prop where
  /-- A backend is added. -/
  | backed (persistent : Bool) : checkName name.1 name.2 = .ok () →
      m.opened.get? name = none → m.retained.get? name = none →
      Opens name m (m.withBackend name persistent)
  /-- A store is opened over a backend that no other name holds. -/
  | opened {options : Options} {b n : Nat} {host : Host} : checkName name.1 name.2 = .ok () →
      m.opened.get? name = none → m.backends.contains b = true →
      (∀ name', m.Holds name' b → name' = name) →
      (∀ b', m.retained.get? name = some b' → b' = b) →
      m.toHost.openStore name.1 name.2 options m.config b = .ok (n, host) →
      Opens name m { m with toHost := host, opened := m.opened.insert name n }

/-- The moves that end a store. -/
inductive Ends (name : StoreName) (m : Manager) : Manager → Prop where
  /-- Its handle is closed, and leaves the table. -/
  | closed {n : Nat} : m.opened.get? name = some n →
      Ends name m
        { m with toHost := m.toHost.closeStore n, opened := m.opened.erase name }
  /-- Its backend is not retained any more. -/
  | forgot : m.opened.get? name = none → Ends name m { m with retained := m.retained.erase name }

/-- Moves for names of which something holds, one after the other. -/
def Chain (move : StoreName → Manager → Manager → Prop) (concerned : StoreName → Prop) :
    Manager → Manager → Prop :=
  Relation.ReflTransGen fun m m' => ∃ name, concerned name ∧ move name m m'

/-! ## New backends and handles -/

/-- What is retained was retained before, or it is the new backend. -/
theorem retained_withBackend {persistent : Bool} {name' : StoreName} {b : Nat}
    (hb : (m.withBackend name persistent).retained.get? name' = some b) :
    m.retained.get? name' = some b ∨ name' = name ∧ b = m.nextBackend := by
  unfold withBackend at hb
  dsimp only at hb
  split at hb
  · rw [Table.get?_insert] at hb
    split at hb
    · rename_i hname
      exact .inr ⟨hname, (Option.some.inj hb).symm⟩
    · exact .inl hb
  · exact .inl hb

theorem holds_withBackend {persistent : Bool} {name' : StoreName} {b : Nat}
    (hb : (m.withBackend name persistent).Holds name' b) :
    m.Holds name' b ∨ name' = name ∧ b = m.nextBackend := by
  rcases hb with hb | hb
  · exact (retained_withBackend hb).imp_left .inl
  · exact .inl (.inr hb)

/-- What is held was held before, or the new handle is over it. -/
theorem holds_openStore {options : Options} {config : Config} {b n : Nat} {host : Host}
    (hok : m.toHost.openStore name.1 name.2 options config b = .ok (n, host))
    {name' : StoreName} {b' : Nat}
    (hb : ({ m with toHost := host, opened := m.opened.insert name n } : Manager).Holds name' b') :
    m.Holds name' b' ∨ name' = name ∧ b' = b := by
  obtain ⟨-, -, -, -, houtline⟩ := Host.openStore_eq_ok hok
  rcases hb with hb | ⟨k, o, ho, hname, hbackend⟩
  · exact .inl (.inl hb)
  · have ho : host.outline? k = some o := ho
    rw [houtline] at ho
    split at ho
    · cases ho
      exact .inr ⟨hname.symm, hbackend.symm⟩
    · exact .inl (.inr ⟨k, o, ho, hname, hbackend⟩)

/-! ## What moves keep -/

/-- Whether backends are assigned to names. -/
structure Assigned (m : Manager) : Prop where
  consistent : ∃ closed, m.Consistent closed
  unique : ∀ b name name', m.Holds name b → m.Holds name' b → name = name'
  /-- What is retained under a name is what its handle in the table is over. -/
  agrees : ∀ name n b, m.opened.get? name = some n → m.retained.get? name = some b →
    ∃ o, m.outline? n = some o ∧ o.backendId = b
  /-- The handle in the table is the last one of its name. -/
  latest : ∀ name n, m.opened.get? name = some n →
    ∀ k o, m.outline? k = some o → o.name = name → k ≤ n
  valid : ∀ name n, m.opened.get? name = some n ∨ m.retained.get? name = some n →
    checkName name.1 name.2 = .ok ()
  settled : ∀ n o, m.outline? n = some o →
    o.profile.limits = m.config.limits ∧ o.profile.device = m.directory.self

theorem IsNew.assigned (hnew : m.IsNew) : m.Assigned := by
  have houtline := hnew.outline?
  have hopened (name : StoreName) : m.opened.get? name = none := by rw [hnew.opened]; rfl
  have hretained (name : StoreName) : m.retained.get? name = none := by rw [hnew.retained]; rfl
  refine ⟨⟨[], hnew.consistent⟩, ?_, ?_, ?_, ?_, ?_⟩
  · rintro b name name' (hb | ⟨n, o, ho, -⟩)
    · rw [hretained] at hb
      cases hb
    · rw [houtline] at ho
      cases ho
  · intro name n b hn
    rw [hopened] at hn
    cases hn
  · intro name n hn
    rw [hopened] at hn
    cases hn
  · rintro name n (hn | hn)
    · rw [hopened] at hn
      cases hn
    · rw [hretained] at hn
      cases hn
  · intro n o ho
    rw [houtline] at ho
    cases ho

namespace Assigned

variable (h : m.Assigned)
include h

theorem sound : m.toHost.Sound := by
  obtain ⟨closed, hconsistent⟩ := h.consistent
  exact hconsistent.host

/-- A handle in the table is one of the name. -/
theorem exists_outline {n : Nat} (hn : m.opened.get? name = some n) :
    ∃ o, m.outline? n = some o ∧ o.name = name := by
  obtain ⟨closed, hconsistent⟩ := h.consistent
  exact hconsistent.opened name n hn

/-- A handle that is open is the one in the table. -/
theorem opened_of_isOpen {n : Nat} {o : Outline} (ho : m.outline? n = some o)
    (hopen : o.isOpen = true) : m.opened.get? o.name = some n := by
  obtain ⟨closed, hconsistent⟩ := h.consistent
  exact ((hconsistent.isOpen_iff n o ho).mp hopen).1

/-- A backend that a name holds is there. -/
theorem contains_of_holds {b : Nat} (hb : m.Holds name b) : m.backends.contains b = true := by
  rcases hb with hb | ⟨n, o, ho, -, rfl⟩
  · obtain ⟨closed, hconsistent⟩ := h.consistent
    exact hconsistent.retained name b hb
  · exact h.sound.backed n o ho

/-- The next backend is held by nobody. -/
theorem not_holds_nextBackend (name : StoreName) : ¬m.Holds name m.nextBackend := fun hb =>
  Nat.lt_irrefl _ (h.sound.lt_nextBackend _ (h.contains_of_holds hb))

/-! ### Opening -/

theorem backed (persistent : Bool) (hvalid : checkName name.1 name.2 = .ok ())
    (hopened : m.opened.get? name = none) (hretained : m.retained.get? name = none) :
    (m.withBackend name persistent).Assigned := by
  obtain ⟨closed, hconsistent⟩ := h.consistent
  have hbackend : m.backendFor name.1 name.2 { persistent }
      = .ok (m.nextBackend, m.withBackend name persistent) := by
    unfold Manager.backendFor
    rw [show m.retained.get? (name.1, name.2) = none from hretained]
    rfl
  refine ⟨⟨closed, (hconsistent.backendFor hbackend).1⟩, ?_, ?_, h.latest, ?_, h.settled⟩
  · intro b name₁ name₂ hb₁ hb₂
    rcases holds_withBackend hb₁ with hb₁ | ⟨rfl, rfl⟩
    · rcases holds_withBackend hb₂ with hb₂ | ⟨-, rfl⟩
      · exact h.unique b name₁ name₂ hb₁ hb₂
      · exact absurd hb₁ (h.not_holds_nextBackend _)
    · rcases holds_withBackend hb₂ with hb₂ | ⟨rfl, -⟩
      · exact absurd hb₂ (h.not_holds_nextBackend _)
      · rfl
  · intro name' n b hn hb
    rcases retained_withBackend hb with hb | ⟨rfl, -⟩
    · exact h.agrees name' n b hn hb
    · have hnone : (m.withBackend name' persistent).opened.get? name' = none := hopened
      rw [hnone] at hn
      cases hn
  · rintro name' n (hn | hn)
    · exact h.valid name' n (.inl hn)
    · rcases retained_withBackend hn with hn | ⟨rfl, -⟩
      · exact h.valid name' n (.inr hn)
      · exact hvalid

theorem opened {options : Options} {b n : Nat} {host : Host}
    (hvalid : checkName name.1 name.2 = .ok ()) (hnone : m.opened.get? name = none)
    (hbackend : m.backends.contains b = true) (hfree : ∀ name', m.Holds name' b → name' = name)
    (hretained : ∀ b', m.retained.get? name = some b' → b' = b)
    (hok : m.toHost.openStore name.1 name.2 options m.config b = .ok (n, host)) :
    ({ m with toHost := host, opened := m.opened.insert name n } : Manager).Assigned := by
  obtain ⟨closed, hconsistent⟩ := h.consistent
  obtain ⟨hn, -, -, -, houtline⟩ := Host.openStore_eq_ok hok
  have hold {k : Nat} {o : Outline} (ho : m.outline? k = some o) : k < n :=
    hn ▸ h.sound.lt_nextStore k o ho
  have hself : host.directory = m.directory := (Host.openStore_rest hok).1
  refine ⟨⟨closed, hconsistent.openStore hbackend hnone hok⟩, ?_, ?_, ?_, ?_, ?_⟩
  · intro b' name₁ name₂ hb₁ hb₂
    rcases holds_openStore hok hb₁ with hold₁ | ⟨hname₁, hb⟩
    · rcases holds_openStore hok hb₂ with hold₂ | ⟨hname₂, hb⟩
      · exact h.unique b' name₁ name₂ hold₁ hold₂
      · rw [hname₂]
        exact hfree name₁ (hb ▸ hold₁)
    · rcases holds_openStore hok hb₂ with hold₂ | ⟨hname₂, -⟩
      · rw [hname₁]
        exact (hfree name₂ (hb ▸ hold₂)).symm
      · rw [hname₁, hname₂]
  · intro name' k b' hk hb'
    show ∃ o, host.outline? k = some o ∧ o.backendId = b'
    rw [houtline]
    rw [Table.get?_insert] at hk
    split at hk
    · rename_i hname
      subst hname
      cases hk
      rw [if_pos rfl]
      exact ⟨_, rfl, (hretained b' hb').symm⟩
    · obtain ⟨o, ho, hover⟩ := h.agrees name' k b' hk hb'
      rw [if_neg (Nat.ne_of_lt (hold ho))]
      exact ⟨o, ho, hover⟩
  · intro name' k hk j o ho hname
    have ho : host.outline? j = some o := ho
    rw [houtline] at ho
    rw [Table.get?_insert] at hk
    split at ho
    · rename_i hj
      cases ho
      have hname : name = name' := hname
      rw [if_pos hname.symm] at hk
      rw [hj]
      exact Nat.le_of_eq (Option.some.inj hk)
    · split at hk
      · cases hk
        exact Nat.le_of_lt (hold ho)
      · exact h.latest name' k hk j o ho hname
  · rintro name' k (hk | hk)
    · rw [Table.get?_insert] at hk
      split at hk
      · rename_i hname
        rw [hname]
        exact hvalid
      · exact h.valid name' k (.inl hk)
    · exact h.valid name' k (.inr hk)
  · intro k o ho
    have ho : host.outline? k = some o := ho
    show o.profile.limits = m.config.limits ∧ o.profile.device = host.directory.self
    rw [hself]
    rw [houtline] at ho
    split at ho
    · cases ho
      exact ⟨rfl, rfl⟩
    · exact h.settled k o ho

/-! ### Ending -/

/-- What neither opens nor names anything keeps backends assigned. -/
theorem of_closes {closing closed : List Nat} (hcloses : Host.Closes closing m.toHost m'.toHost)
    (hconsistent : m'.Consistent closed) (hconfig : m'.config = m.config)
    (hself : m'.directory.self = m.directory.self)
    (hopened : ∀ name n, m'.opened.get? name = some n → m.opened.get? name = some n)
    (hretained : ∀ name b, m'.retained.get? name = some b → m.retained.get? name = some b) :
    m'.Assigned := by
  have hback {n : Nat} {o' : Outline} (ho' : m'.outline? n = some o') :
      ∃ o, m.outline? n = some o ∧ o.profile = o'.profile ∧ o.backendId = o'.backendId := by
    rw [hcloses.outline?] at ho'
    obtain ⟨o, ho, rfl⟩ := Option.map_eq_some_iff.mp ho'
    refine ⟨o, ho, ?_⟩
    split <;> exact ⟨rfl, rfl⟩
  have hholds {name : StoreName} {b : Nat} (hb : m'.Holds name b) : m.Holds name b := by
    rcases hb with hb | ⟨n, o', ho', hname, hbackend⟩
    · exact .inl (hretained name b hb)
    · obtain ⟨o, ho, hprofile, hover⟩ := hback ho'
      exact .inr ⟨n, o, ho, by rw [Outline.name, hprofile]; exact hname, hover.trans hbackend⟩
  refine ⟨⟨closed, hconsistent⟩, ?_, ?_, ?_, ?_, ?_⟩
  · intro b name₁ name₂ hb₁ hb₂
    exact h.unique b name₁ name₂ (hholds hb₁) (hholds hb₂)
  · intro name n b hn hb
    obtain ⟨o, ho, hover⟩ := h.agrees name n b (hopened name n hn) (hretained name b hb)
    refine ⟨_, (hcloses.outline? n).trans (congrArg (Option.map _) ho), ?_⟩
    split <;> exact hover
  · intro name n hn k o' ho' hname
    obtain ⟨o, ho, hprofile, -⟩ := hback ho'
    exact h.latest name n (hopened name n hn) k o ho (by rw [Outline.name, hprofile]; exact hname)
  · intro name n hn
    exact h.valid name n (hn.imp (hopened name n) (hretained name n))
  · intro n o' ho'
    obtain ⟨o, ho, hprofile, -⟩ := hback ho'
    rw [← hprofile, hconfig, hself]
    exact h.settled n o ho

theorem closed {n : Nat} (hn : m.opened.get? name = some n) :
    ({ m with toHost := m.toHost.closeStore n, opened := m.opened.erase name } :
      Manager).Assigned := by
  obtain ⟨closed, hconsistent⟩ := h.consistent
  have hclose : (m.closeStore name.1 name.2).2
      = { m with toHost := m.toHost.closeStore n, opened := m.opened.erase name } := by
    rw [Manager.closeStore, show m.opened.get? (name.1, name.2) = some n from hn]
  have hconsistent' := hconsistent.closeStore name.1 name.2
  rw [hclose] at hconsistent'
  refine h.of_closes (Host.closes_closeStore h.sound n) hconsistent' rfl ?_ ?_ fun _ _ hb => hb
  · exact (m.toHost.reaches_handle (.close n)).self
  · intro name' k hk
    rw [Table.get?_erase] at hk
    split at hk
    · cases hk
    · exact hk

theorem forgot : ({ m with retained := m.retained.erase name } : Manager).Assigned := by
  obtain ⟨closed, hconsistent⟩ := h.consistent
  have hretained (name' : StoreName) (b : Nat) (hb : (m.retained.erase name).get? name' = some b) :
      m.retained.get? name' = some b := by
    rw [Table.get?_erase] at hb
    split at hb
    · cases hb
    · exact hb
  have hconsistent' : ({ m with retained := m.retained.erase name } : Manager).Consistent closed :=
    ⟨hconsistent.host, hconsistent.opened, hconsistent.isOpen_iff,
      fun name b hb => hconsistent.retained name b (hretained name b hb), hconsistent.lt_nextStore⟩
  exact h.of_closes (.refl m.toHost) hconsistent' rfl rfl (fun _ _ hn => hn) hretained

/-- **Every move keeps backends assigned.** -/
theorem opens (hmove : Opens name m m') : m'.Assigned := by
  cases hmove with
  | backed persistent hvalid hopened hretained => exact h.backed persistent hvalid hopened hretained
  | opened hvalid hnone hbackend hfree hretained hok =>
      exact h.opened hvalid hnone hbackend hfree hretained hok

theorem ends (hmove : Ends name m m') : m'.Assigned := by
  cases hmove with
  | closed hn => exact h.closed hn
  | forgot => exact h.forgot

/-- **So does everything that happens on the host.** -/
theorem host (e : Host.Event) : (m.handle (.host e)).Assigned := by
  obtain ⟨closed, hconsistent⟩ := h.consistent
  exact h.of_closes (Host.closes_handle h.sound e) (hconsistent.handle (.host e)) rfl
    (m.toHost.reaches_handle e).self (fun _ _ hn => hn) fun _ _ hb => hb

end Assigned

/-! ## Calls are chains of moves -/

/-- The names that a call concerns. -/
def Event.concerns : Event → StoreName → Prop
  | .getStore app id _ | .closeStore app id | .deleteStore app id => (· = (app, id))
  | .closeAll app | .deleteAll app => (·.1 = app)
  | .host _ => fun _ => False

/-- What every move keeps is kept by a chain. -/
theorem Chain.keeps {move : StoreName → Manager → Manager → Prop} {concerned : StoreName → Prop}
    {P : Manager → Prop} (hmove : ∀ name m m', concerned name → P m → move name m m' → P m')
    (hm : P m) (h : Chain move concerned m m') : P m' := by
  induction h with
  | refl => exact hm
  | tail _ hstep ih =>
      obtain ⟨name, hname, hstep⟩ := hstep
      exact hmove name _ _ hname ih hstep

theorem Chain.mono {move : StoreName → Manager → Manager → Prop} {p q : StoreName → Prop}
    (hpq : ∀ name, p name → q name) (h : Chain move p m m') : Chain move q m m' :=
  h.keeps (P := Chain move q m) (fun name _ _ hname hchain hmove =>
    hchain.tail ⟨name, hpq name hname, hmove⟩) .refl

theorem chain_single {move : StoreName → Manager → Manager → Prop} (h : move name m m') :
    Chain move (· = name) m m' := .single ⟨name, rfl, h⟩

/-- Calls for the names in a list, one after the other, are a chain if each of them is. -/
theorem chain_foldl {move : StoreName → Manager → Manager → Prop} {app : String}
    {call : Manager → String → Manager} (hcall : ∀ m id, Chain move (· = (app, id)) m (call m id))
    (ids : List String) (m : Manager) : Chain move (·.1 = app) m (ids.foldl call m) := by
  induction ids generalizing m with
  | nil => exact .refl
  | cons id ids ih =>
      have hfirst : Chain move (·.1 = app) m (call m id) :=
        (hcall m id).mono fun name hname => congrArg Prod.fst hname
      exact hfirst.trans (ih (call m id))

theorem ends_closeStore (m : Manager) (app id : String) :
    Chain Ends (· = (app, id)) m (m.closeStore app id).2 := by
  unfold Manager.closeStore
  split
  · exact .refl
  · rename_i n hn
    exact chain_single (.closed hn)

theorem opened_closeStore (m : Manager) (app id : String) :
    (m.closeStore app id).2.opened.get? (app, id) = none := by
  unfold Manager.closeStore
  split
  · assumption
  · exact Table.get?_erase_self _ _

theorem ends_deleteStore (m : Manager) (app id : String) :
    Chain Ends (· = (app, id)) m (m.deleteStore app id).2 := by
  unfold Manager.deleteStore
  split
  · exact .refl
  split
  · exact (m.ends_closeStore app id).trans (chain_single (.forgot (m.opened_closeStore app id)))
  · exact .refl

/-- **A call that does not open a store only ends some.** -/
theorem ends_of_not_getStore {e : Event} (hget : ∀ app id options, e ≠ .getStore app id options)
    (hhost : ∀ e', e ≠ .host e') (m : Manager) : Chain Ends e.concerns m (m.handle e) := by
  cases e with
  | getStore app id options => exact absurd rfl (hget app id options)
  | closeStore app id => exact m.ends_closeStore app id
  | closeAll app => exact chain_foldl (fun m id => m.ends_closeStore app id) _ m
  | deleteStore app id => exact m.ends_deleteStore app id
  | deleteAll app => exact chain_foldl (fun m id => m.ends_deleteStore app id) _ m
  | host e => exact absurd rfl (hhost e)

theorem backendFor_eq_ok {app id : String} {options : Options} {b : Nat}
    (hok : m.backendFor app id options = .ok (b, m')) :
    m.retained.get? (app, id) = some b ∧ m' = m
      ∨ m.retained.get? (app, id) = none ∧ options.createIfMissing = true ∧ b = m.nextBackend
        ∧ m' = m.withBackend (app, id) options.persistent := by
  unfold Manager.backendFor at hok
  split at hok
  · rename_i hretained
    cases hok
    exact .inl ⟨hretained, rfl⟩
  · rename_i hretained
    split at hok
    · rename_i hcreate
      cases hok
      exact .inr ⟨hretained, hcreate, rfl, rfl⟩
    · cases hok

/-- The backend for a store is there, and no other name holds it. -/
theorem Assigned.backendFor (h : m.Assigned) {app id : String} {options : Options} {b : Nat}
    (hvalid : checkName app id = .ok ()) (hnone : m.opened.get? (app, id) = none)
    (hok : m.backendFor app id options = .ok (b, m')) :
    Chain Opens (· = (app, id)) m m' ∧ m'.opened = m.opened ∧ m'.backends.contains b = true
      ∧ (∀ name, m'.Holds name b → name = (app, id))
      ∧ ∀ b', m'.retained.get? (app, id) = some b' → b' = b := by
  rcases backendFor_eq_ok hok with ⟨hretained, rfl⟩ | ⟨hretained, -, rfl, rfl⟩
  · have hholds : m'.Holds (app, id) b := .inl hretained
    refine ⟨.refl, rfl, h.contains_of_holds hholds, fun name hname => ?_, fun b' hb' => ?_⟩
    · exact h.unique b name (app, id) hname hholds
    · rw [hretained] at hb'
      exact (Option.some.inj hb').symm
  · refine ⟨chain_single (.backed _ hvalid hnone hretained), rfl, ?_, fun name hname => ?_,
      fun b' hb' => ?_⟩
    · rw [show (m.withBackend (app, id) options.persistent).backends.contains m.nextBackend = _ from
        m.toHost.contains_addBackend _]
      simp
    · rcases holds_withBackend hname with hold | ⟨rfl, -⟩
      · exact absurd hold (h.not_holds_nextBackend _)
      · rfl
    · rcases retained_withBackend hb' with hold | ⟨-, rfl⟩
      · rw [hretained] at hold
        cases hold
      · rfl

/-- **A call that opens a store** finds a backend for it, or adds one, and opens it. -/
theorem Assigned.opens_getStore (h : m.Assigned) (app id : String) (options : Options) :
    Chain Opens (· = (app, id)) m (m.getStore app id options).2 := by
  unfold Manager.getStore
  split
  · exact .refl
  · exact .refl
  · rename_i hvalid _
    split
    · exact .refl
    · rename_i hnone
      unfold openNew
      split
      · exact .refl
      · rename_i b m' hbackend
        obtain ⟨hhead, hopened, hcontains, hfree, hretained⟩ := h.backendFor hvalid hnone hbackend
        refine hhead.trans ?_
        split
        · exact .refl
        · rename_i n host hok
          exact chain_single (.opened hvalid (hopened ▸ hnone) hcontains hfree hretained hok)

namespace Assigned

/-- **An event opens one store, or ends some, or happens on the host.** -/
theorem moves (h : m.Assigned) (e : Event) :
    Chain Opens e.concerns m (m.handle e) ∨ Chain Ends e.concerns m (m.handle e)
      ∨ ∃ e', e = .host e' := by
  cases e with
  | getStore app id options => exact .inl (h.opens_getStore app id options)
  | host e => exact .inr (.inr ⟨e, rfl⟩)
  | _ => exact .inr (.inl (ends_of_not_getStore (fun _ _ _ he => by cases he)
      (fun _ he => by cases he) m))

/-- **What every move does, and every event of the host, every event does**, if it can be done once
more. -/
theorem handle_of_moves {R : Manager → Manager → Prop} (h : m.Assigned) (e : Event)
    (hrefl : ∀ m, R m m) (htrans : ∀ {m m' m''}, R m m' → R m' m'' → R m m'')
    (hopens : ∀ {name m m'}, m.Assigned → e.concerns name → Opens name m m' → R m m')
    (hends : ∀ {name m m'}, m.Assigned → e.concerns name → Ends name m m' → R m m')
    (hhost : ∀ e', e = .host e' → R m (m.handle e)) : R m (m.handle e) := by
  rcases h.moves e with hchain | hchain | ⟨e', he⟩
  · refine (hchain.keeps
      (P := fun m' => m'.Assigned ∧ R m m') (fun name _ _ hname hm hmove => ?_) ⟨h, hrefl m⟩).2
    exact ⟨hm.1.opens hmove, htrans hm.2 (hopens hm.1 hname hmove)⟩
  · refine (hchain.keeps
      (P := fun m' => m'.Assigned ∧ R m m') (fun name _ _ hname hm hmove => ?_) ⟨h, hrefl m⟩).2
    exact ⟨hm.1.ends hmove, htrans hm.2 (hends hm.1 hname hmove)⟩
  · exact hhost e' he

/-- **Every event keeps backends assigned, and so does every run.** -/
theorem handle (h : m.Assigned) (e : Event) : (m.handle e).Assigned :=
  h.handle_of_moves e (R := fun m m' => m.Assigned → m'.Assigned) (fun _ h => h)
    (fun hmm' hm'm'' h => hm'm'' (hmm' h)) (fun _ _ hmove h => h.opens hmove)
    (fun _ _ hmove h => h.ends hmove) (fun e' he h => he ▸ h.host e') h

theorem run (h : m.Assigned) (events : List Event) : (m.run events).Assigned := by
  induction events generalizing m with
  | nil => exact h
  | cons e events ih => exact ih (h.handle e)

/-- What every event does, a run does. -/
theorem run_of_handle {R : Manager → Manager → Prop} (h : m.Assigned) (hrefl : ∀ m, R m m)
    (htrans : ∀ {m m' m''}, R m m' → R m' m'' → R m m'')
    (hhandle : ∀ {m : Manager}, m.Assigned → ∀ e, R m (m.handle e)) (events : List Event) :
    R m (m.run events) := by
  induction events generalizing m with
  | nil => exact hrefl m
  | cons e events ih => exact htrans (hhandle h e) (ih (h.handle e))

/-- **The settings stay, and so does the device.** -/
theorem settings_run (h : m.Assigned) (events : List Event) :
    (m.run events).config = m.config ∧ (m.run events).directory.self = m.directory.self := by
  refine h.run_of_handle
    (R := fun m m' => m'.config = m.config ∧ m'.directory.self = m.directory.self)
    (fun _ => ⟨rfl, rfl⟩) (fun h h' => ⟨h'.1.trans h.1, h'.2.trans h.2⟩) (fun {m} h e => ?_) events
  refine h.handle_of_moves e
    (R := fun m m' => m'.config = m.config ∧ m'.directory.self = m.directory.self)
    (fun _ => ⟨rfl, rfl⟩) (fun h h' => ⟨h'.1.trans h.1, h'.2.trans h.2⟩) (fun _ _ hmove => ?_)
    (fun {_ m _} _ _ hmove => ?_) fun e' he => ?_
  · cases hmove with
    | backed => exact ⟨rfl, rfl⟩
    | opened _ _ _ _ _ hok => exact ⟨rfl, congrArg Directory.self (Host.openStore_rest hok).1⟩
  · cases hmove with
    | @closed n => exact ⟨rfl, (m.toHost.reaches_handle (.close n)).self⟩
    | forgot => exact ⟨rfl, rfl⟩
  · subst he
    exact ⟨rfl, (m.toHost.reaches_handle e').self⟩

theorem check_run (h : m.Assigned) (hconfig : m.config.check = .ok ()) (events : List Event) :
    (m.run events).config.check = .ok () :=
  (congrArg Config.check (h.settings_run events).1).trans hconfig

/-- Of the handles over a backend one is open at most. -/
theorem eq_of_isOpen (h : m.Assigned) {n k : Nat} {o p : Outline} (ho : m.outline? n = some o)
    (hp : m.outline? k = some p) (hopen : o.isOpen = true) (hopen' : p.isOpen = true)
    (hover : o.backendId = p.backendId) : n = k := by
  -- both are the one in the table under the name that holds the backend
  have hname : o.name = p.name :=
    h.unique o.backendId o.name p.name (.inr ⟨n, o, ho, rfl, rfl⟩)
      (.inr ⟨k, p, hp, rfl, hover.symm⟩)
  have hn := h.opened_of_isOpen ho hopen
  rw [hname, h.opened_of_isOpen hp hopen'] at hn
  exact (Option.some.inj hn).symm

end Assigned

end PeerStore.Manager
