import Mathlib.Data.Finset.Card
import Mathlib.Data.Fintype.Basic
import PeerStore.Proofs.Subscription

/-!
# Registries as maps

A registry stands for a map from observers to the sides, this device and the remote ones, that they
hear of (`Holdings`). Calls have a meaning on such maps, with the same answers
(`Registry.Represents.perform`). So after any calls the registry and the map agree: on what each
further call answers, on who is registered, and on who hears of a change, in the order in which the
observers have been registered since (`Registry.Earlier`, **`simulates_holdings`**).
-/

set_option autoImplicit false

namespace PeerStore

/-! ## Sides -/

/-- Where changes come from, as far as scopes tell. -/
inductive Side where
  | here
  | remote
  deriving DecidableEq, Repr

namespace Side

/-- Which bit of the mask of a scope is that of a side. -/
def bit : Side → Nat
  | here => 0
  | remote => 1

end Side

/-- The side that an origin is on. -/
def Origin.side : Origin → Side
  | .here => .here
  | .remote _ => .remote

namespace Scope

/-- The sides that a scope includes. -/
def sides : Scope → Finset Side
  | here => {.here}
  | remote => {.remote}
  | all => {.here, .remote}

theorem sides_nonempty (s : Scope) : s.sides.Nonempty := by
  cases s <;> decide

theorem includes_iff (s : Scope) (origin : Origin) :
    s.includes origin = true ↔ origin.side ∈ s.sides := by
  cases s <;> cases origin <;> simp [includes, sides, Origin.side]

theorem testBit_bits_iff (s : Scope) (side : Side) :
    s.bits.testBit side.bit = true ↔ side ∈ s.sides := by
  cases s <;> cases side <;> decide

theorem sides_union (a b : Scope) : (a.union b).sides = a.sides ∪ b.sides := by
  cases a <;> cases b <;> decide

theorem sides_minus? (a b : Scope) : (a.minus? b).elim ∅ sides = a.sides \ b.sides := by
  cases a <;> cases b <;> decide

theorem minus?_isNone_iff (a b : Scope) : (a.minus? b).isNone = true ↔ a.sides ⊆ b.sides := by
  cases a <;> cases b <;> decide

theorem disjoint_iff (a b : Scope) : a.disjoint b = true ↔ Disjoint a.sides b.sides := by
  cases a <;> cases b <;> decide

end Scope

/-! ## Calls -/

namespace Registry

/-- A call of a registry. -/
inductive Call where
  | subscribe (observer : String) (scope : Scope)
  | unsubscribe (observer : String) (scope : Scope)
  | clear
  deriving DecidableEq, Repr

/-- The answer to a call, and the registry after it. -/
def perform (r : Registry) : Call → Except Status Unit × Registry
  | .subscribe observer scope =>
      match r.subscribe observer scope with
      | .ok r' => (.ok (), r')
      | .error e => (.error e, r)
  | .unsubscribe observer scope =>
      match r.unsubscribe observer scope with
      | .ok r' => (.ok (), r')
      | .error e => (.error e, r)
  | .clear => (.ok (), r.clear)

/-- A call that fails changes nothing. -/
theorem perform_of_error {r : Registry} {call : Call} {e : Status}
    (h : (r.perform call).1 = .error e) : (r.perform call).2 = r := by
  cases call with
  | clear => cases h
  | subscribe o scope =>
      rw [perform] at h ⊢
      cases hcall : r.subscribe o scope with
      | ok r' =>
          rw [hcall] at h
          cases h
      | error e' => rfl
  | unsubscribe o scope =>
      rw [perform] at h ⊢
      cases hcall : r.unsubscribe o scope with
      | ok r' =>
          rw [hcall] at h
          cases h
      | error e' => rfl

/-- The registry after calls, one after the other. -/
def run (r : Registry) (calls : List Call) : Registry :=
  calls.foldl (fun r call => (r.perform call).2) r

/-- The observers in the order in which they are held. -/
def observers (r : Registry) : List String := r.subscriptions.map (·.observer)

end Registry

/-! ## Maps -/

/-- A map from finitely many observers to non-empty sets of sides. An observer that holds nothing is
not in the map. -/
structure Holdings where
  sides : String → Finset Side
  holders : Finset String
  mem_holders_iff : ∀ o, o ∈ holders ↔ (sides o).Nonempty

namespace Holdings

/-- The map without observers. -/
def empty : Holdings where
  sides _ := ∅
  holders := ∅
  mem_holders_iff _ := by simp

/-- Exchanges what one observer holds. -/
def set (m : Holdings) (observer : String) (held : Finset Side) : Holdings where
  sides o := if o = observer then held else m.sides o
  holders := if held = ∅ then m.holders.erase observer else insert observer m.holders
  mem_holders_iff o := by
    have hmem := m.mem_holders_iff o
    by_cases hheld : held = ∅
    · subst hheld
      by_cases ho : o = observer
      · simp [ho]
      · simp [ho, hmem]
    · have hnonempty : held.Nonempty := Finset.nonempty_iff_ne_empty.mpr hheld
      by_cases ho : o = observer
      · simp [ho, hheld, hnonempty]
      · simp [ho, hheld, hmem]

/-- What a call is answered when at most `max` observers may be held. -/
def answer (max : Nat) (m : Holdings) : Registry.Call → Except Status Unit
  | .subscribe observer scope =>
      if scope.sides ⊆ m.sides observer then .error .alreadySubscribed
      else if observer ∉ m.holders ∧ m.holders.card = max then .error (.tooManyObservers max)
      else .ok ()
  | .unsubscribe observer scope =>
      if Disjoint (m.sides observer) scope.sides then .error .notSubscribed else .ok ()
  | .clear => .ok ()

/-- What a call that is accepted makes of the map. -/
def change (m : Holdings) : Registry.Call → Holdings
  | .subscribe observer scope => m.set observer (m.sides observer ∪ scope.sides)
  | .unsubscribe observer scope => m.set observer (m.sides observer \ scope.sides)
  | .clear => empty

/-- The map after a call. A call that fails changes nothing. -/
def next (max : Nat) (m : Holdings) (call : Registry.Call) : Holdings :=
  match m.answer max call with
  | .ok () => m.change call
  | .error _ => m

/-- The map after calls, beginning with the one without observers. -/
def after (max : Nat) (calls : List Registry.Call) : Holdings := calls.foldl (next max) empty

theorem after_concat (max : Nat) (calls : List Registry.Call) (call : Registry.Call) :
    after max (calls ++ [call]) = (after max calls).next max call := by
  rw [after, List.foldl_append]
  rfl

theorem not_mem_holders_iff {m : Holdings} {o : String} : o ∉ m.holders ↔ m.sides o = ∅ := by
  rw [m.mem_holders_iff, Finset.not_nonempty_iff_eq_empty]

end Holdings

namespace Registry

variable {max : Nat} {m : Holdings} {r : Registry}

/-- Whether a registry for at most `max` observers stands for a map. -/
structure Represents (max : Nat) (m : Holdings) (r : Registry) : Prop where
  max_eq : r.max = max
  distinct : r.Distinct
  size_le : r.size ≤ max
  sides_eq : ∀ o, (r.scope? o).elim ∅ Scope.sides = m.sides o

/-- Whether a registry and a map answer a call alike, and the registry stands for the map after it
again. -/
structure Agrees (max : Nat) (m : Holdings) (r : Registry) (call : Call) : Prop where
  answer : (r.perform call).1 = m.answer max call
  represents : Represents max (m.next max call) (r.perform call).2

namespace Represents

theorem sides_of_none (h : Represents max m r) {o : String} (ho : r.scope? o = none) :
    m.sides o = ∅ := by
  rw [← h.sides_eq, ho]
  rfl

theorem sides_of_some (h : Represents max m r) {o : String} {held : Scope}
    (ho : r.scope? o = some held) : m.sides o = held.sides := by
  rw [← h.sides_eq, ho]
  rfl

theorem mem_observers_iff (h : Represents max m r) {o : String} :
    o ∈ r.observers ↔ o ∈ m.holders := by
  rw [← not_iff_not, Holdings.not_mem_holders_iff, observers, ← scope?_eq_none_iff]
  constructor
  · exact h.sides_of_none
  · intro hempty
    cases hscope : r.scope? o with
    | none => rfl
    | some held =>
        rw [h.sides_of_some hscope] at hempty
        exact absurd hempty held.sides_nonempty.ne_empty

theorem toFinset_observers (h : Represents max m r) : r.observers.toFinset = m.holders := by
  ext o
  rw [List.mem_toFinset]
  exact h.mem_observers_iff

/-- The registry holds as many observers as the map. -/
theorem size_eq (h : Represents max m r) : r.size = m.holders.card := by
  have hcard : r.observers.toFinset.card = r.observers.length :=
    List.toFinset_card_of_nodup h.distinct
  rw [← h.toFinset_observers, hcard, observers, List.length_map, size]

/-- Another scope for an observer is another set of sides in the map. -/
theorem setScope (h : Represents max m r) {o : String} (ho : r.scope? o ≠ none) (scope : Scope) :
    Represents max (m.set o scope.sides) (r.setScope o scope) where
  max_eq := h.max_eq
  distinct := h.distinct.setScope o scope
  size_le := by
    rw [size, Registry.setScope, List.length_map]
    exact h.size_le
  sides_eq o' := by
    obtain ⟨held, hheld⟩ := Option.ne_none_iff_exists'.mp ho
    rw [scope?_setScope]
    by_cases ho' : o' = o
    · simp [ho', hheld, Holdings.set]
    · simp [ho', Holdings.set, h.sides_eq]

/-- A new observer is a new key of the map. -/
theorem append (h : Represents max m r) {o : String} (ho : r.scope? o = none) (scope : Scope)
    (hroom : r.size < max) :
    Represents max (m.set o scope.sides)
      { r with subscriptions := r.subscriptions ++ [⟨o, scope⟩] } where
  max_eq := h.max_eq
  distinct := h.distinct.append ho scope
  size_le := by
    show (r.subscriptions ++ [Subscription.mk o scope]).length ≤ max
    rw [List.length_append]
    exact hroom
  sides_eq o' := by
    rw [scope?_append r o o' scope ho]
    by_cases ho' : o' = o
    · simp [ho', Holdings.set]
    · simp [ho', Holdings.set, h.sides_eq]

/-- An observer that is forgotten is no key of the map. -/
theorem filter (h : Represents max m r) (o : String) :
    Represents max (m.set o ∅)
      { r with subscriptions := r.subscriptions.filter (·.observer != o) } where
  max_eq := h.max_eq
  distinct := h.distinct.filter o
  size_le := (List.length_filter_le _ _).trans h.size_le
  sides_eq o' := by
    rw [scope?_filter]
    by_cases ho' : o' = o
    · simp [ho', Holdings.set]
    · simp [ho', Holdings.set, h.sides_eq]

theorem clear (h : Represents max m r) : Represents max Holdings.empty r.clear where
  max_eq := h.max_eq
  distinct := distinct_clear r
  size_le := Nat.zero_le max
  sides_eq _ := rfl

/-- A call that both refuse leaves both as they are. -/
theorem refused (h : Represents max m r) {call : Call} {e : Status}
    (hcall : r.perform call = (.error e, r)) (hanswer : m.answer max call = .error e) :
    Agrees max m r call where
  answer := by rw [hcall, hanswer]
  represents := by
    rw [hcall, Holdings.next, hanswer]
    exact h

/-- After a call that both accept the registry has to stand for the changed map. -/
theorem accepted {r' : Registry} {call : Call} (h' : Represents max (m.change call) r')
    (hcall : r.perform call = (.ok (), r')) (hanswer : m.answer max call = .ok ()) :
    Agrees max m r call where
  answer := by rw [hcall, hanswer]
  represents := by
    rw [hcall, Holdings.next, hanswer]
    exact h'

/-- An observer that is held widens its scope, unless it has all that it asks for. -/
theorem subscribe_held (h : Represents max m r) {o : String} {held : Scope}
    (hheld : r.scope? o = some held) (scope : Scope) : Agrees max m r (.subscribe o scope) := by
  have hsides := h.sides_of_some hheld
  have hmem : o ∈ m.holders := (m.mem_holders_iff o).mpr (hsides ▸ held.sides_nonempty)
  have hmissing := Scope.minus?_isNone_iff scope held
  by_cases hall : scope.sides ⊆ held.sides
  · apply h.refused
    · rw [Registry.perform, Registry.subscribe, hheld]
      dsimp only
      rw [if_pos (hmissing.mpr hall)]
    · rw [Holdings.answer, hsides, if_pos hall]
  · have hwider : Represents max (m.change (.subscribe o scope))
        (r.setScope o (held.union scope)) := by
      rw [Holdings.change, hsides, ← Scope.sides_union]
      exact h.setScope (by simp [hheld]) _
    apply hwider.accepted
    · rw [Registry.perform, Registry.subscribe, hheld]
      dsimp only
      rw [if_neg fun hnone => hall (hmissing.mp hnone)]
    · rw [Holdings.answer, hsides, if_neg hall, if_neg fun hfull => hfull.1 hmem]

/-- An observer that is not held is added, unless there is no room. -/
theorem subscribe_new (h : Represents max m r) {o : String} (hnew : r.scope? o = none)
    (scope : Scope) : Agrees max m r (.subscribe o scope) := by
  have hsides := h.sides_of_none hnew
  have hmem : o ∉ m.holders := Holdings.not_mem_holders_iff.mpr hsides
  have hmissing : ¬scope.sides ⊆ m.sides o := by
    rw [hsides, Finset.subset_empty]
    exact scope.sides_nonempty.ne_empty
  by_cases hfull : m.holders.card = max
  · have hnoroom : r.max ≤ r.subscriptions.length := by
      rw [h.max_eq, ← hfull, ← h.size_eq]
      exact Nat.le_refl _
    apply h.refused
    · rw [Registry.perform, Registry.subscribe, hnew]
      dsimp only
      rw [if_pos hnoroom, h.max_eq]
    · rw [Holdings.answer, if_neg hmissing, if_pos ⟨hmem, hfull⟩]
  · have hroom : r.size < max := lt_of_le_of_ne h.size_le (h.size_eq ▸ hfull)
    have hadded : Represents max (m.change (.subscribe o scope))
        { r with subscriptions := r.subscriptions ++ [⟨o, scope⟩] } := by
      rw [Holdings.change, hsides, Finset.empty_union]
      exact h.append hnew scope hroom
    apply hadded.accepted
    · rw [Registry.perform, Registry.subscribe, hnew]
      dsimp only
      rw [if_neg (by rw [h.max_eq]; exact Nat.not_le_of_lt hroom)]
    · rw [Holdings.answer, if_neg hmissing, if_neg fun hboth => hfull hboth.2]

/-- An observer gives up what it shares with a scope, and is forgotten if nothing is left. -/
theorem unsubscribe (h : Represents max m r) (o : String) (scope : Scope) :
    Agrees max m r (.unsubscribe o scope) := by
  cases hheld : r.scope? o with
  | none =>
      have hsides := h.sides_of_none hheld
      apply h.refused
      · rw [Registry.perform, Registry.unsubscribe, hheld]
      · rw [Holdings.answer, hsides, if_pos (Finset.disjoint_empty_left _)]
  | some held =>
      have hsides := h.sides_of_some hheld
      have hshared := Scope.disjoint_iff held scope
      by_cases hnone : Disjoint held.sides scope.sides
      · apply h.refused
        · rw [Registry.perform, Registry.unsubscribe, hheld]
          dsimp only
          rw [if_pos (hshared.mpr hnone)]
        · rw [Holdings.answer, hsides, if_pos hnone]
      · have hanswer : m.answer max (.unsubscribe o scope) = .ok () := by
          rw [Holdings.answer, hsides, if_neg hnone]
        have hchange : m.change (.unsubscribe o scope)
            = m.set o ((held.minus? scope).elim ∅ Scope.sides) := by
          rw [Holdings.change, hsides, Scope.sides_minus?]
        cases hleft : held.minus? scope with
        | some left =>
            have hnarrower : Represents max (m.change (.unsubscribe o scope))
                (r.setScope o left) := by
              rw [hchange, hleft]
              exact h.setScope (by simp [hheld]) left
            refine hnarrower.accepted ?_ hanswer
            rw [Registry.perform, Registry.unsubscribe, hheld]
            dsimp only
            rw [if_neg fun hd => hnone (hshared.mp hd), hleft]
        | none =>
            have hforgotten : Represents max (m.change (.unsubscribe o scope))
                { r with subscriptions := r.subscriptions.filter (·.observer != o) } := by
              rw [hchange, hleft]
              exact h.filter o
            refine hforgotten.accepted ?_ hanswer
            rw [Registry.perform, Registry.unsubscribe, hheld]
            dsimp only
            rw [if_neg fun hd => hnone (hshared.mp hd), hleft]

/-- **A call is answered as the map says, and makes of the registry what it makes of the map.** -/
theorem perform (h : Represents max m r) (call : Call) : Agrees max m r call := by
  cases call with
  | subscribe o scope =>
      cases hheld : r.scope? o with
      | some held => exact h.subscribe_held hheld scope
      | none => exact h.subscribe_new hheld scope
  | unsubscribe o scope => exact h.unsubscribe o scope
  | clear => exact h.clear.accepted rfl rfl

end Represents

/-! ## Runs -/

theorem represents_empty (max : Nat) : Represents max Holdings.empty { max } where
  max_eq := rfl
  distinct := List.nodup_nil
  size_le := Nat.zero_le max
  sides_eq _ := rfl

theorem run_concat (r : Registry) (calls : List Call) (call : Call) :
    r.run (calls ++ [call]) = ((r.run calls).perform call).2 := by
  rw [run, List.foldl_append]
  rfl

/-- **After any calls the registry stands for the map after these calls.** -/
theorem represents_run (max : Nat) (calls : List Call) :
    Represents max (Holdings.after max calls) (run { max } calls) := by
  induction calls using List.reverseRecOn with
  | nil => exact represents_empty max
  | append_singleton calls call ih =>
      rw [run_concat, Holdings.after_concat]
      exact (ih.perform call).represents

/-! ## The order of registration -/

/-- Whether the present registration of one observer is older than that of another: there was a time
at which the second was not registered, and the first has been registered since. -/
def Earlier (max : Nat) (calls : List Call) (a b : String) : Prop :=
  ∃ k ≤ calls.length, b ∉ (Holdings.after max (calls.take k)).holders
    ∧ ∀ j, k ≤ j → j ≤ calls.length → a ∈ (Holdings.after max (calls.take j)).holders

/-- A registration that goes on stays older. -/
theorem Earlier.concat {calls : List Call} {a b : String} (h : Earlier max calls a b)
    {call : Call} (ha : a ∈ (Holdings.after max (calls ++ [call])).holders) :
    Earlier max (calls ++ [call]) a b := by
  obtain ⟨k, hk, hb, hsince⟩ := h
  refine ⟨k, by rw [List.length_append]; omega, ?_, ?_⟩
  · rwa [List.take_append_of_le_length hk]
  · intro j hkj hj
    by_cases hjle : j ≤ calls.length
    · rw [List.take_append_of_le_length hjle]
      exact hsince j hkj hjle
    · have hall : (calls ++ [call]).take j = calls ++ [call] := List.take_of_length_le (by
        rw [List.length_append, List.length_singleton]
        omega)
      rwa [hall]

/-- An observer that was registered before a call is older than one that was not. -/
theorem earlier_concat_of_mem {calls : List Call} {call : Call} {a b : String}
    (hb : b ∉ (Holdings.after max calls).holders) (ha : a ∈ (Holdings.after max calls).holders)
    (ha' : a ∈ (Holdings.after max (calls ++ [call])).holders) :
    Earlier max (calls ++ [call]) a b := by
  have hnow : Earlier max calls a b := by
    refine ⟨calls.length, Nat.le_refl _, by rwa [List.take_length], ?_⟩
    intro j hle hge
    rwa [Nat.le_antisymm hge hle, List.take_length]
  exact hnow.concat ha'

/-- A call puts an observer that was not registered behind all others, or it keeps the order. -/
theorem observers_perform (r : Registry) (call : Call) :
    List.Sublist (r.perform call).2.observers r.observers
      ∨ ∃ o, o ∉ r.observers ∧ (r.perform call).2.observers = r.observers ++ [o] := by
  have hsame (o : String) (scope : Scope) :
      List.Sublist (r.setScope o scope).observers r.observers := by
    rw [observers, map_observer_setScope]
    exact List.Sublist.refl _
  cases call with
  | clear => exact .inl (List.nil_sublist _)
  | subscribe o scope =>
      rw [perform]
      cases hcall : r.subscribe o scope with
      | error e => exact .inl (List.Sublist.refl _)
      | ok r' =>
          obtain ⟨held, -, rfl⟩ | ⟨hnew, rfl⟩ := subscribe_eq_ok hcall
          · exact .inl (hsame o _)
          · exact .inr ⟨o, scope?_eq_none_iff.mp hnew, List.map_append⟩
  | unsubscribe o scope =>
      rw [perform]
      cases hcall : r.unsubscribe o scope with
      | error e => exact .inl (List.Sublist.refl _)
      | ok r' =>
          obtain ⟨held, -, hcases⟩ := unsubscribe_eq_ok hcall
          obtain ⟨left, -, rfl⟩ | ⟨-, rfl⟩ := hcases
          · exact .inl (hsame o left)
          · exact .inl (List.filter_sublist.map _)

/-- **Observers are held in the order of their present registrations.** -/
theorem pairwise_observers_run (max : Nat) (calls : List Call) :
    (run { max } calls).observers.Pairwise (Earlier max calls) := by
  induction calls using List.reverseRecOn with
  | nil => exact List.Pairwise.nil
  | append_singleton calls call ih =>
      have hbefore := represents_run max calls
      have hbehind := represents_run max (calls ++ [call])
      rw [run_concat] at hbehind ⊢
      have hmem {o : String} (ho : o ∈ ((run { max } calls).perform call).2.observers) :
          o ∈ (Holdings.after max (calls ++ [call])).holders := hbehind.mem_observers_iff.mp ho
      rcases observers_perform (run { max } calls) call with hsub | ⟨o, ho, hnew⟩
      · refine List.Pairwise.imp_of_mem ?_ (ih.sublist hsub)
        intro a b ha _ hearlier
        exact hearlier.concat (hmem ha)
      · rw [hnew] at hmem ⊢
        have ho' : o ∉ (Holdings.after max calls).holders :=
          fun h => ho (hbefore.mem_observers_iff.mpr h)
        refine List.pairwise_append.mpr ⟨?_, List.pairwise_singleton _ _, ?_⟩
        · refine List.Pairwise.imp_of_mem ?_ ih
          intro a b ha _ hearlier
          exact hearlier.concat (hmem (List.mem_append_left _ ha))
        · intro a ha b hb
          obtain rfl := List.mem_singleton.mp hb
          exact earlier_concat_of_mem ho' (hbefore.mem_observers_iff.mp ha)
            (hmem (List.mem_append_left _ ha))

/-- The observers that hear of a change are among all, in their order. -/
theorem targets_sublist (r : Registry) (origin : Origin) :
    List.Sublist (r.targets origin) r.observers := List.filter_sublist.map _

theorem Represents.mem_targets_iff (h : Represents max m r) {origin : Origin} {o : String} :
    o ∈ r.targets origin ↔ origin.side ∈ m.sides o := by
  rw [Registry.mem_targets_iff h.distinct, hears]
  cases hscope : r.scope? o with
  | none => simp [h.sides_of_none hscope]
  | some held =>
      rw [h.sides_of_some hscope, Option.any_some]
      exact held.includes_iff origin

/-- **After any calls a registry is a map from observers to non-empty sets of sides.** Every further
call is answered as the map says and changes nothing if it fails, the masks are those of the sets,
no observer is held twice and no more than the limit admits, and a change goes to those that hold
its side, in the order of their present registrations. -/
theorem simulates_holdings (max : Nat) (calls : List Call) :
    (∀ call, ((run { max } calls).perform call).1 = (Holdings.after max calls).answer max call)
      ∧ (∀ call e, ((run { max } calls).perform call).1 = .error e →
          ((run { max } calls).perform call).2 = run { max } calls)
      ∧ (∀ o side, (((run { max } calls).scope? o).elim 0 Scope.bits).testBit side.bit = true ↔
          side ∈ (Holdings.after max calls).sides o)
      ∧ (run { max } calls).observers.Nodup
      ∧ (run { max } calls).observers.toFinset = (Holdings.after max calls).holders
      ∧ (run { max } calls).size = (Holdings.after max calls).holders.card
      ∧ (run { max } calls).size ≤ max
      ∧ ∀ origin,
          (∀ o, o ∈ (run { max } calls).targets origin ↔
            origin.side ∈ (Holdings.after max calls).sides o)
          ∧ ((run { max } calls).targets origin).Nodup
          ∧ ((run { max } calls).targets origin).Pairwise (Earlier max calls) := by
  have h := represents_run max calls
  refine ⟨fun call => (h.perform call).answer, fun _ _ => perform_of_error, ?_, h.distinct,
    h.toFinset_observers, h.size_eq, h.size_le, fun origin => ⟨fun o => h.mem_targets_iff, nodup_targets h.distinct origin, ?_⟩⟩
  · intro o side
    cases hscope : (run { max } calls).scope? o with
    | none => simp [h.sides_of_none hscope]
    | some held =>
        rw [h.sides_of_some hscope]
        exact held.testBit_bits_iff side
  · exact (pairwise_observers_run max calls).sublist (targets_sublist _ origin)

end Registry

end PeerStore
