import Mathlib.Data.List.Nodup
import PeerStore.Subscription

/-!
# Who hears of a change

A registry is seen through two questions: which origins an observer hears of (`Registry.hears`), and
whether it holds each observer once (`Registry.Distinct`). A call that is accepted adds the origins
of a scope to those that one observer hears of, or takes them away, and leaves the other observers
as they are (`hears_subscribe`, `hears_unsubscribe`). On the masks of the scopes these calls are
the operations on bits: what is missing is or-ed to the mask of the observer, and what is hit is
and-ed away (`mask_subscribe`, `mask_unsubscribe`). The targets of a change are exactly those that
hear of its origin, each once (**`mem_targets_iff`**, `nodup_targets`).
-/

set_option autoImplicit false

namespace PeerStore

/-! ## Scopes -/

namespace Scope

theorem includes_union (a b : Scope) (origin : Origin) :
    (a.union b).includes origin = (a.includes origin || b.includes origin) := by
  cases a <;> cases b <;> cases origin <;> rfl

theorem includes_minus? (a b : Scope) (origin : Origin) :
    (a.minus? b).any (·.includes origin) = (a.includes origin && !b.includes origin) := by
  cases a <;> cases b <;> cases origin <;> rfl

/-! ## Masks -/

/-- The bit set of a scope as a byte. -/
def mask (s : Scope) : BitVec 8 := BitVec.ofNat 8 s.bits

/-- The byte that has the bit of an origin. -/
def originMask : Origin → BitVec 8
  | .here => here.mask
  | .remote _ => remote.mask

theorem mask_ne_zero (s : Scope) : s.mask ≠ 0 := by
  cases s <;> decide

theorem includes_iff_mask (s : Scope) (origin : Origin) :
    s.includes origin = true ↔ s.mask &&& originMask origin ≠ 0 := by
  cases origin <;> cases s <;> simp [includes, originMask, mask, bits]

/-- Both scopes together are the one with the bits that it misses of the other. -/
theorem mask_union (held wanted : Scope) :
    (held.union wanted).mask = held.mask ||| (wanted.mask &&& ~~~held.mask) := by
  cases held <;> cases wanted <;> decide

theorem mask_minus? (a b : Scope) : (a.minus? b).elim 0 mask = a.mask &&& ~~~b.mask := by
  cases a <;> cases b <;> decide

theorem minus?_isNone_iff_mask (wanted held : Scope) :
    (wanted.minus? held).isNone = true ↔ wanted.mask &&& ~~~held.mask = 0 := by
  cases wanted <;> cases held <;> decide

theorem disjoint_iff_mask (held scope : Scope) :
    held.disjoint scope = true ↔ held.mask &&& scope.mask = 0 := by
  cases held <;> cases scope <;> decide

/-- What is left of a scope are the bits that are not hit. -/
theorem mask_minus?_eq_hit (held scope : Scope) :
    (held.minus? scope).elim 0 mask = held.mask &&& ~~~(held.mask &&& scope.mask) := by
  rw [mask_minus?]
  ext i hi
  simp only [BitVec.getElem_and, BitVec.getElem_not]
  cases held.mask[i] <;> rfl

end Scope

namespace Registry

variable {r r' : Registry} {observer o : String} {scope : Scope} {origin : Origin}

/-- Whether an observer hears of changes of an origin. -/
def hears (r : Registry) (observer : String) (origin : Origin) : Bool :=
  (r.scope? observer).any (·.includes origin)

/-- The mask of an observer; it has no bits if there is no such observer. -/
def mask (r : Registry) (observer : String) : BitVec 8 := (r.scope? observer).elim 0 Scope.mask

/-- Whether no observer is registered twice. -/
def Distinct (r : Registry) : Prop := (r.subscriptions.map (·.observer)).Nodup

/-! ## Look-ups -/

/-- The observers stay as they are when one of them gets another scope. -/
theorem map_observer_setScope (r : Registry) (observer : String) (scope : Scope) :
    (r.setScope observer scope).subscriptions.map (·.observer)
      = r.subscriptions.map (·.observer) := by
  rw [setScope, List.map_map]
  refine List.map_congr_left fun s _ => ?_
  show (if s.observer == observer then { s with scope } else s).observer = s.observer
  split <;> rfl

theorem scope?_setScope (r : Registry) (observer o : String) (scope : Scope) :
    (r.setScope observer scope).scope? o
      = if o = observer then (r.scope? o).map fun _ => scope else r.scope? o := by
  have hkeeps : ∀ s : Subscription,
      (if s.observer == observer then { s with scope } else s).observer = s.observer := by
    intro s
    split <;> rfl
  rw [scope?, setScope, List.find?_map]
  simp only [Function.comp_def, hkeeps, scope?, Option.map_map]
  cases hfind : r.subscriptions.find? (·.observer == o) with
  | none => split <;> rfl
  | some s =>
      have hs : s.observer = o := by simpa using List.find?_some hfind
      by_cases ho : o = observer
      · rw [if_pos ho]
        simp [hs, ho]
      · rw [if_neg ho]
        simp [hs, ho]

theorem scope?_append (r : Registry) (observer o : String) (scope : Scope)
    (h : r.scope? observer = none) :
    ({ r with subscriptions := r.subscriptions ++ [⟨observer, scope⟩] } : Registry).scope? o
      = if o = observer then some scope else r.scope? o := by
  have hfind : r.subscriptions.find? (·.observer == observer) = none :=
    Option.map_eq_none_iff.mp h
  rw [scope?, List.find?_append, scope?]
  by_cases ho : o = observer
  · subst ho
    rw [if_pos rfl, hfind]
    simp
  · rw [if_neg ho, List.find?_cons_of_neg (by simpa using Ne.symm ho), List.find?_nil,
      Option.or_none]

theorem scope?_filter (r : Registry) (observer o : String) :
    ({ r with subscriptions := r.subscriptions.filter (·.observer != observer) } :
        Registry).scope? o
      = if o = observer then none else r.scope? o := by
  rw [scope?, List.find?_filter, scope?]
  by_cases ho : o = observer
  · rw [if_pos ho, Option.map_eq_none_iff, List.find?_eq_none]
    intro s _ hs
    subst ho
    simp at hs
  · rw [if_neg ho]
    congr 2
    funext s
    by_cases hs : s.observer = o
    · simp [hs, ho]
    · simp [hs]

/-! ## Calls -/

/-- What a subscription that is accepted does: an observer that is registered gets a wider scope, and
one that is not comes behind the others. -/
theorem subscribe_eq_ok (h : r.subscribe observer scope = .ok r') :
    (∃ held, r.scope? observer = some held ∧ r' = r.setScope observer (held.union scope))
      ∨ r.scope? observer = none
        ∧ r' = { r with subscriptions := r.subscriptions ++ [⟨observer, scope⟩] } := by
  unfold subscribe at h
  cases hheld : r.scope? observer with
  | some held =>
      simp only [hheld] at h
      split at h
      · cases h
      · cases h
        exact .inl ⟨held, rfl, rfl⟩
  | none =>
      simp only [hheld] at h
      split at h
      · cases h
      · cases h
        exact .inr ⟨rfl, rfl⟩

/-- What a withdrawal that is accepted does: the observer keeps what is left of its scope, and is
forgotten if nothing is. -/
theorem unsubscribe_eq_ok (h : r.unsubscribe observer scope = .ok r') :
    ∃ held, r.scope? observer = some held
      ∧ ((∃ left, held.minus? scope = some left ∧ r' = r.setScope observer left)
        ∨ held.minus? scope = none
          ∧ r' = { r with subscriptions := r.subscriptions.filter (·.observer != observer) }) := by
  unfold unsubscribe at h
  cases hheld : r.scope? observer with
  | none => simp [hheld] at h
  | some held =>
      simp only [hheld] at h
      split at h
      · cases h
      · split at h
        · rename_i left hleft
          cases h
          exact ⟨held, rfl, .inl ⟨left, hleft, rfl⟩⟩
        · rename_i hnothing
          cases h
          exact ⟨held, rfl, .inr ⟨hnothing, rfl⟩⟩

/-- **An observer that subscribes hears of what it heard of, and of the scope.** -/
theorem hears_subscribe (h : r.subscribe observer scope = .ok r') (o : String) (origin : Origin) :
    r'.hears o origin = (r.hears o origin || (observer == o && scope.includes origin)) := by
  obtain ⟨held, hheld, rfl⟩ | ⟨hheld, rfl⟩ := subscribe_eq_ok h
  · rw [hears, scope?_setScope, hears]
    by_cases ho : o = observer
    · subst ho
      simp [hheld, Scope.includes_union]
    · simp [ho, Ne.symm ho]
  · rw [hears, scope?_append r observer o scope hheld, hears]
    by_cases ho : o = observer
    · subst ho
      simp [hheld]
    · simp [ho, Ne.symm ho]

/-- **An observer that unsubscribes hears of what it heard of, without the scope.** -/
theorem hears_unsubscribe (h : r.unsubscribe observer scope = .ok r') (o : String)
    (origin : Origin) :
    r'.hears o origin = (r.hears o origin && !(observer == o && scope.includes origin)) := by
  obtain ⟨held, hheld, hcases⟩ := unsubscribe_eq_ok h
  have hminus := Scope.includes_minus? held scope origin
  obtain ⟨left, hleft, rfl⟩ | ⟨hnothing, rfl⟩ := hcases
  · rw [hears, scope?_setScope, hears]
    by_cases ho : o = observer
    · subst ho
      rw [hleft] at hminus
      simpa [hheld] using hminus
    · simp [ho, Ne.symm ho]
  · rw [hears, scope?_filter, hears]
    by_cases ho : o = observer
    · subst ho
      rw [hnothing] at hminus
      simpa [hheld] using hminus
    · simp [ho, Ne.symm ho]

/-! ## Calls on masks -/

/-- A subscription is refused if no bit of an observer is missing, or if there are too many
observers already. -/
theorem isOk_subscribe_iff :
    (r.subscribe observer scope).isOk = true ↔
      if (r.scope? observer).isSome = true then scope.mask &&& ~~~r.mask observer ≠ 0
      else r.subscriptions.length < r.max := by
  rw [subscribe, mask]
  cases r.scope? observer with
  | none =>
      simp only [Option.isSome_none, Bool.false_eq_true, if_false]
      split
      · rename_i hfull
        exact iff_of_false Bool.false_ne_true (Nat.not_lt.mpr hfull)
      · rename_i hroom
        exact iff_of_true rfl (Nat.lt_of_not_le hroom)
  | some held =>
      simp only [Option.isSome_some, if_true, Option.elim_some]
      rw [ne_eq, ← Scope.minus?_isNone_iff_mask]
      split
      · rename_i hnone
        exact iff_of_false Bool.false_ne_true (fun hsome => hsome hnone)
      · rename_i hsome
        exact iff_of_true rfl hsome

/-- **An observer that subscribes gets the bits that it misses.** -/
theorem mask_subscribe (h : r.subscribe observer scope = .ok r') (o : String) :
    r'.mask o = if o = observer then r.mask o ||| (scope.mask &&& ~~~r.mask o) else r.mask o := by
  obtain ⟨held, hheld, rfl⟩ | ⟨hheld, rfl⟩ := subscribe_eq_ok h
  · rw [mask, scope?_setScope, mask]
    split
    · rename_i ho
      rw [ho, hheld]
      exact held.mask_union scope
    · rfl
  · rw [mask, scope?_append r observer o scope hheld, mask]
    split
    · rename_i ho
      rw [ho, hheld]
      show scope.mask = 0#8 ||| (scope.mask &&& ~~~0#8)
      rw [BitVec.zero_or, BitVec.not_zero, BitVec.and_allOnes]
    · rfl

/-- An observer without bits is one that the registry does not have. -/
theorem mask_eq_zero_iff : r.mask o = 0 ↔ r.scope? o = none := by
  rw [mask]
  cases r.scope? o with
  | none => exact iff_of_true rfl rfl
  | some held => exact iff_of_false held.mask_ne_zero (Option.some_ne_none held)

/-- A withdrawal is refused if it hits no bit. -/
theorem isOk_unsubscribe_iff :
    (r.unsubscribe observer scope).isOk = true ↔ r.mask observer &&& scope.mask ≠ 0 := by
  rw [unsubscribe, mask]
  cases r.scope? observer with
  | none => simp [Except.isOk, Except.toBool]
  | some held =>
      rw [Option.elim_some, ne_eq, ← Scope.disjoint_iff_mask]
      dsimp only
      split
      · rename_i hdisjoint
        exact iff_of_false Bool.false_ne_true (fun hmeet => hmeet hdisjoint)
      · rename_i hmeet
        refine iff_of_true ?_ hmeet
        split <;> rfl

/-- **An observer that unsubscribes loses the bits that are hit.** -/
theorem mask_unsubscribe (h : r.unsubscribe observer scope = .ok r') (o : String) :
    r'.mask o
      = if o = observer then r.mask o &&& ~~~(r.mask o &&& scope.mask) else r.mask o := by
  obtain ⟨held, hheld, hcases⟩ := unsubscribe_eq_ok h
  have hminus := held.mask_minus?_eq_hit scope
  obtain ⟨left, hleft, rfl⟩ | ⟨hnothing, rfl⟩ := hcases
  · rw [mask, scope?_setScope, mask]
    split
    · rename_i ho
      rw [hleft] at hminus
      rw [ho, hheld]
      exact hminus
    · rfl
  · rw [mask, scope?_filter, mask]
    split
    · rename_i ho
      rw [hnothing] at hminus
      rw [ho, hheld]
      exact hminus
    · rfl

/-! ## No observer twice -/

theorem scope?_eq_none_iff :
    r.scope? observer = none ↔ observer ∉ r.subscriptions.map (·.observer) := by
  rw [scope?, Option.map_eq_none_iff, List.find?_eq_none, List.mem_map, not_exists]
  simp

theorem Distinct.setScope (hr : r.Distinct) (observer : String) (scope : Scope) :
    (r.setScope observer scope).Distinct := by
  rw [Distinct, map_observer_setScope]
  exact hr

theorem Distinct.append (hr : r.Distinct) (h : r.scope? observer = none) (scope : Scope) :
    Distinct { r with subscriptions := r.subscriptions ++ [⟨observer, scope⟩] } := by
  rw [Distinct, List.map_append, List.map_singleton, List.nodup_append_comm]
  exact List.nodup_cons.mpr ⟨scope?_eq_none_iff.mp h, hr⟩

theorem Distinct.filter (hr : r.Distinct) (observer : String) :
    Distinct { r with subscriptions := r.subscriptions.filter (·.observer != observer) } :=
  hr.sublist (List.filter_sublist.map _)

theorem Distinct.subscribe (hr : r.Distinct) (h : r.subscribe observer scope = .ok r') :
    r'.Distinct := by
  obtain ⟨held, -, rfl⟩ | ⟨hheld, rfl⟩ := subscribe_eq_ok h
  · exact hr.setScope observer _
  · exact hr.append hheld scope

theorem Distinct.unsubscribe (hr : r.Distinct) (h : r.unsubscribe observer scope = .ok r') :
    r'.Distinct := by
  obtain ⟨held, -, hcases⟩ := unsubscribe_eq_ok h
  obtain ⟨left, -, rfl⟩ | ⟨-, rfl⟩ := hcases
  · exact hr.setScope observer left
  · exact hr.filter observer

theorem distinct_clear (r : Registry) : r.clear.Distinct := List.nodup_nil

/-! ## Targets -/

/-- In a registry that holds each observer once, a subscription is what the look-up finds. -/
theorem Distinct.scope?_eq_some (hr : r.Distinct) {s : Subscription} (hs : s ∈ r.subscriptions) :
    r.scope? s.observer = some s.scope := by
  have hfound : r.scope? s.observer ≠ none := fun hnone =>
    scope?_eq_none_iff.mp hnone (List.mem_map_of_mem hs)
  obtain ⟨scope, hscope⟩ := Option.ne_none_iff_exists'.mp hfound
  obtain ⟨s', hs', rfl⟩ := Option.map_eq_some_iff.mp hscope
  have hsame : s'.observer = s.observer := by simpa using List.find?_some hs'
  rw [hscope, List.inj_on_of_nodup_map hr (List.mem_of_find?_eq_some hs') hs hsame]

/-- **The targets of a change are those that hear of its origin.** -/
theorem mem_targets_iff (hr : r.Distinct) : o ∈ r.targets origin ↔ r.hears o origin = true := by
  rw [targets, List.mem_map]
  constructor
  · rintro ⟨s, hs, rfl⟩
    obtain ⟨hmem, hincludes⟩ := List.mem_filter.mp hs
    rw [hears, hr.scope?_eq_some hmem]
    exact hincludes
  · intro h
    obtain ⟨scope, hscope, hincludes⟩ := (Option.any_eq_true ..).mp h
    obtain ⟨s, hs, rfl⟩ := Option.map_eq_some_iff.mp hscope
    have hsame : s.observer = o := by simpa using List.find?_some hs
    exact ⟨s, List.mem_filter.mpr ⟨List.mem_of_find?_eq_some hs, hincludes⟩, hsame⟩

/-- The targets are those whose mask has the bit of the origin. -/
theorem targets_eq_filter_mask (r : Registry) (origin : Origin) :
    r.targets origin
      = (r.subscriptions.filter fun s =>
          s.scope.mask &&& Scope.originMask origin != 0).map (·.observer) := by
  refine congrArg (List.map _) (List.filter_congr fun s _ => ?_)
  rw [Bool.eq_iff_iff, Scope.includes_iff_mask, bne_iff_ne]

theorem nodup_targets (hr : r.Distinct) (origin : Origin) : (r.targets origin).Nodup :=
  hr.sublist (List.filter_sublist.map _)

end Registry

end PeerStore
