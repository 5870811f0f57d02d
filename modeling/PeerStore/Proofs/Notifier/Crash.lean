import PeerStore.Proofs.Notifier.Receive

/-!
# What a crash takes away

Two runs of the same calls may differ in how far the worker gets between them and in which observers
crash. Both make the same deliveries, and an observer receives those that reach it. So a crash takes
one notice away from the observers that come after the one that crashes, and nothing else: an
observer that is spared in both runs receives the same notices in both, all that it is owed
(**`crash_ends_its_delivery`**). Observers that come later do notice
(`crash_hides_notice_from_later`).
-/

set_option autoImplicit false

namespace PeerStore.Notifier

/-- **A crash ends its delivery and nothing else.** Two runs with the same calls make the same
deliveries, whoever crashes. In each of them an observer receives the notices of the deliveries in
which no target ahead of it crashes; and if there is none such in either run where it is a target,
it receives the same in both, which is all that it is owed. -/
theorem crash_ends_its_delivery {max : Nat} {crashes₁ crashes₂ : Crashes} {es₁ es₂ : List Event}
    (hcalls : es₁.filter Event.isCall = es₂.filter Event.isCall)
    (hidle₁ : ((start max crashes₁).run es₁).dispatcher.isIdle = true)
    (hidle₂ : ((start max crashes₂).run es₂).dispatcher.isIdle = true) (observer : String) :
    let w₁ := (start max crashes₁).run es₁
    let w₂ := (start max crashes₂).run es₂
    let ds := queued { max } es₁
    (w₁.dispatcher.finished = ds ∧ w₂.dispatcher.finished = ds)
      ∧ received w₁.seen observer
        = ((rounds crashes₁ 0 ds).filter (Round.reaches crashes₁ observer)).map (·.delivery.notice)
      ∧ received w₂.seen observer
        = ((rounds crashes₂ 0 ds).filter (Round.reaches crashes₂ observer)).map (·.delivery.notice)
      ∧ ((∀ r ∈ rounds crashes₁ 0 ds,
            observer ∈ r.delivery.targets → r.spares crashes₁ observer = true) →
          (∀ r ∈ rounds crashes₂ 0 ds,
            observer ∈ r.delivery.targets → r.spares crashes₂ observer = true) →
          received w₁.seen observer = received w₂.seen observer
          ∧ received w₁.seen observer
            = owed observer (fun _ => false) (accepted { max } es₁)) := by
  intro w₁ w₂ ds
  have hdistinct : ({ max } : Registry).Distinct := List.nodup_nil
  have hnodup : ∀ d ∈ ds, d.targets.Nodup := fun d => nodup_targets_of_mem_queued hdistinct
  have hlog₁ : w₁.log = ds := log_start max crashes₁ es₁
  have hlog₂ : w₂.log = ds := by
    -- the deliveries come from the calls, which are the same
    show ((start max crashes₂).run es₂).log = queued { max } es₁
    rw [log_start, ← queued_filter_isCall, ← hcalls, queued_filter_isCall]
  have hcrashes₁ : w₁.crashes = crashes₁ := (start max crashes₁).crashes_run es₁
  have hcrashes₂ : w₂.crashes = crashes₂ := (start max crashes₂).crashes_run es₂
  have horder₁ : w₁.InOrder := inOrder_start max crashes₁ es₁
  have horder₂ : w₂.InOrder := inOrder_start max crashes₂ es₂
  have hreceived₁ := received_at_rest horder₁ hidle₁ (hlog₁ ▸ hnodup) observer
  have hreceived₂ := received_at_rest horder₂ hidle₂ (hlog₂ ▸ hnodup) observer
  rw [hlog₁, hcrashes₁] at hreceived₁
  rw [hlog₂, hcrashes₂] at hreceived₂
  refine ⟨⟨(horder₁.at_rest hidle₁).1.trans hlog₁, (horder₂.at_rest hidle₂).1.trans hlog₂⟩,
    hreceived₁, hreceived₂, fun hspared₁ hspared₂ => ?_⟩
  have howed₁ : received w₁.seen observer = owed observer (fun _ => false) (accepted { max } es₁) :=
    received_of_spared horder₁ hlog₁ hidle₁ (by rw [hlog₁, hcrashes₁]; exact hspared₁)
  refine ⟨?_, howed₁⟩
  rw [hreceived₁, hreceived₂, map_notice_of_spared hspared₁, map_notice_of_spared hspared₂]

/-- The second of three observers crashes once, in its first call; in another run the third crashes
always. The first observer receives both notices in both runs; the crash of the second takes the
first notice away from the third, and leaves it the second. -/
theorem crash_ends_its_delivery_of_second_observer :
    let n₁ : Notice := { inserts := [⟨[1], [10]⟩], device := "self" }
    let n₂ : Notice := { updates := [⟨[1], [20]⟩], device := "self" }
    let once : Crashes := fun k o => k == 1 && o == "b"
    let always : Crashes := fun _ o => o == "c"
    let calls : List Event :=
      [.subscribe "a" .all, .subscribe "b" .here, .subscribe "c" .here, .notify .here n₁,
        .notify .here n₂]
    let es₁ : List Event := calls ++ List.replicate 10 .work
    let es₂ : List Event := calls.flatMap (fun e => [e, .work]) ++ List.replicate 10 .work
    received ((start 8 once).run es₁).seen "a" = received ((start 8 always).run es₂).seen "a"
      ∧ received ((start 8 once).run es₁).seen "a" = [n₁, n₂]
      ∧ received ((start 8 once).run es₁).seen "c" = [n₂] := by
  intro n₁ n₂ once always calls es₁ es₂
  have hcalls : es₁.filter Event.isCall = es₂.filter Event.isCall := by decide
  have hidle₁ : ((start 8 once).run es₁).dispatcher.isIdle = true := by decide
  have hidle₂ : ((start 8 always).run es₂).dispatcher.isIdle = true := by decide
  obtain ⟨-, -, -, ha⟩ := crash_ends_its_delivery hcalls hidle₁ hidle₂ "a"
  obtain ⟨-, hc, -, -⟩ := crash_ends_its_delivery hcalls hidle₁ hidle₂ "c"
  obtain ⟨hsame, howed⟩ := ha (by decide) (by decide)
  have hall : owed "a" (fun _ => false) (accepted { max := 8 } es₁) = [n₁, n₂] := by decide
  have hreached : ((rounds once 0 (queued { max := 8 } es₁)).filter (Round.reaches once "c")).map
      (·.delivery.notice) = [n₂] := by decide
  exact ⟨hsame, howed.trans hall, hc.trans hreached⟩

/-- Two observers that hear of everything, and one notice. If the first crashes, the second, which
never does, does not receive what it receives if the first does not. -/
theorem crash_hides_notice_from_later :
    let n : Notice := { inserts := [⟨[1], [10]⟩], device := "self" }
    let es : List Event :=
      [.subscribe "a" .all, .subscribe "b" .all, .notify .here n, .work, .work, .work, .work]
    let never : Crashes := fun _ _ => false
    let first : Crashes := fun _ o => o == "a"
    ((start 8 never).run es).dispatcher.isIdle = true
      ∧ ((start 8 first).run es).dispatcher.isIdle = true
      ∧ (∀ k, never k "b" = false ∧ first k "b" = false)
      ∧ received ((start 8 never).run es).seen "b" = [n]
      ∧ received ((start 8 first).run es).seen "b" = []
      ∧ owed "b" (fun _ => false) (accepted { max := 8 } es) = [n] := by
  intro n es never first
  exact ⟨by decide, by decide, fun _ => ⟨rfl, by decide⟩, by decide, by decide, by decide⟩

end PeerStore.Notifier
