import PeerStore.Proofs.Store.Turn
import PeerStore.Proofs.Sync.Link

/-!
# Sync calls

A call that syncs gets as far as the link of its store if the store is open, has a link, and knows
every device that it is to sync with (`Session.Addresses`); else it changes nothing. From there on
it is a start on the link. So a call that fails leaves the requests that wait as they were, and
nobody is ever told anything of it; a call that succeeds has handed one request over
(**`sync_fails_or_hands_once`**).
-/

set_option autoImplicit false

namespace PeerStore

/-- What a call that syncs asks for. -/
structure SyncCall where
  networks : List String
  mode : SyncMode
  delay : Nat
  query : Option Query
  callback : Option String

/-- What an operation asks for that syncs, while some callback is registered. -/
def Operation.syncCall? (registered : Option String) : Operation → Option SyncCall
  | .sync networks mode delay => some ⟨networks, mode, delay, none, registered⟩
  | .syncWithQuery networks mode q callback =>
      some ⟨networks, mode, 0, some q, callback <|> registered⟩
  | _ => none

namespace Session

/-! ## Devices -/

theorem map_some_inj {as bs : List String} : as.map some = bs.map some ↔ as = bs :=
  List.map_inj_right fun _ _ h => Option.some.inj h

/-- **Networks are resolved all together**, to devices in the order in which they stand, or not at
all. -/
theorem resolveAll_eq_ok_iff {d : Directory} {networks devices : List String} :
    resolveAll d networks = .ok devices ↔ networks.map d.resolve? = devices.map some := by
  induction networks generalizing devices with
  | nil => cases devices <;> simp [resolveAll]
  | cons network networks ih =>
      rw [resolveAll, List.map_cons]
      cases d.resolve? network with
      | none => cases devices <;> simp
      | some device =>
          cases hrest : resolveAll d networks with
          | error e =>
              -- no list of devices would do for the rest
              have hnone (ds : List String) : networks.map d.resolve? ≠ ds.map some := by
                rw [ne_eq, ← ih, hrest]
                simp
              cases devices <;> simp [Except.map, hnone]
          | ok ds =>
              rw [ih.mp hrest]
              cases devices <;> simp [Except.map, map_some_inj]

variable {s s' : Session} {networks devices : List String} {link : SyncLink} {mode : SyncMode}
  {delay : Nat} {query : Option Query} {callback : Option String}

/-- Whether a session can hand over a request for networks: it is open, it has a link, and it
knows the devices. -/
structure Addresses (s : Session) (networks : List String) (link : SyncLink)
    (devices : List String) : Prop where
  isOpen : s.isOpen = true
  link : s.link = some link
  devices : networks.map s.directory.resolve? = devices.map some

/-- A session that has what it takes leaves the rest to its link. -/
theorem startSync_of_addresses (h : s.Addresses networks link devices) :
    s.startSync networks mode delay query callback
      = ((link.start s.profile.id devices mode query delay callback).1,
          { s with
            link := some (link.start s.profile.id devices mode query delay callback).2 }) := by
  rw [startSync, whenOpen_of_isOpen h.isOpen]
  simp only [h.link, resolveAll_eq_ok_iff.mpr h.devices]

/-- A session that is closed, has no link or does not know all devices does nothing. -/
theorem startSync_of_not_addresses (h : ¬∃ link devices, s.Addresses networks link devices)
    (mode : SyncMode) (delay : Nat) (query : Option Query) (callback : Option String) :
    ∃ e, s.startSync networks mode delay query callback = (.error e, s) := by
  by_cases hopen : s.isOpen = true
  · rw [startSync, whenOpen_of_isOpen hopen]
    cases hlink : s.link with
    | none => exact ⟨_, rfl⟩
    | some link =>
        cases hdevices : resolveAll s.directory networks with
        | error e => exact ⟨e, rfl⟩
        | ok devices =>
            exact absurd ⟨link, devices, hopen, hlink, resolveAll_eq_ok_iff.mp hdevices⟩ h
  · rw [startSync, whenOpen, requireOpen, if_neg hopen]
    exact ⟨_, rfl⟩

/-- The link and the devices are settled by the session. -/
theorem Addresses.unique {link' : SyncLink} {devices' : List String}
    (h : s.Addresses networks link devices) (h' : s.Addresses networks link' devices') :
    link' = link ∧ devices' = devices := by
  have hlink : some link' = some link := h'.link.symm.trans h.link
  have hdevices : devices'.map some = devices.map some := h'.devices.symm.trans h.devices
  exact ⟨Option.some.inj hlink, map_some_inj.mp hdevices⟩

/-! ## Starts -/

/-- What it takes for a start to succeed. -/
theorem startSync_isOk_iff :
    (s.startSync networks mode delay query callback).1.isOk = true
      ↔ ∃ link devices, s.Addresses networks link devices ∧ link.Registers devices
        ∧ (link.transport (link.request s.profile.id devices mode query)).outcome = .ok () := by
  by_cases haddresses : ∃ link devices, s.Addresses networks link devices
  · obtain ⟨link, devices, h⟩ := haddresses
    rw [startSync_of_addresses h, SyncLink.start_isOk_iff]
    constructor
    · intro hlink
      exact ⟨link, devices, h, hlink⟩
    · rintro ⟨link', devices', h', hlink⟩
      obtain ⟨rfl, rfl⟩ := h.unique h'
      exact hlink
  · obtain ⟨e, he⟩ := startSync_of_not_addresses haddresses mode delay query callback
    rw [he]
    refine iff_of_false Bool.false_ne_true ?_
    rintro ⟨link, devices, h, -⟩
    exact haddresses ⟨link, devices, h⟩

/-- **A start that fails leaves no request behind.** -/
theorem startSync_eq_error {e : Status}
    (hreached : ∀ link, s.link = some link → link.coordinator.Reached)
    (hquiet : ∀ link, s.link = some link → ∀ request e,
      (link.transport request).outcome = .error e → (link.transport request).reports = [])
    (h : s.startSync networks mode delay query callback = (.error e, s')) :
    (s.link = none → s'.link = none)
      ∧ ∀ link, s.link = some link → ∃ link', s'.link = some link' ∧ link.Unused link' := by
  by_cases haddresses : ∃ link devices, s.Addresses networks link devices
  · obtain ⟨link, devices, haddresses⟩ := haddresses
    rw [startSync_of_addresses haddresses] at h
    obtain ⟨hresult, rfl⟩ := Prod.mk.inj h
    have hunused := SyncLink.unused_of_start_error (hreached link haddresses.link).fresh
      (hquiet link haddresses.link) (Prod.ext hresult rfl)
    rw [haddresses.link]
    refine ⟨fun hnone => absurd hnone (Option.some_ne_none link), fun link' hlink' => ?_⟩
    cases hlink'
    exact ⟨_, rfl, hunused⟩
  · obtain ⟨e', he'⟩ := startSync_of_not_addresses haddresses mode delay query callback
    rw [he'] at h
    obtain ⟨-, rfl⟩ := Prod.mk.inj h
    exact ⟨id, fun link hlink => ⟨link, hlink, .refl link⟩⟩

/-- **A start that succeeds has handed one request over.** -/
theorem startSync_eq_ok {seq : Nat}
    (hreached : ∀ link, s.link = some link → link.coordinator.Reached)
    (h : s.startSync networks mode delay query callback = (.ok seq, s')) :
    ∃ link link' devices, s.Addresses networks link devices
      ∧ s' = { s with link := some link' }
      ∧ link.Took ⟨seq, s.profile.id, devices, mode, query⟩ link' := by
  by_cases haddresses : ∃ link devices, s.Addresses networks link devices
  · obtain ⟨link, devices, haddresses⟩ := haddresses
    rw [startSync_of_addresses haddresses] at h
    obtain ⟨hresult, rfl⟩ := Prod.mk.inj h
    exact ⟨link, _, devices, haddresses, rfl,
      SyncLink.took_of_start_ok (hreached link haddresses.link).fresh (Prod.ext hresult rfl)⟩
  · obtain ⟨e, he⟩ := startSync_of_not_addresses haddresses mode delay query callback
    rw [he] at h
    exact absurd (Prod.mk.inj h).1 (by simp)

/-! ## Calls -/

theorem perform_of_syncCall? {op : Operation} {call : SyncCall}
    (h : op.syncCall? s.callback = some call) (now : Int) :
    s.perform now op
      = (s.startSync call.networks call.mode call.delay call.query call.callback).answer
          .sequence := by
  cases op with
  | sync | syncWithQuery =>
      cases h
      rfl
  | _ => cases h

/-- An answer of success is that of an operation that succeeded. -/
theorem exists_eq_ok_of_answer {α : Type} {r : Result α} {f : α → Answer} {answer : Answer}
    (h : r.answer f = (.ok answer, s')) : ∃ a, answer = f a ∧ r = (.ok a, s') := by
  obtain ⟨result, t⟩ := r
  cases result with
  | error e => exact absurd (Prod.mk.inj h).1 (by simp)
  | ok a =>
      obtain ⟨hanswer, rfl⟩ := Prod.mk.inj h
      exact ⟨a, (Except.ok.inj hanswer).symm, rfl⟩

/-- **A sync call fails and leaves nothing behind, or it succeeds and has handed over one request.**
It succeeds exactly if the store is open and has a link, if the networks are known and there is one
at least, and if neither the coordinator nor the transport refuses. If it fails, the requests that
wait and those that are finished are those from before, and whatever happens later, nobody is told
anything under a number that the call has used up. If it succeeds, the transport was handed one
request, with the number that the call gives and the devices in their order; it is pending exactly
if a device is not among those that the transport has reported, and the other requests are as they
were. -/
theorem sync_fails_or_hands_once {op : Operation} {call : SyncCall} {now : Int}
    (hcall : op.syncCall? s.callback = some call)
    (hreached : ∀ link, s.link = some link → link.coordinator.Reached)
    (hquiet : ∀ link, s.link = some link → ∀ request e,
      (link.transport request).outcome = .error e → (link.transport request).reports = []) :
    ((s.perform now op).1.isOk = true ↔ ∃ link devices, s.Addresses call.networks link devices
        ∧ link.Registers devices
        ∧ (link.transport (link.request s.profile.id devices call.mode call.query)).outcome
          = .ok ())
      ∧ (∀ e s', s.perform now op = (.error e, s') →
          s' = { s with link := s'.link }
          ∧ (s.link = none → s'.link = none)
          ∧ ∀ link, s.link = some link → ∃ link', s'.link = some link' ∧ link.Unused link')
      ∧ ∀ answer s', s.perform now op = (.ok answer, s') →
          ∃ seq link link' devices, answer = .sequence seq
            ∧ s.Addresses call.networks link devices
            ∧ s' = { s with link := some link' }
            ∧ link.Took ⟨seq, s.profile.id, devices, call.mode, call.query⟩ link' := by
  have hperform := perform_of_syncCall? hcall now
  refine ⟨?_, ?_, ?_⟩
  · rw [hperform, answer_isOk]
    exact startSync_isOk_iff
  · intro e s' herror
    rw [hperform] at herror
    have hfailed := eq_error_of_answer herror
    have hrest : s' = { s with link := s'.link } := by
      have hrest := s.startSync_rest call.networks call.mode call.delay call.query call.callback
      rwa [hfailed] at hrest
    exact ⟨hrest, startSync_eq_error hreached hquiet hfailed⟩
  · intro answer s' hok
    rw [hperform] at hok
    obtain ⟨seq, hanswer, hstarted⟩ := exists_eq_ok_of_answer hok
    obtain ⟨link, link', devices, haddresses, hs', htook⟩ := startSync_eq_ok hreached hstarted
    exact ⟨seq, link, link', devices, hanswer, haddresses, hs', htook⟩

/-- A transport that refuses a pull; of any other request the first device reports at once. -/
def firstReports (request : SyncRequest) : Reply :=
  if request.mode = .pull then { outcome := .error (.backend "transport unavailable") }
  else { reports := (request.devices.take 1).map fun device => (device, .ok ()) }

theorem firstReports_quiet {request : SyncRequest} {e : Status}
    (h : (firstReports request).outcome = .error e) : (firstReports request).reports = [] := by
  unfold firstReports at h ⊢
  split
  · rfl
  · rename_i hmode
    rw [if_neg hmode] at h
    cases h

/-- A session with a link to two devices. -/
def linked : Session :=
  { fresh .singleVersion "self" with
    directory := (({ self := "self" } : Directory).register "net-a" "a").register "net-b" "b"
    callback := some "told"
    link := some { coordinator := { timeout := 20 }, transport := firstReports } }

/-- A call that the transport refuses is followed by one that names a device twice. Nobody is told
anything of the first; the second waits for the device that has not reported. -/
theorem sync_fails_or_hands_once_after_refusal :
    let s₁ := (linked.perform 1 (.sync ["net-a"] .pull 0)).2
    let q : Operation := .syncWithQuery ["net-b", "net-a", "net-b"] .push Query.selectAll none
    ∃ link₁ link₂, s₁.link = some link₁
      ∧ (∀ es, (link₁.coordinator.run es).view 1 = ⟨none, []⟩)
      ∧ s₁.perform 2 q = (.ok (.sequence 2), { s₁ with link := some link₂ })
      ∧ link₂.handed
        = link₁.handed ++ [⟨2, "store", ["b", "a", "b"], .push, some Query.selectAll⟩]
      ∧ (link₂.coordinator.pending.get? 2).isSome = true := by
  intro s₁ q
  have hreached : ∀ link, linked.link = some link → link.coordinator.Reached := by
    intro link hlink
    cases hlink
    exact ⟨20, [], rfl⟩
  have hquiet : ∀ link, linked.link = some link → ∀ request e,
      (link.transport request).outcome = .error e → (link.transport request).reports = [] := by
    intro link hlink request e
    cases hlink
    exact firstReports_quiet
  have hfirst : Operation.syncCall? linked.callback (.sync ["net-a"] .pull 0)
      = some ⟨["net-a"], .pull, 0, none, some "told"⟩ := rfl
  have hrefused : linked.perform 1 (.sync ["net-a"] .pull 0)
      = (.error (.backend "transport unavailable"), s₁) := rfl
  obtain ⟨-, hfails, -⟩ := sync_fails_or_hands_once hfirst hreached hquiet
  obtain ⟨-, -, hunused⟩ := hfails _ _ hrefused
  obtain ⟨link₁, hlink₁, hunused⟩ := hunused _ rfl
  -- the second call finds a coordinator that was reached by the first
  have hreached₁ : ∀ link, s₁.link = some link → link.coordinator.Reached := by
    intro link hlink
    cases hlink
    exact ⟨20, [.start "store" ["a"] .pull none 0 (some "told"), .cancel 1], rfl⟩
  have hquiet₁ : ∀ link, s₁.link = some link → ∀ request e,
      (link.transport request).outcome = .error e → (link.transport request).reports = [] := by
    intro link hlink request e
    cases hlink
    exact firstReports_quiet
  have hsecond : q.syncCall? s₁.callback
      = some ⟨["net-b", "net-a", "net-b"], .push, 0, some Query.selectAll, some "told"⟩ := rfl
  have htaken : s₁.perform 2 q = (.ok (.sequence 2), (s₁.perform 2 q).2) := rfl
  obtain ⟨-, -, htakes⟩ := sync_fails_or_hands_once hsecond hreached₁ hquiet₁
  obtain ⟨seq, link, link₂, devices, hseq, haddresses, hs₂, htook⟩ := htakes _ _ htaken
  cases hseq
  obtain rfl : link = link₁ := Option.some.inj (haddresses.link.symm.trans hlink₁)
  have hdevices : devices = ["b", "a", "b"] :=
    map_some_inj.mp (haddresses.devices.symm.trans rfl)
  subst hdevices
  cases hlink₁
  refine ⟨_, link₂, rfl, hunused.silent 1 (by decide) (by decide), ?_, htook.handed, ?_⟩
  · rw [htaken, hs₂]
  · exact htook.pending_iff.mpr ⟨"a", by decide, by decide⟩

end Session

end PeerStore
