import PeerStore.Proofs.Query.Plan
import PeerStore.Proofs.Query.Scope

/-!
# Device clauses

A device clause is to restrict a query to the stored keys of its device, unless the text has a key
prefix clause. Whether it does is told from the tokens before they are read: where the word for a
key prefix stands as an argument, a device clause adds no prefix, although no clause asks for one.
**`device_restricts_iff`** says that this is the only case in which the restriction is missing.
-/

set_option autoImplicit false

namespace PeerStore.Query

/-! ## Devices of clauses and phrases -/

/-- The device of a device clause. -/
def Clause.device? : Clause → Option String
  | deviceId device => some device
  | _ => none

/-- The devices that a query is scoped to, clause by clause. -/
def devices (q : Query) : List String := q.filterMap Clause.device?

/-- The key prefixes that a query asks for, clause by clause. -/
def keyPrefixes (q : Query) : List Blob := q.filterMap Clause.keyPrefix?

/-- The network id of a device phrase. -/
def Phrase.network? (p : Phrase) : Option String :=
  if p.keyword = .deviceId then p.args.head?.map unescape else none

theorem devices_append (q q' : Query) : devices (q ++ q') = devices q ++ devices q' :=
  List.filterMap_append ..

theorem keyPrefixes_append (q q' : Query) :
    keyPrefixes (q ++ q') = keyPrefixes q ++ keyPrefixes q' :=
  List.filterMap_append ..

/-- A device phrase has a network id. -/
theorem Phrase.exists_network? {p : Phrase} (h : p.keyword = .deviceId) :
    ∃ network, p.network? = some network := by
  obtain ⟨kw, args, hfits⟩ := p
  obtain rfl : kw = .deviceId := h
  cases hfits with
  | fixed hlength =>
      obtain ⟨network, rfl⟩ := List.length_eq_one_iff.mp hlength
      exact ⟨unescape network, rfl⟩

theorem mem_keyPrefixes_iff {q : Query} {pfx : Blob} : pfx ∈ keyPrefixes q ↔ .keyPrefix pfx ∈ q := by
  rw [keyPrefixes, List.mem_filterMap]
  constructor
  · rintro ⟨c, hc, hpfx⟩
    cases c <;> cases hpfx
    exact hc
  · intro h
    exact ⟨_, h, rfl⟩

theorem mem_devices_iff {q : Query} {device : String} :
    device ∈ devices q ↔ .deviceId device ∈ q := by
  rw [devices, List.mem_filterMap]
  constructor
  · rintro ⟨c, hc, hdevice⟩
    cases c <;> cases hdevice
    exact hc
  · intro h
    exact ⟨_, h, rfl⟩

/-- A plan has the key prefix that its query asks for, and the query asks for one at most. -/
theorem keyPrefix_of_plan? {q : Query} {p : Plan} (h : plan? q = .ok p) :
    (keyPrefixes q).length ≤ 1 ∧ p.keyPrefix = (keyPrefixes q).getLast? := by
  obtain ⟨honce, filter, -, rfl⟩ := eq_plan_of_plan? h
  exact ⟨givenOnce_iff.mp honce .keyPrefix, rfl⟩

namespace Compiler

variable {c : Compiler} {ctx ctx' : Context} {phrases : List Phrase} {q : Query}

/-! ## What device phrases mean -/

/-- A phrase that is no key prefix phrase means a key prefix only for its device, and only where the
context has none. -/
theorem Reads.scope {p : Phrase} {clauses : List Clause}
    (h : c.Reads ctx p.keyword p.args clauses ctx') (hkeyword : p.keyword ≠ .keyPrefix) :
    ctx'.hasKeyPrefix = ctx.hasKeyPrefix
      ∧ keyPrefixes clauses
        = (if ctx.hasKeyPrefix then [] else (devices clauses).map Blob.ofString)
      ∧ p.network?.toList.map c.resolve? = (devices clauses).map some := by
  obtain ⟨kw, args, hfits⟩ := p
  simp only [Phrase.network?] at *
  clear hfits
  cases h with
  | deviceId hresolve =>
      cases hctx : ctx.hasKeyPrefix with
      | true | false => exact ⟨rfl, rfl, congrArg (· :: []) hresolve⟩
  | keyPrefix pfx => exact absurd rfl hkeyword
  | compare op => cases op <;> exact ⟨rfl, (ite_self _).symm, rfl⟩
  | _ => exact ⟨rfl, (ite_self _).symm, rfl⟩

/-- **Where no phrase asks for a key prefix, a query has those of its devices**, or none at all. -/
theorem Denotes.scope (h : c.Denotes ctx phrases q)
    (hkeyword : ∀ p ∈ phrases, p.keyword ≠ .keyPrefix) :
    keyPrefixes q = (if ctx.hasKeyPrefix then [] else (devices q).map Blob.ofString)
      ∧ (phrases.filterMap Phrase.network?).map c.resolve? = (devices q).map some := by
  induction h with
  | nil ctx => exact ⟨(ite_self _).symm, rfl⟩
  | @cons ctx ctx' p phrases clauses more hreads hdenotes ih =>
      obtain ⟨hp, hphrases⟩ := List.forall_mem_cons.mp hkeyword
      obtain ⟨hctx, hprefixes, hdevices⟩ := hreads.scope hp
      obtain ⟨hmorePrefixes, hmoreDevices⟩ := ih hphrases
      rw [hctx] at hmorePrefixes
      have hnetworks : (p :: phrases).filterMap Phrase.network?
          = p.network?.toList ++ phrases.filterMap Phrase.network? := by
        cases hp : p.network? <;> simp [hp]
      constructor
      · rw [keyPrefixes_append, devices_append, hprefixes, hmorePrefixes]
        split
        · rfl
        · rw [List.map_append]
      · rw [hnetworks, List.map_append, hdevices, hmoreDevices, devices_append, List.map_append]

/-- In a text without a key prefix phrase, the word for a key prefix is found exactly if it stands as
an argument. -/
theorem hasKeyPrefix_ofText_iff {text : String} (hsplit : Phrase.Split (tokenize text) phrases)
    (hkeyword : ∀ p ∈ phrases, p.keyword ≠ .keyPrefix) :
    (Context.ofText text).hasKeyPrefix = true ↔
      ∃ p ∈ phrases, Keyword.keyPrefix.text ∈ p.args := by
  show (tokenize text).contains Keyword.keyPrefix.text = true ↔ _
  rw [hsplit, List.contains_iff_mem, List.mem_flatMap]
  refine exists_congr fun p => and_congr_right fun hp => ?_
  rw [Phrase.tokens, List.mem_cons]
  refine or_iff_right fun heq => ?_
  exact hkeyword p hp (Keyword.text_injective heq).symm

/-- **When a device clause restricts a query to its device.** Let a text compile, with a device
phrase and without a key prefix phrase. Then the query has a device clause for each of the network
ids, with the device that it resolves to. It has the key prefixes of these devices if and only if
the word for a key prefix stands nowhere as an argument; then a plan of the query gives only records
under the stored keys of its device. Where the word is an argument, the query has no key prefix, and
no plan of it restricts keys to a prefix. -/
theorem device_restricts_iff {text : String} (hok : c.compile? text = .ok q)
    (hsplit : Phrase.Split (tokenize text) phrases)
    (hdevice : ∃ p ∈ phrases, p.keyword = .deviceId)
    (hkeyword : ∀ p ∈ phrases, p.keyword ≠ .keyPrefix) :
    devices q ≠ []
      ∧ (phrases.filterMap Phrase.network?).map c.resolve? = (devices q).map some
      ∧ ((∀ device, .deviceId device ∈ q → .keyPrefix (Blob.ofString device) ∈ q) ↔
          ∀ p ∈ phrases, Keyword.keyPrefix.text ∉ p.args)
      ∧ ((∀ p ∈ phrases, Keyword.keyPrefix.text ∉ p.args) → ∀ plan, plan? q = .ok plan →
          ∃ device, devices q = [device] ∧ plan.keyPrefix = some (Blob.ofString device)
            ∧ ∀ records, ∀ r ∈ plan.evaluate records,
                r.key.startsWith (Blob.ofString device) = true)
      ∧ ((∃ p ∈ phrases, Keyword.keyPrefix.text ∈ p.args) →
          (∀ pfx, .keyPrefix pfx ∉ q) ∧ ∀ plan, plan? q = .ok plan → plan.keyPrefix = none) := by
  obtain ⟨-, phrases', hsplit', -, hdenotes⟩ := compile?_eq_ok_iff.mp hok
  obtain rfl := Phrase.split_unique hsplit hsplit'
  obtain ⟨hprefixes, hnetworks⟩ := hdenotes.scope hkeyword
  have hword := hasKeyPrefix_ofText_iff hsplit hkeyword
  have hdevices : devices q ≠ [] := by
    obtain ⟨p, hp, hkw⟩ := hdevice
    obtain ⟨network, hnetwork⟩ := Phrase.exists_network? hkw
    have hmem : c.resolve? network ∈ (devices q).map some := by
      rw [← hnetworks]
      exact List.mem_map_of_mem (List.mem_filterMap.mpr ⟨p, hp, hnetwork⟩)
    rintro hnil
    rw [hnil] at hmem
    cases hmem
  have hrestricted (hnowhere : ∀ p ∈ phrases, Keyword.keyPrefix.text ∉ p.args) :
      keyPrefixes q = (devices q).map Blob.ofString := by
    rw [hprefixes, if_neg]
    rw [hword]
    rintro ⟨p, hp, hmem⟩
    exact hnowhere p hp hmem
  have hbare (hsomewhere : ∃ p ∈ phrases, Keyword.keyPrefix.text ∈ p.args) :
      keyPrefixes q = [] := by
    rw [hprefixes, if_pos (hword.mpr hsomewhere)]
  refine ⟨hdevices, hnetworks, ⟨fun hall p hp hmem => ?_, fun hnowhere device hmem => ?_⟩,
    fun hnowhere plan hplan => ?_, fun hsomewhere => ⟨fun pfx hmem => ?_, fun plan hplan => ?_⟩⟩
  · obtain ⟨device, hdevice⟩ := List.exists_mem_of_ne_nil _ hdevices
    have hprefix := mem_keyPrefixes_iff.mpr (hall device (mem_devices_iff.mp hdevice))
    rw [hbare ⟨p, hp, hmem⟩] at hprefix
    cases hprefix
  · rw [← mem_keyPrefixes_iff, hrestricted hnowhere]
    exact List.mem_map_of_mem (mem_devices_iff.mpr hmem)
  · obtain ⟨hlength, hkeyPrefix⟩ := keyPrefix_of_plan? hplan
    rw [hrestricted hnowhere] at hlength hkeyPrefix
    rw [List.length_map] at hlength
    -- a second device would have given a second key prefix
    obtain ⟨device, hone⟩ : ∃ device, devices q = [device] :=
      List.length_eq_one_iff.mp
        (Nat.le_antisymm hlength (Nat.pos_of_ne_zero (mt List.length_eq_zero_iff.mp hdevices)))
    rw [hone] at hkeyPrefix
    exact ⟨device, hone, hkeyPrefix, fun records r => Plan.startsWith_of_mem_evaluate hkeyPrefix⟩
  · have hprefix := mem_keyPrefixes_iff.mpr hmem
    rw [hbare hsomewhere] at hprefix
    cases hprefix
  · rw [(keyPrefix_of_plan? hplan).2, hbare hsomewhere]
    rfl

/-- A device clause behind a predicate, with arguments that are spelled like other keywords. -/
theorem device_restricts_iff_with_keywords :
    let c : Compiler := { directory := some (Directory.register { self := "self" } "net" "peer") }
    let text := "^IS_NULL ^DEVICE_ID ^DEVICE_ID net ^SUGGEST_INDEX ^LIMIT"
    let q : Query := [.part (.test (.isNull "^DEVICE_ID")), .keyPrefix (Blob.ofString "peer"),
      .deviceId "peer", .suggestIndex "^LIMIT"]
    c.compile? text = .ok q ∧ devices q = ["peer"]
      ∧ ∃ plan, plan? q = .ok plan ∧ plan.keyPrefix = some (Blob.ofString "peer")
        ∧ ∀ records, ∀ r ∈ plan.evaluate records,
            r.key.startsWith (Blob.ofString "peer") = true := by
  intro c text q
  have hok : c.compile? text = .ok q := by decide +kernel
  let phrases : List Phrase :=
    [⟨.isNull, ["^DEVICE_ID"], .fixed rfl⟩, devicePhrase "net",
      ⟨.suggestIndex, ["^LIMIT"], .fixed rfl⟩]
  have hsplit : Phrase.Split (tokenize text) phrases := by
    show tokenize text = phrases.flatMap Phrase.tokens
    decide +kernel
  have hdevice : ∃ p ∈ phrases, p.keyword = .deviceId := ⟨devicePhrase "net", by simp [phrases], rfl⟩
  have hkeyword : ∀ p ∈ phrases, p.keyword ≠ .keyPrefix := by simp [phrases, devicePhrase]
  have hnowhere : ∀ p ∈ phrases, Keyword.keyPrefix.text ∉ p.args := by
    simp [phrases, devicePhrase, Keyword.text]
  obtain ⟨-, -, -, hplans, -⟩ := device_restricts_iff hok hsplit hdevice hkeyword
  have hdevices : devices q = ["peer"] := rfl
  obtain ⟨device, hone, hkeyPrefix, hrecords⟩ := hplans hnowhere _ rfl
  obtain rfl : "peer" = device := List.singleton_inj.mp (hdevices.symm.trans hone)
  exact ⟨hok, hdevices, _, rfl, hkeyPrefix, hrecords⟩

/-- A hint that is spelled like the word for a key prefix: the query has a device clause and no key
prefix clause, and still it has no key prefix, and gives a record of another device. -/
theorem device_unrestricted_by_hint :
    let c : Compiler := { directory := some (Directory.register { self := "self" } "net" "peer") }
    let text := "^DEVICE_ID net ^SUGGEST_INDEX ^KEY_PREFIX"
    let q : Query := [.deviceId "peer", .suggestIndex "^KEY_PREFIX"]
    let phrases : List Phrase := [devicePhrase "net", ⟨.suggestIndex, ["^KEY_PREFIX"], .fixed rfl⟩]
    let mine : Record :=
      { key := Blob.ofString "selfk", value := Blob.ofString "v", time := 2, device := "self" }
    c.compile? text = .ok q
      ∧ Phrase.Split (tokenize text) phrases
      ∧ (∃ p ∈ phrases, p.keyword = .deviceId) ∧ (∀ p ∈ phrases, p.keyword ≠ .keyPrefix)
      ∧ .keyPrefix (Blob.ofString "peer") ∉ q
      ∧ ∃ plan, plan? q = .ok plan ∧ mine ∈ plan.evaluate [mine]
        ∧ mine.key.startsWith (Blob.ofString "peer") = false := by
  intro c text q phrases mine
  refine ⟨by decide +kernel, ?_, ⟨devicePhrase "net", by simp [phrases], rfl⟩,
    by simp [phrases, devicePhrase], by decide, _, rfl, ?_, by decide +kernel⟩
  · show tokenize text = phrases.flatMap Phrase.tokens
    decide +kernel
  · exact List.mem_singleton_self mine

end Compiler

end PeerStore.Query
