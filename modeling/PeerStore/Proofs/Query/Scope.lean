import PeerStore.Proofs.Query.Grammar
import PeerStore.Proofs.Query.Order

/-!
# Query text that names a device

A device clause alone, or with a key prefix behind it, compiles to one selection by stored keys:
those of the device, with the prefix (**`Compiler.Scopes.compile?_eq`**). The plan of such a query
asks for nothing else, so it gives the records under the prefix as they are scanned. Of other plans
it is only said here that they give no record that they were not given (`Plan.mem_of_mem_evaluate`).
-/

set_option autoImplicit false

namespace PeerStore.Query

/-! ## Texts -/

/-- Whether a text within the limits is a device clause alone, or a device clause with a key prefix
behind it, for a device and a prefix of its user keys. Alone, the clause does not name its network
id by the very word for a key prefix, which would be taken for a prefix clause. -/
inductive Compiler.Scopes (c : Compiler) (text : String) : String → Blob → Prop where
  | device {token device : String} :
      tokenize text = [Keyword.deviceId.text, token] → token ≠ Keyword.keyPrefix.text →
      c.resolve? (unescape token) = some device →
      text.utf8ByteSize ≤ c.limits.queryBytes → 1 ≤ c.limits.queryClauses →
      Scopes c text device []
  | keyPrefix {token pfx device : String} :
      tokenize text = [Keyword.deviceId.text, token, Keyword.keyPrefix.text, pfx] →
      c.resolve? (unescape token) = some device →
      text.utf8ByteSize ≤ c.limits.queryBytes → 2 ≤ c.limits.queryClauses →
      Scopes c text device (Blob.ofString (unescape pfx))

namespace Compiler

variable {c : Compiler} {text device : String} {pfx : Blob}

/-- The phrase of a device clause. -/
def devicePhrase (token : String) : Phrase := ⟨.deviceId, [token], .fixed rfl⟩

/-- The phrase of a key prefix clause. -/
def keyPrefixPhrase (token : String) : Phrase := ⟨.keyPrefix, [token], .fixed rfl⟩

/-- A device clause in a text without a key prefix adds the prefix of the device. -/
theorem denotes_device {token : String} {ctx : Context}
    (hdevice : c.resolve? (unescape token) = some device) (hpfx : ctx.hasKeyPrefix = false) :
    c.Denotes ctx [devicePhrase token]
      [.keyPrefix (Blob.ofString device), .deviceId device] := by
  have hreads : c.Reads ctx (devicePhrase token).keyword (devicePhrase token).args _ _ :=
    .deviceId hdevice
  rw [hpfx] at hreads
  exact .cons hreads (.nil _)

/-- A key prefix behind a device clause is one of the stored keys of the device. -/
theorem denotes_device_keyPrefix {token pfx : String} {ctx : Context}
    (hdevice : c.resolve? (unescape token) = some device) (hpfx : ctx.hasKeyPrefix = true) :
    c.Denotes ctx [devicePhrase token, keyPrefixPhrase pfx]
      [.deviceId device, .keyPrefix (Blob.ofString device ++ Blob.ofString (unescape pfx))] := by
  have hdeviceReads : c.Reads ctx (devicePhrase token).keyword (devicePhrase token).args _ _ :=
    .deviceId hdevice
  have hpfxReads : c.Reads { ctx with device := some device } (keyPrefixPhrase pfx).keyword
      (keyPrefixPhrase pfx).args _ _ := .keyPrefix pfx
  rw [hpfx] at hdeviceReads hpfxReads
  exact .cons hdeviceReads (.cons hpfxReads (.nil _))

/-- **A text that names a device selects the stored keys of this device with the prefix**, and asks
for nothing else. -/
theorem Scopes.compile?_eq (h : c.Scopes text device pfx) :
    ∃ q, c.compile? text = .ok q
      ∧ q.plan? = .ok { keyPrefix := some (Blob.ofString device ++ pfx) } := by
  cases h with
  | @device token _ htokens hword hdevice hbytes hclauses =>
      have hpfx : (Context.ofText text).hasKeyPrefix = false := by
        show (tokenize text).contains Keyword.keyPrefix.text = false
        rw [htokens, Bool.eq_false_iff, Ne, List.contains_iff_mem, List.mem_cons,
          List.mem_singleton, not_or]
        exact ⟨by decide, fun heq => hword heq.symm⟩
      have haccepts : c.Accepts text [.keyPrefix (Blob.ofString device), .deviceId device] :=
        ⟨hbytes, [devicePhrase token], htokens, hclauses, denotes_device hdevice hpfx⟩
      refine ⟨_, compile?_eq_ok_iff.mpr haccepts, ?_⟩
      rw [List.append_nil]
      rfl
  | @keyPrefix token pfx _ htokens hdevice hbytes hclauses =>
      have hpfx : (Context.ofText text).hasKeyPrefix = true := by
        show (tokenize text).contains Keyword.keyPrefix.text = true
        rw [htokens, List.contains_iff_mem]
        simp
      have haccepts : c.Accepts text
          [.deviceId device, .keyPrefix (Blob.ofString device ++ Blob.ofString (unescape pfx))] :=
        ⟨hbytes, [devicePhrase token, keyPrefixPhrase pfx], htokens, hclauses,
          denotes_device_keyPrefix hdevice hpfx⟩
      exact ⟨_, compile?_eq_ok_iff.mpr haccepts, rfl⟩

end Compiler

/-! ## Plans -/

namespace Plan

/-- A plan with a key prefix accepts records under the prefix only. -/
theorem startsWith_of_accepts {p : Plan} {pfx : Blob} (hpfx : p.keyPrefix = some pfx) {r : Record}
    (h : p.accepts r = true) : r.key.startsWith pfx = true := by
  have hselects : p.selects r.key = true := (Bool.and_eq_true_iff.mp h).1
  rw [selects, hpfx] at hselects
  exact (Bool.and_eq_true_iff.mp hselects).1

/-- A plan gives only records that it was given and that it accepts. -/
theorem mem_filter_of_mem_evaluate {p : Plan} {records : List Record} {r : Record}
    (h : r ∈ p.evaluate records) : r ∈ records.filter p.accepts := by
  have hpage (rs : List Record) (hr : r ∈ p.page rs) : r ∈ rs := by
    unfold page at hr
    split at hr
    · exact List.mem_of_mem_drop (List.mem_of_mem_take hr)
    · exact hr
  exact (p.perm_sort _).mem_iff.mp (hpage _ h)

/-- A plan gives no record that it was not given. -/
theorem mem_of_mem_evaluate {p : Plan} {records : List Record} {r : Record}
    (h : r ∈ p.evaluate records) : r ∈ records :=
  (List.mem_filter.mp (mem_filter_of_mem_evaluate h)).1

/-- What a plan with a key prefix gives has it. -/
theorem startsWith_of_mem_evaluate {p : Plan} {pfx : Blob} (hpfx : p.keyPrefix = some pfx)
    {records : List Record} {r : Record} (h : r ∈ p.evaluate records) :
    r.key.startsWith pfx = true :=
  startsWith_of_accepts hpfx (List.mem_filter.mp (mem_filter_of_mem_evaluate h)).2

/-- A plan that asks for a key prefix alone gives the records under the prefix as they are. -/
theorem evaluate_of_keyPrefix {pfx : Blob} {records : List Record}
    (h : ∀ r ∈ records, r.key.startsWith pfx = true) :
    evaluate { keyPrefix := some pfx } records = records := by
  show records.filter (accepts { keyPrefix := some pfx }) = records
  refine List.filter_eq_self.mpr fun r hr => ?_
  simp only [accepts, selects, h r hr, Bool.and_self]

end Plan

end PeerStore.Query
