import PeerStore.Proofs.Backend.Scan
import PeerStore.Proofs.Query.Scope
import PeerStore.Proofs.Store.Call
import PeerStore.Store.Read

/-!
# Queries by scan and by snapshot

A store answers a query that selects by a key prefix from a scan, and any other from a snapshot.
The shorter way shows in no answer (**`scan_answers_as_snapshot`**): a plan begins by dropping the
records that it does not select, so what a scan leaves out would have been dropped before the
records are ordered and paged (`Plan.evaluate_filter`).
-/

set_option autoImplicit false

namespace PeerStore

namespace Query.Plan

variable {p : Plan}

/-- Records that a plan does not accept may be left out before it is evaluated. -/
theorem evaluate_filter {keep : Record → Bool} (h : ∀ r, p.accepts r = true → keep r = true)
    (records : List Record) : p.evaluate (records.filter keep) = p.evaluate records := by
  have haccepted : (records.filter keep).filter p.accepts = records.filter p.accepts := by
    rw [List.filter_filter]
    refine List.filter_congr fun r _ => ?_
    by_cases hr : p.accepts r = true
    · rw [hr, h r hr, Bool.and_self]
    · rw [Bool.eq_false_iff.mpr hr, Bool.false_and]
  rw [evaluate, haccepted, evaluate]

end Query.Plan

namespace Session

/-- What a plan makes of the records that it may select is what it makes of all. -/
theorem evaluate_candidates (s : Session) (p : Query.Plan) :
    p.evaluate (s.candidates p) = p.evaluate s.backend.snapshot := by
  unfold candidates
  cases hpfx : p.keyPrefix with
  | none => rfl
  | some pfx =>
      show p.evaluate (s.backend.scanPrefix pfx) = p.evaluate s.backend.snapshot
      rw [Backend.scanPrefix_eq_filter]
      exact Query.Plan.evaluate_filter
        (fun _ hr => Query.Plan.startsWith_of_accepts hpfx hr) s.backend.snapshot

/-- **Queries by scan answer as queries by snapshot.** A scan gives the records of the snapshot
whose key begins with the prefix, in ascending order of their keys; and every query that makes a
plan is answered with what the plan makes of the snapshot, in the same order. -/
theorem scan_answers_as_snapshot :
    (∀ (b : Backend) (pfx : Blob),
        b.scanPrefix pfx = b.snapshot.filter (fun r => pfx.isPrefixOf r.key)
        ∧ (b.scanPrefix pfx).Pairwise fun r r' => Blob.before r.key r'.key = true)
      ∧ ∀ (s : Session) (q : Query) (p : Query.Plan), q.plan? = .ok p →
          p.evaluate (s.candidates p) = p.evaluate s.backend.snapshot
          ∧ (s.isOpen = true → s.runQuery q = (.ok (p.evaluate s.backend.snapshot), s)) := by
  refine ⟨fun b pfx => ⟨b.scanPrefix_eq_filter pfx, b.ascending_scanPrefix pfx⟩,
    fun s q p hplan => ⟨s.evaluate_candidates p, fun hopen => ?_⟩⟩
  rw [runQuery, hplan]
  show s.whenOpen (fun s => (.ok (p.evaluate (s.candidates p)), s)) = _
  rw [whenOpen_of_isOpen hopen, evaluate_candidates]

/-- A session over keys that the highest byte begins, and over others. -/
def highKeys : Session :=
  { fresh .singleVersion "self" with
    backend :=
      { toTables :=
          Tables.putAll {}
            [⟨⟨[0], 1, "self"⟩, [254, 255]⟩, ⟨⟨[1], 2, "self"⟩, [255]⟩,
              ⟨⟨[2], 3, "peer"⟩, [255, 0]⟩, ⟨⟨[3], 4, "self"⟩, [255, 255]⟩] } }

/-- The second page, latest first, of the keys that the highest byte begins: it comes from a scan
of three of the four records, and from the snapshot. -/
theorem scan_answers_as_snapshot_of_high_keys :
    let q : Query := [.keyPrefix [255], .orderByWriteTime false, .limit 2 1]
    let p : Query.Plan := { keyPrefix := some [255], writeTime := some false, limit := some (2, 1) }
    (highKeys.candidates p).map (·.key) = [[255], [255, 0], [255, 255]]
      ∧ highKeys.runQuery q = (.ok (p.evaluate highKeys.backend.snapshot), highKeys) :=
  ⟨by decide, (scan_answers_as_snapshot.2 highKeys _ _ rfl).2 rfl⟩

end Session

end PeerStore
