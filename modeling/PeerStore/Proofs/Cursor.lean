import Mathlib.Data.List.Basic
import PeerStore.Cursor

/-!
# Cursors in use

A cursor over some entries is used by moves, questions and closing, in any order (`Cursor.Use`). As
long as it is open its position is an integer from -1 to the number of entries, and a move takes it
to the exact target, or to the end of this range that is nearer (`Cursor.clamp`). All that it
answers follows from the position (`Cursor.Follows`, **`follows_or_sentinel`**). Once closed it
answers with sentinels.
-/

set_option autoImplicit false

namespace PeerStore.Cursor

/-! ## Entries under moves -/

theorem entries_goTo (c : Cursor) (target : Int) : (c.goTo target).2.entries = c.entries := by
  unfold goTo
  split
  · rfl
  · split
    · rfl
    · split <;> rfl

/-- A move changes no entry, and neither opens nor closes a cursor. -/
theorem entries_move (c : Cursor) (m : Move) : (c.move m).2.entries = c.entries := by
  cases m <;> exact c.entries_goTo _

/-! ## Uses -/

/-- A question about a cursor. -/
inductive Question where
  | count
  | position
  | isBeforeFirst
  | isFirst
  | isLast
  | isAfterLast
  | isClosed
  | entry
  deriving DecidableEq, Repr

/-- What a cursor answers to a move or a question. -/
inductive Answer where
  | number (n : Int)
  | flag (b : Bool)
  | entry (e : Entry)
  | failure (e : CursorError)
  | nothing
  deriving DecidableEq, Repr

/-- The answer to a question. -/
def ask (c : Cursor) : Question → Answer
  | .count => .number c.count
  | .position => .number c.position
  | .isBeforeFirst => .flag c.isBeforeFirst
  | .isFirst => .flag c.isFirst
  | .isLast => .flag c.isLast
  | .isAfterLast => .flag c.isAfterLast
  | .isClosed => .flag c.isClosed
  | .entry =>
      match c.entry with
      | .ok e => .entry e
      | .error e => .failure e

/-- A use of a cursor. -/
inductive Use where
  | move (m : Move)
  | ask (q : Question)
  | close
  deriving DecidableEq, Repr

/-- The answer to a use, and the cursor after it. -/
def use (c : Cursor) : Use → Answer × Cursor
  | .move m => (.flag (c.move m).1, (c.move m).2)
  | .ask q => (c.ask q, c)
  | .close => (.nothing, c.close)

/-- The cursor after uses, one after the other. -/
def after (c : Cursor) (uses : List Use) : Cursor := uses.foldl (fun c u => (c.use u).2) c

/-- What a closed cursor answers. -/
def Use.sentinel : Use → Answer
  | .move _ => .flag false
  | .ask .count => .number (-1)
  | .ask .position => .number (-2147483648)
  | .ask .isClosed => .flag true
  | .ask .entry => .failure .closed
  | .ask _ => .flag false
  | .close => .nothing

/-- The entries that a cursor comes to when it makes a move again and again. -/
def visits (m : Move) : Nat → Cursor → List Entry
  | 0, _ => []
  | n + 1, c => (c.move m).2.entry.toOption.toList ++ visits m n (c.move m).2

/-! ## Positions -/

/-- The position nearest to a target, of those from before the first entry to behind the last. -/
def clamp (count : Nat) (target : Int) : Int := max (-1) (min target count)

/-- Where a move goes from a position. -/
def Move.target (m : Move) (position : Int) (count : Nat) : Int :=
  match m with
  | .first => 0
  | .last => count - 1
  | .next => position + 1
  | .previous => position - 1
  | .by offset => position + offset
  | .to target => target

/-- Whether a position is that of an entry. -/
def OnEntry (count : Nat) (position : Int) : Prop := 0 ≤ position ∧ position < count

instance (count : Nat) (position : Int) : Decidable (OnEntry count position) :=
  inferInstanceAs (Decidable (_ ∧ _))

theorem clamp_bounds (count : Nat) (target : Int) :
    -1 ≤ clamp count target ∧ clamp count target ≤ count := by
  unfold clamp
  omega

theorem onEntry_clamp_iff {count : Nat} {target : Int} :
    OnEntry count (clamp count target) ↔ OnEntry count target := by
  unfold OnEntry clamp
  omega

theorem clamp_of_bounds {count : Nat} {target : Int} (hlow : -1 ≤ target) (hhigh : target ≤ count) :
    clamp count target = target := by
  unfold clamp
  omega

/-! ## Open cursors -/

section

variable {entries : List Entry} (h : entries.length ≤ maxCount) (position : Int)

include h

theorem countOf_eq : countOf entries = entries.length := by
  unfold countOf
  omega

/-- An open cursor goes to the exact target or to the end in its direction. -/
theorem goTo_eq (target : Int) :
    goTo ⟨some entries, position⟩ target
      = (decide (OnEntry entries.length target), ⟨some entries, clamp entries.length target⟩) := by
  unfold goTo
  dsimp only
  rw [countOf_eq h]
  split
  · rename_i hbefore
    have hnot : ¬OnEntry entries.length target := fun hon => absurd hon.1 (by omega)
    have hclamp : clamp entries.length target = beforeFirst := by
      unfold clamp beforeFirst
      omega
    rw [decide_eq_false hnot, hclamp]
  · split
    · rename_i hbehind
      have hnot : ¬OnEntry entries.length target := fun hon => absurd hon.2 (by omega)
      have hclamp : clamp entries.length target = entries.length := by
        unfold clamp
        omega
      rw [decide_eq_false hnot, hclamp]
    · have hon : OnEntry entries.length target := ⟨by omega, by omega⟩
      rw [decide_eq_true hon, clamp_of_bounds (by omega) (by omega)]

theorem move_eq (m : Move) :
    move ⟨some entries, position⟩ m
      = (decide (OnEntry entries.length (m.target position entries.length)),
        ⟨some entries, clamp entries.length (m.target position entries.length)⟩) := by
  have hcount : count ⟨some entries, position⟩ = entries.length := countOf_eq h
  have htarget : move ⟨some entries, position⟩ m
      = goTo ⟨some entries, position⟩ (m.target position entries.length) := by
    cases m with
    | last => rw [move, hcount, Move.target]
    | _ => rfl
  rw [htarget]
  exact goTo_eq h position _

/-- A move succeeds exactly if it ends on an entry. -/
theorem move_fst_iff (m : Move) :
    (move ⟨some entries, position⟩ m).1 = true ↔
      OnEntry entries.length (move ⟨some entries, position⟩ m).2.position := by
  rw [move_eq h]
  exact decide_eq_true_iff.trans onEntry_clamp_iff.symm

omit h in
/-- The current entry is the one at the position. -/
theorem entry_eq_ok_iff {e : Entry} :
    entry ⟨some entries, position⟩ = .ok e ↔ ∃ i : Nat, position = i ∧ entries[i]? = some e := by
  rw [entry]
  dsimp only
  by_cases hposition : 0 ≤ position
  · obtain ⟨i, rfl⟩ := Int.eq_ofNat_of_zero_le hposition
    have hindex : (∃ j : Nat, (i : Int) = j ∧ entries[j]? = some e) ↔ entries[i]? = some e := by
      constructor
      · rintro ⟨j, hj, hentry⟩
        rwa [Int.ofNat_inj.mp hj]
      · exact fun hentry => ⟨i, rfl, hentry⟩
    rw [if_pos hposition, Int.toNat_natCast, hindex]
    cases entries[i]? with
    | none => simp
    | some e' => simp
  · rw [if_neg hposition]
    constructor
    · intro hentry
      cases hentry
    · rintro ⟨i, rfl, -⟩
      exact absurd (Int.natCast_nonneg i) hposition

omit h in
theorem exists_entry_iff :
    (∃ e, entry ⟨some entries, position⟩ = .ok e) ↔ OnEntry entries.length position := by
  constructor
  · rintro ⟨e, he⟩
    obtain ⟨i, rfl, hi⟩ := (entry_eq_ok_iff position).mp he
    have hlt : i < entries.length := (List.getElem?_eq_some_iff.mp hi).1
    exact ⟨Int.natCast_nonneg i, Int.ofNat_lt.mpr hlt⟩
  · rintro ⟨hlow, hhigh⟩
    obtain ⟨i, rfl⟩ := Int.eq_ofNat_of_zero_le hlow
    have hlt : i < entries.length := Int.ofNat_lt.mp hhigh
    exact ⟨entries[i], (entry_eq_ok_iff _).mpr ⟨i, rfl, List.getElem?_eq_getElem hlt⟩⟩

omit h in
/-- Where there is no entry, the failure tells the position and the number of entries. -/
theorem entry_of_not_onEntry (hoff : ¬OnEntry entries.length position) :
    entry ⟨some entries, position⟩ = .error (.outOfRange position (countOf entries)) := by
  cases hentry : entry ⟨some entries, position⟩ with
  | ok e => exact absurd ((exists_entry_iff position).mp ⟨e, hentry⟩) hoff
  | error e =>
      rw [entry] at hentry
      dsimp only at hentry
      split at hentry
      · cases hentry
      · exact hentry.symm

/-! ## Going through all entries -/

/-- From any position on, moves to the next entry visit the entries behind it. -/
theorem visits_next (n : Nat) (hlow : -1 ≤ position) :
    visits .next n ⟨some entries, position⟩ = (entries.drop (position + 1).toNat).take n := by
  induction n generalizing position with
  | zero => rfl
  | succ n ih =>
      rw [visits, move_eq h]
      dsimp only [Move.target]
      obtain ⟨i, hi⟩ := Int.eq_ofNat_of_zero_le (show 0 ≤ position + 1 by omega)
      rw [hi, Int.toNat_natCast]
      by_cases hlt : i < entries.length
      · have hclamp : clamp entries.length i = i := clamp_of_bounds (by omega) (by omega)
        have hentry : entry ⟨some entries, i⟩ = .ok entries[i] :=
          (entry_eq_ok_iff _).mpr ⟨i, rfl, List.getElem?_eq_getElem hlt⟩
        rw [hclamp, hentry, ih i (by omega), List.drop_eq_getElem_cons hlt]
        rfl
      · -- behind the last entry there is none to come to
        have hclamp : clamp entries.length i = entries.length := by
          unfold clamp
          omega
        have hentry : entry ⟨some entries, entries.length⟩ = .error _ :=
          entry_of_not_onEntry _ fun hon => absurd hon.2 (by omega)
        rw [hclamp, hentry, ih _ (by omega), List.drop_eq_nil_of_le (by omega),
          List.drop_eq_nil_of_le (by omega), List.take_nil, List.take_nil]
        rfl

/-- Back from any position, moves to the previous entry visit the entries in front of it. -/
theorem visits_previous (n : Nat) (hhigh : position ≤ entries.length) :
    visits .previous n ⟨some entries, position⟩
      = ((entries.take position.toNat).reverse).take n := by
  induction n generalizing position with
  | zero => rfl
  | succ n ih =>
      rw [visits, move_eq h]
      dsimp only [Move.target]
      by_cases hpos : 0 < position
      · obtain ⟨i, hi⟩ := Int.eq_ofNat_of_zero_le (show 0 ≤ position - 1 by omega)
        have hlt : i < entries.length := by omega
        have hposition : position.toNat = i + 1 := by omega
        have hclamp : clamp entries.length i = i := clamp_of_bounds (by omega) (by omega)
        have hentry : entry ⟨some entries, i⟩ = .ok entries[i] :=
          (entry_eq_ok_iff _).mpr ⟨i, rfl, List.getElem?_eq_getElem hlt⟩
        have htake : (entries.take (i + 1)).reverse = entries[i] :: (entries.take i).reverse := by
          rw [List.take_succ_eq_append_getElem hlt, List.reverse_append]
          rfl
        rw [hi, hclamp, hentry, ih i (by omega), hposition, htake, Int.toNat_natCast]
        rfl
      · have hclamp : clamp entries.length (position - 1) = -1 := by
          unfold clamp
          omega
        have hentry : entry ⟨some entries, -1⟩ = .error _ :=
          entry_of_not_onEntry _ fun hon => absurd hon.1 (by omega)
        have hposition : position.toNat = 0 := by omega
        rw [hclamp, hentry, ih _ (by omega), hposition, List.take_zero, List.reverse_nil,
          List.take_nil]
        exact List.take_nil

end

/-! ## What an open cursor does -/

/-- The sum of two numbers of 32 bits is exact in 64 bits. -/
theorem toInt_add_toInt64 (a b : Int32) : (a.toInt64 + b.toInt64).toInt = a.toInt + b.toInt := by
  have halow := a.le_toInt
  have hahigh := a.toInt_lt
  have hblow := b.le_toInt
  have hbhigh := b.toInt_lt
  rw [Int64.toInt_add, Int32.toInt_toInt64, Int32.toInt_toInt64]
  exact Int.bmod_eq_of_le (by omega) (by omega)

/-- Whether a cursor is open over entries and all that it does follows from its position. -/
structure Follows (entries : List Entry) (c : Cursor) : Prop where
  entries_eq : c.entries = some entries
  within : -1 ≤ c.position ∧ c.position ≤ entries.length
  /-- A move ends at its exact target, or at the end of the range that is nearer. -/
  move_position (m : Move) :
    (c.move m).2.position = clamp entries.length (m.target c.position entries.length)
  /-- The target of a move by an offset of 32 bits is computed in 64 bits without overflow. -/
  sum_exact (offset : Int32) :
    ((Int32.ofInt c.position).toInt64 + offset.toInt64).toInt = c.position + offset.toInt
  /-- A move succeeds exactly if it ends on an entry, -/
  move_fst_iff (m : Move) :
    (c.move m).1 = true ↔ OnEntry entries.length (c.move m).2.position
  /-- and exactly if there is a current entry then. -/
  move_fst_iff_entry (m : Move) : (c.move m).1 = true ↔ ∃ e, (c.move m).2.entry = .ok e
  entry_eq_ok_iff (e : Entry) : c.entry = .ok e ↔ ∃ i : Nat, c.position = i ∧ entries[i]? = some e
  count_eq : c.count = entries.length
  isBeforeFirst_iff : c.isBeforeFirst = true ↔ c.position = -1
  isAfterLast_iff : c.isAfterLast = true ↔ c.position = entries.length
  isFirst_iff : c.isFirst = true ↔ entries ≠ [] ∧ c.position = 0
  isLast_iff : c.isLast = true ↔ entries ≠ [] ∧ c.position = entries.length - 1
  /-- A step back undoes a step forward that was not cut short, -/
  previous_next : (c.move .next).2.position = c.position + 1 →
    ((c.move .next).2.move .previous).2 = c
  /-- and the other way round. -/
  next_previous : (c.move .previous).2.position = c.position - 1 →
    ((c.move .previous).2.move .next).2 = c
  /-- From before the first entry, steps forward visit every entry once, in order, and no more; -/
  visits_next : c.position = -1 → ∀ n, visits .next n c = entries.take n
  /-- steps back from behind the last entry visit them in reverse. -/
  visits_previous : c.position = entries.length → ∀ n, visits .previous n c = entries.reverse.take n

/-- **All that an open cursor does follows from a position in its range.** -/
theorem follows_of_within {entries : List Entry} (h : entries.length ≤ maxCount) {position : Int}
    (hlow : -1 ≤ position) (hhigh : position ≤ entries.length) :
    Follows entries ⟨some entries, position⟩ := by
  have hcount : count ⟨some entries, position⟩ = entries.length := countOf_eq h
  have hsize : (0 : Int) < entries.length ↔ entries ≠ [] := by
    rw [Int.natCast_pos, List.length_pos_iff]
  have hback (m m' : Move) :
      (((move ⟨some entries, position⟩ m).2.move m').2 : Cursor)
        = ⟨some entries, clamp entries.length (m'.target
            (clamp entries.length (m.target position entries.length)) entries.length)⟩ := by
    rw [move_eq h, move_eq h]
  constructor
  case entries_eq => rfl
  case within => exact ⟨hlow, hhigh⟩
  case move_position =>
    intro m
    rw [move_eq h]
  case sum_exact =>
    intro offset
    have hfits : (Int32.ofInt position).toInt = position := by
      unfold maxCount at h
      exact Int32.toInt_ofInt_of_le (by omega) (by omega)
    rw [toInt_add_toInt64, hfits]
  case move_fst_iff => exact Cursor.move_fst_iff h position
  case move_fst_iff_entry =>
    intro m
    rw [Cursor.move_fst_iff h, move_eq h, exists_entry_iff]
  case entry_eq_ok_iff =>
    intro e
    exact Cursor.entry_eq_ok_iff position
  case count_eq => exact hcount
  case isBeforeFirst_iff => exact beq_iff_eq
  case isAfterLast_iff =>
    rw [isAfterLast, hcount]
    exact beq_iff_eq
  case isFirst_iff =>
    rw [isFirst, hcount, ← hsize]
    simp [isClosed]
  case isLast_iff =>
    rw [isLast, hcount, ← hsize]
    simp [isClosed]
  case previous_next =>
    rw [hback, move_eq h]
    intro hexact
    have hexact : clamp entries.length (position + 1) = position + 1 := hexact
    show (⟨_, clamp entries.length (clamp entries.length (position + 1) - 1)⟩ : Cursor) = _
    rw [hexact, Int.add_sub_cancel, clamp_of_bounds hlow hhigh]
  case next_previous =>
    rw [hback, move_eq h]
    intro hexact
    have hexact : clamp entries.length (position - 1) = position - 1 := hexact
    show (⟨_, clamp entries.length (clamp entries.length (position - 1) + 1)⟩ : Cursor) = _
    rw [hexact, Int.sub_add_cancel, clamp_of_bounds hlow hhigh]
  case visits_next =>
    rintro rfl n
    exact Cursor.visits_next h (-1) n hlow
  case visits_previous =>
    rintro rfl n
    rw [Cursor.visits_previous h _ n hhigh, Int.toNat_natCast, List.take_length]

/-! ## Runs -/

theorem follows_ofEntries {entries : List Entry} (h : entries.length ≤ maxCount) :
    Follows entries (ofEntries entries) :=
  follows_of_within h (Int.le_refl _) (show (-1 : Int) ≤ entries.length by omega)

/-- **A use other than closing leaves an open cursor open over its entries.** -/
theorem Follows.use {entries : List Entry} (h : entries.length ≤ maxCount) {c : Cursor}
    (hc : Follows entries c) {u : Use} (hu : u ≠ .close) : Follows entries (c.use u).2 := by
  obtain ⟨_, position⟩ := c
  obtain rfl := hc.entries_eq
  cases u with
  | close => exact absurd rfl hu
  | ask q => exact hc
  | move m =>
      have hbounds := clamp_bounds entries.length (m.target position entries.length)
      rw [Cursor.use, move_eq h]
      exact follows_of_within h hbounds.1 hbounds.2

theorem Follows.after {entries : List Entry} (h : entries.length ≤ maxCount) {c : Cursor}
    (hc : Follows entries c) {uses : List Use} (huses : .close ∉ uses) :
    Follows entries (c.after uses) := by
  induction uses generalizing c with
  | nil => exact hc
  | cons u uses ih =>
      have hu : u ≠ .close := fun hu => huses (hu ▸ List.mem_cons_self ..)
      exact ih (hc.use h hu) fun hm => huses (List.mem_cons_of_mem _ hm)

/-- A closed cursor answers everything with its sentinel. -/
theorem use_close (c : Cursor) (u : Use) : c.close.use u = (u.sentinel, c.close) := by
  cases u with
  | move m => cases m <;> rfl
  | ask q => cases q <;> rfl
  | close => rfl

theorem after_close (c : Cursor) (uses : List Use) : c.close.after uses = c.close := by
  induction uses with
  | nil => rfl
  | cons u uses ih =>
      show ((c.close.use u).2).after uses = c.close
      rw [use_close]
      exact ih

theorem after_append (c : Cursor) (uses uses' : List Use) :
    c.after (uses ++ uses') = (c.after uses).after uses' := List.foldl_append

/-- **Whatever is done with a cursor, it follows its position as long as nothing closed it, and
answers with sentinels from then on.** -/
theorem follows_or_sentinel {entries : List Entry} (h : entries.length ≤ maxCount)
    (uses : List Use) :
    (.close ∉ uses → Follows entries ((ofEntries entries).after uses))
      ∧ (.close ∈ uses → ∀ u, (((ofEntries entries).after uses).use u).1 = u.sentinel) := by
  constructor
  · exact (follows_ofEntries h).after h
  · intro hclose u
    obtain ⟨before, behind, rfl⟩ := List.append_of_mem hclose
    have hclosed : (ofEntries entries).after (before ++ .close :: behind)
        = ((ofEntries entries).after before).close := by
      rw [after_append]
      exact after_close _ behind
    rw [hclosed, use_close]

/-- A move far behind the last entry and one back, then closing. -/
theorem follows_or_sentinel_of_far_move :
    [Entry.mk [1] [2], ⟨[3], [4]⟩].length ≤ maxCount
      ∧ Use.close ∉ [.move .next, .move (.by 2147483647), .move .previous]
      ∧ ((ofEntries [⟨[1], [2]⟩, ⟨[3], [4]⟩]).after
          [.move .next, .move (.by 2147483647), .move .previous]).entry = .ok ⟨[3], [4]⟩
      ∧ Use.close ∈ [.move .next, .close, .move .first]
      ∧ (((ofEntries [⟨[1], [2]⟩, ⟨[3], [4]⟩]).after
          [.move .next, .close, .move .first]).use (.ask .position)).1 = .number (-2147483648) := by
  have hcount : [Entry.mk [1] [2], ⟨[3], [4]⟩].length ≤ maxCount := by decide
  have hopen := (follows_or_sentinel hcount
    [.move .next, .move (.by 2147483647), .move .previous]).1 (by decide)
  have hclosed := (follows_or_sentinel hcount [.move .next, .close, .move .first]).2 (by decide)
  exact ⟨hcount, by decide, (hopen.entry_eq_ok_iff _).mpr ⟨1, by decide, rfl⟩, by decide,
    hclosed (.ask .position)⟩

end PeerStore.Cursor
