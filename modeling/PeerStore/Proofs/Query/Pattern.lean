import Mathlib.Data.List.Forall2
import Mathlib.Data.List.Infix
import PeerStore.Query.Pattern

/-!
# What a pattern matches

A text matches a pattern if it can be cut into pieces, one for each character of the pattern and in
their order, such that each piece is what its character stands for (`Cut`, `StandsFor`). The scan
looks for such a cut without ever going back behind the last run. That loses no text: between two
runs the pattern has a fixed length, so whatever the earlier run takes up more is missing from the
text that is left for the later one, which could have taken it up itself (`Behind.cut`). So the
scan finds a cut whenever there is one (**`like_iff_cut`**).
-/

set_option autoImplicit false

namespace PeerStore.Query

/-! ## Cuts -/

/-- What a character of a pattern stands for: `%` for any piece, `_` for every piece of one
character, and any other character for itself. -/
inductive StandsFor : Char → List Char → Prop where
  | run (piece : List Char) : StandsFor '%' piece
  | one (c : Char) : StandsFor '_' [c]
  | same {c : Char} : c ≠ '%' → c ≠ '_' → StandsFor c [c]

/-- Whether a text can be cut into pieces that the characters of a pattern stand for. -/
def Cut (pattern text : List Char) : Prop :=
  ∃ pieces : List (List Char), List.Forall₂ StandsFor pattern pieces ∧ pieces.flatten = text

theorem cut_nil_iff {text : List Char} : Cut [] text ↔ text = [] := by
  constructor
  · rintro ⟨pieces, hpieces, rfl⟩
    cases hpieces
    rfl
  · rintro rfl
    exact ⟨[], .nil, rfl⟩

theorem cut_cons_iff {p : Char} {pattern text : List Char} :
    Cut (p :: pattern) text ↔
      ∃ piece rest, StandsFor p piece ∧ Cut pattern rest ∧ text = piece ++ rest := by
  constructor
  · rintro ⟨pieces, hpieces, rfl⟩
    cases hpieces with
    | cons hpiece hrest => exact ⟨_, _, hpiece, ⟨_, hrest, rfl⟩, rfl⟩
  · rintro ⟨piece, _, hpiece, ⟨pieces, hrest, rfl⟩, rfl⟩
    exact ⟨piece :: pieces, .cons hpiece hrest, rfl⟩

/-- Behind a run the pattern may be cut from any end of the text. -/
theorem cut_run_iff {pattern text : List Char} :
    Cut ('%' :: pattern) text ↔ ∃ rest, rest <:+ text ∧ Cut pattern rest := by
  rw [cut_cons_iff]
  constructor
  · rintro ⟨piece, rest, -, hrest, rfl⟩
    exact ⟨rest, List.suffix_append piece rest, hrest⟩
  · rintro ⟨rest, ⟨piece, rfl⟩, hrest⟩
    exact ⟨piece, rest, .run piece, hrest, rfl⟩

/-- More text in front does no harm to a pattern that begins with a run. -/
theorem Cut.run_of_suffix {pattern text longer : List Char} (h : Cut ('%' :: pattern) text)
    (hsuffix : text <:+ longer) : Cut ('%' :: pattern) longer := by
  obtain ⟨rest, hrest, hcut⟩ := cut_run_iff.mp h
  exact cut_run_iff.mpr ⟨rest, hrest.trans hsuffix, hcut⟩

/-- A character other than a run stands for one character. -/
theorem cut_one_iff {p : Char} {pattern text : List Char} (hp : p ≠ '%') :
    Cut (p :: pattern) text ↔
      ∃ c rest, text = c :: rest ∧ (p = '_' ∨ p = c) ∧ Cut pattern rest := by
  rw [cut_cons_iff]
  constructor
  · rintro ⟨piece, rest, hpiece, hrest, rfl⟩
    cases hpiece with
    | run => exact absurd rfl hp
    | one c => exact ⟨c, rest, rfl, .inl rfl, hrest⟩
    | same => exact ⟨p, rest, rfl, .inr rfl, hrest⟩
  · rintro ⟨c, rest, rfl, hc, hrest⟩
    by_cases hone : p = '_'
    · subst hone
      exact ⟨[c], rest, .one c, hrest, rfl⟩
    · obtain rfl := hc.resolve_left hone
      exact ⟨[p], rest, .same hp hone, hrest, rfl⟩

/-- A run takes up nothing, or one character and whatever a run takes up behind it. -/
theorem cut_run_tail_iff {pattern text : List Char} :
    Cut ('%' :: pattern) text ↔ Cut pattern text ∨ Cut ('%' :: pattern) text.tail := by
  rw [cut_run_iff, cut_run_iff]
  constructor
  · rintro ⟨rest, hrest, hcut⟩
    cases text with
    | nil => exact .inr ⟨rest, hrest, hcut⟩
    | cons c text =>
        rcases List.suffix_cons_iff.mp hrest with rfl | hrest
        · exact .inl hcut
        · exact .inr ⟨rest, hrest, hcut⟩
  · rintro (hcut | ⟨rest, hrest, hcut⟩)
    · exact ⟨text, List.suffix_refl text, hcut⟩
    · exact ⟨rest, hrest.trans (List.tail_suffix text), hcut⟩

/-- Nothing is left of a text for other characters than runs. -/
theorem cut_nil_right_iff {pattern : List Char} :
    Cut pattern [] ↔ pattern.all (· == '%') = true := by
  induction pattern with
  | nil => exact iff_of_true (cut_nil_iff.mpr rfl) rfl
  | cons p pattern ih =>
      rw [List.all_cons, Bool.and_eq_true, beq_iff_eq, ← ih]
      by_cases hp : p = '%'
      · subst hp
        rw [cut_run_iff]
        simp
      · rw [cut_one_iff hp]
        simp [hp]

/-- **A pattern without runs has a fixed length**, so it leaves the text behind that length. -/
theorem Cut.drop {front pattern text : List Char} (hfront : '%' ∉ front)
    (h : Cut (front ++ pattern) text) : Cut pattern (text.drop front.length) := by
  induction front generalizing text with
  | nil => exact h
  | cons p front ih =>
      rw [List.mem_cons, not_or] at hfront
      obtain ⟨c, rest, rfl, -, hrest⟩ := (cut_one_iff (Ne.symm hfront.1)).mp h
      exact ih hfront.2 hrest

/-! ## Scanning -/

theorem scan_cons (c : Char) (rest pattern : List Char) (last : Option Run) :
    scan (c :: rest) pattern last =
      if pattern.head? = some '%' then
        scan (c :: rest) pattern.tail (some ⟨c :: rest, pattern.tail⟩)
      else if pattern.head? = some '_' ∨ pattern.head? = some c then scan rest pattern.tail last
      else
        match last with
        | some run => scan run.text.tail run.pattern (some ⟨run.text.tail, run.pattern⟩)
        | none => false :=
  scan.eq_def (c :: rest) pattern last

/-- Whether a scan is where it has come to from its last run, if there is one, with no further run
in between: it has gone as far in the text as in the pattern. -/
def Behind (text pattern : List Char) (last : Option Run) : Prop :=
  ∀ run ∈ last, ∃ taken front : List Char, '%' ∉ front ∧ taken.length = front.length
    ∧ run.text = taken ++ text ∧ run.pattern = front ++ pattern

/-- Whether the run of the last `%` can take up more, such that the rest is cut along the pattern
behind it. -/
def CutLater (last : Option Run) : Prop :=
  ∃ run ∈ last, Cut ('%' :: run.pattern) run.text.tail

theorem cutLater_some_iff {run : Run} :
    CutLater (some run) ↔ Cut ('%' :: run.pattern) run.text.tail := by
  simp [CutLater]

theorem not_cutLater_none : ¬CutLater none := nofun

section

variable {text pattern : List Char} {last : Option Run}

theorem Behind.next {c p : Char} (h : Behind (c :: text) (p :: pattern) last) (hp : p ≠ '%') :
    Behind text pattern last := by
  intro run hrun
  obtain ⟨taken, front, hfront, hlength, htext, hpattern⟩ := h run hrun
  refine ⟨taken ++ [c], front ++ [p], ?_, ?_, ?_, ?_⟩
  · rw [List.mem_append, not_or, List.mem_singleton]
    exact ⟨hfront, Ne.symm hp⟩
  · rw [List.length_append, List.length_append, hlength]
    rfl
  · rw [htext, List.append_assoc]
    rfl
  · rw [hpattern, List.append_assoc]
    rfl

theorem behind_run (text pattern : List Char) :
    Behind text pattern (some ⟨text, pattern⟩) := by
  rintro run ⟨⟩
  exact ⟨[], [], List.not_mem_nil, rfl, rfl, rfl⟩

/-- **What an earlier run takes up more, a later run can take up.** -/
theorem Behind.cut (h : Behind text pattern last) (hlater : CutLater last) :
    ∃ rest, rest <:+ text ∧ Cut pattern rest := by
  obtain ⟨run, hrun, hcut⟩ := hlater
  obtain ⟨taken, front, hfront, hlength, htext, hpattern⟩ := h run hrun
  obtain ⟨rest, hrest, hcut⟩ := cut_run_iff.mp hcut
  rw [hpattern] at hcut
  refine ⟨rest.drop front.length, ?_, hcut.drop hfront⟩
  -- what is behind the front at a later place is part of what is behind it at the first one
  obtain ⟨more, hmore⟩ := hrest.trans (List.tail_suffix run.text)
  have hdrop : (more ++ rest).drop front.length = text := by
    rw [hmore, htext, ← hlength, List.drop_left]
  rw [← hdrop, List.drop_append]
  exact List.suffix_append_of_suffix
    (List.drop_suffix_drop_left rest (Nat.sub_le front.length more.length))

/-- Where the pattern has no run, a cut goes on with one character on either side. -/
theorem cut_cons_iff_of_head {c : Char} (hrun : pattern.head? ≠ some '%') :
    Cut pattern (c :: text) ↔
      (pattern.head? = some '_' ∨ pattern.head? = some c) ∧ Cut pattern.tail text := by
  cases pattern with
  | nil => simp [cut_nil_iff]
  | cons p pattern =>
      have hp : p ≠ '%' := fun hp => hrun (congrArg some hp)
      rw [cut_one_iff hp]
      simp

/-- **A scan finds the cuts of the text, and those in which the last run takes up more.** -/
theorem scan_iff (h : Behind text pattern last) :
    scan text pattern last = true ↔ Cut pattern text ∨ CutLater last := by
  induction text, pattern, last using scan.induct with
  | case1 pattern last =>
      rw [scan, ← cut_nil_right_iff]
      refine ⟨.inl, ?_⟩
      rintro (hcut | hlater)
      · exact hcut
      · obtain ⟨rest, hrest, hcut⟩ := h.cut hlater
        rwa [List.suffix_nil.mp hrest] at hcut
  | case2 pattern last c rest hhead ih =>
      obtain ⟨pattern, rfl⟩ := List.head?_eq_some_iff.mp hhead
      rw [scan_cons, if_pos hhead, ih (behind_run _ _), cutLater_some_iff, List.tail_cons]
      refine cut_run_tail_iff.symm.trans ⟨.inl, ?_⟩
      rintro (hcut | hlater)
      · exact hcut
      · obtain ⟨behind, hbehind, hcut⟩ := h.cut hlater
        exact hcut.run_of_suffix hbehind
  | case3 pattern last c rest hrun hhead ih =>
      cases pattern with
      | nil => simp at hhead
      | cons p pattern =>
          have hp : p ≠ '%' := fun hp => hrun (congrArg some hp)
          rw [scan_cons, if_neg hrun, if_pos hhead, ih (h.next hp), cut_cons_iff_of_head hrun]
          simp only [hhead, true_and]
  | case4 pattern c rest hrun hstuck run ih =>
      rw [scan_cons, if_neg hrun, if_neg hstuck]
      dsimp only
      rw [ih (behind_run _ _), cutLater_some_iff, cutLater_some_iff, ← cut_run_tail_iff,
        cut_cons_iff_of_head hrun]
      simp only [hstuck, false_and, false_or]
  | case5 pattern c rest hrun hstuck =>
      rw [scan_cons, if_neg hrun, if_neg hstuck, cut_cons_iff_of_head hrun]
      simp [hstuck, not_cutLater_none]

end

/-- **A text matches a pattern exactly if it can be cut into pieces that the characters of the
pattern stand for, in their order.** -/
theorem like_iff_cut (text pattern : String) :
    like text pattern = true ↔ Cut pattern.toList text.toList := by
  have hstart : Behind text.toList pattern.toList none := nofun
  rw [like, scan_iff hstart, or_iff_left not_cutLater_none]

/-- The run takes up the first `abc`, behind which the pattern ends too early. -/
example : like "abcabc" "%abc" = true := by cbv

end PeerStore.Query
