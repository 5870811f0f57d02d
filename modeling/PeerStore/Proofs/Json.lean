import Mathlib.Data.Nat.Basic
import PeerStore.Query.Document

/-!
# Numbers in documents

Every number that is read from a document is the rounding of a fraction, so it is not NaN
(`Json.isNaN_of_number?`). The lexer and the reader put values together and make up no others
(`Json.comparable_of_lex?`, `Json.comparable_of_build?`). So all numbers of a document can be
compared, wherever a path leads (**`Query.isNaN_of_lookup?`**).
-/

set_option autoImplicit false

namespace PeerStore

/-! ## Doubles -/

namespace Double

theorem magnitude_ofParts {m : Nat} (negative : Bool) (h : m < Nat.pow 2 63) :
    (ofParts negative m).magnitude = m := by
  have hpow : Nat.pow 2 63 = 9223372036854775808 := rfl
  unfold ofParts magnitude
  rw [hpow] at h
  rw [hpow, UInt64.toNat_ofNat']
  cases negative with
  | false =>
      rw [if_neg Bool.false_ne_true]
      omega
  | true =>
      rw [if_pos rfl]
      omega

theorem infinite_lt : infinite < Nat.pow 2 63 := by decide

/-- A number whose magnitude is at most that of infinity is not NaN. -/
theorem isNaN_ofParts {m : Nat} (negative : Bool) (h : m ≤ infinite) :
    (ofParts negative m).isNaN = false := by
  rw [isNaN, magnitude_ofParts negative (Nat.lt_of_le_of_lt h infinite_lt)]
  exact decide_eq_false (Nat.not_lt_of_le h)

/-- **Rounding a fraction does not give NaN.** -/
theorem isNaN_ofRatio (negative : Bool) (num den : Nat) :
    (ofRatio negative num den).isNaN = false := by
  unfold ofRatio
  split
  · exact isNaN_ofParts negative (Nat.zero_le _)
  · exact isNaN_ofParts negative (Nat.min_le_right _ _)

theorem isNaN_times (x y : Double) : (x.times y).isNaN = false := isNaN_ofRatio ..

theorem isNaN_dividedBy (x y : Double) : (x.dividedBy y).isNaN = false := isNaN_ofRatio ..

end Double

namespace Json

/-! ## Numbers -/

theorem isNaN_scaleDown {x : Double} (k : Nat) (h : x.isNaN = false) :
    (scaleDown x k).isNaN = false := by
  fun_induction scaleDown x k with
  | case1 => exact Double.isNaN_dividedBy ..
  | case2 => exact h
  | case3 x k _ _ ih => exact ih (Double.isNaN_dividedBy ..)

theorem isNaN_of_scale? {n : Scaled} {x : Double} (h : scale? n = some x) : x.isNaN = false := by
  unfold scale? at h
  dsimp only at h
  split at h
  · cases h
    exact isNaN_scaleDown _ (Double.isNaN_ofRatio ..)
  · split at h
    · split at h
      · cases h
      · cases h
        exact Double.isNaN_times ..
    · split at h
      · cases h
        exact Double.isNaN_ofRatio ..
      · cases h

theorem isNaN_of_readUnsigned? {cs : List Char} {x : Double} (h : readUnsigned? cs = some x) :
    x.isNaN = false := by
  unfold readUnsigned? at h
  dsimp only at h
  split at h
  · cases h
  · split at h
    · split at h
      · cases h
        exact Double.isNaN_ofRatio ..
      · exact isNaN_of_scale? h
    · split at h
      · cases h
      · split at h
        · cases h
        · exact isNaN_of_scale? h
    · split at h
      · cases h
      · exact isNaN_of_scale? h

/-- **No number is read as NaN.** -/
theorem isNaN_of_number? {cs : List Char} {x : Double} (h : number? cs = some x) :
    x.isNaN = false := by
  unfold number? at h
  split at h
  · obtain ⟨y, hy, rfl⟩ := Option.map_eq_some_iff.mp h
    have hle : y.magnitude ≤ Double.infinite := by
      have hnot := isNaN_of_readUnsigned? hy
      rw [Double.isNaN, decide_eq_false_iff_not] at hnot
      exact Nat.le_of_not_lt hnot
    exact Double.isNaN_ofParts true hle
  · exact isNaN_of_readUnsigned? h

/-! ## Values -/

/-- Whether no number in a value is NaN, so that all can be compared. -/
inductive Comparable : Json → Prop where
  | null : Comparable .null
  | bool (b : Bool) : Comparable (.bool b)
  | num {x : Double} : x.isNaN = false → Comparable (.num x)
  | str (s : String) : Comparable (.str s)
  | arr {items : List Json} : (∀ v ∈ items, Comparable v) → Comparable (.arr items)
  | obj {members : List (String × Json)} : (∀ m ∈ members, Comparable m.2) →
      Comparable (.obj members)

/-- What each step keeps is kept by all. -/
theorem foldlM_keeps {σ α : Type} {step : σ → α → Option σ} {Inv : σ → Prop} {xs : List α}
    {s t : σ} (hs : Inv s) (hstep : ∀ s x t, x ∈ xs → Inv s → step s x = some t → Inv t)
    (h : xs.foldlM step s = some t) : Inv t := by
  induction xs generalizing s with
  | nil =>
      cases h
      exact hs
  | cons x xs ih =>
      rw [List.foldlM_cons, Option.bind_eq_bind, Option.bind_eq_some_iff] at h
      obtain ⟨s', hs', h⟩ := h
      exact ih (hstep s x s' (List.mem_cons_self ..) hs hs')
        (fun s x t hx => hstep s x t (List.mem_cons_of_mem _ hx)) h

/-! ## The lexer -/

/-- Whether the value of a token, if it has one, can be compared. -/
def Token.Comparable : Token → Prop
  | .value v => v.Comparable
  | _ => True

theorem comparable_of_atom? {cs : List Char} {v : Json} (h : atom? cs = some v) : v.Comparable := by
  unfold atom? at h
  split at h
  · cases h
    exact .null
  · cases h
    exact .bool true
  · cases h
    exact .bool false
  · obtain ⟨x, hx, rfl⟩ := Option.map_eq_some_iff.mp h
    exact .num (isNaN_of_number? hx)

/-- A character between tokens adds a punctuation mark at most. -/
theorem comparable_between? {seen : List Token} (h : ∀ t ∈ seen, t.Comparable) (c : Char) :
    ∀ t ∈ (between? seen c).2, t.Comparable := by
  unfold between?
  split
  all_goals first
    | exact h
    | exact List.forall_mem_cons.mpr ⟨trivial, h⟩

theorem comparable_of_lexStep? {s t : Lexing × List Token} {c : Char}
    (h : ∀ u ∈ s.2, u.Comparable) (hstep : lexStep? s c = some t) : ∀ u ∈ t.2, u.Comparable := by
  obtain ⟨state, seen⟩ := s
  cases state with
  | between =>
      cases hstep
      exact comparable_between? h c
  | atom cs =>
      rw [lexStep?] at hstep
      split at hstep
      · obtain ⟨v, hv, rfl⟩ := Option.map_eq_some_iff.mp hstep
        have hvalue : Token.Comparable (.value v) := comparable_of_atom? hv
        exact comparable_between? (List.forall_mem_cons.mpr ⟨hvalue, h⟩) c
      · cases hstep
        exact h
  | text cs =>
      rw [lexStep?] at hstep
      split_ifs at hstep
      · cases hstep
        exact List.forall_mem_cons.mpr ⟨.str _, h⟩
      · cases hstep
        exact h
      · cases hstep
        exact h
  -- the other states are inside a string, and add no token
  | escape cs =>
      rw [lexStep?] at hstep
      split_ifs at hstep
      · cases hstep
        exact h
      · obtain ⟨e, -, rfl⟩ := Option.map_eq_some_iff.mp hstep
        exact h
  | hex cs high left code =>
      rw [lexStep?] at hstep
      cases hdigit : hexDigit? c with
      | none =>
          rw [hdigit] at hstep
          cases hstep
      | some d =>
          rw [hdigit] at hstep
          dsimp only at hstep
          split_ifs at hstep
          · obtain ⟨l, -, rfl⟩ := Option.map_eq_some_iff.mp hstep
            exact h
          · cases hstep
            exact h
  | lowSlash cs high =>
      rw [lexStep?] at hstep
      split_ifs at hstep
      cases hstep
      exact h
  | lowMark cs high =>
      rw [lexStep?] at hstep
      split_ifs at hstep
      cases hstep
      exact h

theorem comparable_of_lex? {cs : List Char} {ts : List Token} (h : lex? cs = some ts) :
    ∀ t ∈ ts, t.Comparable := by
  have hkeeps (s : Lexing × List Token) (hfold : cs.foldlM lexStep? (.between, []) = some s) :
      ∀ t ∈ s.2, t.Comparable :=
    foldlM_keeps (List.forall_mem_nil _) (fun _ _ _ _ hs => comparable_of_lexStep? hs) hfold
  unfold lex? at h
  split at h
  · rename_i seen hfold
    cases h
    intro t ht
    exact hkeeps _ hfold t (List.mem_reverse.mp ht)
  · rename_i a seen hfold
    obtain ⟨v, hv, rfl⟩ := Option.map_eq_some_iff.mp h
    intro t ht
    rcases List.mem_cons.mp (List.mem_reverse.mp ht) with rfl | ht
    · exact comparable_of_atom? hv
    · exact hkeeps _ hfold t ht
  · cases h

/-! ## The reader -/

/-- Whether all values in an open container can be compared. -/
def Frame.Comparable : Frame → Prop
  | .list items => ∀ v ∈ items, v.Comparable
  | .record members _ => ∀ m ∈ members, m.2.Comparable

/-- Whether all values of an unfinished document can be compared. -/
def Building.Comparable (b : Building) : Prop :=
  (∀ f ∈ b.1, f.Comparable) ∧ ∀ v, b.2 = .nothing v → v.Comparable

theorem comparable_place {v : Json} {fs : List Frame} (hv : v.Comparable)
    (hfs : ∀ f ∈ fs, f.Comparable) : Building.Comparable (place v fs) := by
  cases fs with
  | nil =>
      refine ⟨List.forall_mem_nil _, ?_⟩
      rintro _ ⟨⟩
      exact hv
  | cons f fs =>
      obtain ⟨hf, hrest⟩ := List.forall_mem_cons.mp hfs
      cases f with
      | list items =>
          exact ⟨List.forall_mem_cons.mpr ⟨List.forall_mem_cons.mpr ⟨hv, hf⟩, hrest⟩, nofun⟩
      | record members name =>
          refine ⟨List.forall_mem_cons.mpr ⟨fun m hm => ?_, hrest⟩, nofun⟩
          rcases Entries.mem_insert hm with rfl | hm
          · exact hv
          · exact hf m hm

theorem comparable_of_push? {f : Frame} {w : Want} {fs : List Frame} {b : Building}
    (hf : f.Comparable) (hw : ∀ v, w ≠ .nothing v) (hfs : ∀ f ∈ fs, f.Comparable)
    (h : push? f w fs = some b) : b.Comparable := by
  unfold push? at h
  split at h
  · cases h
    exact ⟨List.forall_mem_cons.mpr ⟨hf, hfs⟩, fun v hv => absurd hv (hw v)⟩
  · cases h

theorem comparable_of_buildStep? {b b' : Building} {t : Token} (hb : b.Comparable)
    (ht : t.Comparable) (h : buildStep? b t = some b') : b'.Comparable := by
  unfold buildStep? at h
  split at h
  case h_1 | h_2 =>
    cases h
    exact comparable_place ht hb.1
  case h_3 | h_4 =>
    have hframe : Frame.Comparable (.list []) := List.forall_mem_nil _
    exact comparable_of_push? hframe (fun _ => Want.noConfusion) hb.1 h
  case h_5 | h_6 =>
    have hframe : Frame.Comparable (.record [] "") := List.forall_mem_nil _
    exact comparable_of_push? hframe (fun _ => Want.noConfusion) hb.1 h
  case h_7 | h_8 =>
    cases h
    obtain ⟨hitems, hrest⟩ := List.forall_mem_cons.mp hb.1
    exact comparable_place (.arr fun v hv => hitems v (List.mem_reverse.mp hv)) hrest
  case h_9 | h_10 =>
    -- only the name changes for which a value comes next
    cases h
    obtain ⟨hmembers, hrest⟩ := List.forall_mem_cons.mp hb.1
    exact ⟨List.forall_mem_cons.mpr ⟨hmembers, hrest⟩, nofun⟩
  case h_11 | h_12 =>
    cases h
    obtain ⟨hmembers, hrest⟩ := List.forall_mem_cons.mp hb.1
    exact comparable_place (.obj hmembers) hrest
  case h_13 | h_14 | h_15 =>
    cases h
    exact ⟨hb.1, nofun⟩
  case h_16 => cases h

theorem comparable_of_build? {ts : List Token} {v : Json} (hts : ∀ t ∈ ts, t.Comparable)
    (h : build? ts = some v) : v.Comparable := by
  unfold build? at h
  split at h
  · rename_i hfold
    cases h
    have hstart : Building.Comparable ([], .value) := ⟨List.forall_mem_nil _, nofun⟩
    have hend := foldlM_keeps hstart
      (fun b t b' ht hb => comparable_of_buildStep? hb (hts t ht)) hfold
    exact hend.2 v rfl
  · cases h

/-- **No number in a document is NaN.** -/
theorem comparable_of_read? {bytes : Blob} {v : Json} (h : read? bytes = some v) :
    v.Comparable := by
  obtain ⟨cs, -, h⟩ := Option.bind_eq_some_iff.mp h
  obtain ⟨ts, hts, h⟩ := Option.bind_eq_some_iff.mp h
  exact comparable_of_build? (comparable_of_lex? hts) h

end Json

/-! ## Fields -/

theorem Blob.comparable_of_document? {value : Blob} {doc : Json} (h : value.document? = some doc) :
    doc.Comparable :=
  Json.comparable_of_read? (Option.filter_eq_some_iff.mp h).1

namespace Query

theorem comparable_of_child? {doc v : Json} {segment : String} (hdoc : doc.Comparable)
    (h : child? doc segment = some v) : v.Comparable := by
  unfold child? at h
  split at h
  · cases hdoc with
    | obj hmembers => exact hmembers _ (Entries.mem_of_get?_eq_some h)
  · cases hdoc with
    | arr hitems =>
        obtain ⟨i, -, hitem⟩ := Option.bind_eq_some_iff.mp h
        exact hitems v (List.mem_of_getElem? hitem)
  · cases h

theorem comparable_of_follow? {doc v : Json} {path : List String} (hdoc : doc.Comparable)
    (h : follow? doc path = some v) : v.Comparable := by
  induction path generalizing doc with
  | nil =>
      cases h
      exact hdoc
  | cons segment path ih =>
      obtain ⟨d, hd, h⟩ := Option.bind_eq_some_iff.mp h
      exact ih (comparable_of_child? hdoc hd) h

/-- **No field of a document is NaN.** -/
theorem isNaN_of_lookup? {value : Blob} {field : String} {x : Double}
    (h : lookup? value.document? field = some (.num x)) : x.isNaN = false := by
  obtain ⟨doc, hdoc, h⟩ := Option.bind_eq_some_iff.mp h
  cases comparable_of_follow? (Blob.comparable_of_document? hdoc) h with
  | num hx => exact hx

end Query

end PeerStore
