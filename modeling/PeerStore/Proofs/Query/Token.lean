import Mathlib.Data.List.Basic
import PeerStore.Query.Builder

/-!
# Tokens as text

Tokens with spaces between them are cut apart again (**`tokenize_joined`**, `tokenize_render`), as
long as each of them is a token: not empty, and without a space. An escaped literal is one
(`IsToken.escape`), reads back as the literal (**`unescape_escape`**), and is never a word that
would be written otherwise (`escape_ne`). Escaping and reading back come to replacing texts, one
after the other (**`escape_and_unescape_replace`**).
-/

set_option autoImplicit false

namespace PeerStore.Query

/-! ## Escaped literals -/

/-- How a caret of a literal is written, with its spaces read back already. -/
def escapeCaret (c : Char) : List Char := if c = '^' then ['(', '^', ')'] else [c]

theorem unescapeSpaces_cons {c : Char} (h : c ≠ '^') (cs : List Char) :
    unescapeSpaces (c :: cs) = c :: unescapeSpaces cs := by
  rw [unescapeSpaces]
  intro cs' hc
  exact absurd hc h

/-- The carets of a literal are no spaces: each of them stands between parentheses. -/
theorem unescapeSpaces_flatMap (cs : List Char) :
    unescapeSpaces (cs.flatMap escapeChar) = cs.flatMap escapeCaret := by
  induction cs with
  | nil => rfl
  | cons c cs ih =>
      simp only [List.flatMap_cons, escapeChar, escapeCaret]
      by_cases hcaret : c = '^'
      · simp [hcaret, unescapeSpaces, ih]
      by_cases hspace : c = ' '
      · simp [hspace, unescapeSpaces, ih]
      · simp [hcaret, hspace, unescapeSpaces_cons, ih]

/-- No written caret follows a written character at once. -/
theorem head?_flatMap_escapeCaret (cs : List Char) : (cs.flatMap escapeCaret).head? ≠ some '^' := by
  cases cs with
  | nil => simp
  | cons c cs =>
      by_cases hcaret : c = '^' <;> simp [List.flatMap_cons, escapeCaret, hcaret]

theorem unescapeCarets_flatMap (cs : List Char) : unescapeCarets (cs.flatMap escapeCaret) = cs := by
  induction cs with
  | nil => rfl
  | cons c cs ih =>
      by_cases hcaret : c = '^'
      · simp [List.flatMap_cons, escapeCaret, hcaret, unescapeCarets, ih]
      · -- A parenthesis of the literal is read as it is: what follows does not begin with a caret.
        have hhead := head?_flatMap_escapeCaret cs
        have hc : (c :: cs).flatMap escapeCaret = c :: cs.flatMap escapeCaret := by
          simp [List.flatMap_cons, escapeCaret, hcaret]
        rw [hc, unescapeCarets, ih]
        rintro cs' - hrest
        exact hhead (by rw [hrest]; rfl)

theorem unescape_flatMap (cs : List Char) :
    unescapeCarets (unescapeSpaces (cs.flatMap escapeChar)) = cs := by
  rw [unescapeSpaces_flatMap, unescapeCarets_flatMap]

/-- **A literal reads back as it was.** -/
theorem unescape_escape (s : String) : unescape (escape s) = s := by
  unfold escape
  split
  · rename_i hempty
    rw [show unescape emptyLiteral = "" from if_pos rfl]
    exact (String.toList_inj.mp (List.isEmpty_iff.mp hempty)).symm
  · have hword : String.ofList (s.toList.flatMap escapeChar) ≠ emptyLiteral := by
      intro h
      have hlist : s.toList.flatMap escapeChar = emptyLiteral.toList := by
        rw [← h, String.toList_ofList]
      -- Were the word an escaped literal, it would be escaped from what it reads back as.
      have hs := unescape_flatMap s.toList
      rw [hlist] at hs
      rw [← hs] at hlist
      exact absurd hlist (by decide)
    rw [unescape, if_neg hword, String.toList_ofList, unescape_flatMap, String.ofList_toList]

/-- An escaped literal is no word that would be written otherwise. -/
theorem escape_ne {word : String} (h : escape (unescape word) ≠ word) (s : String) :
    escape s ≠ word := by
  rintro rfl
  exact h (by rw [unescape_escape])

theorem escape_ne_keyword (s : String) (kw : Keyword) : escape s ≠ kw.text := by
  refine escape_ne ?_ s
  cases kw <;> decide +kernel

theorem escape_ne_listEnd (s : String) : escape s ≠ listEnd := escape_ne (by decide +kernel) s

/-! ## Escaping as replacement -/

/-- Puts one text for every occurrence of another, which is not empty, from the left. -/
def replaceAll (old new : List Char) : List Char → List Char
  | [] => []
  | c :: cs =>
      if old.isPrefixOf (c :: cs) then new ++ replaceAll old new (cs.drop (old.length - 1))
      else c :: replaceAll old new cs
termination_by cs => cs.length
decreasing_by all_goals (simp only [List.length_drop, List.length_cons]; omega)

theorem replaceAll_singleton (old : Char) (new cs : List Char) :
    replaceAll [old] new cs = cs.flatMap fun c => if c = old then new else [c] := by
  induction cs with
  | nil => rw [replaceAll, List.flatMap_nil]
  | cons c cs ih =>
      rw [replaceAll, List.flatMap_cons, ← ih]
      by_cases hc : c = old
      · simp [hc]
      · have hne : ¬ old = c := fun h => hc h.symm
        simp [hc, hne]

/-- **Escaping replaces the carets, and then the spaces.** -/
theorem replaceAll_escape (cs : List Char) :
    replaceAll [' '] "^^".toList (replaceAll ['^'] "(^)".toList cs) = cs.flatMap escapeChar := by
  rw [replaceAll_singleton, replaceAll_singleton, List.flatMap_assoc]
  refine congrArg (cs.flatMap ·) (funext fun c => ?_)
  by_cases hcaret : c = '^'
  · subst hcaret
    decide
  · simp [escapeChar, hcaret]

theorem replaceAll_append {old : List Char} (h : old ≠ []) (new cs : List Char) :
    replaceAll old new (old ++ cs) = new ++ replaceAll old new cs := by
  obtain ⟨c, old, rfl⟩ := List.exists_cons_of_ne_nil h
  have hprefix : (c :: old).isPrefixOf (c :: (old ++ cs)) = true :=
    List.isPrefixOf_iff_prefix.mpr (List.prefix_append (c :: old) cs)
  rw [List.cons_append, replaceAll, if_pos hprefix, List.length_cons, Nat.add_sub_cancel,
    List.drop_left]

theorem replaceAll_cons {old : List Char} {c : Char} {cs : List Char} (h : ¬ old <+: c :: cs)
    (new : List Char) : replaceAll old new (c :: cs) = c :: replaceAll old new cs := by
  rw [replaceAll, if_neg (by rwa [ List.isPrefixOf_iff_prefix])]

/-- Reading spaces back replaces every two carets. -/
theorem replaceAll_unescapeSpaces (cs : List Char) :
    replaceAll "^^".toList [' '] cs = unescapeSpaces cs := by
  fun_induction unescapeSpaces cs with
  | case1 cs ih =>
      rw [← ih]
      exact replaceAll_append (by decide) [' '] cs
  | case2 c cs hother ih =>
      rw [← ih]
      refine replaceAll_cons ?_ [' ']
      rintro ⟨rest, hrest⟩
      obtain ⟨hc, hcs⟩ := List.cons.inj hrest
      exact hother rest hc.symm hcs.symm
  | case3 => rw [replaceAll]

/-- Reading carets back replaces every caret in parentheses. -/
theorem replaceAll_unescapeCarets (cs : List Char) :
    replaceAll "(^)".toList ['^'] cs = unescapeCarets cs := by
  fun_induction unescapeCarets cs with
  | case1 cs ih =>
      rw [← ih]
      exact replaceAll_append (by decide) ['^'] cs
  | case2 c cs hother ih =>
      rw [← ih]
      refine replaceAll_cons ?_ ['^']
      rintro ⟨rest, hrest⟩
      obtain ⟨hc, hcs⟩ := List.cons.inj hrest
      exact hother rest hc.symm hcs.symm
  | case3 => rw [replaceAll]

/-- **Literals are written and read by replacing texts, one after the other**: carets before spaces
on the way out, and spaces before carets on the way back. -/
theorem escape_and_unescape_replace (s : String) :
    escape s = (if s = "" then emptyLiteral
        else String.ofList (replaceAll [' '] "^^".toList (replaceAll ['^'] "(^)".toList s.toList)))
      ∧ unescape s = if s = emptyLiteral then ""
        else String.ofList
          (replaceAll "(^)".toList ['^'] (replaceAll "^^".toList [' '] s.toList)) := by
  constructor
  · rw [replaceAll_escape, escape]
    simp
  · rw [replaceAll_unescapeSpaces, replaceAll_unescapeCarets, unescape]

/-! ## Tokens -/

/-- Whether a text is a token: it is not empty, and it has no spaces. -/
structure IsToken (token : String) : Prop where
  ne_nil : token.toList ≠ []
  noSpace : ' ' ∉ token.toList

instance (token : String) : Decidable (IsToken token) :=
  decidable_of_iff (token.toList ≠ [] ∧ ' ' ∉ token.toList)
    ⟨fun h => ⟨h.1, h.2⟩, fun h => ⟨h.1, h.2⟩⟩

theorem escapeChar_ne_nil (c : Char) : escapeChar c ≠ [] := by
  unfold escapeChar
  split
  · simp
  · split <;> simp

theorem space_notMem_escapeChar (c : Char) : ' ' ∉ escapeChar c := by
  unfold escapeChar
  split
  · decide
  · split
    · decide
    · rename_i hspace
      rw [List.mem_singleton]
      exact fun h => hspace h.symm

theorem IsToken.escape (s : String) : IsToken (escape s) := by
  unfold Query.escape
  split
  · decide +kernel
  · rename_i hempty
    constructor
    · rw [String.toList_ofList]
      intro hnil
      obtain ⟨c, hc⟩ := List.exists_mem_of_ne_nil _ fun h => hempty (List.isEmpty_iff.mpr h)
      exact escapeChar_ne_nil c (List.flatMap_eq_nil_iff.mp hnil c hc)
    · rw [String.toList_ofList, List.mem_flatMap]
      rintro ⟨c, -, hc⟩
      exact space_notMem_escapeChar c hc

theorem IsToken.keyword (kw : Keyword) : IsToken kw.text := by
  cases kw <;> decide +kernel

/-! ## Rendered tokens -/

theorem joinWith_cons_cons (sep : Char) (piece piece' : List Char) (pieces : List (List Char)) :
    joinWith sep (piece :: piece' :: pieces) = piece ++ sep :: joinWith sep (piece' :: pieces) :=
  rfl

theorem joinWith_eq_intercalate (sep : Char) (pieces : List (List Char)) :
    joinWith sep pieces = [sep].intercalate pieces := by
  induction pieces with
  | nil => rfl
  | cons piece pieces ih =>
      cases pieces with
      | nil => simp [joinWith]
      | cons piece' pieces =>
          rw [joinWith_cons_cons, ih, List.intercalate_cons_cons, List.append_assoc]
          rfl

theorem flatMap_space {pieces : List (List Char)} (h : pieces ≠ []) :
    (pieces.flatMap fun piece => ' ' :: piece) = ' ' :: joinWith ' ' pieces := by
  induction pieces with
  | nil => exact absurd rfl h
  | cons piece pieces ih =>
      cases pieces with
      | nil => simp [joinWith]
      | cons piece' pieces =>
          rw [List.flatMap_cons, ih (by simp), joinWith_cons_cons, List.cons_append]

theorem joinWith_ne_nil {sep : Char} {pieces : List (List Char)} (hpieces : pieces ≠ [])
    (hne : ∀ piece ∈ pieces, piece ≠ []) : joinWith sep pieces ≠ [] := by
  obtain ⟨piece, pieces, rfl⟩ := List.exists_cons_of_ne_nil hpieces
  cases pieces with
  | nil => exact hne piece (List.mem_cons_self ..)
  | cons => simp [joinWith_cons_cons]

theorem head?_joinWith {pieces : List (List Char)} (h : ∀ piece ∈ pieces, ' ' ∉ piece)
    (hne : ∀ piece ∈ pieces, piece ≠ []) : (joinWith ' ' pieces).head? ≠ some ' ' := by
  cases pieces with
  | nil => simp [joinWith]
  | cons piece pieces =>
      obtain ⟨c, cs, rfl⟩ := List.exists_cons_of_ne_nil (hne piece (List.mem_cons_self ..))
      have hc : c ≠ ' ' := fun hc => h (c :: cs) (List.mem_cons_self ..) (by simp [hc])
      cases pieces with
      | nil => simpa [joinWith] using hc
      | cons piece' pieces => simpa [joinWith_cons_cons] using hc

theorem getLast?_joinWith {pieces : List (List Char)} (h : ∀ piece ∈ pieces, ' ' ∉ piece)
    (hne : ∀ piece ∈ pieces, piece ≠ []) : (joinWith ' ' pieces).getLast? ≠ some ' ' := by
  induction pieces with
  | nil => simp [joinWith]
  | cons piece pieces ih =>
      obtain ⟨hpiece, h⟩ := List.forall_mem_cons.mp h
      obtain ⟨-, hne⟩ := List.forall_mem_cons.mp hne
      cases pieces with
      | nil => exact fun hlast => hpiece (List.mem_of_getLast? hlast)
      | cons piece' pieces =>
          obtain ⟨c, cs, hcs⟩ :=
            List.exists_cons_of_ne_nil (joinWith_ne_nil (List.cons_ne_nil piece' pieces) hne)
          have hlast := ih h hne
          rw [joinWith_cons_cons, hcs, List.getLast?_append]
          rw [hcs] at hlast
          simpa using hlast

theorem dropSpaces {cs : List Char} (h : cs.head? ≠ some ' ') : cs.dropWhile (· == ' ') = cs := by
  cases cs with
  | nil => rfl
  | cons c cs => exact List.dropWhile_cons_of_neg (by simpa using h)

/-- Spaces at the ends of a text are dropped, and no others. -/
theorem trimSpaces_pad {cs : List Char} (hhead : cs.head? ≠ some ' ')
    (hlast : cs.getLast? ≠ some ' ') (m n : Nat) :
    trimSpaces (List.replicate m ' ' ++ cs ++ List.replicate n ' ') = cs := by
  have hspaces (k : Nat) : ∀ c ∈ List.replicate k ' ', (c == ' ') = true := by
    intro c hc
    rw [List.eq_of_mem_replicate hc]
    rfl
  unfold trimSpaces
  rw [List.append_assoc, List.dropWhile_append_of_pos (hspaces m)]
  cases cs with
  | nil =>
      -- Nothing but spaces: those of both ends go at once.
      rw [List.nil_append, List.dropWhile_replicate]
      rfl
  | cons c cs =>
      have hfront : ((c :: cs) ++ List.replicate n ' ').head? ≠ some ' ' := by simpa using hhead
      rw [dropSpaces hfront, List.reverse_append, List.reverse_replicate,
        List.dropWhile_append_of_pos (hspaces n), dropSpaces (by rwa [List.head?_reverse]),
        List.reverse_reverse]

/-- **Tokens joined by spaces are cut apart again**, whatever spaces stand around them. -/
theorem tokenize_joined {tokens : List String} (h : ∀ token ∈ tokens, IsToken token)
    (m n : Nat) :
    tokenize (String.ofList (List.replicate m ' ' ++ joinWith ' ' (tokens.map String.toList)
      ++ List.replicate n ' ')) = tokens := by
  have hspace : ∀ piece ∈ tokens.map String.toList, ' ' ∉ piece :=
    List.forall_mem_map.mpr fun token htoken => (h token htoken).noSpace
  have hne : ∀ piece ∈ tokens.map String.toList, piece ≠ [] :=
    List.forall_mem_map.mpr fun token htoken => (h token htoken).ne_nil
  unfold tokenize
  rw [String.toList_ofList,
    trimSpaces_pad (head?_joinWith hspace hne) (getLast?_joinWith hspace hne)]
  by_cases hnil : tokens = []
  · subst hnil
    rfl
  · have hpieces : tokens.map String.toList ≠ [] := by simpa using hnil
    split
    · rename_i hempty
      exact absurd hempty (joinWith_ne_nil hpieces hne)
    · rw [split_joinWith hpieces hspace, List.map_map]
      simp [Function.comp_def]

/-- **Rendered tokens are cut apart again.** -/
theorem tokenize_render {tokens : List String} (h : ∀ token ∈ tokens, IsToken token) :
    tokenize (Builder.render tokens) = tokens := by
  by_cases hnil : tokens = []
  · subst hnil
    decide +kernel
  · have hpieces : tokens.map String.toList ≠ [] := by simpa using hnil
    -- The first token has one space in front of it, as each of the others.
    have htext : Builder.render tokens = String.ofList
        (List.replicate 1 ' ' ++ joinWith ' ' (tokens.map String.toList)
          ++ List.replicate 0 ' ') := by
      have hflat := flatMap_space hpieces
      rw [List.flatMap_map] at hflat
      rw [Builder.render, hflat]
      simp
    rw [htext]
    exact tokenize_joined h 1 0

/-- **Escaped literals come through query text.** An escaped literal is one token: it is not empty
and has no spaces. It is no keyword and no mark, it is the word for the empty literal only if the
literal is empty, and it reads back as the literal. Escaped literals with single spaces between
them, and any spaces around them, are cut into exactly these tokens. -/
theorem escaped_literals_come_through :
    (∀ s : String,
      escape s ≠ "" ∧ ' ' ∉ (escape s).toList
        ∧ (∀ kw : Keyword, escape s ≠ kw.text)
        ∧ escape s ≠ listStart ∧ escape s ≠ listEnd
        ∧ escape s ≠ ascendingMark ∧ escape s ≠ descendingMark
        ∧ (escape s = emptyLiteral ↔ s = "")
        ∧ unescape (escape s) = s)
      ∧ ∀ (literals : List String) (leading trailing : Nat),
          tokenize (String.ofList (List.replicate leading ' ')
              ++ " ".intercalate (literals.map escape)
              ++ String.ofList (List.replicate trailing ' '))
            = literals.map escape := by
  constructor
  · intro s
    have htoken : IsToken (escape s) := .escape s
    have hempty : escape s = emptyLiteral ↔ s = "" := by
      constructor
      · intro h
        have hback := unescape_escape s
        rw [h, show unescape emptyLiteral = "" from if_pos rfl] at hback
        exact hback.symm
      · rintro rfl
        rfl
    refine ⟨?_, htoken.noSpace, escape_ne_keyword s, ?_, escape_ne_listEnd s, ?_, ?_, hempty,
      unescape_escape s⟩
    · intro h
      exact htoken.ne_nil (by rw [h]; rfl)
    · exact escape_ne (by decide +kernel) s
    · exact escape_ne (by decide +kernel) s
    · exact escape_ne (by decide +kernel) s
  · intro literals leading trailing
    have htokens : ∀ token ∈ literals.map escape, IsToken token := by
      intro token htoken
      obtain ⟨s, -, rfl⟩ := List.mem_map.mp htoken
      exact .escape s
    have htext : String.ofList (List.replicate leading ' ')
          ++ " ".intercalate (literals.map escape) ++ String.ofList (List.replicate trailing ' ')
        = String.ofList (List.replicate leading ' '
          ++ joinWith ' ' ((literals.map escape).map String.toList)
          ++ List.replicate trailing ' ') := by
      rw [← String.toList_inj]
      simp [joinWith_eq_intercalate]
    rw [htext]
    exact tokenize_joined htokens leading trailing

end PeerStore.Query
