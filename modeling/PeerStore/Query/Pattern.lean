/-!
# Patterns

In a pattern `%` stands for any run of characters, `_` for any one character, and every other
character for itself. `scan` goes through a text and a pattern side by side. It lets each run be
empty at first. Where text and pattern do not go together, it goes back to the last `%`, whose run
then takes up one more character; it never goes back to those before.
-/

set_option autoImplicit false

namespace PeerStore.Query

/-- The last `%` that a scan has come to: the text that its run left when it was tried last, and the
pattern behind it. -/
structure Run where
  text : List Char
  pattern : List Char
  deriving DecidableEq, Repr

theorem count_tail_lt {pattern : List Char} (h : pattern.head? = some '%') :
    pattern.tail.count '%' < pattern.count '%' := by
  cases pattern with
  | nil => cases h
  | cons p pattern =>
      cases h
      rw [List.count_cons_self]
      exact Nat.lt_succ_self _

/-- Whether a text matches a pattern, or does so after the run of the last `%` takes up more of its
text. -/
def scan (text pattern : List Char) (last : Option Run) : Bool :=
  match text with
  | [] => pattern.all (· == '%')
  | c :: rest =>
      if pattern.head? = some '%' then
        scan (c :: rest) pattern.tail (some ⟨c :: rest, pattern.tail⟩)
      else if pattern.head? = some '_' ∨ pattern.head? = some c then scan rest pattern.tail last
      else
        match last with
        | some run => scan run.text.tail run.pattern (some ⟨run.text.tail, run.pattern⟩)
        | none => false
-- behind the last `%` there are fewer and fewer of them; as long as it is the same, its run grows;
-- as long as its run is the same, the text gets shorter
termination_by
  (max (pattern.count '%') (last.elim 0 fun run => run.pattern.count '%'),
    last.elim 0 fun run => run.text.length, text.length)
decreasing_by
  all_goals
    simp_wf
    rw [Prod.lex_def, Prod.lex_def]
    dsimp only
  case _ hhead =>
    have hlt := count_tail_lt hhead
    omega
  case _ =>
    have hle : pattern.tail.count '%' ≤ pattern.count '%' := (List.tail_sublist _).count_le _
    omega
  case _ => omega

/-- Whether a text matches a pattern. -/
def like (text pattern : String) : Bool := scan text.toList pattern.toList none

end PeerStore.Query
