import Scratchpad.Proofs.Layout
import Scratchpad.Proofs.Positions

/-! Texts one below the other. A line feed belongs to no lexeme but its own, so a text below another
one is cut as it is alone, and its tokens stand further down by the lines and characters above them.
So the tokens of a text are those of its lines, each cut by itself. -/
namespace Scratchpad

/-! ## Further down -/

namespace Position

/-- A position in a text, below lines of some characters in all. -/
def below (p : Position) (lines characters : Nat) : Position :=
  ⟨p.line + lines, p.column, p.offset + characters⟩

theorem next_below (p : Position) (lines characters : Nat) (c : Char) :
    (p.below lines characters).next c = (p.next c).below lines characters := by
  by_cases hc : c = '\n'
  · simp only [next, below, hc, if_true]
    rw [Nat.add_right_comm, Nat.add_right_comm p.offset]
  · simp only [next, below, if_neg hc]
    rw [Nat.add_right_comm]

theorem after_below (p : Position) (lines characters : Nat) (text : List Char) :
    (p.below lines characters).after text = (p.after text).below lines characters := by
  induction text generalizing p with
  | nil => rfl
  | cons c text ih =>
    simp only [after, List.foldl_cons] at ih ⊢
    rw [next_below, ih]

/-- Behind a line feed a text begins anew, one line further down than the line feed. -/
theorem after_newline (text : List Char) :
    (start.after text).after ['\n'] = start.below (1 + text.count '\n') (text.length + 1) := by
  have hnext : (start.after text).after ['\n'] = (start.after text).next '\n' := rfl
  rw [hnext, start_after, next, if_pos rfl, below, start]
  simp only [Nat.add_comm, Nat.zero_add]

end Position

def Token.below (t : Token) (lines characters : Nat) : Token :=
  { t with position := t.position.below lines characters }

theorem place_below (p : Position) (lines characters : Nat) (texts : List (List Char)) :
    place (p.below lines characters) texts =
      (place p texts).map fun t => t.below lines characters := by
  induction texts generalizing p with
  | nil => rfl
  | cons text rest ih =>
    rw [place, place, Position.after_below, ih, List.map_cons]
    rfl

theorem exists_place_append (p : Position) (texts more : List (List Char)) :
    ∃ content, place p texts = content ++ [⟨.endOfInput, "", p.after texts.flatten⟩] ∧
      place p (texts ++ more) = content ++ place (p.after texts.flatten) more := by
  induction texts generalizing p with
  | nil => exact ⟨[], rfl, rfl⟩
  | cons text rest ih =>
    obtain ⟨content, hplace, happend⟩ := ih (p.after text)
    refine ⟨⟨.ofLexeme text, String.ofList text, p⟩ :: content, ?_, ?_⟩
    · rw [place, hplace, List.flatten_cons, Position.after_append, List.cons_append]
    · rw [List.cons_append, place, happend, List.flatten_cons, Position.after_append,
        List.cons_append]

/-! ## Two texts -/

/-- The tokens of a whole that is a text, a line feed and another text: the line feed stands where
the first text ends, in place of its end of input, and the tokens of the second text stand below. -/
def Stacks (above : String) (first second whole : List Token) : Prop :=
  ∃ content, first = content ++ [⟨.endOfInput, "", Position.start.after above.toList⟩] ∧
    whole = content ++ ⟨.newline, "\n", Position.start.after above.toList⟩ ::
      second.map fun t => t.below (1 + above.toList.count '\n') (above.length + 1)

theorem stacks_allTokens (a b : String) :
    Stacks a (allTokens a) (allTokens b) (allTokens (a ++ "\n" ++ b)) := by
  have htext : (a ++ "\n" ++ b).toList = a.toList ++ '\n' :: b.toList := by simp
  have hnewline : Kind.ofLexeme ['\n'] = .newline := by decide
  obtain ⟨content, hfirst, hwhole⟩ :=
    exists_place_append .start (lexemes a.toList) (['\n'] :: lexemes b.toList)
  rw [flatten_lexemes] at hfirst hwhole
  refine ⟨content, hfirst, ?_⟩
  rw [allTokens, htext, lexemes_line_append, hwhole, place, hnewline, Position.after_newline,
    place_below, String.length_toList]
  rfl

theorem Stacks.filter_blank {a : String} {first second whole : List Token}
    (h : Stacks a first second whole) :
    Stacks a (first.filter fun t => t.kind ≠ .blank) (second.filter fun t => t.kind ≠ .blank)
      (whole.filter fun t => t.kind ≠ .blank) := by
  obtain ⟨content, rfl, rfl⟩ := h
  refine ⟨content.filter fun t => t.kind ≠ .blank, ?_, ?_⟩
  · simp
  · rw [List.filter_append, List.filter_cons_of_pos (by simp), List.filter_map]
    rfl

theorem stacks_tokens (a b : String) : Stacks a (tokens a) (tokens b) (tokens (a ++ "\n" ++ b)) :=
  (stacks_allTokens a b).filter_blank

/-! ## Lines -/

/-- The tokens of lines one below the other, each cut by itself. -/
def stackLines (cut : String → List Token) : List String → List Token
  | [] => []
  | [line] => cut line
  | line :: rest =>
    (cut line).dropLast ++ ⟨.newline, "\n", ⟨1, line.length + 1, line.length⟩⟩ ::
      (stackLines cut rest).map fun t => t.below 1 (line.length + 1)

theorem stackLines_cons (cut : String → List Token) (line : String) {rest : List String}
    (h : rest ≠ []) :
    stackLines cut (line :: rest) =
      (cut line).dropLast ++ ⟨.newline, "\n", ⟨1, line.length + 1, line.length⟩⟩ ::
        (stackLines cut rest).map fun t => t.below 1 (line.length + 1) := by
  cases rest with
  | nil => exact absurd rfl h
  | cons next rest => rfl

/-- Where texts are cut so that they stand one below the other, a text is cut line by line. -/
theorem stackLines_splitLines {cut : String → List Token}
    (h : ∀ a b, Stacks a (cut a) (cut b) (cut (a ++ "\n" ++ b))) (text : List Char) :
    stackLines cut ((splitLines text).map String.ofList) = cut (String.ofList text) := by
  induction text using lines_induction with
  | line a ha =>
    rw [splitLines_eq_singleton ha]
    rfl
  | more a b ha ih =>
    obtain ⟨content, hfirst, hwhole⟩ := h (String.ofList a) (String.ofList b)
    have htext : String.ofList (a ++ '\n' :: b) = String.ofList a ++ "\n" ++ String.ofList b := by
      apply String.toList_injective
      simp
    have hend : Position.start.after a = ⟨1, a.length + 1, a.length⟩ := by
      have hline : a.rtakeWhile (· ≠ '\n') = a :=
        List.rtakeWhile_eq_self_iff.2 fun c hc => decide_eq_true fun hn => ha (hn ▸ hc)
      rw [Position.start_after, hline, List.count_eq_zero.2 ha, Nat.add_comm 1 a.length]
    rw [splitLines_append, splitLines_eq_singleton ha, List.map_append, List.map_singleton,
      List.singleton_append, stackLines_cons cut _ (by simp), ih, htext, hwhole, hfirst,
      List.dropLast_concat, String.toList_ofList, hend, List.count_eq_zero.2 ha,
      String.length_ofList]

/-- A text below another one has the tokens that it has alone, as many lines and characters further
down as stand above it, in the columns where it has them alone. A line feed takes the place of the
end of input of what is above. So the tokens of a text are those of its lines. All this holds with
blanks and without. -/
theorem tokens_stack (a b text : String) :
    Stacks a (allTokens a) (allTokens b) (allTokens (a ++ "\n" ++ b)) ∧
      Stacks a (tokens a) (tokens b) (tokens (a ++ "\n" ++ b)) ∧
      stackLines allTokens (lines text) = allTokens text ∧
      stackLines tokens (lines text) = tokens text := by
  have hall := stackLines_splitLines stacks_allTokens text.toList
  have hsome := stackLines_splitLines stacks_tokens text.toList
  rw [String.ofList_toList] at hall hsome
  exact ⟨stacks_allTokens a b, stacks_tokens a b, hall, hsome⟩

/-- A point at the end of a line is no part of the numeral that the digit below could make of it. -/
example : (tokens "1.\n5").map Token.inspect =
    ["Tok(NUMBER, '1', 1:1)", "Tok(DOT, '.', 1:2)", "Tok(NEWLINE, '\\n', 1:3)",
      "Tok(NUMBER, '5', 2:1)", "Tok(EOF, '', 2:2)"] := by
  decide +kernel

end Scratchpad
