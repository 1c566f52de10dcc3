import Mathlib.Data.List.DropRight
import Scratchpad.Proofs.LongestMatch

/-! Where tokens stand. No character of a text is lost between tokens, so the place of a token can
be told from the characters in front of it: their number, the line feeds among them, and how many
of them come behind the last line feed. -/
namespace Scratchpad

theorem Position.start_after (text : List Char) :
    Position.start.after text =
      ⟨1 + text.count '\n', 1 + (text.rtakeWhile (· ≠ '\n')).length, text.length⟩ := by
  induction text using List.reverseRecOn with
  | nil => rfl
  | append_singleton text c ih =>
    have hnext : (Position.start.after text).after [c] = (Position.start.after text).next c := rfl
    rw [Position.after_append, hnext, ih, Position.next]
    by_cases hc : c = '\n'
    · subst hc
      simp [Nat.add_assoc]
    · simp [hc, Nat.add_assoc]

/-- A token stands behind the lexemes of the tokens in front of it. -/
theorem position_of_place {p : Position} {texts : List (List Char)} {front back : List Token}
    {t : Token} (h : place p texts = front ++ t :: back) :
    t.position = p.after (front.flatMap fun t => t.lexeme.toList) := by
  induction texts generalizing p front with
  | nil =>
    cases front with
    | nil =>
      obtain ⟨rfl, -⟩ := List.cons.inj h
      rfl
    | cons u front => simp [place] at h
  | cons text rest ih =>
    cases front with
    | nil =>
      obtain ⟨rfl, -⟩ := List.cons.inj h
      rfl
    | cons u front =>
      obtain ⟨rfl, hrest⟩ := List.cons.inj h
      rw [ih hrest]
      simp

theorem toList_join_map_lexeme (ts : List Token) :
    (String.join (ts.map Token.lexeme)).toList = ts.flatMap fun t => t.lexeme.toList := by
  rw [String.toList_join, List.flatMap_map]

theorem join_lexemes (source : String) :
    String.join ((allTokens source).map Token.lexeme) = source := by
  apply String.toList_injective
  rw [allTokens, map_lexeme_place, String.toList_join]
  simp [List.flatMap_map, List.flatMap_id', flatten_lexemes]

/-- No character of a text is lost and none belongs to two tokens: the lexemes make up the text, and
each token stands where the lexemes in front of it end. None is empty but the end of input, which is
the last token and stands behind the text. A line feed in front of a token adds one to its line, and
each character between the last of them, or the start, and the token adds one to its column. The
tokens that carry meaning are these without the blank ones, and stand where they stood. -/
theorem allTokens_lossless (source : String) :
    String.join ((allTokens source).map Token.lexeme) = source ∧
    (∃ content last, allTokens source = content ++ [last] ∧ last.kind = .endOfInput ∧
      last.lexeme = "" ∧ last.position.offset = source.length ∧
      ∀ t ∈ content, t.kind ≠ .endOfInput ∧ t.lexeme ≠ "") ∧
    (∀ front t back, allTokens source = front ++ t :: back →
      let before := source.toList.take t.position.offset
      t.position.offset = (String.join (front.map Token.lexeme)).length ∧
      t.position.line = 1 + before.count '\n' ∧
      t.position.column = 1 + (before.rtakeWhile (· ≠ '\n')).length) ∧
    tokens source = (allTokens source).filter fun t => t.kind ≠ .blank := by
  refine ⟨join_lexemes source, ?_, fun front t back h => ?_, rfl⟩
  · obtain ⟨content, htokens, hcontent⟩ := exists_allTokens source
    refine ⟨content, _, htokens, rfl, rfl, ?_, fun t ht => ?_⟩
    · simp [Position.start, String.length_toList]
    · have hmem : (t.lexeme.toList, t.kind) ∈ readings source.toList := by
        rw [← hcontent]
        exact List.mem_map_of_mem ht
      have hspells := spells_of_mem_readings hmem
      refine ⟨hspells.ne_endOfInput, fun hempty => hspells.ne_nil ?_⟩
      simp [hempty]
  · have hsource : source.toList = front.flatMap (fun t => t.lexeme.toList) ++
        (t :: back).flatMap fun t => t.lexeme.toList := by
      rw [← List.flatMap_append, ← h, ← toList_join_map_lexeme, join_lexemes]
    have hposition := (position_of_place h).trans (Position.start_after _)
    have hbefore : source.toList.take t.position.offset =
        front.flatMap fun t => t.lexeme.toList := by
      rw [hsource, hposition, List.take_left]
    dsimp only
    rw [hbefore, ← String.length_toList, toList_join_map_lexeme]
    simp [hposition]

/-- A name behind a line feed and a tab stands in the second column of the second line. -/
theorem allTokens_lossless_behind_tab :
    let ts := allTokens "1.5\n\ty"
    let y : Token := ⟨.identifier "y", "y", ⟨2, 2, 5⟩⟩
    ts = ts.take 3 ++ y :: ts.drop 4 ∧ String.join (ts.map Token.lexeme) = "1.5\n\ty" ∧
      y.position.offset = (String.join ((ts.take 3).map Token.lexeme)).length ∧
      y.position.line = 1 + ("1.5\n\ty".toList.take 5).count '\n' ∧
      y.position.column = 1 + (("1.5\n\ty".toList.take 5).rtakeWhile (· ≠ '\n')).length := by
  intro ts y
  have hts : ts = ts.take 3 ++ y :: ts.drop 4 := by decide +kernel
  obtain ⟨hjoin, -, hplace, -⟩ := allTokens_lossless "1.5\n\ty"
  obtain ⟨hoffset, hline, hcolumn⟩ := hplace (ts.take 3) y (ts.drop 4) hts
  exact ⟨hts, hjoin, hoffset, hline, hcolumn⟩

end Scratchpad
