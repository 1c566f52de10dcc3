import Scratchpad.Proofs.LineBreaks
import Scratchpad.Proofs.Strays

/-! Spacing. A lexeme ends where the characters behind it do not go on with it, yet what it stands
for can be told from the lexeme alone. So a text has the same tokens when its lexemes are set apart
by single spaces, and each of them has its token when it stands by itself. -/
namespace Scratchpad

/-! ## Texts set apart -/

/-- Spaces between lexemes cut them out of the text that they make up. -/
theorem lexemes_intercalate_space {texts : List (List Char)}
    (h : ∀ text ∈ texts, Spells text (.ofLexeme text)) :
    lexemes ([' '].intercalate texts) = texts.intersperse [' '] := by
  induction texts with
  | nil => exact lexemes_nil
  | cons text texts ih =>
    obtain ⟨htext, htexts⟩ := List.forall_mem_cons.1 h
    cases texts with
    | nil => rw [List.intercalate_singleton, htext.lexemes_eq, List.intersperse_singleton]
    | cons next texts =>
      rw [List.intercalate_cons_cons, List.append_assoc, List.singleton_append,
        lexemes_append_of_isBlank text isBlank_space, htext.lexemes_eq, ih htexts,
        List.intersperse_cons_cons]
      rfl

theorem solid_intersperse_space (texts : List (List Char)) :
    solid (texts.intersperse [' ']) = solid texts := by
  have hspace : solid [[' ']] = [] := by decide
  induction texts with
  | nil => rfl
  | cons text texts ih =>
    cases texts with
    | nil => rfl
    | cons next texts =>
      calc solid ((text :: next :: texts).intersperse [' '])
        _ = solid [text] ++ solid [[' ']] ++ solid ((next :: texts).intersperse [' ']) := by
          rw [List.intersperse_cons_cons, ← solid_append, ← solid_append]
          rfl
        _ = solid (text :: next :: texts) := by
          rw [hspace, List.append_nil, ih, ← solid_append]
          rfl

/-! ## Tokens -/

/-- The lexemes of the tokens of a text, without the end of input, a space between each two. -/
def respaced (source : String) : String :=
  " ".intercalate ((tokens source).dropLast.map Token.lexeme)

theorem toList_respaced (source : String) :
    (respaced source).toList = [' '].intercalate (solid (lexemes source.toList)) := by
  have hlexemes : (tokens source).dropLast.map Token.lexeme =
      (solid (lexemes source.toList)).map String.ofList := by
    have hspelled : (tokens source).dropLast.map Token.lexeme =
        ((tokens source).map Token.spelling).dropLast.map Prod.snd := by
      rw [← List.map_dropLast, List.map_map]
      rfl
    rw [hspelled, map_spelling_tokens, List.dropLast_concat, List.map_map]
    rfl
  have hof : (String.toList ∘ String.ofList) = id := funext fun _ => String.toList_ofList
  rw [respaced, String.toList_intercalate, hlexemes, List.map_map, hof, List.map_id]
  rfl

theorem map_spelling_respaced (source : String) :
    (tokens (respaced source)).map Token.spelling = (tokens source).map Token.spelling := by
  have hspells : ∀ text ∈ solid (lexemes source.toList), Spells text (.ofLexeme text) :=
    fun text htext => spells_of_mem_lexemes (List.mem_of_mem_filter htext)
  have hsolid : solid (solid (lexemes source.toList)) = solid (lexemes source.toList) := by
    rw [solid, solid, List.filter_filter]
    simp
  rw [map_spelling_tokens_eq_iff, toList_respaced, lexemes_intercalate_space hspells,
    solid_intersperse_space, hsolid]

theorem Spells.allTokens_eq {lexeme : String} {kind : Kind} (h : Spells lexeme.toList kind) :
    allTokens lexeme =
      [⟨kind, lexeme, .start⟩, ⟨.endOfInput, "", Position.start.after lexeme.toList⟩] := by
  rw [allTokens, h.lexemes_eq, place, place, ← h.kind_eq, String.ofList_toList]

/-- Set apart by single spaces, the lexemes of a text have the tokens that they have in the text.
And what one of them stands for is told by the lexeme alone: as a text of its own, it has that token
and the end of input, whether blanks are kept or not. -/
theorem spelling_respaced (source : String) :
    (tokens (respaced source)).map Token.spelling = (tokens source).map Token.spelling ∧
      (∀ t ∈ allTokens source, t.kind ≠ .endOfInput →
        (allTokens t.lexeme).map Token.spelling = [t.spelling, (.endOfInput, "")]) ∧
      ∀ t ∈ tokens source, t.kind ≠ .endOfInput →
        (tokens t.lexeme).map Token.spelling = [t.spelling, (.endOfInput, "")] := by
  refine ⟨map_spelling_respaced source, fun t ht hend => ?_, fun t ht hend => ?_⟩
  · have hspells := (spells_of_mem_allTokens ht).resolve_left hend
    rw [hspells.allTokens_eq]
    rfl
  · obtain ⟨hmem, hblank⟩ := List.mem_filter.1 ht
    have hspells := (spells_of_mem_allTokens hmem).resolve_left hend
    rw [tokens, hspells.allTokens_eq, List.filter_cons_of_pos (by simpa using hblank)]
    rfl

/-- Of a keyword, a comparison, a tab and numerals without spaces, with a line feed at the end. -/
theorem spelling_respaced_mod :
    let source := "mod<=\t1.2.3:_\n"
    let less : Token := ⟨.operator .lessEqual, "<=", ⟨1, 4, 3⟩⟩
    let tab : Token := ⟨.blank, "\t", ⟨1, 6, 5⟩⟩
    respaced source = "mod <= 1.2 . 3 : _ \n" ∧
      (tokens "mod <= 1.2 . 3 : _ \n").map Token.spelling =
        (tokens source).map Token.spelling ∧
      tab ∈ allTokens source ∧
      (allTokens "\t").map Token.spelling = [(.blank, "\t"), (.endOfInput, "")] ∧
      less ∈ tokens source ∧
      (tokens "<=").map Token.spelling = [(.operator .lessEqual, "<="), (.endOfInput, "")] := by
  intro source less tab
  have hspaced : respaced source = "mod <= 1.2 . 3 : _ \n" := by decide +kernel
  have htab : tab ∈ allTokens source := by
    have hall : allTokens source =
        (allTokens source).take 2 ++ tab :: (allTokens source).drop 3 := by decide +kernel
    rw [hall]
    simp
  have hless : less ∈ tokens source := by
    have hsome : tokens source = (tokens source).take 1 ++ less :: (tokens source).drop 2 := by
      decide +kernel
    rw [hsome]
    simp
  obtain ⟨hsame, hall, hsome⟩ := spelling_respaced source
  rw [hspaced] at hsame
  exact ⟨hspaced, hsame, htab, hall tab htab (by decide), hless, hsome less hless (by decide)⟩

end Scratchpad
