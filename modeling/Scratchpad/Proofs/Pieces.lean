import Mathlib.Data.List.Forall2
import Scratchpad.Highlight
import Scratchpad.Proofs.LineBreaks
import Scratchpad.Proofs.Positions

/-! Pieces of lines. A line is cut into pieces as it is cut into lexemes, so the pieces make up the
line, and the style of a piece tells what its token stands for: the words that spell operators are
the only lexemes of letters that are neither names nor booleans. Of a text, the pieces of a line are
the same whenever they are asked for, kept or not. -/
namespace Scratchpad

/-! ## Styles -/

theorem Style.name_injective : Function.Injective Style.name := by
  intro a b h
  cases a <;> cases b <;> simp_all [Style.name]

theorem all_isLetter_symbols : ∀ s ∈ Kind.symbols, s.1.toList.all isLetter = false := by decide

theorem all_isLetter_keywords :
    ∀ w ∈ Kind.keywords, w.1.isEmpty = false ∧ w.1.toList.all isLetter = true := by decide

theorem Spells.name_or_keyword {text : List Char} {kind : Kind} (h : Spells text kind)
    (hletters : text.all isLetter = true) :
    (∃ name, kind = .identifier name) ∨ kind.keyword? = some (String.ofList text) := by
  have hdigits {d : Char} {ds : List Char} (hd : isDigit d = true)
      (hl : (d :: ds).all isLetter = true) : False := by
    rw [List.all_cons, Bool.and_eq_true] at hl
    rw [isDigit_of_isLetter hl.1] at hd
    cases hd
  cases h with
  | @symbol _ s hs =>
    have hnone := all_isLetter_symbols (s, kind) (Kind.mem_symbols_of_symbol? hs)
    rw [hnone] at hletters
    cases hletters
  | blank hb =>
    rw [List.all_cons, Bool.and_eq_true] at hletters
    rw [isBlank_of_isLetter hletters.1] at hb
    cases hb
  | whole hw =>
    obtain ⟨d, ds, rfl, hd, -⟩ := hw.exists_cons
    exact (hdigits hd hletters).elim
  | fraction hw =>
    obtain ⟨d, ds, rfl, hd, -⟩ := hw.exists_cons
    exact (hdigits hd hletters).elim
  | keyword hk => exact .inr (by rwa [String.ofList_toList])
  | name => exact .inl ⟨_, rfl⟩
  | invalid _ _ _ hl =>
    rw [List.all_cons, hl] at hletters
    cases hletters

namespace Token
variable {t : Token}

theorem isLettered_iff (h : Spells t.lexeme.toList t.kind)
    (hname : ∀ name, t.kind ≠ .identifier name) :
    t.isLettered = true ↔ t.kind.keyword? = some t.lexeme := by
  constructor
  · intro hl
    rw [isLettered, Bool.and_eq_true] at hl
    have hword := (h.name_or_keyword hl.2).resolve_left fun ⟨name, hn⟩ => hname name hn
    rwa [String.ofList_toList] at hword
  · intro hk
    obtain ⟨hne, hall⟩ := all_isLetter_keywords (t.lexeme, t.kind) (Kind.mem_keywords_of_keyword? hk)
    rw [isLettered, hne, hall]
    rfl

/-- Only words spell the operators that have no symbol. -/
theorem word?_of_symbol?_eq_none {op : Operator} (h : Spells t.lexeme.toList (.operator op))
    (hsymbol : op.symbol? = none) : op.word? = some t.lexeme := by
  generalize htext : t.lexeme.toList = text at h
  cases h with
  | symbol hs => exact absurd (hsymbol.symm.trans hs) (by simp)
  | keyword hk =>
    rw [String.toList_injective htext]
    exact hk

theorem style_of_operator {op : Operator} (h : Spells t.lexeme.toList t.kind)
    (hop : t.kind = .operator op) :
    t.style = if op.word? = some t.lexeme then .keyword else .plain := by
  have hiff : t.isLettered = true ↔ op.word? = some t.lexeme := by
    have hlettered := isLettered_iff h (by simp [hop])
    rwa [hop] at hlettered
  rw [hop] at h
  have hstyle : t.style = if t.isLettered then .keyword else (Kind.operator op).style := by
    rw [style, hop]
  rw [hstyle]
  by_cases hw : op.word? = some t.lexeme
  · rw [if_pos hw, if_pos (hiff.2 hw)]
  · rw [if_neg hw, if_neg (hiff.not.2 hw)]
    cases op with
    | and | or => exact absurd (word?_of_symbol?_eq_none h rfl) hw
    | _ => rfl

theorem style_of_ne_operator (h : Spells t.lexeme.toList t.kind)
    (hop : ∀ op, t.kind ≠ .operator op) : t.style = t.kind.style := by
  have hplain (hname : ∀ name, t.kind ≠ .identifier name) (hk : t.kind.keyword? = none) :
      t.isLettered = false := by
    rw [← Bool.not_eq_true, isLettered_iff h hname, hk]
    simp
  cases hkind : t.kind with
  | operator op => exact absurd hkind (hop op)
  | identifier | boolean | blank => simp [style, hkind, Kind.style]
  | _ =>
    have hnot := hplain (by simp [hkind]) (by simp [hkind, Kind.keyword?])
    simp [style, hkind, hnot]

end Token

/-! ## Pieces -/

/-- What a piece of a line shows of its token. -/
structure Shows (t : Token) (piece : Fragment) : Prop where
  text : piece.text = t.lexeme
  nonempty : piece.text ≠ ""
  keyword : piece.style = .keyword ↔ ∃ op, t.kind = .operator op ∧ op.word? = some t.lexeme
  error : piece.style = .error ↔ t.kind = .invalid
  number : piece.style = .number ↔ ∃ value, t.kind = .number value
  boolean : piece.style = .boolean ↔ ∃ value, t.kind = .boolean value

theorem shows_of_spells {t : Token} (h : Spells t.lexeme.toList t.kind) :
    Shows t ⟨t.style, t.lexeme⟩ := by
  have hne : t.lexeme ≠ "" := fun hempty => h.ne_nil (by rw [hempty]; rfl)
  cases hkind : t.kind with
  | operator op =>
    have hstyle := Token.style_of_operator h hkind
    by_cases hw : op.word? = some t.lexeme
    · rw [if_pos hw] at hstyle
      constructor <;> simp_all
    · rw [if_neg hw] at hstyle
      constructor <;> simp_all
  | _ =>
    have hstyle := Token.style_of_ne_operator h (by simp [hkind])
    constructor <;> simp_all [Kind.style]

theorem newline_mem_of_mem_allTokens {line : String} {t : Token} (ht : t ∈ allTokens line)
    (hkind : t.kind = .newline) : '\n' ∈ line.toList := by
  have hspells := (spells_of_mem_allTokens ht).resolve_left (by simp [hkind])
  rw [hkind] at hspells
  rw [← join_lexemes line, toList_join_map_lexeme]
  exact List.mem_flatMap.2 ⟨t, ht, by rw [hspells.eq_of_newline]; exact List.mem_cons_self⟩

/-- A line is cut into a piece for each of its tokens in front of the end of input; one without such
tokens is a piece by itself. -/
theorem exists_pieces {line : String} (h : '\n' ∉ line.toList) :
    ∃ content last, allTokens line = content ++ [last] ∧ last.kind = .endOfInput ∧
      last.lexeme = "" ∧ (∀ t ∈ content, Spells t.lexeme.toList t.kind) ∧
      highlight line = if content.isEmpty then [⟨.plain, line⟩]
        else content.map fun t => ⟨t.style, t.lexeme⟩ := by
  obtain ⟨content, htokens, hreadings⟩ := exists_allTokens line
  have hspells : ∀ t ∈ content, Spells t.lexeme.toList t.kind := by
    intro t ht
    have hmem : (t.lexeme.toList, t.kind) ∈ readings line.toList :=
      hreadings ▸ List.mem_map_of_mem ht
    exact spells_of_mem_readings hmem
  have hshown : ((allTokens line).filter fun t => t.kind ≠ .endOfInput ∧ t.kind ≠ .newline) =
      content := by
    have hcontent : ∀ t ∈ content, decide (t.kind ≠ .endOfInput ∧ t.kind ≠ .newline) = true := by
      intro t ht
      have hmem : t ∈ allTokens line := htokens ▸ List.mem_append_left _ ht
      exact decide_eq_true ⟨(hspells t ht).ne_endOfInput,
        fun hn => h (newline_mem_of_mem_allTokens hmem hn)⟩
    rw [htokens, List.filter_append, List.filter_eq_self.2 hcontent]
    simp
  refine ⟨content, _, htokens, rfl, rfl, hspells, ?_⟩
  simp only [highlight, hshown]

/-! ## Pieces that are kept -/

structure Highlighter.KeepsTo (text : String) (h : Highlighter) : Prop where
  lines : h.lines = Scratchpad.lines text
  known : ∀ line pieces, h.known.lookup line = some pieces → pieces = highlightAt text line

namespace Highlighter

theorem keepsTo_ofText (text : String) : (ofText text).KeepsTo text where
  lines := rfl
  known _ _ h := by cases h

/-- Asking for a line gives its pieces, and keeps no others. -/
theorem KeepsTo.ask {text : String} {h : Highlighter} (hk : h.KeepsTo text) (line : Nat) :
    (h.ask line).1 = highlightAt text line ∧ (h.ask line).2.KeepsTo text := by
  rw [Highlighter.ask]
  split
  · next pieces hpieces => exact ⟨hk.known line pieces hpieces, hk⟩
  · have hpieces : (h.lines[line]?.map highlight).getD [⟨.plain, ""⟩] = highlightAt text line := by
      rw [hk.lines]
      rfl
    refine ⟨hpieces, hk.lines, fun other pieces hother => ?_⟩
    rw [hpieces, List.lookup_cons] at hother
    split at hother
    · next hsame =>
      rw [beq_iff_eq.1 hsame, Option.some.inj hother]
    · exact hk.known other pieces hother

theorem KeepsTo.askAll {text : String} {h : Highlighter} (hk : h.KeepsTo text) (asked : List Nat) :
    h.askAll asked = asked.map (highlightAt text) := by
  induction asked generalizing h with
  | nil => rfl
  | cons line asked ih =>
    obtain ⟨hpieces, hkept⟩ := hk.ask line
    rw [Highlighter.askAll, hpieces, ih hkept, List.map_cons]

end Highlighter

/-- The pieces of a line without line feeds make up the line. There is one for each token in front of
the end of input, none of them is empty, and its style tells an operator spelled as a word, what is
invalid, numbers and booleans, each from all others; the empty line is one empty piece. Lines of a
text may be asked for in any order and more than once: each time the pieces are those of the line,
and past the end one empty piece. -/
theorem highlight_shows :
    (∀ line : String, '\n' ∉ line.toList →
      String.join ((highlight line).map Fragment.text) = line ∧
      (line = "" → highlight line = [⟨.plain, ""⟩]) ∧
      (line ≠ "" → ∃ content last, allTokens line = content ++ [last] ∧ last.kind = .endOfInput ∧
        List.Forall₂ Shows content (highlight line))) ∧
    Function.Injective Style.name ∧
    ∀ (text : String) (asked : List Nat), (Highlighter.ofText text).askAll asked =
      asked.map fun line => ((lines text)[line]?.map highlight).getD [⟨.plain, ""⟩] := by
  refine ⟨fun line hline => ?_, Style.name_injective,
    fun text asked => (Highlighter.keepsTo_ofText text).askAll asked⟩
  obtain ⟨content, last, htokens, hend, hlast, hspells, hpieces⟩ := exists_pieces hline
  have hjoin : String.join (content.map Token.lexeme) = line := by
    have hall := join_lexemes line
    rw [htokens] at hall
    simpa [hlast] using hall
  -- only the empty line has no tokens in front of the end of input
  cases content with
  | nil =>
    obtain rfl : "" = line := hjoin
    exact ⟨by rw [hpieces]; rfl, fun _ => hpieces, fun hne => absurd rfl hne⟩
  | cons t content =>
    have hshown : highlight line = (t :: content).map fun t => ⟨t.style, t.lexeme⟩ := hpieces
    have hne : line ≠ "" := by
      rintro rfl
      simp [allTokens, place] at htokens
    refine ⟨?_, fun hempty => absurd hempty hne, fun _ => ⟨_, last, htokens, hend, ?_⟩⟩
    · rw [hshown, List.map_map]
      exact hjoin
    · rw [hshown, List.forall₂_map_right_iff, List.forall₂_same]
      exact fun u hu => shows_of_spells (hspells u hu)

/-- Of a line with a name, a numeral and an operator in letters, a tab and a character that begins
nothing; and of a text of three lines. -/
theorem highlight_shows_words :
    let line := "plus2: 2 plus½ <=\tor _true"
    '\n' ∉ line.toList ∧ line ≠ "" ∧ String.join ((highlight line).map Fragment.text) = line ∧
      List.Forall₂ Shows (allTokens line).dropLast (highlight line) ∧
      '\n' ∉ "".toList ∧ highlight "" = [⟨.plain, ""⟩] ∧
      (Highlighter.ofText "1\n\ntrue").askAll [2, 0, 2, 7] =
        [[⟨.boolean, "true"⟩], [⟨.number, "1"⟩], [⟨.boolean, "true"⟩], [⟨.plain, ""⟩]] := by
  intro line
  have hline : '\n' ∉ line.toList := by decide +kernel
  have hne : line ≠ "" := by decide +kernel
  have hempty : '\n' ∉ "".toList := by decide
  obtain ⟨hlines, -, hasked⟩ := highlight_shows
  obtain ⟨hjoin, -, hpieces⟩ := hlines line hline
  obtain ⟨content, last, htokens, -, hshown⟩ := hpieces hne
  have hcontent : (allTokens line).dropLast = content := by rw [htokens, List.dropLast_concat]
  rw [hasked]
  exact ⟨hline, hne, hjoin, hcontent ▸ hshown, hempty, (hlines "" hempty).2.1 rfl,
    by decide +kernel⟩

end Scratchpad
