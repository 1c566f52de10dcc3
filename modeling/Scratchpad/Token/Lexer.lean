import Scratchpad.Text.Character
import Scratchpad.Token

/-! Cutting a text into tokens. Each lexeme reaches as far as it can from its first character; what
it stands for is read off the lexeme alone, and where it begins off the characters before it. Every
character belongs to a lexeme, and one that can begin nothing else is an invalid token of its own.
-/
namespace Scratchpad

/-- The rest of a numeral: more digits, and a point only where a digit follows it. -/
def numeralExtent (cs : List Char) : List Char :=
  let whole := cs.takeWhile isDigit
  match cs.dropWhile isDigit with
  | '.' :: d :: rest => if isDigit d then whole ++ '.' :: d :: rest.takeWhile isDigit else whole
  | _ => whole

/-- The characters that belong to the lexeme of `c`, out of those that follow it. -/
def extent (c : Char) (cs : List Char) : List Char :=
  if c = '<' || c = '>' then if cs.head? = some '=' then ['='] else []
  else if isDigit c then numeralExtent cs
  else if isLetter c then cs.takeWhile isWordChar
  else []

theorem numeralExtent_isPrefix (cs : List Char) : numeralExtent cs <+: cs := by
  simp only [numeralExtent]
  split
  · next d rest h =>
    split
    · refine ⟨rest.dropWhile isDigit, ?_⟩
      rw [List.append_assoc, List.cons_append, List.cons_append, List.takeWhile_append_dropWhile,
        ← h, List.takeWhile_append_dropWhile]
    · exact List.takeWhile_prefix _
  · exact List.takeWhile_prefix _

theorem extent_isPrefix (c : Char) (cs : List Char) : extent c cs <+: cs := by
  simp only [extent]
  split
  · split
    · next h =>
      cases cs with
      | nil => simp at h
      | cons d cs => simp only [List.head?_cons, Option.some.injEq] at h; subst h; simp
    · simp
  · split
    · exact numeralExtent_isPrefix cs
    · split
      · exact List.takeWhile_prefix _
      · simp

def lexemes : List Char → List (List Char)
  | [] => []
  | c :: cs => (c :: extent c cs) :: lexemes (cs.drop (extent c cs).length)
termination_by cs => cs.length
decreasing_by simp only [List.length_drop, List.length_cons]; omega

@[simp] theorem lexemes_nil : lexemes [] = [] := by rw [lexemes]

theorem lexemes_cons (c : Char) (cs : List Char) :
    lexemes (c :: cs) = (c :: extent c cs) :: lexemes (cs.drop (extent c cs).length) := by
  rw [lexemes]

/-- No character is lost, and none is made up. -/
theorem flatten_lexemes (cs : List Char) : (lexemes cs).flatten = cs := by
  fun_induction lexemes cs with
  | case1 => rfl
  | case2 c cs ih =>
    rw [List.flatten_cons, ih, List.cons_append]
    congr 1
    exact (List.prefix_iff_eq_append.1 (extent_isPrefix c cs))

namespace Kind

def keywords : List (String × Kind) :=
  [("true", boolean true), ("false", boolean false), ("plus", operator .plus),
   ("minus", operator .minus), ("times", operator .times), ("over", operator .dividedBy),
   ("equals", operator .equal), ("and", operator .and), ("or", operator .or),
   ("mod", operator .mod)]

/-- Lexemes without letters and digits, blanks apart. -/
def symbols : List (String × Kind) :=
  [("(", openParen), (")", closeParen), ("%", operator .percent), (".", dot), (":", colon),
   ("+", operator .plus), ("-", operator .minus), ("*", operator .times),
   ("/", operator .dividedBy), ("=", operator .equal), ("<", operator .less),
   ("<=", operator .lessEqual), (">", operator .greater), (">=", operator .greaterEqual),
   ("\n", newline)]

def ofLexeme (text : List Char) : Kind :=
  match symbols.lookup (String.ofList text), text with
  | some kind, _ => kind
  | none, [] => endOfInput
  | none, c :: _ =>
    if isBlank c then blank
    else if isDigit c then number (.ofDecimal false (.ofNumeral text))
    else if isLetter c then
      (keywords.lookup (String.ofList text)).getD (identifier (String.ofList text))
    else invalid

end Kind

/-- Tokens for lexemes that begin at a given position, and the end of input behind them. -/
def place (p : Position) : List (List Char) → List Token
  | [] => [⟨.endOfInput, "", p⟩]
  | text :: rest => ⟨.ofLexeme text, String.ofList text, p⟩ :: place (p.after text) rest

@[simp] theorem map_lexeme_place (p : Position) (texts : List (List Char)) :
    (place p texts).map Token.lexeme = texts.map String.ofList ++ [""] := by
  induction texts generalizing p with
  | nil => rfl
  | cons text rest ih => simp [place, ih]

def allTokens (source : String) : List Token := place .start (lexemes source.toList)

def tokens (source : String) : List Token := (allTokens source).filter fun t => t.kind ≠ .blank

end Scratchpad
