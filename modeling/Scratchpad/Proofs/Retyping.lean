import Scratchpad.Line
import Scratchpad.Proofs.DeepNesting
import Scratchpad.Proofs.Numerals
import Scratchpad.Proofs.Rounding

/-! What is shown for a number can be typed: the text of a finite double is a plain numeral behind at
most one minus sign, and as a line it is worth that double, whatever names are bound. -/
namespace Scratchpad

/-- A numeral with the sign of the number that it stands for. -/
def withSign (negative : Bool) (numeral : List Char) : List Char :=
  if negative then '-' :: numeral else numeral

theorem withSign_false (numeral : List Char) : withSign false numeral = numeral := rfl

/-! ## Tokens -/

def leadingMinus : Token := ⟨.operator .minus, "-", .start⟩

theorem tokens_numeral {text : List Char} (h : PlainNumeral text) :
    tokens (String.ofList text) =
      [⟨.number (.ofDecimal false (.ofNumeral text)), String.ofList text, .start⟩,
        ⟨.endOfInput, "", Position.start.after text⟩] := by
  rw [tokens, allTokens, String.toList_ofList, h.spells.lexemes_eq]
  simp [place, ← h.spells.kind_eq]

theorem tokens_minus_numeral {text : List Char} (h : PlainNumeral text) :
    tokens (String.ofList ('-' :: text)) =
      [leadingMinus,
        ⟨.number (.ofDecimal false (.ofNumeral text)), String.ofList text, Position.start.after ['-']⟩,
        ⟨.endOfInput, "", (Position.start.after ['-']).after text⟩] := by
  have hminus : extent '-' text = [] := rfl
  have hkind : Kind.ofLexeme ['-'] = .operator .minus := by decide
  rw [tokens, allTokens, String.toList_ofList, lexemes_cons_of_extent hminus, h.spells.lexemes_eq]
  simp [place, ← h.spells.kind_eq, hkind, leadingMinus]

/-! ## Lines -/

/-- The tokens of a statement on one line with an end of input behind them are read as that
statement. -/
theorem parse_of_spelled {e : Expr} {ts : List Token} {stop : Token} (he : Fits .statement e)
    (hnesting : e.nesting ≤ maxNesting) (hs : Spelled e ts) (hne : ts ≠ [])
    (hline : ∀ t ∈ ts, t.kind ≠ .newline) (hends : ∀ t ∈ ts, t.isEnd = false)
    (hstop : stop.isEnd = true) : parse (ts ++ [stop]) = ⟨[e], []⟩ := by
  obtain ⟨hahead, hthis⟩ := feed_append_cons hstop hends []
  have hread := read_statement_of_spelled stop he hs hnesting
  rw [parse, hahead, hthis, statements_of_rest_eq_nil hne hline (by rw [hread]), hread]

theorem fits_statement_of_unary {e : Expr} (h : Fits .unary e) : Fits .statement e :=
  .expression (h.ofUnary .disjunction)

theorem parse_numeral {text : List Char} (h : PlainNumeral text) :
    parse (tokens (String.ofList text)) =
      ⟨[.literal (.number (.ofDecimal false (.ofNumeral text)))], []⟩ := by
  rw [tokens_numeral h]
  refine parse_of_spelled (fits_statement_of_unary (.primary .literal)) (Nat.zero_le _)
    (.literal rfl .none) (List.cons_ne_nil _ _) (List.forall_mem_singleton.2 ?_)
    (List.forall_mem_singleton.2 rfl) rfl
  simp

theorem parse_minus_numeral {text : List Char} (h : PlainNumeral text) :
    parse (tokens (String.ofList ('-' :: text))) =
      ⟨[.unary leadingMinus (.literal (.number (.ofDecimal false (.ofNumeral text))))], []⟩ := by
  rw [tokens_minus_numeral h]
  show parse ([_, _] ++ [_]) = _
  refine parse_of_spelled (fits_statement_of_unary (.unary rfl (.primary .literal)))
    (by simp [Expr.nesting, maxNesting]) (.unary (.literal rfl .none)) (List.cons_ne_nil _ _) ?_ ?_
    rfl
  · simp [leadingMinus]
  · simp [leadingMinus, Token.isEnd]

theorem display_number (x : Binary64) (env : Environment) :
    (Expr.literal (.number x)).display env = x.text := by
  rw [Expr.display]
  · rfl
  · simp

theorem evalWithin_number (limit : Nat) (x : Binary64) (env : Environment) :
    (Expr.literal (.number x)).evalWithin (limit + 1) env = (some (.literal (.number x)), env) := by
  rw [Expr.evalWithin, Atom.resolve]
  simp

theorem evalWithin_minus_number (limit : Nat) (x : Binary64) (env : Environment) :
    (Expr.unary leadingMinus (.literal (.number x))).evalWithin (limit + 2) env =
      (some (.literal (.number x.neg)), env) := by
  rw [Expr.evalWithin, evalWithin_number]
  rfl

/-- A line with a numeral is worth the double nearest to the number that it writes. A sign in front
of it is one node, the number another. -/
theorem runLineWithin_numeral {text : List Char} (h : PlainNumeral text) (negative : Bool)
    (limit : Nat) (env : Environment) :
    let source := String.ofList (withSign negative text)
    let x := Binary64.ofDecimal negative (.ofNumeral text)
    runLineWithin (limit + 2) source env = (⟨source, .literal (.number x), x.text, []⟩, env) := by
  intro source x
  rw [← display_number x env]
  cases negative with
  | false => exact runLineWithin_of_parse (parse_numeral h) (evalWithin_number (limit + 1) _ env)
  | true =>
    have hx := evalWithin_minus_number limit (.ofDecimal false (.ofNumeral text)) env
    rw [← Binary64.ofDecimal_true] at hx
    exact runLineWithin_of_parse (parse_minus_numeral h) hx

/-! ## Displayed numbers -/

namespace Binary64

theorem text_finite (negative : Bool) (units : Nat) (fits : Fits units) :
    (finite negative units fits).text =
      String.ofList (withSign negative (shortest units fits).numeral) := by
  cases negative <;> simp only [text, withSign, if_true, Bool.false_eq_true, if_false]

/-- The text of a finite double is a plain numeral behind the sign, the only one that denotes the
decimal of which it is the text, and this decimal reads back. Typed as a line, the text is worth the
double again, is shown again, and leaves every environment as it is, at every limit that admits a
sign and a number. -/
theorem text_retyped (negative : Bool) (units : Nat) (fits : Fits units) :
    let x := finite negative units fits
    let d := shortest units fits
    ReadsBack units fits d ∧
      ∃ numeral, x.text = String.ofList (withSign negative numeral) ∧ PlainNumeral numeral ∧
        (Decimal.ofNumeral numeral).Same d ∧
        (∀ other, PlainNumeral other → (Decimal.ofNumeral other).Same d → other = numeral) ∧
        ∀ limit env, runLineWithin (limit + 2) x.text env =
          (⟨x.text, .literal (.number x), x.text, []⟩, env) := by
  intro x d
  have hd : ReadsBack units fits d := readsBack_shortest units fits
  have hsame : (Decimal.ofNumeral d.numeral).Same d := d.same_ofNumeral_numeral
  have hplain : PlainNumeral d.numeral := d.plainNumeral_numeral
  have htext : x.text = String.ofList (withSign negative d.numeral) :=
    text_finite negative units fits
  refine ⟨hd, d.numeral, htext, hplain, hsame, fun other hother h => ?_, fun limit env => ?_⟩
  · exact hother.eq_of_same hplain (h.trans hsame.symm)
  · have hx : ofDecimal negative (.ofNumeral d.numeral) = x :=
      ofDecimal_of_readsBack (readsBack_of_same hd hsame) negative
    have hrun := runLineWithin_numeral hplain negative limit env
    rwa [hx, ← htext] at hrun

theorem fits_twoTo {n : Nat} (h : n < 2098) : Fits (twoTo n) := by
  rw [← Nat.one_mul (twoTo n)]
  refine .mul_twoTo (twoTo_pos 53) ?_
  rw [Nat.one_mul]
  exact twoTo_lt_twoTo h

/-- Of `-2 ^ 70`, whose shortest decimal has an exponent. -/
theorem text_retyped_exponent :
    let fits : Fits (twoTo 1144) := fits_twoTo (by decide)
    shortest (twoTo 1144) fits = ⟨11805916207174113, 5⟩ ∧
      runLineWithin usualLimit "-1180591620717411300000" .empty =
        (⟨"-1180591620717411300000", .literal (.number (finite true (twoTo 1144) fits)),
          "-1180591620717411300000", []⟩, .empty) := by
  intro fits
  have htext : (finite true (twoTo 1144) (fits_twoTo (by decide))).text =
      "-1180591620717411300000" := by decide +kernel
  obtain ⟨-, -, -, -, -, -, hrun⟩ := text_retyped true (twoTo 1144) fits
  have hline := hrun 328 .empty
  rw [htext] at hline
  exact ⟨by decide +kernel, hline⟩

/-- The sign of a zero is shown. -/
example : (zero true).text = "-0" := by decide +kernel

end Binary64
end Scratchpad
