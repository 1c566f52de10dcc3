import Scratchpad.Proofs.Reading
import Scratchpad.Proofs.Shape
import Scratchpad.Proofs.Writes

/-! Precedence in what is read. Whatever the tokens are, each reader builds an expression that fits
its layer, also where reading recovers from faults. -/
namespace Scratchpad

theorem Fits.ofUnary {e : Expr} (h : Fits .unary e) (level : Level) : Fits (.binary level) e :=
  Level.ofUnary (motive := fun layer => Fits layer e) h (fun _ => .operand) level

theorem Fits.join {level : Level} {a b : Expr} {op : Token} (hop : level.SpelledBy op)
    (ha : Fits (.binary level) a) (hb : Fits level.operand b) :
    Fits (.binary level) (level.join a op b) := by
  apply level.join_cases (motive := Fits (.binary level))
  · exact fun hl => .logical hl hop ha hb
  · exact fun hl => .binary hl hop ha hb

theorem fits_invalid (layer : Layer) (t : Token) (fault : Fault) : Fits layer (.invalid t fault) := by
  have hunary : Fits .unary (.invalid t fault) := .primary .invalid
  cases layer with
  | statement => exact .expression (hunary.ofUnary .disjunction)
  | binary level => exact hunary.ofUnary level
  | unary => exact hunary
  | primary => exact .invalid

theorem Reading.fits {stop : Token} {layer : Layer} {depth : Nat} {ts : List Token} {p : Parsed}
    (h : Reading stop layer depth ts p) : Fits layer p.value := by
  induction h with
  | assignTooDeep | minusTooDeep | groupTooDeep | refuse | finish => exact fits_invalid _ _ _
  | assign _ _ _ ih => exact .assign ih
  | expression _ _ _ ih => exact .expression ih
  | join _ _ hop _ iha ihb => exact iha.join hop ihb
  | operand _ ih => exact .operand ih
  | minus ht _ ih => exact .unary ht ih
  | primary _ ih => exact .primary ih
  | literal => exact .literal
  | group _ _ _ ih =>
    rw [Parsed.value_endLine, Parsed.value_close]
    exact .group ih

theorem fits_of_mem_statements {stop : Token} {ts : List Token} {s : Expr}
    (hs : s ∈ (statements stop ts).statements) : Fits .statement s := by
  fun_induction statements stop ts with
  | case1 => simp at hs
  | case2 t ts hn ih => exact ih hs
  | case3 t ts hn first more ih =>
    rcases List.mem_cons.1 hs with rfl | hs
    · exact (reading_statement stop maxNesting (t :: ts)).fits
    · exact ih hs

theorem fits_of_mem_parse {tokens : List Token} {s : Expr} (hs : s ∈ (parse tokens).statements) :
    Fits .statement s := fits_of_mem_statements hs

/-! ## Assignments -/

theorem Fits.assigned_eq_nil {layer : Layer} {e : Expr} (h : Fits layer e)
    (hl : layer ≠ .statement) : e.assigned = [] := by
  induction h with
  | assign | expression => exact absurd rfl hl
  | @logical level a b op _ _ _ _ iha ihb | @binary level a b op _ _ _ _ iha ihb =>
    rw [Expr.assigned, iha (by simp), ihb level.operand_ne_statement, List.append_nil]
  | @operand level e _ ih => exact ih level.operand_ne_statement
  | unary _ _ ih | primary _ ih | group _ ih => exact ih (by simp)
  | literal | invalid => rfl

end Scratchpad
