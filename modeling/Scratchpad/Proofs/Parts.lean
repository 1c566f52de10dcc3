import Scratchpad.Proofs.Precedence

/-! The parts of what is read. Whatever the tokens are, assignments stand in front of a statement
and nowhere else, each operator is one that evaluation knows, and nothing nests deeper than the
limit. -/
namespace Scratchpad

namespace Expr

def parts : Expr → List Expr
  | e@(group inner) | e@(unary _ inner) | e@(assign _ inner) => e :: inner.parts
  | e@(binary a _ b) | e@(logical a _ b) => e :: (a.parts ++ b.parts)
  | e => [e]

/-- What stands behind the assignments in front of a statement. -/
def body : Expr → Expr
  | assign _ e => e.body
  | e => e

/-- An operator at the head of an expression has a meaning for evaluation: a sign negates numbers, a
binary operator has a result for any two of them, and any other one is `and` or `or`. -/
def Supported : Expr → Prop
  | unary op _ => ∀ x, op.sign (.literal (.number x)) = .literal (.number x.neg)
  | binary _ op _ => ∀ x y, ∃ atom, op.combine (.literal (.number x)) (.literal (.number y)) =
      .literal atom
  | logical _ op _ => op.kind = .operator .and ∨ op.kind = .operator .or
  | _ => True

theorem mem_parts (e : Expr) : e ∈ e.parts := by
  cases e <;> exact List.mem_cons_self

end Expr

/-! ## Operators -/

theorem exists_result {level : Level} {op : Operator} (hl : level.isLogical = false)
    (h : op ∈ level.operators) (x y : Binary64) : ∃ atom, op.result? x y = some atom := by
  cases op with
  | and | or => cases level <;> simp [Level.operators, Level.isLogical] at h hl
  | _ => exact ⟨_, rfl⟩

theorem supported_unary {op : Token} (h : op.kind = .operator .minus) (e : Expr) :
    (Expr.unary op e).Supported := by
  intro x
  simp [Token.sign, h, Expr.atom?, Atom.number?]

theorem supported_binary {level : Level} {op : Token} (hl : level.isLogical = false)
    (h : level.SpelledBy op) (a b : Expr) : (Expr.binary a op b).Supported := by
  obtain ⟨o, hmem, hkind⟩ := h
  intro x y
  obtain ⟨atom, hatom⟩ := exists_result hl hmem x y
  exact ⟨atom, by simp [Token.combine, Expr.atom?, Atom.number?, Token.result, hkind, hatom]⟩

theorem supported_logical {level : Level} {op : Token} (hl : level.isLogical = true)
    (h : level.SpelledBy op) (a b : Expr) : (Expr.logical a op b).Supported := by
  obtain ⟨o, hmem, hkind⟩ := h
  cases level with
  | disjunction => exact .inr (by simpa [Level.operators, hkind] using hmem)
  | conjunction => exact .inl (by simpa [Level.operators, hkind] using hmem)
  | _ => cases hl

theorem Fits.supported {layer : Layer} {e : Expr} (h : Fits layer e) :
    ∀ part ∈ e.parts, part.Supported := by
  induction h with
  | assign _ ih | group _ ih => exact List.forall_mem_cons.2 ⟨trivial, ih⟩
  | expression _ ih | operand _ ih | primary _ ih => exact ih
  | logical hl hop _ _ iha ihb =>
    exact List.forall_mem_cons.2 ⟨supported_logical hl hop _ _, List.forall_mem_append.2 ⟨iha, ihb⟩⟩
  | binary hl hop _ _ iha ihb =>
    exact List.forall_mem_cons.2 ⟨supported_binary hl hop _ _, List.forall_mem_append.2 ⟨iha, ihb⟩⟩
  | unary hop _ ih => exact List.forall_mem_cons.2 ⟨supported_unary hop _, ih⟩
  | literal | invalid => exact List.forall_mem_singleton.2 trivial

/-! ## Assignments -/

theorem Fits.ne_assign {layer : Layer} {e : Expr} (h : Fits layer e) (hl : layer ≠ .statement) :
    ∀ part ∈ e.parts, ∀ name value, part ≠ .assign name value := by
  induction h with
  | assign | expression => exact absurd rfl hl
  | @logical level _ _ _ _ _ _ _ iha ihb | @binary level _ _ _ _ _ _ _ iha ihb =>
    refine List.forall_mem_cons.2 ⟨nofun, List.forall_mem_append.2 ⟨iha (by simp), ?_⟩⟩
    exact ihb level.operand_ne_statement
  | @operand level _ _ ih => exact ih level.operand_ne_statement
  | unary _ _ ih | group _ ih => exact List.forall_mem_cons.2 ⟨nofun, ih (by simp)⟩
  | primary _ ih => exact ih (by simp)
  | literal | invalid => exact List.forall_mem_singleton.2 nofun

theorem Expr.body_of_ne_assign {e : Expr} (h : ∀ name value, e ≠ .assign name value) :
    e.body = e := by
  cases e with
  | assign name value => exact absurd rfl (h name value)
  | _ => rfl

theorem Fits.body {layer : Layer} {e : Expr} (h : Fits layer e) (hl : layer = .statement) :
    Fits (.binary .disjunction) e.body := by
  induction h with
  | assign _ ih => exact ih rfl
  | @expression e h _ =>
    rw [Expr.body_of_ne_assign (h.ne_assign (by simp) e e.mem_parts)]
    exact h
  | _ => cases hl

/-! ## Nesting -/

/-- What is read nests no deeper than there are nestings left. -/
theorem Reading.nesting_le {stop : Token} {layer : Layer} {depth : Nat} {ts : List Token}
    {p : Parsed} (h : Reading stop layer depth ts p) : p.value.nesting ≤ depth := by
  induction h with
  | assignTooDeep | minusTooDeep | groupTooDeep | literal | refuse | finish => exact Nat.zero_le _
  | assign _ _ _ ih | minus _ _ ih => exact Nat.succ_le_succ ih
  | expression _ _ _ ih | operand _ ih | primary _ ih => exact ih
  | join _ _ _ _ ihl ihr =>
    rw [Expr.nesting_join]
    exact Nat.max_le.2 ⟨ihl, ihr⟩
  | group _ _ _ ih =>
    rw [Parsed.value_endLine, Parsed.value_close]
    exact Nat.succ_le_succ ih

theorem nesting_le_of_mem_statements {stop : Token} {ts : List Token} {s : Expr}
    (hs : s ∈ (statements stop ts).statements) : s.nesting ≤ maxNesting := by
  fun_induction statements stop ts with
  | case1 => simp at hs
  | case2 t ts hn ih => exact ih hs
  | case3 t ts hn first more ih =>
    rcases List.mem_cons.1 hs with rfl | hs
    · exact (reading_statement stop maxNesting (t :: ts)).nesting_le
    · exact ih hs

/-- The shape of every statement that is read. -/
theorem shape_of_mem_parse (ts : List Token) (s : Expr) (hs : s ∈ (parse ts).statements) :
    Fits .statement s ∧
      (∀ part ∈ s.body.parts, ∀ name value, part ≠ .assign name value) ∧
      (∀ part ∈ s.parts, part.Supported) ∧ s.nesting ≤ 32 := by
  have hfits := fits_of_mem_parse hs
  have hbody := hfits.body rfl
  exact ⟨hfits, hbody.ne_assign (by simp), hfits.supported, nesting_le_of_mem_statements hs⟩

/-- Of an assignment with a group that is not closed and a sign without an operand. -/
theorem shape_of_mem_parse_unfinished :
    let program := parse (tokens "x: 1 + (-")
    ∃ s ∈ program.statements, program.faults.length = 2 ∧ s.nesting = 3 ∧ Fits .statement s ∧
      ∀ part ∈ s.parts, part.Supported := by
  intro program
  have hs : program.statements.headD .nothing ∈ program.statements := by decide +kernel
  have hnesting : (program.statements.headD .nothing).nesting = 3 := by decide +kernel
  obtain ⟨hfits, -, hsupported, -⟩ := shape_of_mem_parse (tokens "x: 1 + (-") _ hs
  exact ⟨_, hs, by decide +kernel, hnesting, hfits, hsupported⟩

end Scratchpad
