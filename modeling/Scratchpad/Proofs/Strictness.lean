import Scratchpad.Proofs.Atomicity
import Scratchpad.Proofs.Naming
import Scratchpad.Proofs.Parts

/-! Strictness. A group, a sign and a binary operator need all that stands in them, and a logical
operator needs its left side. Where something that is needed has no value, or an operand that has to
be a number is none, the whole expression has no value; and a line that ends with such an
expression, or with assignments of it, shows nothing. -/
namespace Scratchpad

/-! ## Operators -/

namespace Token

theorem sign_of_not_number (op : Token) {v : Expr} (h : v.atom?.bind Atom.number? = none) :
    op.sign v = .nothing := by
  rw [sign, h]
  split
  · next heq => cases heq
  · rfl

theorem combine_of_not_number_left (op : Token) {l : Expr} (r : Expr)
    (h : l.atom?.bind Atom.number? = none) : op.combine l r = .nothing := by
  rw [combine, h]

theorem combine_of_not_number_right (op : Token) (l : Expr) {r : Expr}
    (h : r.atom?.bind Atom.number? = none) : op.combine l r = .nothing := by
  rw [combine, h]
  split
  · next heq => cases heq
  · rfl

end Token

namespace Expr

/-- A boolean or a name, to which no sign and no binary operator applies. -/
def IsUnfit (v : Expr) : Prop := ∃ atom : Atom, v = .literal atom ∧ ∀ x, atom ≠ .number x

theorem not_number_nothing : nothing.atom?.bind Atom.number? = none := rfl

theorem IsUnfit.not_number {v : Expr} (h : v.IsUnfit) : v.atom?.bind Atom.number? = none := by
  obtain ⟨atom, rfl, hatom⟩ := h
  cases atom with
  | number x => exact absurd rfl (hatom x)
  | boolean | name => rfl

/-! ## What is needed -/

/-- The parts of an expression that it has no value without: the insides of groups, the operands of
signs and of binary operators, and the left sides of logical operators. -/
def needed : Expr → List Expr
  | e@(group inner) | e@(unary _ inner) => e :: inner.needed
  | e@(binary a _ b) => e :: (a.needed ++ b.needed)
  | e@(logical a _ _) => e :: a.needed
  | e => [e]

def operands : Expr → List Expr
  | unary _ e => [e]
  | binary a _ b => [a, b]
  | _ => []

/-- Something that is needed has no value, or is an operation on what is no number. -/
def Fails (env : Environment) (e : Expr) : Prop :=
  ∃ part ∈ e.needed, (part.eval env).1 = .nothing ∨
    ∃ operand ∈ part.operands, (operand.eval env).1.IsUnfit

theorem snd_eval_of_assigned_eq_nil {e : Expr} (h : e.assigned = []) (env : Environment) :
    (e.eval env).2 = env := by
  have hsame := snd_evalWithin_of_assigned_eq_nil h (e.height + 1) env
  rwa [evalWithin_of_height_lt (Nat.lt_succ_self _)] at hsame

/-- Where the left operand does not assign, both operands are evaluated in the same environment. -/
theorem fst_eval_binary {a : Expr} (ha : a.assigned = []) (op : Token) (b : Expr)
    (env : Environment) :
    ((binary a op b).eval env).1 = op.combine (a.eval env).1 (b.eval env).1 := by
  rw [eval, snd_eval_of_assigned_eq_nil ha]

theorem assigned_of_mem_needed {e part : Expr} (h : e.assigned = []) (hpart : part ∈ e.needed) :
    part.assigned = [] := by
  induction e with
  | nothing | literal | invalid | assign => exact List.mem_singleton.1 hpart ▸ h
  | group e ih | unary op e ih =>
    rcases List.mem_cons.1 hpart with rfl | hpart
    · exact h
    · exact ih h hpart
  | binary a op b iha ihb =>
    obtain ⟨ha, hb⟩ := List.append_eq_nil_iff.1 h
    rcases List.mem_cons.1 hpart with rfl | hpart
    · exact h
    · exact (List.mem_append.1 hpart).elim (iha ha) (ihb hb)
  | logical a op b iha _ =>
    rcases List.mem_cons.1 hpart with rfl | hpart
    · exact h
    · exact iha (List.append_eq_nil_iff.1 h).1 hpart

/-- The lack of a value passes from what is needed to the whole. -/
theorem eval_eq_nothing_of_mem_needed {e part : Expr} {env : Environment} (h : e.assigned = [])
    (hpart : part ∈ e.needed) (hnothing : (part.eval env).1 = .nothing) :
    (e.eval env).1 = .nothing := by
  induction e with
  | nothing | literal | invalid | assign => exact List.mem_singleton.1 hpart ▸ hnothing
  | group e ih =>
    rcases List.mem_cons.1 hpart with rfl | hpart
    · exact hnothing
    · exact ih h hpart
  | unary op e ih =>
    rcases List.mem_cons.1 hpart with rfl | hpart
    · exact hnothing
    · rw [eval, ih h hpart]
      exact op.sign_of_not_number not_number_nothing
  | binary a op b iha ihb =>
    obtain ⟨ha, hb⟩ := List.append_eq_nil_iff.1 h
    rcases List.mem_cons.1 hpart with rfl | hpart
    · exact hnothing
    · rw [fst_eval_binary ha]
      rcases List.mem_append.1 hpart with hpart | hpart
      · rw [iha ha hpart, op.combine_of_not_number_left _ not_number_nothing]
      · rw [ihb hb hpart, op.combine_of_not_number_right _ not_number_nothing]
  | logical a op b iha _ =>
    rcases List.mem_cons.1 hpart with rfl | hpart
    · exact hnothing
    · -- The right side cannot make up for what is missing on the left.
      rw [eval, iha (List.append_eq_nil_iff.1 h).1 hpart]
      rfl

theorem eval_eq_nothing_of_isUnfit {e operand : Expr} {env : Environment} (h : e.assigned = [])
    (hoperand : operand ∈ e.operands) (hunfit : (operand.eval env).1.IsUnfit) :
    (e.eval env).1 = .nothing := by
  cases e with
  | unary op e =>
    obtain rfl := List.mem_singleton.1 hoperand
    exact op.sign_of_not_number hunfit.not_number
  | binary a op b =>
    rw [fst_eval_binary (List.append_eq_nil_iff.1 h).1]
    rcases List.mem_cons.1 hoperand with rfl | hoperand
    · exact op.combine_of_not_number_left _ hunfit.not_number
    · obtain rfl := List.mem_singleton.1 hoperand
      exact op.combine_of_not_number_right _ hunfit.not_number
  | _ => cases hoperand

theorem Fails.eval_eq_nothing {e : Expr} {env : Environment} (h : e.Fails env)
    (hfree : e.assigned = []) : (e.eval env).1 = .nothing := by
  obtain ⟨part, hpart, hnothing | ⟨operand, hoperand, hunfit⟩⟩ := h
  · exact eval_eq_nothing_of_mem_needed hfree hpart hnothing
  · have hhere := eval_eq_nothing_of_isUnfit (assigned_of_mem_needed hfree hpart) hoperand hunfit
    exact eval_eq_nothing_of_mem_needed hfree hpart hhere

/-! ## Lines -/

theorem Fails.display_eq {e : Expr} {env : Environment} (h : e.Fails env)
    (hfree : e.assigned = []) : (e.eval env).1.display (e.eval env).2 = "" := by
  rw [h.eval_eq_nothing hfree, display] <;> simp

theorem display_of_fails {s : Expr} {env : Environment} (hfree : s.body.assigned = [])
    (h : s.body.Fails env) : (s.eval env).1.display (s.eval env).2 = "" := by
  induction s with
  | assign name e ih =>
    rw [eval, display_bind, ih hfree h]
    exact ite_self _
  | _ => exact Fails.display_eq h hfree

end Expr

theorem display_runLineWithin_of_fails {limit : Nat} {source : String} {env : Environment}
    {front : List Expr} {s : Expr} (hs : (parse (tokens source)).statements = front ++ [s])
    (h : s.body.Fails (evalAll limit front .nothing env).2) :
    (runLineWithin limit source env).1.display = "" := by
  have hfits : Fits .statement s := fits_of_mem_parse (hs ▸ List.mem_append_right front (by simp))
  have hfree : s.body.assigned = [] := (hfits.body rfl).assigned_eq_nil (by simp)
  rw [runLineWithin, hs]
  rcases hfront : evalAll limit front .nothing env with ⟨_ | w, before⟩
  · rw [evalAll_append_of_eq_none hfront]
  · rw [hfront] at h
    rw [evalAll_append_of_eq_some hfront, evalAll]
    rcases hv : s.evalWithin limit before with ⟨_ | v, behind⟩
    · rfl
    · have hshown := Expr.display_of_fails hfree h
      rwa [Expr.eval_eq_of_evalWithin hv] at hshown

/-- Without a value for something that an expression needs, an expression that does not assign has
no value, and neither has one with a sign or a binary operator in such a place of which an operand
is a boolean or a name, whatever the environment binds. A limit on evaluation changes nothing about
it. So a line shows nothing where its last statement, or what that one assigns, is such an
expression behind the statements in front of it. -/
theorem nothing_contaminates :
    (∀ (e : Expr) (env : Environment), e.assigned = [] →
      (∀ part ∈ e.needed, (part.eval env).1 = .nothing → (e.eval env).1 = .nothing) ∧
      (∀ part ∈ e.needed, ∀ operand ∈ part.operands, (operand.eval env).1.IsUnfit →
        (e.eval env).1 = .nothing) ∧
      (e.Fails env → ∀ limit, ∀ v ∈ (e.evalWithin limit env).1, v = .nothing)) ∧
    ∀ (limit : Nat) (source : String) (env : Environment) (front : List Expr) (s : Expr),
      (parse (tokens source)).statements = front ++ [s] →
      s.body.Fails (evalAll limit front .nothing env).2 →
      (runLineWithin limit source env).1.display = "" := by
  refine ⟨fun e env hfree => ⟨fun part hpart hnothing => ?_,
    fun part hpart operand hoperand hunfit => ?_, fun h limit v hv => ?_⟩,
    fun limit source env front s hs h => display_runLineWithin_of_fails hs h⟩
  · have hfails : e.Fails env := ⟨part, hpart, .inl hnothing⟩
    exact hfails.eval_eq_nothing hfree
  · have hfails : e.Fails env := ⟨part, hpart, .inr ⟨operand, hoperand, hunfit⟩⟩
    exact hfails.eval_eq_nothing hfree
  · have heval := Expr.eval_eq_of_evalWithin (Prod.ext hv rfl)
    rw [← h.eval_eq_nothing hfree, heval]

def unresolved : String := "c: true x: y: -(a * 2) or c"

/-- The right side of the disjunction is not shown, nor is anything behind `x` or `y`. Where `a` is
a boolean, it does not help that it is bound. -/
theorem nothing_contaminates_unresolved :
    let statements := (parse (tokens unresolved)).statements
    let front := statements.dropLast
    let s := statements.getLastD .nothing
    let before := (evalAll usualLimit front .nothing .empty).2
    let env := Environment.empty.bind "a" (.literal (.boolean true))
    statements = front ++ [s] ∧ s.body.Fails before ∧
      (runLineWithin usualLimit unresolved .empty).1.display = "" ∧
      s.body.assigned = [] ∧ .literal (.name "a") ∈ s.body.needed ∧
      (s.body.eval before).1 = .nothing ∧ (s.body.eval env).1 = .nothing := by
  intro statements front s before env
  have hsplit : statements = front ++ [s] := by decide +kernel
  have hfree : s.body.assigned = [] := by decide +kernel
  have hname : .literal (.name "a") ∈ s.body.needed := by decide +kernel
  have hunbound : ((Expr.literal (.name "a")).eval before).1 = .nothing := by decide +kernel
  have hfails : s.body.Fails before := ⟨_, hname, .inl hunbound⟩
  -- The product in the parentheses is needed, and `a` is an operand of it.
  let product := s.body.needed.getD 3 .nothing
  have hproduct : product ∈ s.body.needed := by decide +kernel
  have hoperand : .literal (.name "a") ∈ product.operands := by decide +kernel
  have hunfit : ((Expr.literal (.name "a")).eval env).1.IsUnfit :=
    ⟨.boolean true, rfl, fun x => by simp⟩
  obtain ⟨hexpr, hline⟩ := nothing_contaminates
  exact ⟨hsplit, hfails, hline usualLimit unresolved .empty front s hsplit hfails, hfree, hname,
    (hexpr s.body before hfree).1 _ hname hunbound,
    (hexpr s.body env hfree).2.1 product hproduct _ hoperand hunfit⟩

end Scratchpad
