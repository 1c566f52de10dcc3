import Scratchpad.Line
import Scratchpad.Proofs.Limit

/-! Values are closed. What is bound is nothing or a literal, never an expression that is still to
be evaluated, and a name among the literals is bound itself. Evaluation keeps it so, also where it
gets stuck half-way, and so does every line. -/
namespace Scratchpad

/-- Nothing, or a literal that is no name without a binding. -/
inductive Expr.IsValueIn (env : Environment) : Expr → Prop where
  | nothing : IsValueIn env .nothing
  | boolean (value : Bool) : IsValueIn env (.literal (.boolean value))
  | number (value : Binary64) : IsValueIn env (.literal (.number value))
  | name {n : String} : env.contains n = true → IsValueIn env (.literal (.name n))

namespace Environment

def Closed (env : Environment) : Prop := ∀ b ∈ env.bindings, b.2.IsValueIn env

theorem closed_empty : empty.Closed := by simp [Closed, empty]

end Environment

theorem Expr.IsValueIn.bind {env : Environment} {v : Expr} (h : v.IsValueIn env) (name : String)
    (value : Expr) : v.IsValueIn (env.bind name value) := by
  cases h with
  | nothing => exact .nothing
  | boolean value => exact .boolean value
  | number value => exact .number value
  | name hn => exact .name (by simp [hn])

theorem Environment.Closed.bind {env : Environment} (h : env.Closed) (name : String) {value : Expr}
    (hv : value.IsValueIn env) : (env.bind name value).Closed := by
  intro b hb
  rcases mem_bindIn hb with rfl | hb
  · exact hv.bind name value
  · exact (h b hb).bind name value

/-! ## Operations give values -/

section
variable {env : Environment}

theorem isValueIn_resolve (h : env.Closed) (atom : Atom) : (atom.resolve env).IsValueIn env := by
  cases atom with
  | boolean value => exact .boolean value
  | number value => exact .number value
  | name n =>
    rw [Atom.resolve]
    cases hn : env.lookup n with
    | none => exact .nothing
    | some v => exact h _ (Environment.mem_bindings_of_lookup hn)

theorem isValueIn_sign (op : Token) (operand : Expr) : (op.sign operand).IsValueIn env := by
  rw [Token.sign]
  split
  · exact .number _
  · exact .nothing

theorem isValueIn_result (op : Token) (x y : Binary64) : (op.result x y).IsValueIn env := by
  rw [Token.result]
  split
  · next op _ =>
    cases op with
    | less | lessEqual | greater | greaterEqual | equal => exact .boolean _
    | and | or => exact .nothing
    | _ => exact .number _
  · exact .nothing

theorem isValueIn_combine (op : Token) (left right : Expr) :
    (op.combine left right).IsValueIn env := by
  rw [Token.combine]
  split
  · exact isValueIn_result op _ _
  · exact .nothing

theorem isValueIn_settle {op : Token} {left v : Expr} (h : left.IsValueIn env)
    (hv : op.settle left = some v) : v.IsValueIn env := by
  rw [Token.settle] at hv
  split at hv
  · obtain rfl := Option.some.inj hv
    exact .nothing
  · split at hv
    · obtain rfl := Option.some.inj hv
      exact h
    · cases hv

end

/-! ## Evaluation -/

/-- A closed environment, and a value in it unless there is none. -/
structure Settled (r : Option Expr × Environment) : Prop where
  closed : r.2.Closed
  value : ∀ v ∈ r.1, v.IsValueIn r.2

theorem settled_some {v : Expr} {env : Environment} (h : env.Closed) (hv : v.IsValueIn env) :
    Settled (some v, env) where
  closed := h
  value := by simpa using hv

theorem Settled.andThen {r : Option Expr × Environment} (h : Settled r)
    {next : Expr → Environment → Option Expr × Environment}
    (hnext : ∀ v env, env.Closed → v.IsValueIn env → Settled (next v env)) :
    Settled (match r with
      | (some v, env) => next v env
      | stuck => stuck) := by
  obtain ⟨_ | v, env⟩ := r
  · exact h
  · exact hnext v env h.closed (h.value v rfl)

theorem settled_evalWithin (limit : Nat) (e : Expr) {env : Environment} (h : env.Closed) :
    Settled (e.evalWithin limit env) := by
  induction limit generalizing e env with
  | zero => cases e <;> exact ⟨h, by simp [Expr.evalWithin]⟩
  | succ limit ih =>
    cases e with
    | nothing | invalid => exact settled_some h .nothing
    | literal atom => exact settled_some h (isValueIn_resolve h atom)
    | group inner => exact ih inner h
    | assign name e =>
      refine (ih e h).andThen fun v env' h' hv => ?_
      have hbound : (env'.bind name v).contains name = true := by simp
      exact settled_some (h'.bind name hv) (.name hbound)
    | unary op e =>
      refine (ih e h).andThen fun v env' h' _ => ?_
      exact settled_some h' (isValueIn_sign op v)
    | binary a op b =>
      refine (ih a h).andThen fun l env' h' _ => (ih b h').andThen fun r env'' h'' _ => ?_
      exact settled_some h'' (isValueIn_combine op l r)
    | logical a op b =>
      refine (ih a h).andThen fun l env' h' hl => ?_
      cases hs : op.settle l with
      | some v => exact settled_some h' (isValueIn_settle hl hs)
      | none => exact ih b h'

theorem settled_eval (e : Expr) {env : Environment} (h : env.Closed) :
    Settled (some (e.eval env).1, (e.eval env).2) := by
  rw [← Expr.evalWithin_of_height_lt (Nat.lt_succ_self e.height) env]
  exact settled_evalWithin _ e h

theorem settled_evalAll (limit : Nat) (statements : List Expr) {last : Expr} {env : Environment}
    (h : env.Closed) (hlast : last.IsValueIn env) :
    Settled (evalAll limit statements last env) := by
  induction statements generalizing last env with
  | nil => exact settled_some h hlast
  | cons s rest ih => exact (settled_evalWithin limit s h).andThen fun v env' h' hv => ih h' hv

/-! ## Lines -/

theorem closed_runLineWithin (limit : Nat) (source : String) {env : Environment}
    (h : env.Closed) : (runLineWithin limit source env).2.Closed := by
  have hall := settled_evalAll limit (parse (tokens source)).statements h .nothing
  rw [runLineWithin]
  rcases hv : evalAll limit (parse (tokens source)).statements .nothing env with ⟨_ | v, env'⟩ <;>
    rw [hv] at hall <;> exact hall.closed

theorem closed_runLinesWithin (limit : Nat) (sources : List String) {env : Environment}
    (h : env.Closed) : (runLinesWithin limit sources env).2.Closed := by
  induction sources generalizing env with
  | nil => exact h
  | cons source rest ih => exact ih (closed_runLineWithin _ source h)

/-- In a closed environment every expression, wherever assignments stand in it, is worth nothing or
a literal, and the environment behind it is closed again; a name that it is worth is bound there.
An evaluation that nests too deep leaves a closed environment too. So no sequence of lines ever
binds a name to an expression that is not evaluated, or to a name without a binding. -/
theorem evaluation_closed :
    (∀ (e : Expr) (env : Environment), env.Closed →
      (e.eval env).1.IsValueIn (e.eval env).2 ∧ (e.eval env).2.Closed) ∧
    (∀ (limit : Nat) (e : Expr) (env : Environment), env.Closed →
      (∀ v ∈ (e.evalWithin limit env).1, v.IsValueIn (e.evalWithin limit env).2) ∧
        (e.evalWithin limit env).2.Closed) ∧
    ∀ (limit : Nat) (sources : List String), (runLinesWithin limit sources .empty).2.Closed := by
  refine ⟨fun e env h => ?_, fun limit e env h => ?_, fun limit sources => ?_⟩
  · have he := settled_eval e h
    exact ⟨he.value _ rfl, he.closed⟩
  · have he := settled_evalWithin limit e h
    exact ⟨he.value, he.closed⟩
  · exact closed_runLinesWithin limit sources Environment.closed_empty

/-- An environment in which `a` stands for `b`. -/
def aliased : Environment :=
  (Environment.empty.bind "b" (.literal (.boolean true))).bind "a" (.literal (.name "b"))

def circular : Expr :=
  .logical (.assign "b" (.literal (.name "a"))) ⟨.operator .or, "or", ⟨1, 6, 5⟩⟩
    (.literal (.name "c"))

/-- Behind it `b` stands for itself, which is a name with a binding. -/
theorem evaluation_closed_circular :
    aliased.Closed ∧ (circular.eval aliased).2.lookup "b" = some (.literal (.name "b")) ∧
      (circular.eval aliased).1.IsValueIn (circular.eval aliased).2 ∧
      (circular.eval aliased).2.Closed ∧ (circular.evalWithin 2 aliased).2.Closed := by
  have hb : (Expr.literal (.name "b")).IsValueIn
      (Environment.empty.bind "b" (.literal (.boolean true))) := .name (by simp)
  have haliased : aliased.Closed := (Environment.closed_empty.bind "b" (.boolean true)).bind "a" hb
  have hbound : (circular.eval aliased).2.lookup "b" = some (.literal (.name "b")) := by decide
  obtain ⟨hvalue, hclosed⟩ := evaluation_closed.1 circular aliased haliased
  exact ⟨haliased, hbound, hvalue, hclosed, (evaluation_closed.2.1 2 circular aliased haliased).2⟩

end Scratchpad
