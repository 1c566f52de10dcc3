import Scratchpad.Proofs.Limit
import Scratchpad.Proofs.Precedence

/-! A statement that nests too deep for the limit has no effect. It binds nothing, even if it is a
chain of assignments, for these bind their names behind their values only; and no statement behind
it is evaluated. Where no statement nests too deep, the limit does not show. -/
namespace Scratchpad

/-! ## Statements without a limit -/

def evalEach : List Expr → Expr → Environment → Expr × Environment
  | [], last, env => (last, env)
  | s :: rest, _, env => evalEach rest (s.eval env).1 (s.eval env).2

/-- Statements of which none nests as deep as a limit, evaluated one after the other. -/
def StayWithin (limit : Nat) : List Expr → Environment → Prop
  | [], _ => True
  | s :: rest, env => s.depth env < limit ∧ StayWithin limit rest (s.eval env).2

/-! ## Failures -/

theorem Expr.snd_evalWithin_of_assigned_eq_nil {e : Expr} (h : e.assigned = []) (limit : Nat)
    (env : Environment) : (e.evalWithin limit env).2 = env := by
  have hwrites : e.writesWithin limit env = [] := by
    rw [List.eq_nil_iff_forall_not_mem]
    intro b hb
    have hmem := mem_assigned_of_mem_writesWithin hb
    simp [h] at hmem
  rw [snd_evalWithin, hwrites, Environment.bindAll_nil]

/-- A statement without a value has bound nothing. -/
theorem Fits.evalWithin_eq_none {e : Expr} (h : Fits .statement e) {limit : Nat}
    {env : Environment} (hnone : (e.evalWithin limit env).1 = none) :
    e.evalWithin limit env = (none, env) := by
  refine Prod.ext hnone ?_
  generalize hlayer : Layer.statement = layer at h
  induction h generalizing limit with
  | @assign name e _ ih =>
    cases limit with
    | zero => rfl
    | succ limit =>
      rw [Expr.fst_evalWithin_assign, Option.map_eq_none_iff] at hnone
      have hsame := ih hnone rfl
      rw [Expr.evalWithin]
      rcases hv : e.evalWithin limit env with ⟨_ | v, env'⟩
      · rwa [hv] at hsame
      · simp [hv] at hnone
  | expression h _ =>
    exact Expr.snd_evalWithin_of_assigned_eq_nil (h.assigned_eq_nil (by simp)) limit env
  | _ => cases hlayer

/-! ## Statements with a limit -/

/-- Statements that stay within the limit are evaluated as without one. -/
theorem evalAll_of_stayWithin {limit : Nat} {statements : List Expr} {env : Environment}
    (h : StayWithin limit statements env) (last : Expr) :
    evalAll limit statements last env =
      (some (evalEach statements last env).1, (evalEach statements last env).2) := by
  induction statements generalizing last env with
  | nil => rfl
  | cons s rest ih =>
    rw [evalAll, Expr.evalWithin_of_depth_lt h.1]
    exact ih h.2 _

theorem evalAll_append {limit : Nat} {front : List Expr} {env : Environment}
    (h : StayWithin limit front env) (rest : List Expr) (last : Expr) :
    evalAll limit (front ++ rest) last env =
      evalAll limit rest (evalEach front last env).1 (evalEach front last env).2 :=
  evalAll_append_of_eq_some (evalAll_of_stayWithin h last) rest

/-- The first statement that does not stay within the limit ends the evaluation. -/
theorem evalAll_of_le_depth {limit : Nat} {front : List Expr} {s : Expr} {env : Environment}
    (hs : Fits .statement s) (hfront : StayWithin limit front env) {last : Expr}
    (hdeep : limit ≤ s.depth (evalEach front last env).2) (back : List Expr) :
    evalAll limit (front ++ s :: back) last env = (none, (evalEach front last env).2) := by
  have hnone := hs.evalWithin_eq_none (Expr.fst_evalWithin_of_le_depth hdeep)
  rw [evalAll_append hfront, evalAll, hnone]

/-- If a statement of a line nests too deep for the limit, and none in front of it does, then the
line leaves the environment that those in front leave, has no value, shows nothing and is reported
with one diagnostic more than reading it has led to, which names no token. If no statement nests too
deep, the line has the value, the environment and the diagnostics that it has without a limit. -/
theorem runLineWithin_atomic (limit : Nat) (source : String) (env : Environment) :
    let program := parse (tokens source)
    let run := runLineWithin limit source env
    (∀ front s back, program.statements = front ++ s :: back →
      StayWithin limit front env → limit ≤ s.depth (evalEach front .nothing env).2 →
      run.1 = ⟨source, .nothing, "", program.faults ++ [⟨.tooDeep, none⟩]⟩ ∧
        run.2 = (evalEach front .nothing env).2) ∧
    (StayWithin limit program.statements env →
      let unlimited := evalEach program.statements .nothing env
      run.1 = ⟨source, unlimited.1, unlimited.1.display unlimited.2, program.faults⟩ ∧
        run.2 = unlimited.2) := by
  intro program run
  constructor
  · intro front s back hsplit hfront hdeep
    have hmem : s ∈ program.statements := by
      rw [hsplit]
      exact List.mem_append_right front List.mem_cons_self
    have hall := evalAll_of_le_depth (fits_of_mem_parse hmem) hfront hdeep back
    rw [← hsplit] at hall
    simp only [run, runLineWithin]
    rw [hall]
    exact ⟨rfl, rfl⟩
  · intro hwithin unlimited
    have hall := evalAll_of_stayWithin hwithin .nothing
    simp only [run, runLineWithin]
    rw [hall]
    exact ⟨rfl, rfl⟩

/-- A binding, a chain of bindings that nests four deep, and a binding behind it. -/
def deepChain : String := "a: true b: c: --a d: false"

/-- Where only two nodes may stand above one another, the first binding is all that is left of the
line. Where four may, the line is worth its last binding. -/
theorem runLineWithin_atomic_chain :
    let first : Expr := .assign "a" (.literal (.boolean true))
    let chain : Expr := .assign "b" (.assign "c" (.unary ⟨.operator .minus, "-", ⟨1, 15, 14⟩⟩
      (.unary ⟨.operator .minus, "-", ⟨1, 16, 15⟩⟩ (.literal (.name "a")))))
    let last : Expr := .assign "d" (.literal (.boolean false))
    (parse (tokens deepChain)).statements = [first] ++ chain :: [last] ∧
      StayWithin 3 [first] .empty ∧ 3 ≤ chain.depth (evalEach [first] .nothing .empty).2 ∧
      runLineWithin 3 deepChain .empty = (⟨deepChain, .nothing, "", [⟨.tooDeep, none⟩]⟩,
        Environment.empty.bind "a" (.literal (.boolean true))) ∧
      StayWithin 5 [first, chain, last] .empty ∧
      (runLineWithin 5 deepChain .empty).1 = ⟨deepChain, .literal (.name "d"), "false", []⟩ := by
  intro first chain last
  have hsplit : (parse (tokens deepChain)).statements = [first] ++ chain :: [last] := by
    decide +kernel
  have hfaults : (parse (tokens deepChain)).faults = [] := by decide +kernel
  have hshort : StayWithin 3 [first] .empty := ⟨by decide, trivial⟩
  have hdeep : 3 ≤ chain.depth (evalEach [first] .nothing .empty).2 := by decide
  have hlong : StayWithin 5 [first, chain, last] .empty :=
    ⟨by decide, by decide, by decide, trivial⟩
  have hdisplay : (Expr.literal (.name "d")).display
      (evalEach [first, chain, last] .nothing .empty).2 = "false" := by decide +kernel
  have hfailed := (runLineWithin_atomic 3 deepChain .empty).1 _ _ _ hsplit hshort hdeep
  have hfinished := (runLineWithin_atomic 5 deepChain .empty).2 (hsplit ▸ hlong)
  rw [hfaults, hsplit] at hfinished
  rw [hfaults] at hfailed
  exact ⟨hsplit, hshort, hdeep, Prod.ext hfailed.1 hfailed.2, hlong, hdisplay ▸ hfinished.1⟩

end Scratchpad
