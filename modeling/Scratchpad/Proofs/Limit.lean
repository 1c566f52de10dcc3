import Scratchpad.Proofs.Reads

/-! The limit on evaluation. How deep an expression nests when it is evaluated does not depend on a
limit. Below the limit, evaluation ends with the value and the environment that it has without one;
otherwise there is no value. The height of an expression bounds its depth in every environment. -/
namespace Scratchpad
namespace Expr

/-- The number of nodes above the deepest one that is evaluated. What a logical operator leaves
alone does not count. -/
def depth : Expr → Environment → Nat
  | group e, env | unary _ e, env | assign _ e, env => e.depth env + 1
  | binary a _ b, env => max (a.depth env) (b.depth (a.eval env).2) + 1
  | logical a op b, env =>
    match op.settle (a.eval env).1 with
    | some _ => a.depth env + 1
    | none => max (a.depth env) (b.depth (a.eval env).2) + 1
  | _, _ => 0

theorem evalWithin_of_depth_lt {limit : Nat} {e : Expr} {env : Environment}
    (h : e.depth env < limit) :
    evalWithin limit e env = (some (e.eval env).1, (e.eval env).2) := by
  induction e generalizing limit env with
  | nothing | literal | invalid =>
    cases limit with
    | zero => exact absurd h (Nat.not_lt_zero _)
    | succ limit => rfl
  | group e ih | unary op e ih | assign name e ih =>
    cases limit with
    | zero => exact absurd h (Nat.not_lt_zero _)
    | succ limit => rw [evalWithin, ih (Nat.lt_of_succ_lt_succ h), eval]
  | binary a op b iha ihb =>
    cases limit with
    | zero => exact absurd h (Nat.not_lt_zero _)
    | succ limit =>
      have hab := Nat.max_lt.1 (Nat.lt_of_succ_lt_succ h)
      rw [evalWithin, iha hab.1, eval]
      simp only [ihb hab.2]
  | logical a op b iha ihb =>
    cases limit with
    | zero => exact absurd h (Nat.not_lt_zero _)
    | succ limit =>
      rw [depth] at h
      rw [evalWithin, eval]
      -- the right side counts only where the left one does not decide
      cases hs : op.settle (a.eval env).1 with
      | some v =>
        rw [hs] at h
        rw [iha (Nat.lt_of_succ_lt_succ h)]
        simp only [hs]
      | none =>
        rw [hs] at h
        have hab := Nat.max_lt.1 (Nat.lt_of_succ_lt_succ h)
        rw [iha hab.1]
        simp only [hs, ihb hab.2]

theorem fst_evalWithin_of_le_depth {limit : Nat} {e : Expr} {env : Environment}
    (h : limit ≤ e.depth env) : (evalWithin limit e env).1 = none := by
  induction e generalizing limit env with
  | nothing | literal | invalid =>
    obtain rfl := Nat.le_zero.1 h
    rfl
  | group e ih =>
    cases limit with
    | zero => rfl
    | succ limit => exact ih (Nat.le_of_succ_le_succ h)
  | unary op e ih =>
    cases limit with
    | zero => rfl
    | succ limit => rw [fst_evalWithin_unary, ih (Nat.le_of_succ_le_succ h), Option.map_none]
  | assign name e ih =>
    cases limit with
    | zero => rfl
    | succ limit => rw [fst_evalWithin_assign, ih (Nat.le_of_succ_le_succ h), Option.map_none]
  | binary a op b iha ihb =>
    cases limit with
    | zero => rfl
    | succ limit =>
      rw [fst_evalWithin_binary]
      by_cases ha : a.depth env < limit
      -- the left side stays below the limit, so it is the right one that reaches it
      · have hb : limit ≤ b.depth (a.eval env).2 := by
          rw [depth] at h
          omega
        rw [evalWithin_of_depth_lt ha, Option.bind_some, ihb hb, Option.map_none]
      · rw [iha (Nat.le_of_not_lt ha), Option.bind_none]
  | logical a op b iha ihb =>
    cases limit with
    | zero => rfl
    | succ limit =>
      rw [fst_evalWithin_logical]
      by_cases ha : a.depth env < limit
      · rw [evalWithin_of_depth_lt ha, Option.bind_some]
        rw [depth] at h
        cases hs : op.settle (a.eval env).1 with
        | some v =>
          simp only [hs] at h
          omega
        | none =>
          simp only [hs] at h
          have hb : limit ≤ b.depth (a.eval env).2 := by omega
          rw [Option.none_or, ihb hb]
      · rw [iha (Nat.le_of_not_lt ha), Option.bind_none]

/-- Within the limit, the limit does not show. -/
theorem eval_eq_of_evalWithin {limit : Nat} {e v : Expr} {env env' : Environment}
    (h : evalWithin limit e env = (some v, env')) : e.eval env = (v, env') := by
  have hlt : e.depth env < limit := by
    refine Nat.lt_of_not_le fun hle => ?_
    have hnone := fst_evalWithin_of_le_depth hle
    rw [h] at hnone
    cases hnone
  rw [evalWithin_of_depth_lt hlt, Prod.mk.injEq, Option.some.injEq] at h
  exact Prod.ext h.1 h.2

def height : Expr → Nat
  | group e | unary _ e | assign _ e => e.height + 1
  | binary a _ b | logical a _ b => max a.height b.height + 1
  | _ => 0

theorem depth_le_height (e : Expr) (env : Environment) : e.depth env ≤ e.height := by
  induction e generalizing env with
  | nothing | literal | invalid => exact Nat.le_refl 0
  | group e ih | unary op e ih | assign name e ih => exact Nat.succ_le_succ (ih env)
  | binary a op b iha ihb =>
    have ha := iha env
    have hb := ihb (a.eval env).2
    rw [depth, height]
    omega
  | logical a op b iha ihb =>
    have ha := iha env
    have hb := ihb (a.eval env).2
    rw [depth, height]
    split <;> omega

theorem evalWithin_of_height_lt {limit : Nat} {e : Expr} (h : e.height < limit)
    (env : Environment) : evalWithin limit e env = (some (e.eval env).1, (e.eval env).2) :=
  evalWithin_of_depth_lt (Nat.lt_of_le_of_lt (e.depth_le_height env) h)

end Expr
end Scratchpad
