import Scratchpad.Proofs.Limit

/-! What an evaluation depends on. An expression comes to the same value in two environments that
bind the names occurring in it alike, and it makes the same bindings there in the same order. All
other names stay as they are in each of the two, so nothing passes from one name to another that the
expression does not mention. The same holds of an evaluation that a limit ends half-way. -/
namespace Scratchpad
namespace Expr

def writes : Expr → Environment → List (String × Expr)
  | group e, env | unary _ e, env => e.writes env
  | assign name e, env => e.writes env ++ [(name, (e.eval env).1)]
  | binary a _ b, env => a.writes env ++ b.writes (a.eval env).2
  | logical a op b, env =>
    match op.settle (a.eval env).1 with
    | some _ => a.writes env
    | none => a.writes env ++ b.writes (a.eval env).2
  | _, _ => []

/-- Below the limit, the limit does not show in what is bound. -/
theorem writesWithin_of_depth_lt {limit : Nat} {e : Expr} {env : Environment}
    (h : e.depth env < limit) : writesWithin limit e env = e.writes env := by
  induction e generalizing limit env with
  | nothing | literal | invalid => cases limit <;> rfl
  | group e ih | unary op e ih =>
    cases limit with
    | zero => exact absurd h (Nat.not_lt_zero _)
    | succ limit => exact ih (Nat.lt_of_succ_lt_succ h)
  | assign name e ih =>
    cases limit with
    | zero => exact absurd h (Nat.not_lt_zero _)
    | succ limit =>
      have he := Nat.lt_of_succ_lt_succ h
      rw [writesWithin_assign, ih he, evalWithin_of_depth_lt he]
      rfl
  | binary a op b iha ihb =>
    cases limit with
    | zero => exact absurd h (Nat.not_lt_zero _)
    | succ limit =>
      have hab := Nat.max_lt.1 (Nat.lt_of_succ_lt_succ h)
      rw [writesWithin_binary, iha hab.1, evalWithin_of_depth_lt hab.1]
      exact congrArg _ (ihb hab.2)
  | logical a op b iha ihb =>
    cases limit with
    | zero => exact absurd h (Nat.not_lt_zero _)
    | succ limit =>
      rw [depth] at h
      rw [writesWithin_logical, writes]
      cases hs : op.settle (a.eval env).1 with
      | some v =>
        have ha : a.depth env < limit := by
          rw [hs] at h
          exact Nat.lt_of_succ_lt_succ h
        rw [iha ha, evalWithin_of_depth_lt ha]
        simp [hs]
      | none =>
        have hab : a.depth env < limit ∧ b.depth (a.eval env).2 < limit := by
          rw [hs] at h
          exact Nat.max_lt.1 (Nat.lt_of_succ_lt_succ h)
        rw [iha hab.1, evalWithin_of_depth_lt hab.1]
        simp [hs, ihb hab.2]

theorem writesWithin_of_height_lt {limit : Nat} {e : Expr} (h : e.height < limit)
    (env : Environment) : writesWithin limit e env = e.writes env :=
  writesWithin_of_depth_lt (Nat.lt_of_le_of_lt (e.depth_le_height env) h)

/-- Behind an evaluation the environment is the one in front of it with what has been bound. -/
theorem snd_eval (e : Expr) (env : Environment) : (e.eval env).2 = env.bindAll (e.writes env) := by
  have h := snd_evalWithin (e.height + 1) e env
  rwa [evalWithin_of_height_lt (Nat.lt_succ_self _),
    writesWithin_of_height_lt (Nat.lt_succ_self _)] at h

/-- What two evaluations have in common: their outcome, and the bindings they make one after the
other. These are all that becomes of an environment, so a name outside them keeps what it is bound
to there, or stays without a binding. -/
structure SameEffect {α : Type} (bindings : List (String × Expr)) (env other : Environment)
    (run run' : α × Environment) : Prop where
  outcome : run'.1 = run.1
  behind : run.2 = env.bindAll bindings
  behind' : run'.2 = other.bindAll bindings
  kept : ∀ x, x ∉ bindings.map Prod.fst →
    run.2.lookup x = env.lookup x ∧ run'.2.lookup x = other.lookup x

theorem sameEffect_of_bindAll {α : Type} {bindings : List (String × Expr)}
    {env other : Environment} {run run' : α × Environment} (houtcome : run'.1 = run.1)
    (hbehind : run.2 = env.bindAll bindings) (hbehind' : run'.2 = other.bindAll bindings) :
    SameEffect bindings env other run run' where
  outcome := houtcome
  behind := hbehind
  behind' := hbehind'
  kept x hx := by
    rw [hbehind, hbehind']
    exact ⟨Environment.lookup_bindAll_of_notMem env hx,
      Environment.lookup_bindAll_of_notMem other hx⟩

/-- In two environments that bind the names occurring in an expression to the same values, or leave
them unbound alike, the expression has the same value and makes the same bindings in the same order,
and nothing else becomes of either environment. With a limit both evaluations fail or neither, and
have bound the same by then. -/
theorem evaluation_depends_on_mentioned {e : Expr} {env other : Environment}
    (h : Environment.AgreeOn e.mentioned env other) :
    (e.writes other = e.writes env ∧
      SameEffect (e.writes env) env other (e.eval env) (e.eval other)) ∧
    ∀ limit, e.writesWithin limit other = e.writesWithin limit env ∧
      SameEffect (e.writesWithin limit env) env other
        (e.evalWithin limit env) (e.evalWithin limit other) := by
  have hlimit (limit : Nat) := sameRun_of_agreeOn limit e h
  -- Above its height an expression is evaluated as without a limit.
  have hheight : e.height < e.height + 1 := Nat.lt_succ_self _
  have hvalue := (hlimit (e.height + 1)).value
  have hwrites := (hlimit (e.height + 1)).writes
  rw [evalWithin_of_height_lt hheight, evalWithin_of_height_lt hheight] at hvalue
  rw [writesWithin_of_height_lt hheight, writesWithin_of_height_lt hheight] at hwrites
  refine ⟨⟨hwrites, ?_⟩, fun limit => ⟨(hlimit limit).writes, ?_⟩⟩
  · apply sameEffect_of_bindAll (Option.some.inj hvalue) (snd_eval e env)
    rw [snd_eval, hwrites]
  · apply sameEffect_of_bindAll (hlimit limit).value (snd_evalWithin limit e env)
    rw [snd_evalWithin, (hlimit limit).writes]

def entangled : Expr :=
  .logical (.assign "x" (.literal (.name "y"))) ⟨.operator .and, "and", ⟨1, 6, 5⟩⟩
    (.binary (.literal (.name "x")) ⟨.operator .equal, "=", ⟨1, 12, 11⟩⟩ (.literal (.name "y")))

/-- It comes to true and binds `x`, whether `z` is bound or not. -/
theorem evaluation_depends_on_mentioned_entangled :
    let zero : Expr := .literal (.number (.zero false))
    let env := Environment.empty.bind "y" zero
    let other := (Environment.empty.bind "z" (.literal (.boolean false))).bind "y" zero
    Environment.AgreeOn entangled.mentioned env other ∧
      entangled.writes env = [("x", zero)] ∧ (entangled.eval env).1 = .literal (.boolean true) ∧
      (entangled.eval other).1 = .literal (.boolean true) ∧
      (entangled.eval env).2.lookup "z" = none ∧
      (entangled.eval other).2.lookup "z" = some (.literal (.boolean false)) ∧
      (entangled.evalWithin 1 other).2.lookup "x" = none := by
  intro zero env other
  have hagree : Environment.AgreeOn entangled.mentioned env other := by
    have hnames : entangled.mentioned = ["y", "x", "y"] := rfl
    rw [hnames]
    unfold Environment.AgreeOn
    decide
  obtain ⟨⟨-, hsame⟩, hlimit⟩ := evaluation_depends_on_mentioned hagree
  have hwrites : entangled.writes env = [("x", zero)] := by decide
  have hvalue : (entangled.eval env).1 = .literal (.boolean true) := by decide
  have hfailed : entangled.writesWithin 1 env = [] := by decide
  have hz : "z" ∉ (entangled.writes env).map Prod.fst := by simp [hwrites]
  have hx : "x" ∉ (entangled.writesWithin 1 env).map Prod.fst := by simp [hfailed]
  exact ⟨hagree, hwrites, hvalue, hsame.outcome.trans hvalue, (hsame.kept "z" hz).1,
    (hsame.kept "z" hz).2, ((hlimit 1).2.kept "x" hx).2⟩

end Expr
end Scratchpad
