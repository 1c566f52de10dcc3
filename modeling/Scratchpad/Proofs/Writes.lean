import Scratchpad.Line

/-! What evaluation binds, in the order in which it does. Nothing else becomes of an environment:
behind an expression, a line, or a failure half-way through either, it is the one in front with
these bindings made one after the other. -/
namespace Scratchpad

namespace Environment

def bindAll (env : Environment) (bindings : List (String × Expr)) : Environment :=
  bindings.foldl (fun env b => env.bind b.1 b.2) env

@[simp] theorem bindAll_nil (env : Environment) : env.bindAll [] = env := rfl

@[simp] theorem bindAll_cons (env : Environment) (b : String × Expr)
    (bindings : List (String × Expr)) :
    env.bindAll (b :: bindings) = (env.bind b.1 b.2).bindAll bindings := rfl

@[simp] theorem bindAll_append (env : Environment) (a b : List (String × Expr)) :
    env.bindAll (a ++ b) = (env.bindAll a).bindAll b := List.foldl_append

theorem lookup_bindAll_of_notMem (env : Environment) {bindings : List (String × Expr)} {x : String}
    (h : x ∉ bindings.map Prod.fst) : (env.bindAll bindings).lookup x = env.lookup x := by
  induction bindings generalizing env with
  | nil => rfl
  | cons b bindings ih =>
    rw [List.map_cons, List.mem_cons, not_or] at h
    rw [bindAll_cons, ih _ h.2, lookup_bind, if_neg h.1]

theorem names_bindAll (env : Environment) (bindings : List (String × Expr)) :
    (env.bindAll bindings).names =
      env.names ++ ((bindings.map Prod.fst).filter (· ∉ env.names)).eraseDups := by
  induction bindings generalizing env with
  | nil => simp
  | cons b bindings ih =>
    rw [bindAll_cons, ih, names_bind]
    by_cases hb : b.1 ∈ env.names
    · simp [hb]
    · have hfilter : (bindings.map Prod.fst).filter (· ∉ env.names ++ [b.1]) =
          ((bindings.map Prod.fst).filter (· ∉ env.names)).filter fun x => !x == b.1 := by
        rw [List.filter_filter]
        congr 1
        funext x
        by_cases hx : x = b.1 <;> simp [hx]
      rw [if_neg hb, hfilter]
      simp [hb, List.eraseDups_cons]

end Environment

namespace Expr

/-- The bindings that evaluation with a limit makes, in order. -/
def writesWithin : Nat → Expr → Environment → List (String × Expr)
  | limit + 1, group inner, env => writesWithin limit inner env
  | limit + 1, assign name e, env =>
    match evalWithin limit e env with
    | (some v, _) => writesWithin limit e env ++ [(name, v)]
    | (none, _) => writesWithin limit e env
  | limit + 1, unary _ e, env => writesWithin limit e env
  | limit + 1, binary a _ b, env =>
    match evalWithin limit a env with
    | (some _, env') => writesWithin limit a env ++ writesWithin limit b env'
    | (none, _) => writesWithin limit a env
  | limit + 1, logical a op b, env =>
    match evalWithin limit a env with
    | (some l, env') =>
      match op.settle l with
      | some _ => writesWithin limit a env
      | none => writesWithin limit a env ++ writesWithin limit b env'
    | (none, _) => writesWithin limit a env
  | _, _, _ => []

theorem snd_evalWithin (limit : Nat) (e : Expr) (env : Environment) :
    (evalWithin limit e env).2 = env.bindAll (writesWithin limit e env) := by
  induction limit generalizing e env with
  | zero => cases e <;> rfl
  | succ limit ih =>
    cases e with
    | nothing | invalid | literal => rfl
    | group inner => exact ih inner env
    | assign name e =>
      have he := ih e env
      rw [evalWithin, writesWithin]
      rcases hv : evalWithin limit e env with ⟨_ | v, env'⟩
      · rwa [hv] at he
      · rw [hv] at he
        simp [← he]
    | unary op e =>
      have he := ih e env
      rw [evalWithin, writesWithin]
      rcases hv : evalWithin limit e env with ⟨_ | v, env'⟩ <;> rwa [hv] at he
    | binary a op b =>
      have ha := ih a env
      rw [evalWithin, writesWithin]
      rcases hl : evalWithin limit a env with ⟨_ | l, env'⟩
      · rwa [hl] at ha
      · rw [hl] at ha
        have hb := ih b env'
        rcases hr : evalWithin limit b env' with ⟨_ | r, env''⟩ <;> rw [hr] at hb <;>
          simpa [hr, ← ha] using hb
    | logical a op b =>
      have ha := ih a env
      rw [evalWithin, writesWithin]
      rcases hl : evalWithin limit a env with ⟨_ | l, env'⟩
      · rwa [hl] at ha
      · rw [hl] at ha
        cases hs : op.settle l with
        | some v => simpa [hs] using ha
        | none => simpa [hs, ← ha] using ih b env'

def assigned : Expr → List String
  | assign name e => name :: e.assigned
  | group e | unary _ e => e.assigned
  | binary a _ b | logical a _ b => a.assigned ++ b.assigned
  | _ => []

theorem mem_assigned_of_mem_writesWithin {limit : Nat} {e : Expr} {env : Environment}
    {b : String × Expr} (h : b ∈ writesWithin limit e env) : b.1 ∈ e.assigned := by
  induction limit generalizing e env with
  | zero => cases e <;> simp [writesWithin] at h
  | succ limit ih =>
    cases e with
    | nothing | invalid | literal => simp [writesWithin] at h
    | group inner | unary op inner =>
      rw [writesWithin] at h
      rw [assigned]
      exact ih h
    | assign name e =>
      rw [writesWithin] at h
      rw [assigned, List.mem_cons]
      split at h
      · rcases List.mem_append.1 h with h | h
        · exact .inr (ih h)
        · exact .inl (congrArg Prod.fst (List.mem_singleton.1 h))
      · exact .inr (ih h)
    | binary a op b =>
      rw [writesWithin] at h
      rw [assigned, List.mem_append]
      split at h
      · exact (List.mem_append.1 h).imp ih ih
      · exact .inl (ih h)
    | logical a op b =>
      rw [writesWithin] at h
      rw [assigned, List.mem_append]
      split at h
      · split at h
        · exact .inl (ih h)
        · exact (List.mem_append.1 h).imp ih ih
      · exact .inl (ih h)

end Expr

/-- The bindings that statements make, up to the first that nests too deep. -/
def writesAll (limit : Nat) : List Expr → Environment → List (String × Expr)
  | [], _ => []
  | s :: rest, env =>
    match s.evalWithin limit env with
    | (some _, env') => s.writesWithin limit env ++ writesAll limit rest env'
    | (none, _) => s.writesWithin limit env

theorem snd_evalAll (limit : Nat) (statements : List Expr) (last : Expr) (env : Environment) :
    (evalAll limit statements last env).2 = env.bindAll (writesAll limit statements env) := by
  induction statements generalizing last env with
  | nil => rfl
  | cons s rest ih =>
    have hs := s.snd_evalWithin limit env
    rw [evalAll, writesAll]
    rcases hv : s.evalWithin limit env with ⟨_ | v, env'⟩
    · rwa [hv] at hs
    · rw [hv] at hs
      simpa [← hs] using ih v env'

theorem exists_mem_assigned_of_mem_writesAll {limit : Nat} {statements : List Expr}
    {env : Environment} {b : String × Expr} (h : b ∈ writesAll limit statements env) :
    ∃ s ∈ statements, b.1 ∈ s.assigned := by
  induction statements generalizing env with
  | nil => simp [writesAll] at h
  | cons s rest ih =>
    rw [writesAll] at h
    split at h
    · rcases List.mem_append.1 h with h | h
      · exact ⟨s, List.mem_cons_self, Expr.mem_assigned_of_mem_writesWithin h⟩
      · obtain ⟨s', hs', hb⟩ := ih h
        exact ⟨s', List.mem_cons_of_mem s hs', hb⟩
    · exact ⟨s, List.mem_cons_self, Expr.mem_assigned_of_mem_writesWithin h⟩

namespace Line

def writes (limit : Nat) (source : String) (env : Environment) : List (String × Expr) :=
  writesAll limit (parse (tokens source)).statements env

end Line

theorem snd_runLineWithin (limit : Nat) (source : String) (env : Environment) :
    (runLineWithin limit source env).2 = env.bindAll (Line.writes limit source env) := by
  have h := snd_evalAll limit (parse (tokens source)).statements .nothing env
  rw [Line.writes, ← h, runLineWithin]
  rcases evalAll limit (parse (tokens source)).statements .nothing env with ⟨_ | v, env'⟩ <;> rfl

end Scratchpad
