import Scratchpad.Proofs.Writes

/-! What evaluation reads: the names that occur as literals, and no others. In environments that
bind these names alike an expression comes to the same value, or nests too deep in both, and binds
the same names to the same values in the same order. -/
namespace Scratchpad

namespace Environment

/-- Some names are bound to the same values in two environments, or unbound in both. -/
def AgreeOn (names : List String) (env other : Environment) : Prop :=
  ∀ x ∈ names, other.lookup x = env.lookup x

section
variable {names : List String} {env other : Environment}

theorem AgreeOn.mono {fewer : List String} (h : AgreeOn names env other) (hfewer : fewer ⊆ names) :
    AgreeOn fewer env other := fun x hx => h x (hfewer hx)

theorem AgreeOn.bind (h : AgreeOn names env other) (name : String) (value : Expr) :
    AgreeOn names (env.bind name value) (other.bind name value) := by
  intro x hx
  rw [lookup_bind, lookup_bind, h x hx]

theorem AgreeOn.bindAll (h : AgreeOn names env other) (bindings : List (String × Expr)) :
    AgreeOn names (env.bindAll bindings) (other.bindAll bindings) := by
  induction bindings generalizing env other with
  | nil => exact h
  | cons b bindings ih => exact ih (h.bind b.1 b.2)

theorem AgreeOn.erase (h : AgreeOn names env other) (name : String) :
    AgreeOn names (env.erase name) (other.erase name) := by
  intro x hx
  rw [lookup_erase, lookup_erase, h x hx]

theorem agreeOn_bindAll (env : Environment) {bindings : List (String × Expr)}
    (h : ∀ x ∈ names, x ∉ bindings.map Prod.fst) : AgreeOn names env (env.bindAll bindings) :=
  fun x hx => lookup_bindAll_of_notMem env (h x hx)

theorem lookup_bindAll_comm (env : Environment) {a b : List (String × Expr)}
    (h : ∀ x ∈ a.map Prod.fst, x ∉ b.map Prod.fst) (x : String) :
    ((env.bindAll b).bindAll a).lookup x = ((env.bindAll a).bindAll b).lookup x := by
  have hsingle {bindings : List (String × Expr)} (hx : x ∉ bindings.map Prod.fst) :
      AgreeOn [x] env (env.bindAll bindings) :=
    agreeOn_bindAll env (by simpa using hx)
  by_cases hb : x ∈ b.map Prod.fst
  · have ha : x ∉ a.map Prod.fst := fun ha => h x ha hb
    rw [lookup_bindAll_of_notMem _ ha]
    exact ((hsingle ha).bindAll b x List.mem_cons_self).symm
  · rw [lookup_bindAll_of_notMem _ hb]
    exact (hsingle hb).bindAll a x List.mem_cons_self

end

end Environment

namespace Expr

def mentioned : Expr → List String
  | literal (.name n) => [n]
  | group e | unary _ e | assign _ e => e.mentioned
  | binary a _ b | logical a _ b => a.mentioned ++ b.mentioned
  | _ => []

/-! ## Values and bindings, part by part -/

section
variable (limit : Nat) (env : Environment)

theorem fst_evalWithin_unary (op : Token) (e : Expr) :
    (evalWithin (limit + 1) (.unary op e) env).1 = (evalWithin limit e env).1.map op.sign := by
  rw [evalWithin]
  rcases evalWithin limit e env with ⟨_ | v, env'⟩ <;> rfl

theorem fst_evalWithin_assign (name : String) (e : Expr) :
    (evalWithin (limit + 1) (.assign name e) env).1 =
      (evalWithin limit e env).1.map fun _ => .literal (.name name) := by
  rw [evalWithin]
  rcases evalWithin limit e env with ⟨_ | v, env'⟩ <;> rfl

theorem fst_evalWithin_binary (a : Expr) (op : Token) (b : Expr) :
    (evalWithin (limit + 1) (.binary a op b) env).1 =
      (evalWithin limit a env).1.bind fun l =>
        (evalWithin limit b (evalWithin limit a env).2).1.map (op.combine l) := by
  rw [evalWithin]
  rcases evalWithin limit a env with ⟨_ | l, env'⟩
  · rfl
  · dsimp only
    rcases evalWithin limit b env' with ⟨_ | r, env''⟩ <;> rfl

theorem fst_evalWithin_logical (a : Expr) (op : Token) (b : Expr) :
    (evalWithin (limit + 1) (.logical a op b) env).1 =
      (evalWithin limit a env).1.bind fun l =>
        (op.settle l).or (evalWithin limit b (evalWithin limit a env).2).1 := by
  rw [evalWithin]
  rcases evalWithin limit a env with ⟨_ | l, env'⟩
  · rfl
  · dsimp only
    cases hs : op.settle l <;> simp [hs]

theorem writesWithin_assign (name : String) (e : Expr) :
    writesWithin (limit + 1) (.assign name e) env =
      writesWithin limit e env ++ ((evalWithin limit e env).1.map fun v => (name, v)).toList := by
  rw [writesWithin]
  rcases evalWithin limit e env with ⟨_ | v, env'⟩ <;> simp

theorem writesWithin_binary (a : Expr) (op : Token) (b : Expr) :
    writesWithin (limit + 1) (.binary a op b) env =
      writesWithin limit a env ++ (evalWithin limit a env).1.elim [] fun _ =>
        writesWithin limit b (evalWithin limit a env).2 := by
  rw [writesWithin]
  rcases evalWithin limit a env with ⟨_ | l, env'⟩ <;> simp

theorem writesWithin_logical (a : Expr) (op : Token) (b : Expr) :
    writesWithin (limit + 1) (.logical a op b) env =
      writesWithin limit a env ++ (evalWithin limit a env).1.elim [] fun l =>
        (op.settle l).elim (writesWithin limit b (evalWithin limit a env).2) fun _ => [] := by
  rw [writesWithin]
  rcases evalWithin limit a env with ⟨_ | l, env'⟩
  · simp
  · cases hs : op.settle l <;> simp [hs]

end

/-! ## Two runs -/

/-- Evaluation comes to the same in two environments, and binds the same. -/
structure SameRun (limit : Nat) (e : Expr) (env other : Environment) : Prop where
  value : (e.evalWithin limit other).1 = (e.evalWithin limit env).1
  writes : e.writesWithin limit other = e.writesWithin limit env

/-- Environments that agree in front of it agree behind it. -/
theorem SameRun.agreeOn {limit : Nat} {e : Expr} {env other : Environment}
    (h : SameRun limit e env other) {names : List String}
    (hagree : Environment.AgreeOn names env other) :
    Environment.AgreeOn names (e.evalWithin limit env).2 (e.evalWithin limit other).2 := by
  rw [snd_evalWithin, snd_evalWithin, h.writes]
  exact hagree.bindAll _

theorem sameRun_of_agreeOn (limit : Nat) (e : Expr) {env other : Environment}
    (h : Environment.AgreeOn e.mentioned env other) : SameRun limit e env other := by
  induction limit generalizing e env other with
  | zero => cases e <;> exact ⟨rfl, rfl⟩
  | succ limit ih =>
    cases e with
    | nothing | invalid => exact ⟨rfl, rfl⟩
    | literal atom =>
      cases atom with
      | boolean | number => exact ⟨rfl, rfl⟩
      | name n =>
        refine ⟨?_, rfl⟩
        rw [evalWithin, evalWithin, Atom.resolve, Atom.resolve, h n List.mem_cons_self]
    | group e => exact ⟨(ih e h).value, (ih e h).writes⟩
    | unary op e =>
      refine ⟨?_, (ih e h).writes⟩
      rw [fst_evalWithin_unary, fst_evalWithin_unary, (ih e h).value]
    | assign name e =>
      obtain ⟨hvalue, hwrites⟩ := ih e h
      refine ⟨?_, ?_⟩
      · rw [fst_evalWithin_assign, fst_evalWithin_assign, hvalue]
      · rw [writesWithin_assign, writesWithin_assign, hvalue, hwrites]
    | binary a op b =>
      -- The right operand is evaluated behind the left one, which binds the same in both runs.
      have ha := ih a (h.mono (List.subset_append_left _ _))
      have hb := ih b (ha.agreeOn (h.mono (List.subset_append_right _ _)))
      refine ⟨?_, ?_⟩
      · rw [fst_evalWithin_binary, fst_evalWithin_binary, ha.value, hb.value]
      · rw [writesWithin_binary, writesWithin_binary, ha.value, ha.writes, hb.writes]
    | logical a op b =>
      have ha := ih a (h.mono (List.subset_append_left _ _))
      have hb := ih b (ha.agreeOn (h.mono (List.subset_append_right _ _)))
      refine ⟨?_, ?_⟩
      · rw [fst_evalWithin_logical, fst_evalWithin_logical, ha.value, hb.value]
      · rw [writesWithin_logical, writesWithin_logical, ha.value, ha.writes, hb.writes]

end Expr

/-- Statements come to the same in two environments that bind the names in them alike, and bind the
same. -/
theorem evalAll_of_agreeOn (limit : Nat) {statements : List Expr} (last : Expr)
    {env other : Environment}
    (h : ∀ s ∈ statements, Environment.AgreeOn s.mentioned env other) :
    (evalAll limit statements last other).1 = (evalAll limit statements last env).1 ∧
      writesAll limit statements other = writesAll limit statements env := by
  induction statements generalizing last env other with
  | nil => exact ⟨rfl, rfl⟩
  | cons s rest ih =>
    have hs := Expr.sameRun_of_agreeOn limit s (h s List.mem_cons_self)
    have hrest : ∀ r ∈ rest, Environment.AgreeOn r.mentioned (s.evalWithin limit env).2
        (s.evalWithin limit other).2 :=
      fun r hr => hs.agreeOn (h r (List.mem_cons_of_mem s hr))
    have hvalue := hs.value
    rw [evalAll, evalAll, writesAll, writesAll, hs.writes]
    rcases hv : s.evalWithin limit env with ⟨v, env'⟩
    rcases hv' : s.evalWithin limit other with ⟨v', other'⟩
    rw [hv, hv'] at hvalue hrest
    obtain rfl : v' = v := hvalue
    cases v' with
    | none => exact ⟨rfl, rfl⟩
    | some v =>
      obtain ⟨hlast, hwrites⟩ := ih v hrest
      exact ⟨hlast, congrArg (_ ++ ·) hwrites⟩

end Scratchpad
