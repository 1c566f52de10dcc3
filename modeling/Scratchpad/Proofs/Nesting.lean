import Scratchpad.Proofs.Reading

/-! Nestings that are left over do not show: where reading finds nothing nested too deep, it reads
the same with one nesting more. -/
namespace Scratchpad

/-- Nothing that was found wrong is a nesting. -/
def Shallow (faults : List Diagnostic) : Prop := ∀ d ∈ faults, d.fault ≠ .tooDeep

instance (faults : List Diagnostic) : Decidable (Shallow faults) :=
  inferInstanceAs (Decidable (∀ d ∈ faults, d.fault ≠ .tooDeep))

theorem shallow_append {a b : List Diagnostic} : Shallow (a ++ b) ↔ Shallow a ∧ Shallow b :=
  List.forall_mem_append

theorem not_shallow_tooDeep (t : Token) (ts : List Token) :
    ¬ Shallow (Parsed.tooDeep t ts).faults := by
  simp [Shallow, Parsed.tooDeep, Parsed.refuse]

theorem shallow_of_close {stop : Token} {p : Parsed} (h : Shallow (p.close stop).faults) :
    Shallow p.faults := by
  obtain ⟨more, hmore⟩ := p.faults_close stop
  rw [hmore, shallow_append] at h
  exact h.1

/-- Reading with one reader is reading with the other, where the first finds nothing too deep. -/
def Reader.AgreesWith (r r' : Reader) : Prop :=
  ∀ ts, Shallow (r.read ts).faults → r'.read ts = r.read ts

theorem faults_chain (level : Level) (operand : Reader) (left : Parsed) :
    ∃ more, (level.chain operand left).faults = left.faults ++ more := by
  fun_induction Level.chain level operand left with
  | case1 left hr => exact ⟨[], (List.append_nil _).symm⟩
  | case2 left op ts hr ha right ih =>
    obtain ⟨more, hmore⟩ := ih
    exact ⟨right.faults ++ more, by rw [hmore, List.append_assoc]⟩
  | case3 left op ts hr ha => exact ⟨[], (List.append_nil _).symm⟩

theorem chain_eq_of_agreesWith {level : Level} {operand operand' : Reader}
    (h : operand.AgreesWith operand') {left : Parsed}
    (hs : Shallow (level.chain operand left).faults) :
    level.chain operand' left = level.chain operand left := by
  fun_induction Level.chain level operand left with
  | case1 left hr => exact Level.chain_eq_self (by simp [hr])
  | case2 left op ts hr ha right ih =>
    obtain ⟨more, hmore⟩ := faults_chain level operand
      ⟨level.join left.value op right.value, left.faults ++ right.faults, right.rest⟩
    have hright : Shallow right.faults := by
      rw [hmore, shallow_append, shallow_append] at hs
      exact hs.1.2
    rw [Level.chain_cons hr ha, h ts hright]
    exact ih hs
  | case3 left op ts hr ha => exact Level.chain_eq_self (by simp [hr, ha])

theorem agreesWith_ladder (levels : List Level) {operand operand' : Reader}
    (h : operand.AgreesWith operand') :
    (ladder levels operand).AgreesWith (ladder levels operand') := by
  induction levels with
  | nil => exact h
  | cons level levels ih =>
    intro ts hs
    rw [ladder_cons, Level.read_chained] at hs
    obtain ⟨more, hmore⟩ := faults_chain level (ladder levels operand)
      ((ladder levels operand).read ts)
    have hfirst : Shallow ((ladder levels operand).read ts).faults := by
      rw [hmore, shallow_append] at hs
      exact hs.1
    rw [ladder_cons, ladder_cons, Level.read_chained, Level.read_chained, ih ts hfirst]
    exact chain_eq_of_agreesWith ih hs

section
variable (stop : Token) (depth : Nat)

theorem agreesWith_unary : (unary stop depth).AgreesWith (unary stop (depth + 1)) := by
  intro ts
  induction depth, ts using unary_induction with
  | nil depth => exact fun _ => by rw [unary_nil, unary_nil]
  | literal depth t ts atom ha => exact fun _ => by rw [unary_literal ha, unary_literal ha]
  | minusTooDeep t ts hm =>
    rw [unary_minus_zero hm]
    exact fun hs => absurd hs (not_shallow_tooDeep t ts)
  | minus depth t ts hm ih =>
    rw [unary_minus_succ hm, unary_minus_succ hm]
    exact fun hs => by rw [ih hs]
  | groupTooDeep t ts hp =>
    rw [unary_openParen_zero hp]
    exact fun hs => absurd hs (not_shallow_tooDeep t ts)
  | group depth t ts hp ih =>
    rw [unary_openParen_succ hp, unary_openParen_succ hp]
    intro hs
    have hinner := agreesWith_ladder Level.all ih ts (shallow_of_close hs)
    rw [expression, expression, hinner]
  | refuse depth t ts ha hp hm =>
    exact fun _ => by rw [unary_refuse ha hp hm, unary_refuse ha hp hm]

theorem agreesWith_expression :
    (expression stop depth).AgreesWith (expression stop (depth + 1)) :=
  agreesWith_ladder Level.all (agreesWith_unary stop depth)

theorem agreesWith_statement :
    (statement stop depth).AgreesWith (statement stop (depth + 1)) := by
  intro ts
  induction depth, ts using statement_induction with
  | assignTooDeep t colon name ts ht hc =>
    rw [statement_assign_zero ht hc]
    exact fun hs => absurd hs (not_shallow_tooDeep t (colon :: ts))
  | assign depth t colon name ts ht hc ih =>
    rw [statement_assign_succ ht hc, statement_assign_succ ht hc]
    exact fun hs => by rw [ih hs]
  | expression depth ts h =>
    rw [statement_expression h, statement_expression h]
    exact agreesWith_expression stop depth ts

end
end Scratchpad
