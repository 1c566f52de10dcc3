import Scratchpad.Proofs.Grammar

/-! What reading can do, production by production. Whatever the tokens are, each reader ends in one
of these ways, so what holds of every one of them holds of all that is ever read. -/
namespace Scratchpad

/-- No token at the head is a binary operator of the given levels. -/
def Clear (levels : List Level) (ts : List Token) : Prop :=
  ∀ t ∈ ts.head?, ∀ level ∈ levels, level.accepts t = false

@[simp] theorem clear_nil_tokens (levels : List Level) : Clear levels [] := by simp [Clear]

@[simp] theorem clear_nil_levels (ts : List Token) : Clear [] ts := by simp [Clear]

theorem clear_of_closeParen (levels : List Level) {t : Token} (ht : t.kind = .closeParen)
    (ts : List Token) : Clear levels (t :: ts) := by
  intro u hu level _
  obtain rfl : t = u := by simpa using hu
  simp [Level.accepts, ht]

theorem not_operator_of_clear {t : Token} {ts : List Token} (h : Clear Level.all (t :: ts))
    (op : Operator) : t.kind ≠ .operator op := by
  intro ht
  have hf := h t rfl op.level (by cases op <;> simp [Operator.level, Level.all])
  rw [Level.accepts_level ht] at hf
  exact absurd hf (by simp)

/-! ## Closing a group, ending a line -/

namespace Parsed

@[simp] theorem value_endLine (p : Parsed) : p.endLine.value = p.value := rfl
@[simp] theorem faults_endLine (p : Parsed) : p.endLine.faults = p.faults := rfl
@[simp] theorem rest_endLine (p : Parsed) : p.endLine.rest = skipNewline p.rest := rfl

@[simp] theorem value_close (stop : Token) (p : Parsed) :
    (p.close stop).value = .group p.value := by
  simp only [close]
  split
  · rfl
  · split <;> rfl

/-- Closing a group finds at most one fault more: that the parenthesis is missing. -/
theorem faults_close_cases (stop : Token) (p : Parsed) :
    ∃ more, (more = [] ∨ ∃ t, more = [⟨.expectedClosing, some t⟩]) ∧
      (p.close stop).faults = p.faults ++ more := by
  simp only [close]
  split
  · exact ⟨_, .inr ⟨stop, rfl⟩, rfl⟩
  · next t ts _ =>
    split
    · exact ⟨[], .inl rfl, (List.append_nil _).symm⟩
    · exact ⟨_, .inr ⟨t, rfl⟩, rfl⟩

theorem faults_close (stop : Token) (p : Parsed) :
    ∃ more, (p.close stop).faults = p.faults ++ more := by
  obtain ⟨more, -, hmore⟩ := p.faults_close_cases stop
  exact ⟨more, hmore⟩

theorem close_of_closeParen (stop : Token) {p : Parsed} {t : Token} {ts : List Token}
    (hr : p.rest = t :: ts) (ht : t.kind = .closeParen) :
    p.close stop = ⟨.group p.value, p.faults, ts⟩ := by
  simp [close, hr, ht]

theorem closeParen_of_close_faultless {stop : Token} {p : Parsed}
    (h : (p.close stop).faults = []) : ∃ t ts, p.rest = t :: ts ∧ t.kind = .closeParen := by
  simp only [close] at h
  split at h
  · simp at h
  · next t ts hr =>
    split at h
    · next ht => exact ⟨t, ts, hr, ht⟩
    · simp at h

end Parsed

/-! ## Skipping what nests too deep -/

section
variable {depth : Nat} {t : Token} {ts : List Token}

theorem skipNested_openParen (ht : t.kind = .openParen) :
    skipNested depth (t :: ts) = skipNested (depth + 1) ts := by
  simp [skipNested, ht]

theorem skipNested_closeParen_zero (ht : t.kind = .closeParen) :
    skipNested 0 (t :: ts) = t :: ts := by
  simp [skipNested, ht]

theorem skipNested_closeParen_succ (ht : t.kind = .closeParen) :
    skipNested (depth + 1) (t :: ts) = skipNested depth ts := by
  simp [skipNested, ht]

theorem skipNested_cons (hn : t.kind ≠ .newline) (ho : t.kind ≠ .openParen)
    (hc : t.kind ≠ .closeParen) : skipNested depth (t :: ts) = skipNested depth ts := by
  rw [skipNested.eq_def]
  split <;> first | contradiction | simp_all

theorem skipNested_literal {atom : Atom} (ht : t.kind = atom.kind) :
    skipNested depth (t :: ts) = skipNested depth ts := by
  cases atom <;> exact skipNested_cons (by simp [ht, Atom.kind]) (by simp [ht, Atom.kind])
    (by simp [ht, Atom.kind])

theorem skipNested_operator {op : Operator} (ht : t.kind = .operator op) :
    skipNested depth (t :: ts) = skipNested depth ts :=
  skipNested_cons (by simp [ht]) (by simp [ht]) (by simp [ht])

end

theorem clear_skipNested (levels : List Level) (depth : Nat) (ts : List Token) :
    Clear levels (skipNested depth ts) := by
  fun_induction skipNested depth ts with
  | case1 => simp
  | case2 depth t ts hn =>
    intro u hu level _
    obtain rfl : t = u := by simpa using hu
    simp [Level.accepts, hn]
  | case3 t ts hc => exact clear_of_closeParen levels hc ts
  | case4 t ts depth _ ih => exact ih
  | case5 t ts depth _ ih => exact ih
  | case6 t ts depth _ _ _ _ ih => exact ih

/-! ## The readers, by the first token -/

section
variable {stop t : Token} {ts : List Token} {depth : Nat}

theorem unary_nil : (unary stop depth).read [] = .refuse stop .expectedExpression [] := by
  cases depth <;> rfl

theorem unary_literal {atom : Atom} (h : t.kind = atom.kind) :
    (unary stop depth).read (t :: ts) = Parsed.endLine ⟨.literal atom, [], ts⟩ := by
  cases depth <;> cases atom <;> simp [unary, signed, primary, h, Atom.kind]

theorem unary_minus_zero (h : t.kind = .operator .minus) :
    (unary stop 0).read (t :: ts) = .tooDeep t ts := by
  simp [unary, signed, h]

theorem unary_minus_succ (h : t.kind = .operator .minus) :
    (unary stop (depth + 1)).read (t :: ts) = ((unary stop depth).read ts).map (.unary t) := by
  simp [unary, signed, h]

theorem unary_openParen_zero (h : t.kind = .openParen) :
    (unary stop 0).read (t :: ts) = .tooDeep t ts := by
  simp [unary, signed, primary, h]

theorem unary_openParen_succ (h : t.kind = .openParen) :
    (unary stop (depth + 1)).read (t :: ts) =
      (((expression stop depth).read ts).close stop).endLine := by
  simp [unary, signed, primary, h, expression]

theorem unary_refuse (ha : ∀ atom : Atom, t.kind ≠ atom.kind) (hp : t.kind ≠ .openParen)
    (hm : t.kind ≠ .operator .minus) :
    (unary stop depth).read (t :: ts) = .refuse t .expectedExpression ts := by
  have hb := fun b => ha (.boolean b)
  have hn := fun x => ha (.number x)
  have hi := fun n => ha (.name n)
  simp only [Atom.kind] at hb hn hi
  cases depth <;> simp only [unary, signed, primary, if_neg hm]

theorem statement_assign_zero {colon : Token} {name : String} (ht : t.kind = .identifier name)
    (hc : colon.kind = .colon) :
    (statement stop 0).read (t :: colon :: ts) = .tooDeep t (colon :: ts) := by
  simp [statement, assignable, ht, hc]

theorem statement_assign_succ {colon : Token} {name : String} (ht : t.kind = .identifier name)
    (hc : colon.kind = .colon) :
    (statement stop (depth + 1)).read (t :: colon :: ts) =
      (((statement stop depth).read ts).map (.assign name)).endLine := by
  simp [statement, assignable, ht, hc]

def BeginsAssignment : List Token → Prop
  | t :: colon :: _ => (∃ name, t.kind = .identifier name) ∧ colon.kind = .colon
  | _ => False

theorem assignable_expression {nested : Option Reader} {expression : Reader}
    (h : ¬ BeginsAssignment ts) : (assignable nested expression).read ts = expression.read ts := by
  match ts, h with
  | [], _ => rfl
  | [_], _ => rfl
  | t :: colon :: ts, h =>
    simp only [assignable]
    split
    · next name ht hc => exact absurd ⟨⟨name, ht⟩, hc⟩ h
    · rfl

theorem statement_expression (h : ¬ BeginsAssignment ts) :
    (statement stop depth).read ts = (expression stop depth).read ts := by
  cases depth <;> exact assignable_expression h

end

theorem statements_skipNewline (stop : Token) (ts : List Token) :
    statements stop (skipNewline ts) = statements stop ts := by
  cases ts with
  | nil => rfl
  | cons t ts =>
    by_cases hn : t.kind = .newline
    · rw [statements_newline stop ts hn, skipNewline, if_pos hn]
    · rw [skipNewline, if_neg hn]

/-- Induction along the readers of operands: only signs and groups take a nesting, and only they
read on inside, a group from any place on. -/
theorem unary_induction {motive : Nat → List Token → Prop}
    (nil : ∀ depth, motive depth [])
    (literal : ∀ depth t ts (atom : Atom), t.kind = atom.kind → motive depth (t :: ts))
    (minusTooDeep : ∀ t ts, t.kind = .operator .minus → motive 0 (t :: ts))
    (minus : ∀ depth t ts, t.kind = .operator .minus → motive depth ts →
      motive (depth + 1) (t :: ts))
    (groupTooDeep : ∀ t ts, t.kind = .openParen → motive 0 (t :: ts))
    (group : ∀ depth t ts, t.kind = .openParen → (∀ us, motive depth us) →
      motive (depth + 1) (t :: ts))
    (refuse : ∀ depth t ts, (∀ atom : Atom, t.kind ≠ atom.kind) → t.kind ≠ .openParen →
      t.kind ≠ .operator .minus → motive depth (t :: ts))
    (depth : Nat) (ts : List Token) : motive depth ts := by
  induction depth using Nat.strongRecOn generalizing ts with
  | ind depth ih =>
    cases ts with
    | nil => exact nil depth
    | cons t ts =>
      by_cases ha : ∃ atom : Atom, t.kind = atom.kind
      · obtain ⟨atom, ha⟩ := ha
        exact literal depth t ts atom ha
      -- a sign goes on behind itself, a group anywhere, both with one nesting less
      by_cases hm : t.kind = .operator .minus
      · cases depth with
        | zero => exact minusTooDeep t ts hm
        | succ depth => exact minus depth t ts hm (ih depth depth.lt_succ_self ts)
      by_cases hp : t.kind = .openParen
      · cases depth with
        | zero => exact groupTooDeep t ts hp
        | succ depth => exact group depth t ts hp (ih depth depth.lt_succ_self)
      exact refuse depth t ts (not_exists.1 ha) hp hm

theorem statement_induction {motive : Nat → List Token → Prop}
    (assignTooDeep : ∀ t colon name ts, t.kind = .identifier name → colon.kind = .colon →
      motive 0 (t :: colon :: ts))
    (assign : ∀ depth t colon name ts, t.kind = .identifier name → colon.kind = .colon →
      motive depth ts → motive (depth + 1) (t :: colon :: ts))
    (expression : ∀ depth ts, ¬ BeginsAssignment ts → motive depth ts)
    (depth : Nat) (ts : List Token) : motive depth ts := by
  induction depth using Nat.strongRecOn generalizing ts with
  | ind depth ih =>
    by_cases h : BeginsAssignment ts
    · match ts, h with
      | t :: colon :: ts, ⟨⟨name, ht⟩, hc⟩ =>
        cases depth with
        | zero => exact assignTooDeep t colon name ts ht hc
        | succ depth => exact assign depth t colon name ts ht hc (ih depth depth.lt_succ_self ts)
    · exact expression depth ts h

/-! ## Chains -/

theorem clear_chain {level : Level} {levels : List Level} {operand : Reader}
    (h : ∀ ts, Clear levels (operand.read ts).rest) {left : Parsed} (hl : Clear levels left.rest) :
    Clear (level :: levels) (level.chain operand left).rest := by
  fun_induction Level.chain level operand left with
  | case1 left hr => simp [hr]
  | case2 left op ts hr ha right ih => exact ih (h ts)
  | case3 left op ts hr ha =>
    intro t ht l hmem
    rcases List.mem_cons.1 hmem with rfl | hmem
    · rw [hr] at ht
      obtain rfl : op = t := by simpa using ht
      simpa using ha
    · exact hl t ht l hmem

theorem clear_ladder (levels : List Level) (operand : Reader) (ts : List Token) :
    Clear levels ((ladder levels operand).read ts).rest := by
  induction levels generalizing ts with
  | nil => simp
  | cons level levels ih => exact clear_chain ih (ih ts)

theorem clear_expression (stop : Token) (depth : Nat) (ts : List Token) :
    Clear Level.all ((expression stop depth).read ts).rest := clear_ladder _ _ _

/-! ## Readings -/

/-- What may be read of tokens at a layer, with a given number of nestings left. -/
inductive Reading (stop : Token) : Layer → Nat → List Token → Parsed → Prop where
  | assignTooDeep {t colon : Token} {name : String} {ts : List Token} :
    t.kind = .identifier name → colon.kind = .colon →
    Reading stop .statement 0 (t :: colon :: ts) (.tooDeep t (colon :: ts))
  | assign {t colon : Token} {name : String} {ts : List Token} {depth : Nat} {p : Parsed} :
    t.kind = .identifier name → colon.kind = .colon → Reading stop .statement depth ts p →
    Reading stop .statement (depth + 1) (t :: colon :: ts) (p.map (.assign name)).endLine
  | expression {ts : List Token} {depth : Nat} {p : Parsed} :
    ¬ BeginsAssignment ts → Reading stop (.binary .disjunction) depth ts p →
    Clear Level.all p.rest → Reading stop .statement depth ts p
  | join {level : Level} {ts rest : List Token} {depth : Nat} {left right : Parsed} {op : Token} :
    Reading stop (.binary level) depth ts left → left.rest = op :: rest → level.SpelledBy op →
    Reading stop level.operand depth rest right →
    Reading stop (.binary level) depth ts
      ⟨level.join left.value op right.value, left.faults ++ right.faults, right.rest⟩
  | operand {level : Level} {ts : List Token} {depth : Nat} {p : Parsed} :
    Reading stop level.operand depth ts p → Reading stop (.binary level) depth ts p
  | minusTooDeep {t : Token} {ts : List Token} :
    t.kind = .operator .minus → Reading stop .unary 0 (t :: ts) (.tooDeep t ts)
  | minus {t : Token} {ts : List Token} {depth : Nat} {p : Parsed} :
    t.kind = .operator .minus → Reading stop .unary depth ts p →
    Reading stop .unary (depth + 1) (t :: ts) (p.map (.unary t))
  | primary {ts : List Token} {depth : Nat} {p : Parsed} :
    Reading stop .primary depth ts p → Reading stop .unary depth ts p
  | literal {t : Token} {ts : List Token} {depth : Nat} {atom : Atom} :
    t.kind = atom.kind →
    Reading stop .primary depth (t :: ts) (Parsed.endLine ⟨.literal atom, [], ts⟩)
  | groupTooDeep {t : Token} {ts : List Token} :
    t.kind = .openParen → Reading stop .primary 0 (t :: ts) (.tooDeep t ts)
  | group {t : Token} {ts : List Token} {depth : Nat} {p : Parsed} :
    t.kind = .openParen → Reading stop (.binary .disjunction) depth ts p →
    Clear Level.all p.rest →
    Reading stop .primary (depth + 1) (t :: ts) (p.close stop).endLine
  | refuse {t : Token} {ts : List Token} {depth : Nat} :
    (∀ atom : Atom, t.kind ≠ atom.kind) → t.kind ≠ .openParen → t.kind ≠ .operator .minus →
    Reading stop .primary depth (t :: ts) (.refuse t .expectedExpression ts)
  | finish {depth : Nat} :
    Reading stop .primary depth [] (.refuse stop .expectedExpression [])

theorem Reading.rest_suffix {stop : Token} {layer : Layer} {depth : Nat} {ts : List Token}
    {p : Parsed} (h : Reading stop layer depth ts p) : p.rest <:+ ts := by
  induction h with
  | assignTooDeep | minusTooDeep | groupTooDeep =>
    exact (Parsed.tooDeep_suffix _ _).trans (List.suffix_cons _ _)
  | @assign t colon name ts depth p _ _ _ ih =>
    have hsuffix : ts <:+ t :: colon :: ts := ⟨[t, colon], rfl⟩
    exact ((Parsed.endLine_suffix _).trans ih).trans hsuffix
  | expression _ _ _ ih | operand _ ih | primary _ ih => exact ih
  | @join level ts rest depth left right op _ hleft _ _ ihl ihr =>
    rw [hleft] at ihl
    exact (ihr.trans (List.suffix_cons op rest)).trans ihl
  | minus _ _ ih => exact ih.trans (List.suffix_cons _ _)
  | literal => exact (Parsed.endLine_suffix _).trans (List.suffix_cons _ _)
  | @group t ts depth p _ _ _ ih =>
    have hclose := (Parsed.endLine_suffix (p.close stop)).trans (Parsed.close_suffix stop p)
    exact (hclose.trans ih).trans (List.suffix_cons t ts)
  | refuse => exact List.suffix_cons _ _
  | finish => exact List.suffix_rfl

theorem reading_chain {stop : Token} {depth : Nat} {level : Level} {operand : Reader}
    (h : ∀ ts, Reading stop level.operand depth ts (operand.read ts)) {ts : List Token}
    {left : Parsed} (hl : Reading stop (.binary level) depth ts left) :
    Reading stop (.binary level) depth ts (level.chain operand left) := by
  fun_induction Level.chain level operand left with
  | case1 => exact hl
  | case2 left op rest hr ha right ih => exact ih (.join hl hr (Level.accepts_iff.1 ha) (h rest))
  | case3 => exact hl

theorem reading_chained {stop : Token} {depth : Nat} (level : Level) {operand : Reader}
    (h : ∀ ts, Reading stop level.operand depth ts (operand.read ts)) (ts : List Token) :
    Reading stop (.binary level) depth ts ((level.chained operand).read ts) :=
  reading_chain h (.operand (h ts))

theorem reading_ladder {stop : Token} {depth : Nat} {operand : Reader}
    (h : ∀ ts, Reading stop .unary depth ts (operand.read ts)) (ts : List Token) :
    Reading stop (.binary .disjunction) depth ts ((ladder Level.all operand).read ts) := by
  have hproduct := reading_chained .product h
  have hsum := reading_chained .sum hproduct
  have hcomparison := reading_chained .comparison hsum
  have hequality := reading_chained .equality hcomparison
  have hconjunction := reading_chained .conjunction hequality
  exact reading_chained .disjunction hconjunction ts

theorem reading_unary (stop : Token) (depth : Nat) (ts : List Token) :
    Reading stop .unary depth ts ((unary stop depth).read ts) := by
  induction depth, ts using unary_induction with
  | nil depth =>
    rw [unary_nil]
    exact .primary .finish
  | literal depth t ts atom ha =>
    rw [unary_literal ha]
    exact .primary (.literal ha)
  | minusTooDeep t ts hm =>
    rw [unary_minus_zero hm]
    exact .minusTooDeep hm
  | minus depth t ts hm ih =>
    rw [unary_minus_succ hm]
    exact .minus hm ih
  | groupTooDeep t ts hp =>
    rw [unary_openParen_zero hp]
    exact .primary (.groupTooDeep hp)
  | group depth t ts hp ih =>
    rw [unary_openParen_succ hp]
    exact .primary (.group hp (reading_ladder ih ts) (clear_expression stop depth ts))
  | refuse depth t ts ha hp hm =>
    rw [unary_refuse ha hp hm]
    exact .primary (.refuse ha hp hm)

theorem reading_expression (stop : Token) (depth : Nat) (ts : List Token) :
    Reading stop (.binary .disjunction) depth ts ((expression stop depth).read ts) :=
  reading_ladder (reading_unary stop depth) ts

theorem reading_statement (stop : Token) (depth : Nat) (ts : List Token) :
    Reading stop .statement depth ts ((statement stop depth).read ts) := by
  induction depth, ts using statement_induction with
  | assignTooDeep t colon name ts ht hc =>
    rw [statement_assign_zero ht hc]
    exact .assignTooDeep ht hc
  | assign depth t colon name ts ht hc ih =>
    rw [statement_assign_succ ht hc]
    exact .assign ht hc ih
  | expression depth ts h =>
    rw [statement_expression h]
    exact .expression h (reading_expression stop depth ts) (clear_expression stop depth ts)

end Scratchpad
