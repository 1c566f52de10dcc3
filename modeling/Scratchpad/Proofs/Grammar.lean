import Scratchpad.Expr.Parser

/-! The grammar of statements. A derivation relates an expression to the tokens it is made of, one
node for each production; newlines stand behind literals, groups and assignments only. The grammar
is ambiguous: nothing separates statements, and a minus sign both subtracts and begins an operand.
-/
namespace Scratchpad

/-- Statements, the layers of binary operators, and the two layers of their operands. -/
inductive Layer where
  | statement
  | binary (level : Level)
  | unary
  | primary
  deriving DecidableEq

namespace Level

def operators : Level → List Operator
  | disjunction => [.or]
  | conjunction => [.and]
  | equality => [.equal]
  | comparison => [.less, .lessEqual, .greater, .greaterEqual]
  | sum => [.plus, .minus]
  | product => [.times, .dividedBy, .percent, .mod]

def operand : Level → Layer
  | disjunction => .binary conjunction
  | conjunction => .binary equality
  | equality => .binary comparison
  | comparison => .binary sum
  | sum => .binary product
  | product => .unary

def isLogical : Level → Bool
  | disjunction | conjunction => true
  | _ => false

def SpelledBy (level : Level) (t : Token) : Prop := ∃ op ∈ level.operators, t.kind = .operator op

theorem accepts_iff {level : Level} {t : Token} :
    level.accepts t = true ↔ level.SpelledBy t := by
  simp only [accepts, SpelledBy]
  split
  · next op h =>
    have hmem : op ∈ level.operators ↔ op.level = level := by
      cases level <;> cases op <;> simp [operators, Operator.level]
    simp [h, hmem]
  · next h => simpa using fun op _ => h op

theorem join_of_isLogical {level : Level} (h : level.isLogical = true) (a : Expr) (op : Token)
    (b : Expr) : level.join a op b = .logical a op b := by
  cases level <;> simp_all [isLogical, join]

theorem join_of_not_isLogical {level : Level} (h : level.isLogical = false) (a : Expr) (op : Token)
    (b : Expr) : level.join a op b = .binary a op b := by
  cases level <;> simp_all [isLogical, join]

theorem join_cases {motive : Expr → Prop} (level : Level) {a : Expr} {op : Token} {b : Expr}
    (hlogical : level.isLogical = true → motive (.logical a op b))
    (hbinary : level.isLogical = false → motive (.binary a op b)) :
    motive (level.join a op b) := by
  cases hl : level.isLogical with
  | true => exact join_of_isLogical hl a op b ▸ hlogical hl
  | false => exact join_of_not_isLogical hl a op b ▸ hbinary hl

/-- What holds of the operands of all levels, and goes from the operands of each level to the level,
holds of every level. -/
theorem ofUnary {motive : Layer → Prop} (hunary : motive .unary)
    (hlevel : ∀ level : Level, motive level.operand → motive (.binary level)) (level : Level) :
    motive (.binary level) := by
  have hproduct := hlevel .product hunary
  have hsum := hlevel .sum hproduct
  have hcomparison := hlevel .comparison hsum
  have hequality := hlevel .equality hcomparison
  have hconjunction := hlevel .conjunction hequality
  have hdisjunction := hlevel .disjunction hconjunction
  cases level <;> assumption

theorem operand_ne_statement (level : Level) : level.operand ≠ .statement := by
  cases level <;> nofun

theorem accepts_level {t : Token} {op : Operator} (h : t.kind = .operator op) :
    op.level.accepts t = true := by
  simp [accepts, h]

end Level

namespace Atom

def kind : Atom → Kind
  | boolean value => .boolean value
  | number value => .number value
  | name n => .identifier n

end Atom

/-- At most one newline. -/
inductive LineEnd : List Token → Prop where
  | none : LineEnd []
  | newline {t : Token} : t.kind = .newline → LineEnd [t]

theorem exists_lineEnd (ts : List Token) :
    ∃ ending, LineEnd ending ∧ ts = ending ++ skipNewline ts := by
  cases ts with
  | nil => exact ⟨[], .none, rfl⟩
  | cons t ts =>
    by_cases hn : t.kind = .newline
    · exact ⟨[t], .newline hn, by simp [skipNewline, hn]⟩
    · exact ⟨[], .none, by simp [skipNewline, hn]⟩

theorem skipNewline_of_ne {t : Token} (ts : List Token) (h : t.kind ≠ .newline) :
    skipNewline (t :: ts) = t :: ts := by
  simp [skipNewline, h]

theorem skipNewline_lineEnd {ending rest : List Token} (he : LineEnd ending)
    (hn : skipNewline rest = rest) : skipNewline (ending ++ rest) = rest := by
  cases he with
  | none => exact hn
  | newline ht => simp [skipNewline, ht]

/-- The expressions of each layer, and the tokens they are made of. -/
inductive Derives : Layer → Expr → List Token → Prop where
  | assign {t colon : Token} {name : String} {e : Expr} {ts ending : List Token} :
    t.kind = .identifier name → colon.kind = .colon → Derives .statement e ts → LineEnd ending →
    Derives .statement (.assign name e) (t :: colon :: ts ++ ending)
  | expression {e : Expr} {ts : List Token} :
    Derives (.binary .disjunction) e ts → Derives .statement e ts
  | logical {level : Level} {a b : Expr} {op : Token} {ts us : List Token} :
    level.isLogical = true → level.SpelledBy op →
    Derives (.binary level) a ts → Derives level.operand b us →
    Derives (.binary level) (.logical a op b) (ts ++ op :: us)
  | binary {level : Level} {a b : Expr} {op : Token} {ts us : List Token} :
    level.isLogical = false → level.SpelledBy op →
    Derives (.binary level) a ts → Derives level.operand b us →
    Derives (.binary level) (.binary a op b) (ts ++ op :: us)
  | operand {level : Level} {e : Expr} {ts : List Token} :
    Derives level.operand e ts → Derives (.binary level) e ts
  | unary {op : Token} {e : Expr} {ts : List Token} :
    op.kind = .operator .minus → Derives .unary e ts → Derives .unary (.unary op e) (op :: ts)
  | primary {e : Expr} {ts : List Token} : Derives .primary e ts → Derives .unary e ts
  | literal {t : Token} {atom : Atom} {ending : List Token} :
    t.kind = atom.kind → LineEnd ending → Derives .primary (.literal atom) (t :: ending)
  | group {opening closing : Token} {e : Expr} {ts ending : List Token} :
    opening.kind = .openParen → Derives (.binary .disjunction) e ts →
    closing.kind = .closeParen → LineEnd ending →
    Derives .primary (.group e) (opening :: ts ++ closing :: ending)

/-- An expression that stands at the layer of operands stands at every level of operators. -/
theorem Derives.ofUnary {e : Expr} {ts : List Token} (h : Derives .unary e ts) (level : Level) :
    Derives (.binary level) e ts :=
  Level.ofUnary (motive := fun layer => Derives layer e ts) h (fun _ => .operand) level

/-- Statements one after the other, with any number of newlines in front of each and at the end. -/
inductive DerivesProgram : List Expr → List Token → Prop where
  | nil : DerivesProgram [] []
  | newline {t : Token} {es : List Expr} {ts : List Token} :
    t.kind = .newline → DerivesProgram es ts → DerivesProgram es (t :: ts)
  | statement {e : Expr} {es : List Expr} {ts us : List Token} :
    Derives .statement e ts → DerivesProgram es us → DerivesProgram (e :: es) (ts ++ us)

end Scratchpad
