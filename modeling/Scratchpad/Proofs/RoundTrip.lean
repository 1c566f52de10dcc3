import Scratchpad.Proofs.Acceptance
import Scratchpad.Proofs.Shape

/-! The tokens of a canonical statement are read back as that statement. The grammar alone does not
say so, for it is ambiguous; what decides is that each reader takes all operators it can. -/
namespace Scratchpad

/-- The tokens of an expression in order, with at most one newline behind each literal and each
closing parenthesis. -/
inductive Spelled : Expr → List Token → Prop where
  | literal {t : Token} {atom : Atom} {ending : List Token} :
    t.kind = atom.kind → LineEnd ending → Spelled (.literal atom) (t :: ending)
  | group {opening closing : Token} {e : Expr} {ts ending : List Token} :
    opening.kind = .openParen → Spelled e ts → closing.kind = .closeParen → LineEnd ending →
    Spelled (.group e) (opening :: ts ++ closing :: ending)
  | unary {op : Token} {e : Expr} {ts : List Token} :
    Spelled e ts → Spelled (.unary op e) (op :: ts)
  | binary {a b : Expr} {op : Token} {ts us : List Token} :
    Spelled a ts → Spelled b us → Spelled (.binary a op b) (ts ++ op :: us)
  | logical {a b : Expr} {op : Token} {ts us : List Token} :
    Spelled a ts → Spelled b us → Spelled (.logical a op b) (ts ++ op :: us)
  | assign {t colon : Token} {name : String} {e : Expr} {ts : List Token} :
    t.kind = .identifier name → colon.kind = .colon → Spelled e ts →
    Spelled (.assign name e) (t :: colon :: ts)

theorem Spelled.derives {layer : Layer} {e : Expr} (h : Fits layer e) {ts : List Token}
    (hs : Spelled e ts) : Derives layer e ts := by
  induction h generalizing ts with
  | assign _ ih =>
    cases hs with
    | assign ht hc hs => simpa using Derives.assign ht hc (ih hs) .none
  | expression _ ih => exact .expression (ih hs)
  | logical hl hop _ _ iha ihb =>
    cases hs with
    | logical ha hb => exact .logical hl hop (iha ha) (ihb hb)
  | binary hl hop _ _ iha ihb =>
    cases hs with
    | binary ha hb => exact .binary hl hop (iha ha) (ihb hb)
  | operand _ ih => exact .operand (ih hs)
  | unary hop _ ih =>
    cases hs with
    | unary hs => exact .unary hop (ih hs)
  | primary _ ih => exact .primary (ih hs)
  | literal =>
    cases hs with
    | literal ht hending => exact .literal ht hending
  | group _ ih =>
    cases hs with
    | group hopening hs hclosing hending => exact .group hopening (ih hs) hclosing hending
  | invalid => cases hs

/-! ## Readers of layers -/

namespace Layer

def reader (stop : Token) (depth : Nat) : Layer → Reader
  | statement => Scratchpad.statement stop depth
  | binary level => ladder level.andTighter (Scratchpad.unary stop depth)
  | unary | primary => Scratchpad.unary stop depth

def levels : Layer → List Level
  | statement => Level.all
  | binary level => level.andTighter
  | unary | primary => []

theorem reader_binary (stop : Token) (depth : Nat) (level : Level) :
    (binary level).reader stop depth = level.chained (level.operand.reader stop depth) := by
  cases level <;> rfl

theorem levels_binary (level : Level) :
    (binary level).levels = level :: level.operand.levels := by
  cases level <;> rfl

end Layer

theorem Level.notMem_levels_operand (level : Level) : level ∉ level.operand.levels := by
  cases level <;> decide

theorem clear_of_spelledBy {level : Level} {op : Token} (h : level.SpelledBy op)
    (ts : List Token) : Clear level.operand.levels (op :: ts) := by
  intro t ht l hl
  obtain rfl : op = t := by simpa using ht
  obtain ⟨o, ho, hkind⟩ := h
  have hlevel : o.level = level := by
    simpa [Level.accepts, hkind] using Level.accepts_iff.2 ⟨o, ho, hkind⟩
  have hne : o.level ≠ l := by
    rintro rfl
    rw [hlevel] at hl
    exact level.notMem_levels_operand hl
  simpa [Level.accepts, hkind] using hne

/-- What the reader of a layer makes of the tokens of an expression with others behind them, none of
which could go on with it. At a level of operators, reading goes on behind the expression. Nothing
is said of statements: the newline behind an assignment may go to the value that it assigns. -/
def ReadsBack (stop : Token) (depth : Nat) (e : Expr) (ts : List Token) : Layer → Prop
  | .statement => True
  | .binary level => ∀ rest, skipNewline rest = rest → Clear level.operand.levels rest →
    ((Layer.binary level).reader stop depth).read (ts ++ rest) =
      level.chain (level.operand.reader stop depth) ⟨e, [], rest⟩
  | .unary | .primary => ∀ rest, skipNewline rest = rest →
    (unary stop depth).read (ts ++ rest) = ⟨e, [], rest⟩

theorem ReadsBack.read {stop : Token} {depth : Nat} {e : Expr} {ts : List Token} {layer : Layer}
    (h : ReadsBack stop depth e ts layer) (hl : layer ≠ .statement) {rest : List Token}
    (hn : skipNewline rest = rest) (hclear : Clear layer.levels rest) :
    (layer.reader stop depth).read (ts ++ rest) = ⟨e, [], rest⟩ := by
  cases layer with
  | statement => exact absurd rfl hl
  | binary level =>
    rw [Layer.levels_binary] at hclear
    rw [h rest hn fun t ht l hmem => hclear t ht l (List.mem_cons_of_mem _ hmem)]
    exact Level.chain_eq_self fun t ht => hclear t ht level List.mem_cons_self
  | unary | primary => exact h rest hn

/-- Behind the left operand the chain goes on with the operator and takes the right one. -/
theorem readsBack_join {stop : Token} {depth : Nat} {level : Level} {a b : Expr} {op : Token}
    {ts us : List Token} (hop : level.SpelledBy op)
    (ha : ReadsBack stop depth a ts (.binary level))
    (hb : ReadsBack stop depth b us level.operand) :
    ReadsBack stop depth (level.join a op b) (ts ++ op :: us) (.binary level) := by
  intro rest hn hclear
  obtain ⟨o, ho, hkind⟩ := hop
  have hop : op.kind ≠ .newline := by simp [hkind]
  have hleft := ha (op :: (us ++ rest)) (skipNewline_of_ne _ hop)
    (clear_of_spelledBy ⟨o, ho, hkind⟩ _)
  have hright := hb.read level.operand_ne_statement hn hclear
  rw [List.append_assoc, List.cons_append, hleft]
  rw [Level.chain_cons rfl (Level.accepts_iff.2 ⟨o, ho, hkind⟩), hright]
  rfl

theorem readsBack_of_derives (stop : Token) {layer : Layer} {e : Expr} {ts : List Token}
    (h : Derives layer e ts) {depth : Nat} (hdepth : e.nesting ≤ depth) :
    ReadsBack stop depth e ts layer := by
  induction h generalizing depth with
  | assign | expression => trivial
  | @logical level a b op ts us hl hop _ _ iha ihb =>
    rw [Expr.nesting, Nat.max_le] at hdepth
    rw [← Level.join_of_isLogical hl]
    exact readsBack_join hop (iha hdepth.1) (ihb hdepth.2)
  | @binary level a b op ts us hl hop _ _ iha ihb =>
    rw [Expr.nesting, Nat.max_le] at hdepth
    rw [← Level.join_of_not_isLogical hl]
    exact readsBack_join hop (iha hdepth.1) (ihb hdepth.2)
  | @operand level e ts _ ih =>
    -- The operand is all there is so far; the chain goes on from it.
    intro rest hn hclear
    have hread := (ih hdepth).read level.operand_ne_statement hn hclear
    rw [Layer.reader_binary, ← hread]
    rfl
  | @unary op e ts hop _ ih =>
    intro rest hn
    cases depth with
    | zero => simp [Expr.nesting] at hdepth
    | succ depth =>
      rw [List.cons_append, unary_minus_succ hop, ih (Nat.le_of_succ_le_succ hdepth) rest hn]
      rfl
  | primary _ ih => exact ih hdepth
  | @literal t atom ending ht hending =>
    intro rest hn
    rw [List.cons_append, unary_literal ht, Parsed.endLine, skipNewline_lineEnd hending hn]
  | @group opening closing e ts ending hopening _ hclosing hending ih =>
    intro rest hn
    cases depth with
    | zero => simp [Expr.nesting] at hdepth
    | succ depth =>
      have hclose : closing.kind ≠ .newline := by simp [hclosing]
      have hinner : (expression stop depth).read (ts ++ closing :: (ending ++ rest)) =
          ⟨e, [], closing :: (ending ++ rest)⟩ :=
        (ih (Nat.le_of_succ_le_succ hdepth)).read (by simp) (skipNewline_of_ne _ hclose)
          (clear_of_closeParen _ hclosing _)
      rw [List.append_assoc, List.cons_append, List.cons_append, unary_openParen_succ hopening,
        hinner, Parsed.close_of_closeParen stop rfl hclosing, Parsed.endLine]
      rw [skipNewline_lineEnd hending hn]

/-! ## Statements -/

theorem not_beginsAssignment_of_viable {opened : Nat} {ts : List Token}
    (h : Viable (.operand opened) ts) : ¬ BeginsAssignment ts := by
  intro hb
  match ts, hb with
  | t :: colon :: ts, ⟨⟨name, ht⟩, hc⟩ =>
    have hname : t.kind = (Atom.name name).kind := ht
    obtain ⟨place, hnext, -⟩ := (Viable.literal_iff hname).1 h
    simp [hc, Place.next, Place.goOn, Place.beginStatement, Place.beginOperand] at hnext

theorem read_expression_of_derives (stop : Token) {e : Expr} {ts : List Token}
    (h : Derives (.binary .disjunction) e ts) {depth : Nat} (hdepth : e.nesting ≤ depth) :
    (expression stop depth).read ts = ⟨e, [], []⟩ := by
  have hread := (readsBack_of_derives stop h hdepth).read (by simp) rfl (clear_nil_tokens _)
  rwa [List.append_nil] at hread

/-- An expression is a statement of its own, since no expression begins as an assignment does. -/
theorem read_statement_of_derives (stop : Token) {e : Expr} {ts : List Token}
    (h : Derives (.binary .disjunction) e ts) {depth : Nat} (hdepth : e.nesting ≤ depth) :
    (statement stop depth).read ts = ⟨e, [], []⟩ := by
  have hv : Viable (.operand 0) (ts ++ []) := h.viable 0 rfl
  rw [List.append_nil] at hv
  rw [statement_expression (not_beginsAssignment_of_viable hv),
    read_expression_of_derives stop h hdepth]

theorem read_statement_of_spelled (stop : Token) {e : Expr} (h : Fits .statement e)
    {ts : List Token} (hs : Spelled e ts) {depth : Nat} (hdepth : e.nesting ≤ depth) :
    (statement stop depth).read ts = ⟨e, [], []⟩ := by
  generalize hlayer : Layer.statement = layer at h
  induction h generalizing ts depth with
  | @assign name e _ ih =>
    cases hs with
    | assign ht hc hs =>
      cases depth with
      | zero => simp [Expr.nesting] at hdepth
      | succ depth =>
        rw [statement_assign_succ ht hc, ih hs (Nat.le_of_succ_le_succ hdepth) rfl]
        rfl
  | expression h _ => exact read_statement_of_derives stop (hs.derives h) hdepth
  | _ => cases hlayer

/-- Reading the tokens of a canonical statement gives back the statement, without a fault, whether
or not an end of input stands behind them. -/
theorem parse_spelled {e : Expr} {ts rest : List Token} (he : e.Canonical) (hs : Spelled e ts)
    (hrest : ∀ t ∈ rest.head?, t.isEnd = true) : parse (ts ++ rest) = ⟨[e], []⟩ := by
  have hv : Viable .value (ts ++ []) := (hs.derives he.fits).viable 0 rfl
  rw [List.append_nil] at hv
  have hahead : (feed (ts ++ rest)).ahead = ts := by
    rw [ahead_feed, List.takeWhile_append_of_pos (by simpa using hv.isEnd_eq_false)]
    cases rest with
    | nil => simp
    | cons stop rest => simp [hrest stop rfl]
  simp only [parse, hahead]
  cases ts with
  | nil => simp [Viable, Place.isFinal] at hv
  | cons t ts =>
    obtain ⟨place, hnext, -⟩ := hv
    have hn : t.kind ≠ .newline := by
      intro hn
      simp [hn, Place.next, Place.beginStatement, Place.beginOperand] at hnext
    have hread : ∀ stop, (statement stop maxNesting).read (t :: ts) = ⟨e, [], []⟩ := fun stop =>
      read_statement_of_spelled stop he.fits hs he.shallow
    rw [statements_cons _ ts hn, hread]
    simp

def continued : Expr :=
  .assign "x" (.binary (.literal (.name "a")) ⟨.operator .minus, "-", ⟨2, 1, 5⟩⟩
    (.group (.literal (.name "b"))))

/-- The newline behind the first operand does not end the statement. -/
theorem parse_spelled_continued :
    continued.Canonical ∧ Spelled continued continuedTokens ∧
      parse (continuedTokens ++ []) = ⟨[continued], []⟩ := by
  have hminus : Level.sum.SpelledBy ⟨.operator .minus, "-", ⟨2, 1, 5⟩⟩ := ⟨.minus, by decide, rfl⟩
  have hdifference : Fits (.binary .sum) (.binary (.literal (.name "a"))
      ⟨.operator .minus, "-", ⟨2, 1, 5⟩⟩ (.group (.literal (.name "b")))) :=
    .binary rfl hminus (.operand (.operand (.primary .literal)))
      (.operand (.primary (.group (.operand (.operand (.operand (.operand (.operand (.operand
        (.primary .literal))))))))))
  have hfits : Fits .statement continued :=
    .assign (.expression (.operand (.operand (.operand (.operand hdifference)))))
  have hcanonical : continued.Canonical := ⟨hfits, rfl, by decide⟩
  have ha : Spelled (.literal (.name "a"))
      [⟨.identifier "a", "a", ⟨1, 4, 3⟩⟩, ⟨.newline, "\n", ⟨1, 5, 4⟩⟩] :=
    .literal rfl (.newline rfl)
  have hb : Spelled (.literal (.name "b")) [⟨.identifier "b", "b", ⟨2, 4, 8⟩⟩] := .literal rfl .none
  have hspelled : Spelled continued continuedTokens :=
    .assign rfl rfl (.binary ha (.group rfl hb rfl .none))
  exact ⟨hcanonical, hspelled, parse_spelled hcanonical hspelled (by simp)⟩

end Scratchpad
