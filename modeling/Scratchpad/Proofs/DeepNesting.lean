import Scratchpad.Proofs.Precedence
import Scratchpad.Proofs.RoundTrip

/-! Well-formed lines that nest too deep. The span that is skipped ends where the group around it
closes, or where the line ends. So each reader around it goes on as if the expression had been read:
the line remains one statement, and nothing is reported but that it nests too deep. -/
namespace Scratchpad

/-! ## Skipping -/

theorem LineEnd.eq_nil {ending : List Token} (h : LineEnd ending)
    (hline : ∀ t ∈ ending, t.kind ≠ .newline) : ending = [] := by
  cases h with
  | none => rfl
  | newline ht => exact absurd ht (hline _ List.mem_cons_self)

/-- Parentheses are balanced in an expression: skipping goes on behind it, with as many open as in
front of it. -/
theorem Derives.skipNested_append {layer : Layer} {e : Expr} {ts : List Token}
    (h : Derives layer e ts) (hline : ∀ t ∈ ts, t.kind ≠ .newline) (depth : Nat)
    (rest : List Token) : skipNested depth (ts ++ rest) = skipNested depth rest := by
  induction h generalizing depth rest with
  | @assign t colon name e ts ending ht hc _ hending ih =>
    simp only [List.cons_append, List.forall_mem_cons, List.forall_mem_append] at hline
    obtain rfl := hending.eq_nil hline.2.2.2
    have hname : t.kind = (Atom.name name).kind := ht
    rw [List.append_nil, List.cons_append, List.cons_append, skipNested_literal hname,
      skipNested_cons (by simp [hc]) (by simp [hc]) (by simp [hc])]
    exact ih hline.2.2.1 depth rest
  | expression _ ih | operand _ ih | primary _ ih => exact ih hline depth rest
  | @logical level a b op ts us _ hop _ _ iha ihb | @binary level a b op ts us _ hop _ _ iha ihb =>
    obtain ⟨o, -, ho⟩ := hop
    simp only [List.forall_mem_cons, List.forall_mem_append] at hline
    rw [List.append_assoc, List.cons_append, iha hline.1, skipNested_operator ho]
    exact ihb hline.2.2 depth rest
  | unary hop _ ih =>
    simp only [List.forall_mem_cons] at hline
    rw [List.cons_append, skipNested_operator hop]
    exact ih hline.2 depth rest
  | literal ht hending =>
    simp only [List.forall_mem_cons] at hline
    obtain rfl := hending.eq_nil hline.2
    exact skipNested_literal ht
  | @group opening closing e ts ending ho _ hc hending ih =>
    simp only [List.cons_append, List.forall_mem_cons, List.forall_mem_append] at hline
    obtain rfl := hending.eq_nil hline.2.2.2
    rw [List.append_assoc, List.cons_append, List.cons_append, List.nil_append,
      skipNested_openParen ho, ih hline.2.1, skipNested_closeParen_succ hc]

/-! ## What reading comes to -/

/-- What reading an expression comes to when `rest` stands behind its tokens and a number of
nestings is left. All faults are nestings, there are none if the nestings are enough, and only behind
a fault more is skipped than the expression. -/
structure ReadsDeep (depth : Nat) (e : Expr) (rest : List Token) (p : Parsed) : Prop where
  tooDeep : ∀ d ∈ p.faults, d.fault = .tooDeep
  faultless_iff : p.faults = [] ↔ e.nesting ≤ depth
  resumes : p.rest = rest ∨ p.faults ≠ [] ∧ p.rest = skipNested 0 rest

theorem readsDeep_tooDeep {e : Expr} {t : Token} {ts rest : List Token} (hdeep : e.nesting ≠ 0)
    (hskip : (Parsed.tooDeep t ts).rest = skipNested 0 rest) :
    ReadsDeep 0 e rest (.tooDeep t ts) where
  tooDeep := by simp [Parsed.tooDeep, Parsed.refuse]
  faultless_iff := by simp [Parsed.tooDeep, Parsed.refuse, hdeep]
  resumes := .inr ⟨by simp [Parsed.tooDeep, Parsed.refuse], hskip⟩

namespace ReadsDeep
variable {depth : Nat} {rest : List Token} {p : Parsed}

theorem nest {e outer : Expr} (h : ReadsDeep depth e rest p)
    (houter : outer.nesting = e.nesting + 1) {behind : List Token} {q : Parsed}
    (hfaults : q.faults = p.faults)
    (hrest : q.rest = behind ∨ q.faults ≠ [] ∧ q.rest = skipNested 0 behind) :
    ReadsDeep (depth + 1) outer behind q where
  tooDeep := hfaults ▸ h.tooDeep
  faultless_iff := by rw [hfaults, houter, h.faultless_iff, Nat.add_le_add_iff_right]
  resumes := hrest

/-- In front of a closing parenthesis nothing is skipped. -/
theorem rest_eq_of_closeParen {e : Expr} {closing : Token}
    (h : ReadsDeep depth e (closing :: rest) p) (hc : closing.kind = .closeParen) :
    p.rest = closing :: rest := by
  rcases h.resumes with hr | ⟨-, hr⟩
  · exact hr
  · rwa [skipNested_closeParen_zero hc] at hr

theorem rest_eq_nil {e : Expr} (h : ReadsDeep depth e [] p) : p.rest = [] := by
  rcases h.resumes with hr | ⟨-, hr⟩ <;> exact hr

/-- What stands behind the tokens of an expression, or behind a span that was skipped, does not go on
with the expression. -/
theorem clear {e : Expr} {levels : List Level} (h : ReadsDeep depth e rest p)
    (hclear : Clear levels rest) : Clear levels p.rest := by
  rcases h.resumes with hr | ⟨-, hr⟩
  · rwa [hr]
  · rw [hr]
    exact clear_skipNested levels 0 rest

theorem join {level : Level} {a b : Expr} {op : Token} {ahead : List Token} {left right : Parsed}
    (ha : ReadsDeep depth a ahead left) (hb : ReadsDeep depth b rest right) :
    ReadsDeep depth (level.join a op b) rest
      ⟨level.join left.value op right.value, left.faults ++ right.faults, right.rest⟩ where
  tooDeep := List.forall_mem_append.2 ⟨ha.tooDeep, hb.tooDeep⟩
  faultless_iff := by
    rw [List.append_eq_nil_iff, ha.faultless_iff, hb.faultless_iff, Expr.nesting_join, Nat.max_le]
  resumes := by
    rcases hb.resumes with hr | ⟨hf, hr⟩
    · exact .inl hr
    · exact .inr ⟨fun h => hf (List.append_eq_nil_iff.1 h).2, hr⟩

theorem join_skipped {level : Level} {a b : Expr} {op : Token} {ahead : List Token}
    (ha : ReadsDeep depth a ahead p) (hf : p.faults ≠ []) (hr : p.rest = skipNested 0 rest) :
    ReadsDeep depth (level.join a op b) rest p where
  tooDeep := ha.tooDeep
  faultless_iff := by
    have hdeep : ¬ a.nesting ≤ depth := fun h => hf (ha.faultless_iff.2 h)
    rw [Expr.nesting_join, Nat.max_le]
    exact ⟨fun h => absurd h hf, fun h => absurd h.1 hdeep⟩
  resumes := .inr ⟨hf, hr⟩

end ReadsDeep

/-! ## Readers of layers -/

/-- What the reader of a layer makes of the tokens of an expression, however deep it nests, with
others behind them that could not go on with it. At a level of operators, reading goes on behind the
expression or behind what is skipped. -/
def Degrades (stop : Token) (depth : Nat) (e : Expr) (ts : List Token) : Layer → Prop
  | .statement => ReadsDeep depth e [] ((statement stop depth).read ts)
  | .binary level => ∀ rest, skipNewline rest = rest → Clear level.operand.levels rest →
    ∃ p, ReadsDeep depth e rest p ∧ ((Layer.binary level).reader stop depth).read (ts ++ rest) =
      level.chain (level.operand.reader stop depth) p
  | .unary | .primary => ∀ rest, skipNewline rest = rest →
    ReadsDeep depth e rest ((unary stop depth).read (ts ++ rest))

theorem Degrades.read {stop : Token} {depth : Nat} {e : Expr} {ts : List Token} {layer : Layer}
    (h : Degrades stop depth e ts layer) (hl : layer ≠ .statement) {rest : List Token}
    (hn : skipNewline rest = rest) (hclear : Clear layer.levels rest) :
    ReadsDeep depth e rest ((layer.reader stop depth).read (ts ++ rest)) := by
  cases layer with
  | statement => exact absurd rfl hl
  | binary level =>
    rw [Layer.levels_binary] at hclear
    obtain ⟨p, hp, hread⟩ :=
      h rest hn fun t ht l hmem => hclear t ht l (List.mem_cons_of_mem _ hmem)
    rwa [hread, Level.chain_eq_self fun t ht => hp.clear hclear t ht level List.mem_cons_self]
  | unary | primary => exact h rest hn

/-- Behind the left operand the chain goes on with the operator and takes the right operand, unless
both have been skipped. -/
theorem degrades_join {stop : Token} {depth : Nat} {level : Level} {a b : Expr} {op : Token}
    {ts us : List Token} (hop : level.SpelledBy op)
    (hskip : ∀ rest, skipNested 0 (us ++ rest) = skipNested 0 rest)
    (ha : Degrades stop depth a ts (.binary level))
    (hb : Degrades stop depth b us level.operand) :
    Degrades stop depth (level.join a op b) (ts ++ op :: us) (.binary level) := by
  intro rest hn hclear
  have haccepts := Level.accepts_iff.2 hop
  have hclearop := clear_of_spelledBy hop (us ++ rest)
  obtain ⟨o, -, ho⟩ := hop
  obtain ⟨left, hleft, hread⟩ :=
    ha (op :: (us ++ rest)) (skipNewline_of_ne _ (by simp [ho])) hclearop
  rw [List.append_assoc, List.cons_append, hread]
  rcases hleft.resumes with hr | ⟨hf, hr⟩
  · have hright := hb.read level.operand_ne_statement hn hclear
    exact ⟨_, hleft.join hright, Level.chain_cons hr haccepts⟩
  · rw [skipNested_operator ho, hskip] at hr
    exact ⟨left, hleft.join_skipped hf hr, rfl⟩

section
variable {stop : Token} {e : Expr} {ts : List Token}
  (hskip : ∀ depth rest, skipNested depth (ts ++ rest) = skipNested depth rest)
include hskip

theorem degrades_assign {t colon : Token} {name : String} (ht : t.kind = .identifier name)
    (hc : colon.kind = .colon) (h : ∀ depth, Degrades stop depth e ts .statement) (depth : Nat) :
    Degrades stop depth (.assign name e) (t :: colon :: ts) .statement := by
  cases depth with
  | zero =>
    rw [Degrades, statement_assign_zero ht hc]
    refine readsDeep_tooDeep (Nat.succ_ne_zero _) ?_
    simpa [Parsed.tooDeep, Parsed.refuse, ht, skipNested, hc] using hskip 0 []
  | succ depth =>
    have hvalue : ReadsDeep depth e [] ((statement stop depth).read ts) := h depth
    rw [Degrades, statement_assign_succ ht hc]
    refine hvalue.nest rfl rfl (.inl ?_)
    rw [Parsed.rest_endLine, Parsed.rest_map, hvalue.rest_eq_nil]
    rfl

theorem degrades_sign {op : Token} (hop : op.kind = .operator .minus)
    (h : ∀ depth, Degrades stop depth e ts .unary) (depth : Nat) :
    Degrades stop depth (.unary op e) (op :: ts) .unary := by
  intro rest hn
  rw [List.cons_append]
  cases depth with
  | zero =>
    rw [unary_minus_zero hop]
    refine readsDeep_tooDeep (Nat.succ_ne_zero _) ?_
    simpa [Parsed.tooDeep, Parsed.refuse, hop] using hskip 0 rest
  | succ depth =>
    have hoperand := h depth rest hn
    rw [unary_minus_succ hop]
    exact hoperand.nest rfl rfl hoperand.resumes

theorem degrades_group {opening closing : Token} (ho : opening.kind = .openParen)
    (hc : closing.kind = .closeParen)
    (h : ∀ depth, Degrades stop depth e ts (.binary .disjunction)) (depth : Nat) :
    Degrades stop depth (.group e) (opening :: ts ++ [closing]) .primary := by
  intro rest hn
  rw [List.cons_append, List.cons_append, List.append_assoc, List.cons_append, List.nil_append]
  cases depth with
  | zero =>
    rw [unary_openParen_zero ho]
    refine readsDeep_tooDeep (Nat.succ_ne_zero _) ?_
    -- the parenthesis that opens the span is open while it is skipped
    have hspan := hskip 1 (closing :: rest)
    rw [skipNested_closeParen_succ hc] at hspan
    simpa [Parsed.tooDeep, Parsed.refuse, ho] using hspan
  | succ depth =>
    have hclose : closing.kind ≠ .newline := by simp [hc]
    have hinner : ReadsDeep depth e (closing :: rest)
        ((expression stop depth).read (ts ++ closing :: rest)) :=
      (h depth).read (by simp) (skipNewline_of_ne _ hclose) (clear_of_closeParen _ hc _)
    rw [unary_openParen_succ ho,
      Parsed.close_of_closeParen stop (hinner.rest_eq_of_closeParen hc) hc]
    exact hinner.nest rfl rfl (.inl hn)

end

theorem degrades_of_derives (stop : Token) {layer : Layer} {e : Expr} {ts : List Token}
    (h : Derives layer e ts) (hline : ∀ t ∈ ts, t.kind ≠ .newline) (depth : Nat) :
    Degrades stop depth e ts layer := by
  induction h generalizing depth with
  | @assign t colon name e ts ending ht hc hderives hending ih =>
    simp only [List.cons_append, List.forall_mem_cons, List.forall_mem_append] at hline
    obtain rfl := hending.eq_nil hline.2.2.2
    rw [List.append_nil]
    exact degrades_assign (hderives.skipNested_append hline.2.2.1) ht hc (ih hline.2.2.1) depth
  | @expression e ts hderives ih =>
    have hread := (ih hline depth).read (by simp) rfl (clear_nil_tokens _)
    have hv : Viable (.operand 0) (ts ++ []) := hderives.viable 0 rfl
    rw [List.append_nil] at hread hv
    rwa [Degrades, statement_expression (not_beginsAssignment_of_viable hv)]
  | @logical level a b op ts us hl hop _ hb iha ihb =>
    simp only [List.forall_mem_cons, List.forall_mem_append] at hline
    rw [← Level.join_of_isLogical hl]
    exact degrades_join hop (hb.skipNested_append hline.2.2 0) (iha hline.1 depth)
      (ihb hline.2.2 depth)
  | @binary level a b op ts us hl hop _ hb iha ihb =>
    simp only [List.forall_mem_cons, List.forall_mem_append] at hline
    rw [← Level.join_of_not_isLogical hl]
    exact degrades_join hop (hb.skipNested_append hline.2.2 0) (iha hline.1 depth)
      (ihb hline.2.2 depth)
  | @operand level e ts _ ih =>
    intro rest hn hclear
    have hread := (ih hline depth).read level.operand_ne_statement hn hclear
    exact ⟨_, hread, by rw [Layer.reader_binary]; rfl⟩
  | @unary op e ts hop hderives ih =>
    have hoperand := (List.forall_mem_cons.1 hline).2
    exact degrades_sign (hderives.skipNested_append hoperand) hop (ih hoperand) depth
  | primary _ ih => exact ih hline depth
  | @literal t atom ending ht hending =>
    intro rest hn
    simp only [List.forall_mem_cons] at hline
    obtain rfl := hending.eq_nil hline.2
    rw [List.cons_append, List.nil_append, unary_literal ht, Parsed.endLine, hn]
    exact ⟨by simp, by simp [Expr.nesting], .inl rfl⟩
  | @group opening closing e ts ending ho hderives hc hending ih =>
    simp only [List.cons_append, List.forall_mem_cons, List.forall_mem_append] at hline
    obtain rfl := hending.eq_nil hline.2.2.2
    exact degrades_group (hderives.skipNested_append hline.2.1) ho hc (ih hline.2.1) depth

/-! ## Lines -/

theorem statements_of_rest_eq_nil {stop : Token} {ts : List Token} (hne : ts ≠ [])
    (hline : ∀ t ∈ ts, t.kind ≠ .newline)
    (hrest : ((statement stop maxNesting).read ts).rest = []) :
    statements stop ts = ⟨[((statement stop maxNesting).read ts).value],
      ((statement stop maxNesting).read ts).faults⟩ := by
  cases ts with
  | nil => exact absurd rfl hne
  | cons t ts =>
    rw [statements_cons stop ts (hline t List.mem_cons_self)]
    simp only [hrest, statements_nil, List.append_nil]

/-- The tokens of a well-formed statement on one line are read as one statement, whether or not an
end of input stands behind them and however deep the statement nests. Nothing is left of them, and
all that is reported is that the line nests too deep; it is reported exactly where it does. -/
theorem parse_spelled_deep {e : Expr} {ts rest : List Token} (he : Fits .statement e)
    (hs : Spelled e ts) (hline : ∀ t ∈ ts, t.kind ≠ .newline)
    (hrest : ∀ t ∈ rest.head?, t.isEnd = true) :
    let program := parse (ts ++ rest)
    let read := (statement (feed (ts ++ rest)).stop maxNesting).read (feed (ts ++ rest)).ahead
    program.statements = [read.value] ∧ read.rest = [] ∧
      (∀ d ∈ program.faults, d.fault = .tooDeep) ∧
      (program.faults ≠ [] ↔ 32 < e.nesting) := by
  intro program read
  have hderives := hs.derives he
  have hv : Viable .value (ts ++ []) := hderives.viable 0 rfl
  rw [List.append_nil] at hv
  have hahead : (feed (ts ++ rest)).ahead = ts := by
    rw [ahead_feed, List.takeWhile_append_of_pos (by simpa using hv.isEnd_eq_false)]
    cases rest with
    | nil => simp
    | cons stop rest => simp [hrest stop rfl]
  have hread : ReadsDeep maxNesting e [] read := by
    simp only [read, hahead]
    exact degrades_of_derives _ hderives hline maxNesting
  have hne : ts ≠ [] := by
    rintro rfl
    simp [Viable, Place.isFinal] at hv
  have hprogram : program = ⟨[read.value], read.faults⟩ := by
    have hrest := hread.rest_eq_nil
    simp only [read, hahead] at hrest
    simp only [program, parse, read, hahead]
    exact statements_of_rest_eq_nil hne hline hrest
  rw [hprogram]
  refine ⟨rfl, hread.rest_eq_nil, hread.tooDeep, ?_⟩
  rw [Ne, hread.faultless_iff, Nat.not_le]
  rfl

def negated : Nat → Expr
  | 0 => .literal (.name "a")
  | n + 1 => .unary ⟨.operator .minus, "-", .start⟩ (negated n)

def negatedTokens : Nat → List Token
  | 0 => [⟨.identifier "a", "a", .start⟩]
  | n + 1 => ⟨.operator .minus, "-", .start⟩ :: negatedTokens n

theorem fits_negated (n : Nat) : Fits .unary (negated n) := by
  induction n with
  | zero => exact .primary .literal
  | succ n ih => exact .unary rfl ih

theorem spelled_negated (n : Nat) : Spelled (negated n) (negatedTokens n) := by
  induction n with
  | zero => exact .literal rfl .none
  | succ n ih => exact .unary ih

def deepSum : Expr :=
  .binary (.group (negated 32)) ⟨.operator .plus, "+", .start⟩ (negated 1)

def deepSumTokens : List Token :=
  (⟨.openParen, "(", .start⟩ :: negatedTokens 32 ++ [⟨.closeParen, ")", .start⟩]) ++
    ⟨.operator .plus, "+", .start⟩ :: negatedTokens 1

/-- The group is closed behind what is skipped of it, so the line is one sum with one fault. -/
theorem parse_spelled_deep_sum :
    (Fits .statement deepSum ∧ Spelled deepSum deepSumTokens ∧
      (∀ t ∈ deepSumTokens, t.kind ≠ .newline) ∧ 32 < deepSum.nesting) ∧
    (parse (deepSumTokens ++ [])).statements.length = 1 ∧
      (parse (deepSumTokens ++ [])).faults ≠ [] ∧
      ∀ d ∈ (parse (deepSumTokens ++ [])).faults, d.fault = .tooDeep := by
  have hgroup : Fits .unary (.group (negated 32)) :=
    .primary (.group ((fits_negated 32).ofUnary .disjunction))
  have hplus : Level.sum.SpelledBy ⟨.operator .plus, "+", .start⟩ := ⟨.plus, by decide, rfl⟩
  have hsum : Fits (.binary .sum) deepSum :=
    .binary rfl hplus (hgroup.ofUnary .sum) ((fits_negated 1).ofUnary .product)
  have hfits : Fits .statement deepSum :=
    .expression (.operand (.operand (.operand (.operand hsum))))
  have hspelled : Spelled deepSum deepSumTokens :=
    .binary (.group rfl (spelled_negated 32) rfl .none) (spelled_negated 1)
  have hline : ∀ t ∈ deepSumTokens, t.kind ≠ .newline := by decide
  have hdeep : 32 < deepSum.nesting := by decide
  have hend : ∀ t ∈ ([] : List Token).head?, t.isEnd = true := by simp
  obtain ⟨hone, -, htooDeep, hiff⟩ := parse_spelled_deep hfits hspelled hline hend
  exact ⟨⟨hfits, hspelled, hline, hdeep⟩, by rw [hone]; rfl, hiff.2 hdeep, htooDeep⟩

end Scratchpad
