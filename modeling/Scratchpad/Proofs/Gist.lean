import Scratchpad.Evaluation
import Scratchpad.Proofs.Reading

/-! The gist of tokens: what they stand for, without their spelling and their places, and with one
operator for both spellings of the remainder. Reading commutes with taking the gist, and the gist of
an expression is worth what the expression is worth. -/
namespace Scratchpad

namespace Operator

/-- The operator itself, and one for both that take a remainder. -/
def gist : Operator → Operator
  | percent => mod
  | op => op

@[simp] theorem level_gist (op : Operator) : op.gist.level = op.level := by cases op <;> rfl

@[simp] theorem result?_gist (op : Operator) (x y : Binary64) :
    op.gist.result? x y = op.result? x y := by
  cases op <;> rfl

theorem gist_eq_iff {op other : Operator} (hp : other ≠ percent) (hm : other ≠ mod) :
    op.gist = other ↔ op = other := by
  cases op with
  | percent => exact ⟨fun h => absurd h.symm hm, fun h => absurd h.symm hp⟩
  | _ => rfl

end Operator

namespace Kind

def gist : Kind → Kind
  | operator op => operator op.gist
  | k => k

theorem gist_eq_iff {k l : Kind} (h : ∀ op, l = operator op → op ≠ .percent ∧ op ≠ .mod) :
    k.gist = l ↔ k = l := by
  cases k with
  | operator op =>
    cases l with
    | operator other =>
      obtain ⟨hp, hm⟩ := h other rfl
      simp [gist, Operator.gist_eq_iff hp hm]
    | _ => simp [gist]
  | _ => rfl

end Kind

namespace Token

def gist (t : Token) : Token := ⟨t.kind.gist, "", .start⟩

theorem kind_gist_eq_iff {t : Token} {k : Kind}
    (h : ∀ op, k = .operator op → op ≠ .percent ∧ op ≠ .mod) : t.gist.kind = k ↔ t.kind = k :=
  Kind.gist_eq_iff h

@[simp] theorem isEnd_gist (t : Token) : t.gist.isEnd = t.isEnd := by
  simp [isEnd, kind_gist_eq_iff]

@[simp] theorem kind_gist_eq_newline_iff (t : Token) : t.gist.kind = .newline ↔ t.kind = .newline :=
  kind_gist_eq_iff (by simp)

theorem kind_gist_eq_atom_kind_iff (t : Token) (atom : Atom) :
    t.gist.kind = atom.kind ↔ t.kind = atom.kind :=
  kind_gist_eq_iff (by cases atom <;> simp [Atom.kind])

theorem accepts_gist (level : Level) (t : Token) : level.accepts t.gist = level.accepts t := by
  rcases hk : t.kind with _ | _ | _ | op | _ <;> simp [Level.accepts, gist, Kind.gist, hk]

end Token

namespace Expr

def gist : Expr → Expr
  | group e => group e.gist
  | unary op e => unary op.gist e.gist
  | binary a op b => binary a.gist op.gist b.gist
  | logical a op b => logical a.gist op.gist b.gist
  | assign name e => assign name e.gist
  | invalid t fault => invalid t.gist fault
  | e => e

theorem gist_join (level : Level) (a : Expr) (op : Token) (b : Expr) :
    (level.join a op b).gist = level.join a.gist op.gist b.gist := by
  cases level <;> rfl

end Expr

namespace Diagnostic

def gist (d : Diagnostic) : Diagnostic := ⟨d.fault, d.token.map Token.gist⟩

end Diagnostic

namespace Parsed

def gist (p : Parsed) : Parsed :=
  ⟨p.value.gist, p.faults.map Diagnostic.gist, p.rest.map Token.gist⟩

@[simp] theorem rest_gist (p : Parsed) : p.gist.rest = p.rest.map Token.gist := rfl

end Parsed

/-! ## Reading -/

@[simp] theorem map_gist_skipNewline (ts : List Token) :
    (skipNewline ts).map Token.gist = skipNewline (ts.map Token.gist) := by
  cases ts with
  | nil => rfl
  | cons t ts => by_cases hn : t.kind = .newline <;> simp [skipNewline, hn]

theorem map_gist_skipNested (depth : Nat) (ts : List Token) :
    (skipNested depth ts).map Token.gist = skipNested depth (ts.map Token.gist) := by
  fun_induction skipNested depth ts with
  | case1 => rfl
  | case2 depth t ts hk | case3 t ts hk =>
    have hk' := (Token.kind_gist_eq_iff (by simp)).2 hk
    simp [skipNested, hk']
  | case4 t ts depth hk ih | case5 depth t ts hk ih =>
    have hk' := (Token.kind_gist_eq_iff (by simp)).2 hk
    simp [skipNested, hk', ih]
  | case6 t ts depth hn hz hs ho ih =>
    rw [ih, List.map_cons, skipNested.eq_def depth (t.gist :: _)]
    dsimp only
    split
    · next hk => exact absurd ((Token.kind_gist_eq_iff (by simp)).1 hk) hn
    · next hk => exact (hz ((Token.kind_gist_eq_iff (by simp)).1 hk) rfl).elim
    · next hk => exact (hs _ ((Token.kind_gist_eq_iff (by simp)).1 hk) rfl).elim
    · next hk => exact absurd ((Token.kind_gist_eq_iff (by simp)).1 hk) ho
    · rfl

namespace Parsed

theorem gist_endLine (p : Parsed) : p.endLine.gist = p.gist.endLine := by
  simp [endLine, gist]

theorem gist_map {f g : Expr → Expr} (p : Parsed) (h : (f p.value).gist = g p.value.gist) :
    (p.map f).gist = p.gist.map g := by
  simp [map, gist, h]

theorem gist_tooDeep (t : Token) (ts : List Token) :
    (tooDeep t ts).gist = tooDeep t.gist (ts.map Token.gist) := by
  have hopen : t.gist.kind = .openParen ↔ t.kind = .openParen :=
    Token.kind_gist_eq_iff (by simp)
  simp only [tooDeep, hopen, ← map_gist_skipNested]
  rfl

theorem gist_close (stop : Token) (p : Parsed) :
    (p.close stop).gist = p.gist.close stop.gist := by
  obtain ⟨e, faults, rest⟩ := p
  cases rest with
  | nil => simp [close, gist, Expr.gist, Diagnostic.gist]
  | cons t ts =>
    have hclose : t.gist.kind = .closeParen ↔ t.kind = .closeParen :=
      Token.kind_gist_eq_iff (by simp)
    by_cases ht : t.kind = .closeParen <;>
      simp [close, gist, Expr.gist, Diagnostic.gist, hclose, ht]

end Parsed

namespace Reader

/-- Reading the gist of tokens with one reader is reading the tokens with the other. -/
def GistOf (r' r : Reader) : Prop := ∀ ts, r'.read (ts.map Token.gist) = (r.read ts).gist

end Reader

theorem gist_chain {level : Level} {operand operand' : Reader} (h : operand'.GistOf operand)
    (left : Parsed) : (level.chain operand left).gist = level.chain operand' left.gist := by
  fun_induction Level.chain level operand left with
  | case1 left hr =>
    rw [Level.chain_eq_self]
    simp [Parsed.gist, hr]
  | case2 left op ts hr ha right ih =>
    have hr' : left.gist.rest = op.gist :: ts.map Token.gist := by simp [Parsed.gist, hr]
    have ha' : level.accepts op.gist = true := by rwa [Token.accepts_gist]
    rw [ih, Level.chain_cons hr' ha', h ts]
    simp [Parsed.gist, Expr.gist_join, right]
  | case3 left op ts hr ha =>
    rw [Level.chain_eq_self]
    simp [Parsed.gist, hr, Token.accepts_gist, ha]

theorem gistOf_ladder (levels : List Level) {operand operand' : Reader}
    (h : operand'.GistOf operand) : (ladder levels operand').GistOf (ladder levels operand) := by
  induction levels with
  | nil => exact h
  | cons level levels ih =>
    intro ts
    rw [ladder_cons, ladder_cons, Level.read_chained, Level.read_chained, gist_chain ih, ih ts]

theorem gistOf_unary (stop : Token) (depth : Nat) :
    (unary stop.gist depth).GistOf (unary stop depth) := by
  intro ts
  induction depth, ts using unary_induction with
  | nil depth =>
    rw [List.map_nil, unary_nil, unary_nil]
    rfl
  | literal depth t ts atom ha =>
    have ha' := (t.kind_gist_eq_atom_kind_iff atom).2 ha
    rw [List.map_cons, unary_literal ha, unary_literal ha', Parsed.gist_endLine]
    rfl
  | minusTooDeep t ts hm =>
    have hm' := (Token.kind_gist_eq_iff (by simp)).2 hm
    rw [List.map_cons, unary_minus_zero hm, unary_minus_zero hm', Parsed.gist_tooDeep]
  | minus depth t ts hm ih =>
    have hm' := (Token.kind_gist_eq_iff (by simp)).2 hm
    rw [List.map_cons, unary_minus_succ hm, unary_minus_succ hm', ih,
      Parsed.gist_map (g := .unary t.gist) _ rfl]
  | groupTooDeep t ts hp =>
    have hp' := (Token.kind_gist_eq_iff (by simp)).2 hp
    rw [List.map_cons, unary_openParen_zero hp, unary_openParen_zero hp', Parsed.gist_tooDeep]
  | group depth t ts hp ih =>
    have hp' := (Token.kind_gist_eq_iff (by simp)).2 hp
    -- the operands in the group are read with one nesting less
    rw [List.map_cons, unary_openParen_succ hp, unary_openParen_succ hp', Parsed.gist_endLine,
      Parsed.gist_close, expression, expression, gistOf_ladder Level.all ih ts]
  | refuse depth t ts ha hp hm =>
    have ha' (atom : Atom) := mt (t.kind_gist_eq_atom_kind_iff atom).1 (ha atom)
    have hp' := mt (Token.kind_gist_eq_iff (by simp)).1 hp
    have hm' := mt (Token.kind_gist_eq_iff (by simp)).1 hm
    rw [List.map_cons, unary_refuse ha hp hm, unary_refuse ha' hp' hm']
    rfl

theorem gistOf_expression (stop : Token) (depth : Nat) :
    (expression stop.gist depth).GistOf (expression stop depth) :=
  gistOf_ladder Level.all (gistOf_unary stop depth)

theorem beginsAssignment_map_gist (ts : List Token) :
    BeginsAssignment (ts.map Token.gist) ↔ BeginsAssignment ts := by
  match ts with
  | [] | [_] => exact Iff.rfl
  | t :: colon :: ts =>
    have hcolon : colon.gist.kind = .colon ↔ colon.kind = .colon :=
      Token.kind_gist_eq_iff (by simp)
    have hname (name : String) : t.gist.kind = .identifier name ↔ t.kind = .identifier name :=
      Token.kind_gist_eq_iff (by simp)
    simp only [List.map_cons, BeginsAssignment, hcolon, hname]

theorem gistOf_statement (stop : Token) (depth : Nat) :
    (statement stop.gist depth).GistOf (statement stop depth) := by
  intro ts
  induction depth, ts using statement_induction with
  | assignTooDeep t colon name ts ht hc =>
    have ht' := (Token.kind_gist_eq_iff (by simp)).2 ht
    have hc' := (Token.kind_gist_eq_iff (by simp)).2 hc
    rw [List.map_cons, List.map_cons, statement_assign_zero ht hc, statement_assign_zero ht' hc',
      Parsed.gist_tooDeep]
    rfl
  | assign depth t colon name ts ht hc ih =>
    have ht' := (Token.kind_gist_eq_iff (by simp)).2 ht
    have hc' := (Token.kind_gist_eq_iff (by simp)).2 hc
    rw [List.map_cons, List.map_cons, statement_assign_succ ht hc, statement_assign_succ ht' hc',
      ih, Parsed.gist_endLine, Parsed.gist_map (g := .assign name) _ rfl]
  | expression depth ts h =>
    have h' := mt (beginsAssignment_map_gist ts).1 h
    rw [statement_expression h, statement_expression h', gistOf_expression stop depth ts]

namespace Program

def gist (p : Program) : Program := ⟨p.statements.map Expr.gist, p.faults.map Diagnostic.gist⟩

theorem eq_single_of_gist {p : Program} {e : Expr} (h : p.gist = ⟨[e], []⟩) :
    ∃ e', p = ⟨[e'], []⟩ ∧ e'.gist = e := by
  obtain ⟨es, faults⟩ := p
  simp only [gist, mk.injEq, List.map_eq_singleton_iff, List.map_eq_nil_iff] at h
  obtain ⟨⟨e', rfl, he'⟩, rfl⟩ := h
  exact ⟨e', rfl, he'⟩

end Program

theorem gist_statements (stop : Token) (ts : List Token) :
    (statements stop ts).gist = statements stop.gist (ts.map Token.gist) := by
  fun_induction statements stop ts with
  | case1 =>
    rw [List.map_nil, statements_nil]
    rfl
  | case2 t ts hn ih =>
    rw [List.map_cons, statements_newline _ _ ((t.kind_gist_eq_newline_iff).2 hn), ih]
  | case3 t ts hn first more ih =>
    rw [List.map_cons, statements_cons _ _ (mt (t.kind_gist_eq_newline_iff).1 hn),
      ← List.map_cons, gistOf_statement stop maxNesting (t :: ts)]
    dsimp only
    rw [Parsed.rest_gist, ← ih]
    simp [Program.gist, Parsed.gist, first, more]

theorem stop_feed_map_gist (tokens : List Token) :
    (feed (tokens.map Token.gist)).stop = (feed tokens).stop.gist := by
  have hend : (fun t : Token => !t.isEnd) ∘ Token.gist = fun t => !t.isEnd :=
    funext fun t => by simp
  simp only [feed, List.dropWhile_map, hend]
  cases tokens.dropWhile fun t => !t.isEnd with
  | nil =>
    simp only [List.map_nil, feed.ended, List.getLast?_map]
    cases tokens.getLast? <;> rfl
  | cons stop beyond => rfl

theorem gist_parse (tokens : List Token) : (parse tokens).gist = parse (tokens.map Token.gist) := by
  have hend : (fun t : Token => !t.isEnd) ∘ Token.gist = fun t => !t.isEnd :=
    funext fun t => by simp
  simp only [parse, gist_statements, stop_feed_map_gist, ahead_feed, List.takeWhile_map, hend]

/-! ## Texts -/

theorem map_gist_place (p q : Position) (texts : List (List Char)) :
    (place p texts).map Token.gist = (place q texts).map Token.gist := by
  induction texts generalizing p q with
  | nil => rfl
  | cons text rest ih => simp [place, Token.gist, ih (p.after text) (q.after text)]

theorem map_gist_filter_blank (ts : List Token) :
    (ts.filter fun t => t.kind ≠ .blank).map Token.gist =
      (ts.map Token.gist).filter fun t => t.kind ≠ .blank := by
  have hblank (t : Token) : t.gist.kind = .blank ↔ t.kind = .blank :=
    Token.kind_gist_eq_iff (by simp)
  simp only [List.filter_map, Function.comp_def, ne_eq, hblank]

/-! ## Evaluation -/

namespace Token

@[simp] theorem result_gist (op : Token) (x y : Binary64) : op.gist.result x y = op.result x y := by
  rcases hk : op.kind with _ | _ | _ | o | _ <;> simp [result, gist, Kind.gist, hk]

@[simp] theorem combine_gist (op : Token) (left right : Expr) :
    op.gist.combine left right = op.combine left right := by
  simp [combine]

@[simp] theorem sign_gist (op : Token) (operand : Expr) :
    op.gist.sign operand = op.sign operand := by
  rcases hk : op.kind with _ | _ | _ | o | _
  case operator => cases o <;> simp [sign, gist, Kind.gist, Operator.gist, hk]
  all_goals simp [sign, gist, Kind.gist, hk]

@[simp] theorem settle_gist (op : Token) (left : Expr) : op.gist.settle left = op.settle left := by
  have hor : op.gist.kind = .operator .or ↔ op.kind = .operator .or := kind_gist_eq_iff (by simp)
  simp [settle, hor]

end Token

theorem evalWithin_gist (limit : Nat) (e : Expr) (env : Environment) :
    e.gist.evalWithin limit env = e.evalWithin limit env := by
  induction limit generalizing e env with
  | zero => cases e <;> rfl
  | succ limit ih =>
    cases e with
    | nothing | literal | invalid => rfl
    | group e => exact ih e env
    | assign name e | unary op e => simp [Expr.gist, Expr.evalWithin, ih]
    | binary a op b | logical a op b => simp [Expr.gist, Expr.evalWithin, ih]

end Scratchpad
