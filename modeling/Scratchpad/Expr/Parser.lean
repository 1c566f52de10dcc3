import Scratchpad.Expr.Reader
import Scratchpad.Token.Lexer

/-! Reading statements. Nothing is refused: a token that cannot begin an expression becomes an
invalid expression and a diagnostic, and reading goes on behind it. Parentheses, minus signs and
assignments nest at most 32 deep; what is nested deeper is skipped as one invalid expression. -/
namespace Scratchpad

def maxNesting : Nat := 32

/-- The tokens behind a nested span: up to the end of the line, or to a closing parenthesis that is
not matched inside it. The count is of the parentheses open so far. -/
def skipNested : Nat → List Token → List Token
  | _, [] => []
  | depth, t :: ts =>
    match t.kind, depth with
    | .newline, _ | .closeParen, 0 => t :: ts
    | .closeParen, depth + 1 => skipNested depth ts
    | .openParen, depth => skipNested (depth + 1) ts
    | _, depth => skipNested depth ts

theorem skipNested_suffix (depth : Nat) (ts : List Token) : skipNested depth ts <:+ ts := by
  fun_induction skipNested depth ts with
  | case1 => exact List.suffix_rfl
  | case2 => exact List.suffix_rfl
  | case3 => exact List.suffix_rfl
  | case4 t ts depth _ ih => exact ih.trans (List.suffix_cons t ts)
  | case5 t ts depth _ ih => exact ih.trans (List.suffix_cons t ts)
  | case6 t ts depth _ _ _ _ ih => exact ih.trans (List.suffix_cons t ts)

namespace Parsed

def refuse (token : Token) (fault : Fault) (rest : List Token) : Parsed :=
  ⟨.invalid token fault, [⟨fault, some token⟩], rest⟩

def tooDeep (token : Token) (rest : List Token) : Parsed :=
  refuse token .tooDeep (skipNested (if token.kind = .openParen then 1 else 0) rest)

/-- A newline behind what has been read belongs to it. -/
def endLine (p : Parsed) : Parsed := { p with rest := skipNewline p.rest }

/-- Close a group. Where the parenthesis is missing, nothing is skipped. -/
def close (stop : Token) (p : Parsed) : Parsed :=
  match p.rest with
  | [] => ⟨.group p.value, p.faults ++ [⟨.expectedClosing, some stop⟩], []⟩
  | t :: ts =>
    if t.kind = .closeParen then ⟨.group p.value, p.faults, ts⟩
    else ⟨.group p.value, p.faults ++ [⟨.expectedClosing, some t⟩], t :: ts⟩

theorem tooDeep_suffix (token : Token) (rest : List Token) :
    (tooDeep token rest).rest <:+ rest := skipNested_suffix _ rest

theorem endLine_suffix (p : Parsed) : p.endLine.rest <:+ p.rest := skipNewline_suffix p.rest

theorem close_suffix (stop : Token) (p : Parsed) : (p.close stop).rest <:+ p.rest := by
  simp only [close]
  split
  · exact List.nil_suffix
  · next t ts h =>
    rw [h]
    split
    · exact List.suffix_cons t ts
    · exact List.suffix_rfl

end Parsed

/-- A literal, or a group in parentheses. The reader of groups' insides is missing at the nesting
limit; `stop` is the token behind all others. -/
def primary (stop : Token) (inner : Option Reader) : Reader where
  read
    | [] => .refuse stop .expectedExpression []
    | t :: ts =>
      match t.kind with
      | .boolean value => .endLine ⟨.literal (.boolean value), [], ts⟩
      | .number value => .endLine ⟨.literal (.number value), [], ts⟩
      | .identifier name => .endLine ⟨.literal (.name name), [], ts⟩
      | .openParen =>
        match inner with
        | none => .tooDeep t ts
        | some inner => ((inner.read ts).close stop).endLine
      | _ => .refuse t .expectedExpression ts
  advances ts := by
    cases ts with
    | nil => exact List.suffix_rfl
    | cons t ts =>
      simp only [List.tail_cons]
      split
      · exact Parsed.endLine_suffix _
      · exact Parsed.endLine_suffix _
      · exact Parsed.endLine_suffix _
      · split
        · exact Parsed.tooDeep_suffix t ts
        · next inner =>
          exact ((Parsed.endLine_suffix _).trans (Parsed.close_suffix stop _)).trans
            (inner.suffix ts)
      · exact List.suffix_rfl

def signed (stop : Token) (nested : Option Reader) : Reader where
  read
    | t :: ts =>
      if t.kind = .operator .minus then
        match nested with
        | none => .tooDeep t ts
        | some nested => (nested.read ts).map (.unary t)
      else (primary stop (nested.map (ladder Level.all))).read (t :: ts)
    | [] => (primary stop (nested.map (ladder Level.all))).read []
  advances ts := by
    cases ts with
    | nil => exact (primary _ _).advances []
    | cons t ts =>
      dsimp only
      split
      · split
        · exact Parsed.tooDeep_suffix t ts
        · next nested => exact nested.suffix ts
      · exact (primary _ _).advances (t :: ts)

def unary (stop : Token) : Nat → Reader
  | 0 => signed stop none
  | depth + 1 => signed stop (some (unary stop depth))

def expression (stop : Token) (depth : Nat) : Reader := ladder Level.all (unary stop depth)

def assignable (nested : Option Reader) (expression : Reader) : Reader where
  read
    | t :: colon :: ts =>
      match t.kind, colon.kind with
      | .identifier name, .colon =>
        match nested with
        | none => .tooDeep t (colon :: ts)
        | some nested => ((nested.read ts).map (.assign name)).endLine
      | _, _ => expression.read (t :: colon :: ts)
    | ts => expression.read ts
  advances ts := by
    split
    · next t colon ts =>
      split
      · split
        · exact Parsed.tooDeep_suffix t (colon :: ts)
        · next nested =>
          exact ((Parsed.endLine_suffix _).trans (nested.suffix ts)).trans
            (List.suffix_cons colon ts)
      · exact expression.advances (t :: colon :: ts)
    · exact expression.advances _

def statement (stop : Token) : Nat → Reader
  | 0 => assignable none (expression stop 0)
  | depth + 1 => assignable (some (statement stop depth)) (expression stop (depth + 1))

structure Program where
  statements : List Expr
  faults : List Diagnostic
  deriving DecidableEq

def statements (stop : Token) : List Token → Program
  | [] => ⟨[], []⟩
  | t :: ts =>
    if t.kind = .newline then statements stop ts
    else
      let first := (statement stop maxNesting).read (t :: ts)
      let more := statements stop first.rest
      ⟨first.value :: more.statements, first.faults ++ more.faults⟩
termination_by ts => ts.length
decreasing_by
  · simp
  · have h := ((statement stop maxNesting).advances (t :: ts)).length_le
    simp only [List.tail_cons] at h
    simp only [List.length_cons]
    omega

@[simp] theorem statements_nil (stop : Token) : statements stop [] = ⟨[], []⟩ := by
  rw [statements]

theorem statements_newline (stop : Token) {t : Token} (ts : List Token) (h : t.kind = .newline) :
    statements stop (t :: ts) = statements stop ts := by
  rw [statements, if_pos h]

theorem statements_cons (stop : Token) {t : Token} (ts : List Token) (h : t.kind ≠ .newline) :
    statements stop (t :: ts) =
      let first := (statement stop maxNesting).read (t :: ts)
      let more := statements stop first.rest
      ⟨first.value :: more.statements, first.faults ++ more.faults⟩ := by
  rw [statements, if_neg h]

/-- Tokens up to the first end of input, that token, and those behind it, which are never read. -/
structure Feed where
  ahead : List Token
  stop : Token
  beyond : List Token

namespace Token

def isEnd (t : Token) : Bool := t.kind = .endOfInput

end Token

/-- Without an end of input at the end of the tokens, one is put there. -/
def feed (tokens : List Token) : Feed :=
  match tokens.dropWhile fun t => !t.isEnd with
  | [] => ⟨tokens, ended tokens, []⟩
  | stop :: beyond =>
    ⟨tokens.takeWhile fun t => !t.isEnd, stop,
      if tokens.getLast?.any Token.isEnd then beyond else beyond ++ [ended tokens]⟩
where
  /-- An end of input at the place of the last token. -/
  ended (tokens : List Token) : Token :=
    match tokens.getLast? with
    | some t => ⟨.endOfInput, "", ⟨t.position.line, t.position.column, 0⟩⟩
    | none => ⟨.endOfInput, "", ⟨1, 1, 0⟩⟩

theorem ahead_feed (tokens : List Token) :
    (feed tokens).ahead = tokens.takeWhile fun t => !t.isEnd := by
  simp only [feed]
  split
  · next h =>
    have ht := List.takeWhile_append_dropWhile (p := fun t : Token => !t.isEnd) (l := tokens)
    rw [h, List.append_nil] at ht
    exact ht.symm
  · rfl

theorem kind_stop_feed (tokens : List Token) : (feed tokens).stop.kind = .endOfInput := by
  simp only [feed]
  split
  · simp only [feed.ended]
    split <;> rfl
  · next stop beyond h =>
    have hhead := List.head?_dropWhile_not (fun t : Token => !t.isEnd) tokens
    rw [h] at hhead
    simpa [Token.isEnd] using hhead

theorem isEnd_of_mem_ahead {tokens : List Token} {t : Token} (h : t ∈ (feed tokens).ahead) :
    t.isEnd = false := by
  rw [ahead_feed] at h
  simpa using List.all_eq_true.1 (List.all_takeWhile (p := fun t : Token => !t.isEnd)) t h

theorem stop_feed_cons {t : Token} (ht : t.isEnd = false) {ts : List Token} (hts : ts ≠ []) :
    (feed (t :: ts)).stop = (feed ts).stop := by
  simp only [feed, List.dropWhile_cons, ht, Bool.not_false, if_true]
  cases ts.dropWhile fun t => !t.isEnd with
  | nil => simp [feed.ended, List.getLast?_cons_of_ne_nil hts]
  | cons stop beyond => rfl

theorem ahead_feed_cons {t : Token} (ht : t.isEnd = false) (ts : List Token) :
    (feed (t :: ts)).ahead = t :: (feed ts).ahead := by
  simp [ahead_feed, ht]

theorem feed_append {front : List Token} (hfront : ∀ t ∈ front, t.isEnd = false) {ts : List Token}
    (hts : ts ≠ []) :
    (feed (front ++ ts)).ahead = front ++ (feed ts).ahead ∧
      (feed (front ++ ts)).stop = (feed ts).stop := by
  induction front with
  | nil => exact ⟨rfl, rfl⟩
  | cons t front ih =>
    obtain ⟨ht, hfront⟩ := List.forall_mem_cons.1 hfront
    obtain ⟨hahead, hstop⟩ := ih hfront
    rw [List.cons_append, ahead_feed_cons ht, stop_feed_cons ht (by simp [hts]), hahead, hstop]
    exact ⟨rfl, rfl⟩

theorem feed_cons_of_isEnd {t : Token} (ht : t.isEnd = true) (ts : List Token) :
    (feed (t :: ts)).ahead = [] ∧ (feed (t :: ts)).stop = t := by
  simp [feed, ht]

theorem feed_append_cons {stop : Token} (hstop : stop.isEnd = true) {front : List Token}
    (hfront : ∀ t ∈ front, t.isEnd = false) (beyond : List Token) :
    (feed (front ++ stop :: beyond)).ahead = front ∧
      (feed (front ++ stop :: beyond)).stop = stop := by
  obtain ⟨hahead, hend⟩ := feed_append hfront (List.cons_ne_nil stop beyond)
  obtain ⟨hnil, hthis⟩ := feed_cons_of_isEnd hstop beyond
  rw [hahead, hend, hnil, hthis, List.append_nil]
  exact ⟨rfl, rfl⟩

def parse (tokens : List Token) : Program :=
  let feed := feed tokens
  statements feed.stop feed.ahead

end Scratchpad
