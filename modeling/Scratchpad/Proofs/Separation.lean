import Mathlib.Data.List.TakeWhile
import Scratchpad.Proofs.Layout
import Scratchpad.Proofs.Nesting

/-! Newlines separate statements. What is read without a fault up to the end of the tokens is read
in the same way where a line goes on behind it: a newline is taken by the last operand or by the
assignments around it, and unless an operator follows, nothing else is. So a text is worth what its
lines are worth, one after the other. -/
namespace Scratchpad

theorem clear_of_ne_operator {ts : List Token}
    (h : ∀ t ∈ ts.head?, ∀ op, t.kind ≠ .operator op) : Clear Level.all ts := by
  intro t ht level _
  rw [Level.accepts]
  split
  · next op hop => exact absurd hop (h t ht op)
  · rfl

theorem Level.accepts_of_clear {t : Token} {ts : List Token} (h : Clear Level.all (t :: ts))
    (level : Level) : level.accepts t = false :=
  h t rfl level (by cases level <;> simp [Level.all])

/-! ## Newlines in front -/

/-- Tokens, and what is left of them when some newlines in front have been taken. -/
inductive Trims : List Token → List Token → Prop where
  | refl (ts : List Token) : Trims ts ts
  | newline {t : Token} {ts rest : List Token} :
    t.kind = .newline → Trims ts rest → Trims (t :: ts) rest

namespace Trims

variable {ts rest : List Token}

theorem skipNewline (h : Trims ts rest) : Trims ts (skipNewline rest) := by
  induction h with
  | refl ts =>
    cases ts with
    | nil => exact .refl []
    | cons t ts =>
      rw [Scratchpad.skipNewline]
      split
      · next hn => exact .newline hn (.refl ts)
      · exact .refl _
  | newline hn _ ih => exact .newline hn ih

theorem statements_eq (h : Trims ts rest) (stop : Token) :
    statements stop rest = statements stop ts := by
  induction h with
  | refl => rfl
  | newline hn _ ih => rw [ih, statements_newline _ _ hn]

end Trims

/-! ## Readers -/

/-- A reading `q` of tokens with `behind` at their end, compared to a reading `p` without: what is
read is the same. If `p` is at the end, `q` has at most taken newlines in front of `behind`. -/
structure Resumes (behind : List Token) (p q : Parsed) : Prop where
  value : q.value = p.value
  faults : q.faults = []
  rest : p.rest ≠ [] ∧ q.rest = p.rest ++ behind ∨ p.rest = [] ∧ Trims behind q.rest

/-- The same of an expression, which `q` does not continue behind its end. -/
structure ResumesClear (behind : List Token) (p q : Parsed) : Prop extends Resumes behind p q where
  clear : p.rest = [] → Clear Level.all q.rest

variable {stop stop' newline : Token} {behind back : List Token} {p q : Parsed}

theorem Resumes.map (f : Expr → Expr) (h : Resumes behind p q) :
    Resumes behind (p.map f) (q.map f) :=
  ⟨congrArg f h.value, h.faults, h.rest⟩

theorem ResumesClear.map (f : Expr → Expr) (h : ResumesClear behind p q) :
    ResumesClear behind (p.map f) (q.map f) :=
  ⟨h.toResumes.map f, h.clear⟩

theorem Resumes.endLine (h : Resumes behind p q) : Resumes behind p.endLine q.endLine where
  value := h.value
  faults := h.faults
  rest := by
    rw [Parsed.rest_endLine, Parsed.rest_endLine]
    rcases h.rest with ⟨hne, hrest⟩ | ⟨hnil, htrims⟩
    · obtain ⟨t, ts, hp⟩ := List.exists_cons_of_ne_nil hne
      rw [hrest, hp, List.cons_append, skipNewline, skipNewline]
      split
      · cases ts with
        | nil => exact .inr ⟨rfl, .refl behind⟩
        | cons u us => exact .inl ⟨List.cons_ne_nil u us, rfl⟩
      · exact .inl ⟨List.cons_ne_nil t ts, rfl⟩
    · rw [hnil]
      exact .inr ⟨rfl, htrims.skipNewline⟩

theorem resumes_append (e : Expr) (ts behind : List Token) :
    Resumes behind ⟨e, [], ts⟩ ⟨e, [], ts ++ behind⟩ where
  value := rfl
  faults := rfl
  rest := by
    by_cases h : ts = []
    · subst h
      exact .inr ⟨rfl, .refl behind⟩
    · exact .inl ⟨h, rfl⟩

/-- A line ends at its newline, or has ended at one in front of it. -/
theorem resumesClear_endLine (hn : newline.kind = .newline) (hback : Clear Level.all back)
    (e : Expr) (ts : List Token) :
    ResumesClear (newline :: back) (Parsed.endLine ⟨e, [], ts⟩)
      (Parsed.endLine ⟨e, [], ts ++ newline :: back⟩) where
  toResumes := (resumes_append e ts (newline :: back)).endLine
  clear hnil := by
    rw [Parsed.rest_endLine] at hnil ⊢
    cases ts with
    | nil => simpa [skipNewline, hn] using hback
    | cons t ts =>
      rw [List.cons_append, skipNewline]
      rw [skipNewline] at hnil
      split at hnil
      · next ht =>
        rw [if_pos ht, hnil]
        exact clear_of_ne_operator (by simp [hn])
      · cases hnil

theorem faults_eq_nil_of_chain {level : Level} {operand : Reader} {left : Parsed}
    (h : (level.chain operand left).faults = []) : left.faults = [] := by
  obtain ⟨more, hmore⟩ := faults_chain level operand left
  exact (List.append_eq_nil_iff.1 (hmore.symm.trans h)).1

/-- Readers that read the same of tokens with `behind` at their end, where the first one finds no
fault. -/
def Reader.ResumesAt (behind : List Token) (r r' : Reader) : Prop :=
  ∀ ts, (r.read ts).faults = [] → ResumesClear behind (r.read ts) (r'.read (ts ++ behind))

theorem ResumesClear.chain {level : Level} {operand operand' : Reader}
    (h : operand.ResumesAt behind operand') (left : Parsed)
    (hf : (level.chain operand left).faults = []) :
    ∀ left', ResumesClear behind left left' →
      ResumesClear behind (level.chain operand left) (level.chain operand' left') := by
  fun_induction Level.chain level operand left with
  | case1 left hr =>
    intro left' hl
    rw [Level.chain_eq_self]
    · exact hl
    · intro op hop
      obtain ⟨ts, hrest⟩ := List.head?_eq_some_iff.1 hop
      exact level.accepts_of_clear (hrest ▸ hl.clear hr)
  | case2 left op ts hr ha right ih =>
    intro left' hl
    have hright : right.faults = [] := (List.append_eq_nil_iff.1 (faults_eq_nil_of_chain hf)).2
    -- the operator is ahead in both readings, so neither is at its end
    have hrest : left'.rest = op :: (ts ++ behind) := by
      rcases hl.rest with ⟨-, hrest⟩ | ⟨hnil, -⟩
      · rw [hrest, hr, List.cons_append]
      · rw [hr] at hnil
        cases hnil
    have hread := h ts hright
    rw [Level.chain_cons hrest ha]
    refine ih hf _ ⟨⟨?_, ?_, hread.rest⟩, hread.clear⟩
    · rw [hl.value, hread.value]
    · rw [hl.faults, hread.faults]
      rfl
  | case3 left op ts hr ha =>
    intro left' hl
    rw [Level.chain_eq_self]
    · exact hl
    · intro op' hop
      rcases hl.rest with ⟨-, hrest⟩ | ⟨hnil, -⟩
      · rw [hrest, hr] at hop
        obtain rfl : op = op' := by simpa using hop
        simpa using ha
      · rw [hr] at hnil
        cases hnil

theorem resumesAt_ladder (levels : List Level) {operand operand' : Reader}
    (h : operand.ResumesAt behind operand') :
    (ladder levels operand).ResumesAt behind (ladder levels operand') := by
  induction levels with
  | nil => exact h
  | cons level levels ih =>
    intro ts hf
    rw [ladder_cons, Level.read_chained] at hf ⊢
    exact ResumesClear.chain ih _ hf _ (ih ts (faults_eq_nil_of_chain hf))

section
variable (hn : newline.kind = .newline) (hback : Clear Level.all back)
include hn hback

theorem resumesClear_close (h : Resumes (newline :: back) p q) (hp : p.faults = [])
    (hf : (p.close stop).faults = []) :
    ResumesClear (newline :: back) (p.close stop).endLine (q.close stop').endLine := by
  obtain ⟨closing, rest, hrest, hclosing⟩ := Parsed.closeParen_of_close_faultless hf
  have hrest' : q.rest = closing :: (rest ++ newline :: back) := by
    rcases h.rest with ⟨-, hq⟩ | ⟨hnil, -⟩
    · rw [hq, hrest, List.cons_append]
    · rw [hrest] at hnil
      cases hnil
  rw [Parsed.close_of_closeParen stop hrest hclosing,
    Parsed.close_of_closeParen stop' hrest' hclosing, hp, h.faults, h.value]
  exact resumesClear_endLine hn hback _ rest

theorem resumesAt_unary (stop stop' : Token) (depth : Nat) :
    (unary stop depth).ResumesAt (newline :: back) (unary stop' depth) := by
  intro ts
  induction depth, ts using unary_induction with
  | nil depth =>
    rw [unary_nil]
    exact fun hf => absurd hf (by simp [Parsed.refuse])
  | literal depth t ts atom ha =>
    rw [List.cons_append, unary_literal ha, unary_literal ha]
    exact fun _ => resumesClear_endLine hn hback _ ts
  | minusTooDeep t ts hm =>
    rw [unary_minus_zero hm]
    exact fun hf => absurd hf (by simp [Parsed.tooDeep, Parsed.refuse])
  | minus depth t ts hm ih =>
    rw [List.cons_append, unary_minus_succ hm, unary_minus_succ hm]
    exact fun hf => (ih hf).map _
  | groupTooDeep t ts hp =>
    rw [unary_openParen_zero hp]
    exact fun hf => absurd hf (by simp [Parsed.tooDeep, Parsed.refuse])
  | group depth t ts hp ih =>
    rw [List.cons_append, unary_openParen_succ hp, unary_openParen_succ hp]
    intro hf
    obtain ⟨more, hmore⟩ := Parsed.faults_close stop ((expression stop depth).read ts)
    have hinner : ((expression stop depth).read ts).faults = [] :=
      (List.append_eq_nil_iff.1 (hmore.symm.trans hf)).1
    exact resumesClear_close hn hback (resumesAt_ladder Level.all ih ts hinner).toResumes hinner hf
  | refuse depth t ts ha hp hm =>
    rw [unary_refuse ha hp hm]
    exact fun hf => absurd hf (by simp [Parsed.refuse])

theorem resumesAt_expression (stop stop' : Token) (depth : Nat) :
    (expression stop depth).ResumesAt (newline :: back) (expression stop' depth) :=
  resumesAt_ladder Level.all (resumesAt_unary hn hback stop stop' depth)

theorem resumes_statement (stop stop' : Token) (depth : Nat) (ts : List Token)
    (hf : ((statement stop depth).read ts).faults = []) :
    Resumes (newline :: back) ((statement stop depth).read ts)
      ((statement stop' depth).read (ts ++ newline :: back)) := by
  induction depth, ts using statement_induction with
  | assignTooDeep t colon name ts ht hc =>
    rw [statement_assign_zero ht hc] at hf
    exact absurd hf (by simp [Parsed.tooDeep, Parsed.refuse])
  | assign depth t colon name ts ht hc ih =>
    rw [statement_assign_succ ht hc] at hf ⊢
    rw [List.cons_append, List.cons_append, statement_assign_succ ht hc]
    exact ((ih hf).map _).endLine
  | expression depth ts h =>
    have h' : ¬ BeginsAssignment (ts ++ newline :: back) := by
      rcases ts with _ | ⟨t, _ | ⟨colon, ts⟩⟩
      · cases back <;> simp [BeginsAssignment, hn]
      · simp [BeginsAssignment, hn]
      · exact h
    rw [statement_expression h] at hf ⊢
    rw [statement_expression h']
    exact (resumesAt_expression hn hback stop stop' depth ts hf).toResumes

theorem statements_line (stop stop' : Token) {front : List Token}
    (hf : (statements stop front).faults = []) :
    statements stop' (front ++ newline :: back) =
      ⟨(statements stop front).statements ++ (statements stop' back).statements,
        (statements stop' back).faults⟩ := by
  fun_induction statements stop front with
  | case1 => exact statements_newline stop' back hn
  | case2 t ts ht ih =>
    rw [List.cons_append, statements_newline _ _ ht]
    exact ih hf
  | case3 t ts ht first more ih =>
    obtain ⟨hfirst, hmore⟩ := List.append_eq_nil_iff.1 hf
    have hread := resumes_statement hn hback stop stop' maxNesting (t :: ts) hfirst
    -- the statement leaves more of the line, or it has reached the newlines behind the line
    have hbehind :
        statements stop' ((statement stop' maxNesting).read (t :: ts ++ newline :: back)).rest =
          ⟨more.statements ++ (statements stop' back).statements,
            (statements stop' back).faults⟩ := by
      rcases hread.rest with ⟨-, hrest⟩ | ⟨hnil, htrims⟩
      · rw [hrest]
        exact ih hmore
      · have hlast : more = ⟨[], []⟩ := by
          rw [show more = statements stop first.rest from rfl, show first.rest = [] from hnil,
            statements_nil]
        rw [htrims.statements_eq, statements_newline _ _ hn, hlast, List.nil_append]
    rw [List.cons_append, statements_cons _ _ ht, ← List.cons_append]
    dsimp only
    rw [hbehind, hread.value, hread.faults]
    rfl

end

/-- Tokens that are read without a fault are read in front of a newline as they are read alone. -/
theorem parse_line (hn : newline.kind = .newline) (hback : Clear Level.all back)
    {front : List Token} (hfront : ∀ t ∈ front, t.isEnd = false) (hf : (parse front).faults = []) :
    parse (front ++ newline :: back) =
      ⟨(parse front).statements ++ (parse back).statements, (parse back).faults⟩ := by
  have hnewline : newline.isEnd = false := by simp [Token.isEnd, hn]
  obtain ⟨hahead, hstop⟩ := feed_append hfront (List.cons_ne_nil newline back)
  have hclear : Clear Level.all (feed back).ahead := by
    rw [ahead_feed]
    cases back with
    | nil => simp
    | cons t ts =>
      intro u hu
      rw [List.head?_takeWhile, Option.mem_filter_iff] at hu
      exact hback u hu.1
  -- which end of input is supplied depends on the last token; with nothing behind, it does not matter
  have hback' : statements (feed (newline :: back)).stop (feed back).ahead = parse back := by
    cases back with
    | nil =>
      have hnil : (feed []).ahead = [] := rfl
      rw [parse, hnil, statements_nil, statements_nil]
    | cons t ts => rw [parse, stop_feed_cons hnewline (List.cons_ne_nil t ts)]
  have hfront' : parse front = statements (feed front).stop front := by
    have hahead : (feed front).ahead = front := by
      rw [ahead_feed, List.takeWhile_eq_self_iff]
      simpa using hfront
    rw [parse, hahead]
  rw [hfront'] at hf ⊢
  have hline := statements_line hn hclear (feed front).stop (feed (newline :: back)).stop hf
  rw [parse, hahead, hstop, ahead_feed_cons hnewline, hline, hback']

/-! ## Texts -/

def kindTokens (cs : List Char) : List Token :=
  (kindsOf (lexemes cs)).map fun kind => ⟨kind, "", .start⟩

def readKinds (cs : List Char) : Program := statements ⟨.endOfInput, "", .start⟩ (kindTokens cs)

theorem endOfInput_notMem_kindsOf (cs : List Char) : Kind.endOfInput ∉ kindsOf (lexemes cs) := by
  intro hmem
  obtain ⟨text, -, kind, hspells, hgist⟩ := exists_spells_of_mem_kindsOf hmem
  exact hspells.ne_endOfInput ((Kind.gist_eq_iff (by simp)).1 hgist)

theorem map_gist_tokens_eq (source : String) :
    (tokens source).map Token.gist =
      kindTokens source.toList ++ [⟨.endOfInput, "", .start⟩] := by
  rw [map_gist_tokens, meaning_eq, List.map_append]
  rfl

theorem gist_parse_tokens (source : String) :
    (parse (tokens source)).gist = readKinds source.toList := by
  have hends : ∀ t ∈ kindTokens source.toList, t.isEnd = false := by
    intro t ht
    obtain ⟨kind, hkind, rfl⟩ := List.mem_map.1 ht
    have hne : kind ≠ .endOfInput := fun h => endOfInput_notMem_kindsOf _ (h ▸ hkind)
    simpa [Token.isEnd] using hne
  have hend : (⟨.endOfInput, "", .start⟩ : Token).isEnd = true := by decide
  obtain ⟨hahead, hstop⟩ := feed_append_cons hend hends []
  rw [gist_parse, map_gist_tokens_eq, parse, hahead, hstop, readKinds]

theorem kindTokens_line_append (a b : List Char) :
    kindTokens (a ++ '\n' :: b) = kindTokens a ++ ⟨.newline, "", .start⟩ :: kindTokens b := by
  rw [kindTokens, lexemes_line_append, kindsOf_append, kindsOf_cons, kindsOf_newline,
    List.map_append]
  rfl

/-- If the lines of a text are read without faults and do not begin with an operator, then the text
is read as they are, one after the other. -/
theorem readKinds_eq (cs : List Char)
    (h : ∀ line ∈ splitLines cs,
      (readKinds line).faults = [] ∧ Clear Level.all (kindTokens line)) :
    Clear Level.all (kindTokens cs) ∧
      readKinds cs = ⟨(splitLines cs).flatMap fun line => (readKinds line).statements, []⟩ := by
  induction cs using lines_induction with
  | line a ha =>
    rw [splitLines_eq_singleton ha] at h ⊢
    obtain ⟨hf, hclear⟩ := h a (List.mem_singleton_self a)
    refine ⟨hclear, ?_⟩
    rw [List.flatMap_singleton, ← hf]
  | more a b ha ih =>
    rw [splitLines_append, splitLines_eq_singleton ha] at h ⊢
    obtain ⟨hfirst, hrest⟩ := List.forall_mem_append.1 h
    obtain ⟨hf, hclear⟩ := hfirst a (List.mem_singleton_self a)
    obtain ⟨hclear', hread⟩ := ih hrest
    constructor
    · -- an empty line begins with its newline
      rw [kindTokens_line_append]
      cases hk : kindTokens a with
      | nil => exact clear_of_ne_operator (by simp)
      | cons t ts =>
        rw [hk] at hclear
        exact hclear
    · have hline : readKinds (a ++ '\n' :: b) =
          ⟨(readKinds a).statements ++ (readKinds b).statements, (readKinds b).faults⟩ := by
        rw [readKinds, kindTokens_line_append]
        exact statements_line rfl hclear' _ _ hf
      rw [hline, hread, List.singleton_append, List.flatMap_cons]

/-- A line is read without faults, and it does not begin with an operator. -/
def StandsAlone (line : String) : Prop :=
  (parse (tokens line)).faults = [] ∧ ∀ t ∈ (tokens line).head?, ∀ op, t.kind ≠ .operator op

theorem StandsAlone.clear {line : String} (h : StandsAlone line) :
    Clear Level.all (kindTokens line.toList) := by
  apply clear_of_ne_operator
  intro t ht op hop
  have hhead := congrArg List.head? (map_gist_tokens_eq line)
  rw [List.head?_append, ht, List.head?_map] at hhead
  obtain ⟨u, hu, rfl⟩ := Option.map_eq_some_iff.1 hhead
  have hkind : ∃ op, u.kind = .operator op := by
    rcases hk : u.kind with _ | _ | _ | o | _ <;> simp [Token.gist, Kind.gist, hk] at hop ⊢
  obtain ⟨o, ho⟩ := hkind
  exact h.2 u hu o ho

theorem StandsAlone.faults_eq_nil {line : String} (h : StandsAlone line) :
    (readKinds line.toList).faults = [] := by
  rw [← gist_parse_tokens, Program.gist, h.1, List.map_nil]

theorem statements_of_lines {text : String} (h : ∀ line ∈ lines text, StandsAlone line) :
    (parse (tokens text)).statements.map Expr.gist =
        (lines text).flatMap (fun line => (parse (tokens line)).statements.map Expr.gist) ∧
      (parse (tokens text)).faults = [] := by
  have hlines : ∀ line ∈ splitLines text.toList,
      (readKinds line).faults = [] ∧ Clear Level.all (kindTokens line) := by
    intro line hline
    have halone := h _ (List.mem_map_of_mem hline)
    have hfaults := halone.faults_eq_nil
    have hclear := halone.clear
    rw [String.toList_ofList] at hfaults hclear
    exact ⟨hfaults, hclear⟩
  have hgist := gist_parse_tokens text
  rw [(readKinds_eq text.toList hlines).2, Program.gist, Program.mk.injEq,
    List.map_eq_nil_iff] at hgist
  refine ⟨?_, hgist.2⟩
  rw [hgist.1, lines, List.flatMap_map]
  refine List.flatMap_congr fun line _ => ?_
  have hline := congrArg Program.statements (gist_parse_tokens (String.ofList line))
  rw [String.toList_ofList] at hline
  exact hline.symm

/-! ## Runs -/

theorem runLineWithin_of_faults_eq_nil {source : String} (h : (parse (tokens source)).faults = [])
    (limit : Nat) (env : Environment) :
    (runLineWithin limit source env).1.ok =
        (evalAll limit (parse (tokens source)).statements .nothing env).1.isSome ∧
      (runLineWithin limit source env).2 =
        (evalAll limit (parse (tokens source)).statements .nothing env).2 := by
  rw [runLineWithin]
  rcases evalAll limit (parse (tokens source)).statements .nothing env with ⟨_ | v, env'⟩
  · simp [Line.ok]
  · simp [Line.ok, h]

theorem runLinesWithin_of_faults_eq_nil {sources : List String}
    (h : ∀ source ∈ sources, (parse (tokens source)).faults = []) (limit : Nat) (last : Expr)
    (env : Environment) :
    let all :=
      evalAll limit (sources.flatMap fun source => (parse (tokens source)).statements) last env
    (runLinesWithin limit sources env).1.all Line.ok = all.1.isSome ∧
      (all.1.isSome = true → (runLinesWithin limit sources env).2 = all.2) := by
  induction sources generalizing env last with
  | nil => exact ⟨rfl, fun _ => rfl⟩
  | cons source rest ih =>
    obtain ⟨hsource, hrest⟩ := List.forall_mem_cons.1 h
    obtain ⟨hok, henv⟩ := runLineWithin_of_faults_eq_nil hsource limit env
    have hlast := evalAll_last limit (parse (tokens source)).statements .nothing last env
    rw [hlast.1] at hok
    rw [hlast.2] at henv
    simp only [List.flatMap_cons, runLinesWithin, List.all_cons, hok]
    rcases hall : evalAll limit (parse (tokens source)).statements last env with ⟨_ | v, env'⟩
    · rw [evalAll_append_of_eq_none hall]
      exact ⟨rfl, fun hsome => absurd hsome Bool.false_ne_true⟩
    · rw [evalAll_append_of_eq_some hall, henv, hall]
      exact ih hrest v env'

/-- Newlines separate statements: behind tokens that are read without a fault, a newline and tokens
that do not begin with an operator are read as these tokens are read alone. So a text of lines that
are read without faults and do not begin with an operator runs as its lines do one after the other:
the whole is in order if all of them are, that is if no expression nests too deep, and then both
leave the same environment. -/
theorem newline_separates :
    (∀ (front : List Token) (newline : Token) (back : List Token),
      (∀ t ∈ front, t.isEnd = false) → newline.kind = .newline → (parse front).faults = [] →
      (∀ t ∈ back.head?, ∀ op, t.kind ≠ .operator op) →
        parse (front ++ newline :: back) =
          ⟨(parse front).statements ++ (parse back).statements, (parse back).faults⟩) ∧
    ∀ (limit : Nat) (text : String) (env : Environment),
      (∀ line ∈ lines text, StandsAlone line) →
        let whole := runLineWithin limit text env
        let each := runTextWithin limit text env
        whole.1.ok = each.1.all Line.ok ∧ (whole.1.ok = true → whole.2 = each.2) := by
  constructor
  · intro front newline back hfront hn hf hback
    exact parse_line hn (clear_of_ne_operator hback) hfront hf
  · intro limit text env h whole each
    obtain ⟨hstatements, hfaults⟩ := statements_of_lines h
    -- in a text the tokens of a line stand elsewhere, which evaluation does not see
    have heval : evalAll limit (parse (tokens text)).statements .nothing env =
        evalAll limit ((lines text).flatMap fun line => (parse (tokens line)).statements)
          .nothing env := by
      rw [← evalAll_gist, hstatements, ← List.map_flatMap, evalAll_gist]
    obtain ⟨hok, henv⟩ := runLineWithin_of_faults_eq_nil hfaults limit env
    obtain ⟨hall, henv'⟩ :=
      runLinesWithin_of_faults_eq_nil (fun line hline => (h line hline).1) limit .nothing env
    rw [heval] at hok henv
    refine ⟨hok.trans hall.symm, fun hwhole => ?_⟩
    exact henv.trans (henv' (hok.symm.trans hwhole)).symm

/-- Of a line that assigns twice, a blank line and a line with a difference. -/
theorem newline_separates_blank :
    let front := (tokens "x: y: true").dropLast
    let back := tokens "\n(x) - 2"
    let text := "x: y: true\n\n(x) - 2"
    parse (front ++ ⟨.newline, "\n", ⟨1, 11, 10⟩⟩ :: back) =
        ⟨(parse front).statements ++ (parse back).statements, (parse back).faults⟩ ∧
      (runLineWithin usualLimit text .empty).1.ok = true ∧
      (runLineWithin usualLimit text .empty).2 = (runTextWithin usualLimit text .empty).2 := by
  intro front back text
  have hfront : ∀ t ∈ front, t.isEnd = false := by decide +kernel
  have hfaults : (parse front).faults = [] := by decide +kernel
  have hback : ∀ t ∈ back.head?, ∀ op, t.kind ≠ .operator op := by
    have hhead : back.head? = some ⟨.newline, "\n", ⟨1, 1, 0⟩⟩ := by decide +kernel
    simp [hhead]
  have hlines : lines text = ["x: y: true", "", "(x) - 2"] := by decide +kernel
  have hfirst : StandsAlone "x: y: true" := by
    have hhead : (tokens "x: y: true").head? = some ⟨.identifier "x", "x", ⟨1, 1, 0⟩⟩ := by
      decide +kernel
    exact ⟨by decide +kernel, by simp [hhead]⟩
  have hblank : StandsAlone "" := by
    have hhead : (tokens "").head? = some ⟨.endOfInput, "", ⟨1, 1, 0⟩⟩ := by decide +kernel
    exact ⟨by decide +kernel, by simp [hhead]⟩
  have hlast : StandsAlone "(x) - 2" := by
    have hhead : (tokens "(x) - 2").head? = some ⟨.openParen, "(", ⟨1, 1, 0⟩⟩ := by decide +kernel
    exact ⟨by decide +kernel, by simp [hhead]⟩
  have halone : ∀ line ∈ lines text, StandsAlone line := by
    rw [hlines]
    simpa using ⟨hfirst, hblank, hlast⟩
  have hok : (runLineWithin usualLimit text .empty).1.ok = true := by decide +kernel
  obtain ⟨hread, hrun⟩ := newline_separates
  exact ⟨hread front _ back hfront rfl hfaults hback, hok,
    (hrun usualLimit text .empty halone).2 hok⟩

end Scratchpad
