import Mathlib.Data.List.Forall2
import Scratchpad.Line
import Scratchpad.Proofs.Arrival
import Scratchpad.Proofs.LongestMatch
import Scratchpad.Proofs.Recovery

/-! An account of faults. Each fault but a missing parenthesis stands in what is read as an invalid
expression, in the same order. Each is charged to a token that has been taken: a missing parenthesis
to the one that opens its group, any other to the token at which it shows. Only the end of input is
not taken, and nothing goes on behind a fault there. -/
namespace Scratchpad

namespace Expr

def invalids : Expr → List Diagnostic
  | invalid token fault => [⟨fault, some token⟩]
  | group e | unary _ e | assign _ e => e.invalids
  | binary a _ b | logical a _ b => a.invalids ++ b.invalids
  | _ => []

def groups : Expr → Nat
  | group e => e.groups + 1
  | unary _ e | assign _ e => e.groups
  | binary a _ b | logical a _ b => a.groups + b.groups
  | _ => 0

def groupsIn : List Expr → Nat
  | [] => 0
  | e :: es => e.groups + groupsIn es

theorem invalids_join (level : Level) (a : Expr) (op : Token) (b : Expr) :
    (level.join a op b).invalids = a.invalids ++ b.invalids := by
  cases level <;> rfl

theorem groups_join (level : Level) (a : Expr) (op : Token) (b : Expr) :
    (level.join a op b).groups = a.groups + b.groups := by
  cases level <;> rfl

end Expr

/-- The faults that stand in what is read: all but missing parentheses. -/
def standing (faults : List Diagnostic) : List Diagnostic :=
  faults.filter fun d => d.fault ≠ .expectedClosing

def unfinished (faults : List Diagnostic) : Nat :=
  faults.countP fun d => d.fault = .expectedExpression ∧ d.token.any Token.isEnd

theorem standing_append (a b : List Diagnostic) : standing (a ++ b) = standing a ++ standing b :=
  List.filter_append ..

theorem unfinished_append (a b : List Diagnostic) :
    unfinished (a ++ b) = unfinished a + unfinished b := List.countP_append

/-! ## Readings -/

/-- What is read of tokens accounts for its faults. -/
structure Accounts (ts : List Token) (p : Parsed) : Prop where
  invalids : p.value.invalids = standing p.faults
  closings : missingClosings p.faults ≤ p.value.groups
  unfinished_le : unfinished p.faults ≤ 1
  finished : p.rest ≠ [] → unfinished p.faults = 0
  length_le : p.faults.length + p.rest.length ≤ ts.length + unfinished p.faults

namespace Accounts

variable {ts rest : List Token} {p : Parsed} {t : Token}

theorem tooDeep (t : Token) (ts : List Token) : Accounts (t :: ts) (.tooDeep t ts) where
  invalids := rfl
  closings := Nat.le_refl 0
  unfinished_le := Nat.zero_le 1
  finished _ := rfl
  length_le := by
    have hrest := (Parsed.tooDeep_suffix t ts).length_le
    have hfaults : (Parsed.tooDeep t ts).faults.length = 1 := rfl
    rw [List.length_cons]
    omega

theorem refuse (ht : t.isEnd = false) (ts : List Token) :
    Accounts (t :: ts) (.refuse t .expectedExpression ts) := by
  have hunfinished : unfinished [⟨.expectedExpression, some t⟩] = 0 := by simp [unfinished, ht]
  refine ⟨rfl, Nat.le_refl 0, ?_, fun _ => hunfinished, ?_⟩
  · exact hunfinished ▸ Nat.zero_le 1
  · simp [Parsed.refuse, hunfinished, Nat.add_comm]

theorem finish (stop : Token) (hstop : stop.isEnd = true) :
    Accounts [] (.refuse stop .expectedExpression []) := by
  have hunfinished : unfinished [⟨.expectedExpression, some stop⟩] = 1 := by
    simp [unfinished, hstop]
  refine ⟨rfl, Nat.le_refl 0, hunfinished.le, fun h => absurd rfl h, ?_⟩
  simp [Parsed.refuse, hunfinished]

theorem literal (t : Token) (atom : Atom) (ts : List Token) :
    Accounts (t :: ts) ⟨.literal atom, [], ts⟩ where
  invalids := rfl
  closings := Nat.le_refl 0
  unfinished_le := Nat.zero_le 1
  finished _ := rfl
  length_le := by simp [unfinished]

theorem endLine (h : Accounts ts p) : Accounts ts p.endLine where
  invalids := h.invalids
  closings := h.closings
  unfinished_le := h.unfinished_le
  finished hrest := h.finished fun hnil => hrest (by rw [Parsed.rest_endLine, hnil]; rfl)
  length_le := by
    have hrest := p.endLine_suffix.length_le
    have hlength := h.length_le
    rw [Parsed.faults_endLine]
    omega

theorem map {f : Expr → Expr} (h : Accounts ts p)
    (hinvalids : (f p.value).invalids = p.value.invalids)
    (hgroups : (f p.value).groups = p.value.groups) (front : List Token) :
    Accounts (front ++ ts) (p.map f) where
  invalids := hinvalids.trans h.invalids
  closings := hgroups ▸ h.closings
  unfinished_le := h.unfinished_le
  finished := h.finished
  length_le := by
    have hlength := h.length_le
    simp only [List.length_append, Parsed.faults_map, Parsed.rest_map]
    omega

theorem close {stop : Token} (h : Accounts ts p) (t : Token) :
    Accounts (t :: ts) (p.close stop) := by
  obtain ⟨more, hmore, hfaults⟩ := p.faults_close_cases stop
  have hcharge : standing more = [] ∧ missingClosings more ≤ 1 ∧ unfinished more = 0 ∧
      more.length ≤ 1 := by
    rcases hmore with rfl | ⟨token, rfl⟩ <;> simp [standing, missingClosings, unfinished]
  obtain ⟨hstanding, hclosings, hunfinished, hlength⟩ := hcharge
  have hsame : unfinished (p.close stop).faults = unfinished p.faults := by
    rw [hfaults, unfinished_append, hunfinished, Nat.add_zero]
  -- a missing parenthesis shows at the end as well, but no expression is missing there
  refine ⟨?_, ?_, hsame ▸ h.unfinished_le, fun hrest => ?_, ?_⟩
  · rw [hfaults, standing_append, hstanding, List.append_nil, Parsed.value_close]
    exact h.invalids
  · rw [hfaults, missingClosings_append, Parsed.value_close]
    exact Nat.add_le_add h.closings hclosings
  · rw [hsame]
    refine h.finished fun hnil => hrest ?_
    exact List.suffix_nil.1 (hnil ▸ p.close_suffix stop)
  · have hrest := (p.close_suffix stop).length_le
    have hbefore := h.length_le
    rw [hsame, hfaults, List.length_append, List.length_cons]
    omega

theorem join {level : Level} {left right : Parsed} {op : Token} (hl : Accounts ts left)
    (hrest : left.rest = op :: rest) (hr : Accounts rest right) :
    Accounts ts
      ⟨level.join left.value op right.value, left.faults ++ right.faults, right.rest⟩ := by
  have hfinished := hl.finished (by simp [hrest])
  have hlength := hl.length_le
  have hlength' := hr.length_le
  rw [hrest, List.length_cons] at hlength
  refine ⟨?_, ?_, ?_, fun hne => ?_, ?_⟩
  · rw [Expr.invalids_join, standing_append, hl.invalids, hr.invalids]
  · rw [Expr.groups_join, missingClosings_append]
    exact Nat.add_le_add hl.closings hr.closings
  · rw [unfinished_append, hfinished, Nat.zero_add]
    exact hr.unfinished_le
  · rw [unfinished_append, hfinished, Nat.zero_add]
    exact hr.finished hne
  · rw [unfinished_append, List.length_append]
    dsimp only
    omega

end Accounts

theorem Reading.accounts {stop : Token} {layer : Layer} {depth : Nat} {ts : List Token} {p : Parsed}
    (h : Reading stop layer depth ts p) (hstop : stop.isEnd = true)
    (hends : ∀ t ∈ ts, t.isEnd = false) : Accounts ts p := by
  induction h with
  | assignTooDeep | minusTooDeep | groupTooDeep => exact .tooDeep _ _
  | @assign t colon name ts depth p _ _ _ ih =>
    have hvalue := ih fun t ht => hends t (by simp [ht])
    exact (hvalue.map rfl rfl [t, colon]).endLine
  | expression _ _ _ ih | operand _ ih | primary _ ih => exact ih hends
  | @join level ts rest depth left right op hleft hrest _ _ ihl ihr =>
    have hsuffix : rest <:+ ts :=
      (hrest ▸ List.suffix_cons op rest : rest <:+ left.rest).trans hleft.rest_suffix
    exact (ihl hends).join hrest (ihr fun t ht => hends t (hsuffix.subset ht))
  | @minus t ts depth p _ _ ih =>
    exact (ih fun t ht => hends t (by simp [ht])).map rfl rfl [t]
  | literal => exact (Accounts.literal _ _ _).endLine
  | group _ _ _ ih => exact ((ih fun t ht => hends t (by simp [ht])).close _).endLine
  | refuse => exact .refuse (hends _ List.mem_cons_self) _
  | finish => exact .finish _ hstop

structure AccountsAll (ts : List Token) (program : Program) : Prop where
  invalids : program.statements.flatMap Expr.invalids = standing program.faults
  closings : missingClosings program.faults ≤ Expr.groupsIn program.statements
  unfinished_le : unfinished program.faults ≤ 1
  length_le : program.faults.length ≤ ts.length + unfinished program.faults

theorem accountsAll_statements {stop : Token} (hstop : stop.isEnd = true) {ts : List Token}
    (hends : ∀ t ∈ ts, t.isEnd = false) : AccountsAll ts (statements stop ts) := by
  fun_induction statements stop ts with
  | case1 => exact ⟨rfl, Nat.le_refl 0, Nat.zero_le 1, Nat.le_refl 0⟩
  | case2 t ts hn ih =>
    have hmore := ih fun t ht => hends t (List.mem_cons_of_mem _ ht)
    refine ⟨hmore.invalids, hmore.closings, hmore.unfinished_le, ?_⟩
    have hlength := hmore.length_le
    rw [List.length_cons]
    omega
  | case3 t ts hn first more ih =>
    have hfirst : Accounts (t :: ts) first :=
      (reading_statement stop maxNesting (t :: ts)).accounts hstop hends
    have hmore : AccountsAll first.rest more :=
      ih fun t ht => hends t ((Reader.suffix _ _).subset ht)
    have hlength := hfirst.length_le
    have hlength' := hmore.length_le
    -- an unfinished statement is the last one
    have hlast : unfinished first.faults = 0 ∨ more = ⟨[], []⟩ := by
      by_cases hrest : first.rest = []
      · exact .inr (by rw [show more = statements stop first.rest from rfl, hrest, statements_nil])
      · exact .inl (hfirst.finished hrest)
    refine ⟨?_, ?_, ?_, ?_⟩
    · rw [List.flatMap_cons, standing_append, hfirst.invalids, hmore.invalids]
    · rw [Expr.groupsIn, missingClosings_append]
      exact Nat.add_le_add hfirst.closings hmore.closings
    · rw [unfinished_append]
      rcases hlast with hlast | hlast
      · exact hlast ▸ (Nat.zero_add _).symm ▸ hmore.unfinished_le
      · exact hlast ▸ hfirst.unfinished_le
    · rw [unfinished_append, List.length_append]
      rcases hlast with hlast | hlast
      · omega
      · rw [hlast] at hlength' ⊢
        simp only [List.length_nil]
        omega

/-! ## Places -/

/-- The faults of a descent were found at the places that it keeps, one behind the other. -/
structure Logged (tokens : List Token) (d : Descent) : Prop where
  within : d.Within tokens
  behind : ∀ place ∈ d.places, place ≤ d.position
  ordered : d.places.Pairwise (· ≤ ·)
  found : List.Forall₂ (fun place fault => ∃ t, (withEnd tokens)[place]? = some t ∧
    fault.token = some t) d.places d.faults

theorem Logged.moveTo {tokens rest : List Token} {d : Descent} (h : Logged tokens d)
    (hrest : rest <:+ d.feed.ahead) :
    Logged tokens { d with toCursor := d.toCursor.moveTo rest } where
  within := h.within.moveTo hrest
  behind place hplace := (h.behind place hplace).trans (d.position_le_moveTo rest)
  ordered := h.ordered
  found := h.found

theorem kept_logged (tokens : List Token) : Kept (Logged tokens) where
  advance h := h.moveTo (List.tail_suffix _)
  note {d} fault h := by
    refine ⟨(Descent.Within.kept tokens).note fault h.within, ?_, ?_, ?_⟩
    · intro place hplace
      rcases List.mem_append.1 hplace with hplace | hplace
      · exact h.behind place hplace
      · exact (List.mem_singleton.1 hplace).le
    · refine List.pairwise_append.2 ⟨h.ordered, List.pairwise_singleton _ _, ?_⟩
      intro place hplace last hlast
      exact List.mem_singleton.1 hlast ▸ h.behind place hplace
    · exact List.rel_append h.found (.cons ⟨d.current, h.within.getElem?_position, rfl⟩ .nil)
  skip h := h.moveTo (skipNested_suffix 0 _)
  enter h := ⟨(Descent.Within.kept tokens).enter h.within, h.behind, h.ordered, h.found⟩
  leave h := ⟨(Descent.Within.kept tokens).leave h.within, h.behind, h.ordered, h.found⟩

theorem logged_ofTokens (tokens : List Token) : Logged tokens (.ofTokens tokens) where
  within := Descent.within_ofTokens tokens
  behind := by simp [Descent.ofTokens]
  ordered := .nil
  found := .nil

/-! ## Parentheses -/

/-- How many parentheses are open behind tokens; none where one closes that was not opened. -/
def openAfter : Nat → List Token → Option Nat
  | opened, [] => some opened
  | opened, t :: ts =>
    match t.kind, opened with
    | .openParen, opened => openAfter (opened + 1) ts
    | .closeParen, 0 => none
    | .closeParen, opened + 1 => openAfter opened ts
    | _, opened => openAfter opened ts

def Balanced (ts : List Token) : Prop := openAfter 0 ts = some 0

instance (ts : List Token) : Decidable (Balanced ts) :=
  inferInstanceAs (Decidable (openAfter 0 ts = some 0))

section
variable {opened : Nat} {t : Token}

theorem openAfter_openParen (ht : t.kind = .openParen) (ts : List Token) :
    openAfter opened (t :: ts) = openAfter (opened + 1) ts := by
  simp [openAfter, ht]

theorem openAfter_closeParen (ht : t.kind = .closeParen) (ts : List Token) :
    openAfter (opened + 1) (t :: ts) = openAfter opened ts := by
  simp [openAfter, ht]

theorem openAfter_cons (ho : t.kind ≠ .openParen) (hc : t.kind ≠ .closeParen) (ts : List Token) :
    openAfter opened (t :: ts) = openAfter opened ts := by
  rw [openAfter.eq_def]
  split <;> first | contradiction | simp_all

end

theorem openAfter_lineEnd {ending : List Token} (h : LineEnd ending) (opened : Nat)
    (rest : List Token) : openAfter opened (ending ++ rest) = openAfter opened rest := by
  cases h with
  | none => rfl
  | newline ht => exact openAfter_cons (by simp [ht]) (by simp [ht]) rest

theorem Derives.openAfter_append {layer : Layer} {e : Expr} {ts : List Token}
    (h : Derives layer e ts) (opened : Nat) (rest : List Token) :
    openAfter opened (ts ++ rest) = openAfter opened rest := by
  induction h generalizing opened rest with
  | @assign t colon name e ts ending ht hc _ hending ih =>
    rw [List.append_assoc, List.cons_append, List.cons_append,
      openAfter_cons (by simp [ht]) (by simp [ht]), openAfter_cons (by simp [hc]) (by simp [hc]),
      ih, openAfter_lineEnd hending]
  | expression _ ih | operand _ ih | primary _ ih => exact ih opened rest
  | @logical level a b op ts us _ hop _ _ iha ihb | @binary level a b op ts us _ hop _ _ iha ihb =>
    obtain ⟨o, -, ho⟩ := hop
    rw [List.append_assoc, List.cons_append, iha, openAfter_cons (by simp [ho]) (by simp [ho]), ihb]
  | unary hop _ ih =>
    rw [List.cons_append, openAfter_cons (by simp [hop]) (by simp [hop]), ih]
  | @literal t atom ending ht hending =>
    have hplain : t.kind ≠ .openParen ∧ t.kind ≠ .closeParen := by
      cases atom <;> simp [ht, Atom.kind]
    rw [List.cons_append, openAfter_cons hplain.1 hplain.2, openAfter_lineEnd hending]
  | @group opening closing e ts ending hopening _ hclosing hending ih =>
    rw [List.append_assoc, List.cons_append, List.cons_append, openAfter_openParen hopening, ih,
      openAfter_closeParen hclosing, openAfter_lineEnd hending]

theorem DerivesProgram.openAfter_append {es : List Expr} {ts : List Token}
    (h : DerivesProgram es ts) (opened : Nat) (rest : List Token) :
    openAfter opened (ts ++ rest) = openAfter opened rest := by
  induction h with
  | nil => rfl
  | newline ht _ ih => rw [List.cons_append, openAfter_cons (by simp [ht]) (by simp [ht]), ih]
  | statement hd _ ih => rw [List.append_assoc, hd.openAfter_append, ih]

def Token.isForeign (t : Token) : Prop := t.kind = .dot ∨ t.kind = .invalid

theorem LineEnd.not_isForeign {ending : List Token} (h : LineEnd ending) :
    ∀ t ∈ ending, ¬ t.isForeign := by
  cases h with
  | none => simp
  | newline ht => simp [Token.isForeign, ht]

theorem Derives.not_isForeign {layer : Layer} {e : Expr} {ts : List Token}
    (h : Derives layer e ts) : ∀ t ∈ ts, ¬ t.isForeign := by
  induction h with
  | assign ht hc _ hending ih =>
    simp only [List.forall_mem_append, List.forall_mem_cons]
    exact ⟨⟨by simp [Token.isForeign, ht], by simp [Token.isForeign, hc], ih⟩,
      hending.not_isForeign⟩
  | expression _ ih | operand _ ih | primary _ ih => exact ih
  | logical _ hop _ _ iha ihb | binary _ hop _ _ iha ihb =>
    obtain ⟨o, -, ho⟩ := hop
    simp only [List.forall_mem_append, List.forall_mem_cons]
    exact ⟨iha, by simp [Token.isForeign, ho], ihb⟩
  | unary hop _ ih => exact List.forall_mem_cons.2 ⟨by simp [Token.isForeign, hop], ih⟩
  | @literal t atom ending ht hending =>
    refine List.forall_mem_cons.2 ⟨?_, hending.not_isForeign⟩
    cases atom <;> simp [Token.isForeign, ht, Atom.kind]
  | group hopening _ hclosing hending ih =>
    simp only [List.forall_mem_append, List.forall_mem_cons]
    exact ⟨⟨by simp [Token.isForeign, hopening], ih⟩, by simp [Token.isForeign, hclosing],
      hending.not_isForeign⟩

theorem DerivesProgram.not_isForeign {es : List Expr} {ts : List Token} (h : DerivesProgram es ts) :
    ∀ t ∈ ts, ¬ t.isForeign := by
  induction h with
  | nil => simp
  | newline ht _ ih => exact List.forall_mem_cons.2 ⟨by simp [Token.isForeign, ht], ih⟩
  | statement hd _ ih => exact List.forall_mem_append.2 ⟨hd.not_isForeign, ih⟩

theorem tokens_eq_ahead (source : String) :
    tokens source = (feed (tokens source)).ahead ++ [(feed (tokens source)).stop] := by
  obtain ⟨content, hall, hreadings⟩ := exists_allTokens source
  have hends : ∀ t ∈ content.filter fun t => t.kind ≠ .blank, t.isEnd = false := by
    intro t ht
    have hmem : (t.lexeme.toList, t.kind) ∈ readings source.toList :=
      hreadings ▸ List.mem_map_of_mem (List.mem_of_mem_filter ht)
    simpa [Token.isEnd] using (spells_of_mem_readings hmem).ne_endOfInput
  have htokens : tokens source = (content.filter fun t => t.kind ≠ .blank) ++
      [⟨.endOfInput, "", Position.start.after source.toList⟩] := by
    rw [tokens, hall, List.filter_append]
    rfl
  have hend : (⟨.endOfInput, "", Position.start.after source.toList⟩ : Token).isEnd = true := by
    simp [Token.isEnd]
  obtain ⟨hahead, hstop⟩ := feed_append_cons hend hends []
  rw [htokens, hahead, hstop]

/-- A line without faults is derived, and no derivation takes foreign tokens. -/
theorem not_isForeign_of_faultless {source : String} (h : (parse (tokens source)).faults = []) :
    ∀ t ∈ tokens source, ¬ t.isForeign := by
  have hderives := derivesProgram_statements h
  rw [tokens_eq_ahead]
  refine List.forall_mem_append.2 ⟨hderives.not_isForeign, List.forall_mem_singleton.2 ?_⟩
  simp [Token.isForeign, kind_stop_feed]

theorem ok_runLineWithin_eq_false {source : String}
    (h : (∃ t ∈ tokens source, t.isForeign) ∨ ¬ Balanced (tokens source)) (limit : Nat)
    (env : Environment) : (runLineWithin limit source env).1.ok = false := by
  by_contra hok
  obtain ⟨more, hfaults⟩ := faults_runLineWithin limit source env
  have hfaultless : (parse (tokens source)).faults = [] := by
    rw [Line.ok, hfaults] at hok
    simp at hok
    exact hok.1
  rcases h with ⟨t, ht, hforeign⟩ | hbalanced
  · exact not_isForeign_of_faultless hfaultless t ht hforeign
  · have hderives := derivesProgram_statements hfaultless
    have hstop := kind_stop_feed (tokens source)
    refine hbalanced ?_
    rw [tokens_eq_ahead, Balanced, hderives.openAfter_append,
      openAfter_cons (by simp [hstop]) (by simp [hstop])]
    rfl

/-- The account of the faults of any tokens. In order, the invalid expressions are the faults that
are not missing parentheses. The tokens of the faults stand one behind the other. At most once an
expression is missing at the end of input, at most as many parentheses are missing as there are
groups, and there are at most as many faults as tokens, with the end of input. So no line is in
order that has a foreign token or parentheses that do not match. -/
theorem faults_accounted (ts : List Token) :
    (parse ts).statements.flatMap Expr.invalids =
        (parse ts).faults.filter (fun d => d.fault ≠ .expectedClosing) ∧
      (∃ es d, PerformsAll (.ofTokens ts) es d) ∧
      (∀ es d, PerformsAll (.ofTokens ts) es d →
        es = (parse ts).statements ∧ d.faults = (parse ts).faults ∧
          d.places.Pairwise (· ≤ ·) ∧
          List.Forall₂ (fun place fault => ∃ t, (withEnd ts)[place]? = some t ∧
            fault.token = some t) d.places (parse ts).faults) ∧
      unfinished (parse ts).faults ≤ 1 ∧
      missingClosings (parse ts).faults ≤ Expr.groupsIn (parse ts).statements ∧
      (parse ts).faults.length ≤ (withEnd ts).findIdx Token.isEnd + 1 ∧
      ∀ source, (∃ t ∈ tokens source, t.isForeign) ∨ ¬ Balanced (tokens source) →
        ∀ limit env, (runLineWithin limit source env).1.ok = false := by
  have hstart := Descent.within_ofTokens ts
  have hstop : (feed ts).stop.isEnd = true := by simp [Token.isEnd, kind_stop_feed]
  have haccount : AccountsAll (feed ts).ahead (parse ts) :=
    accountsAll_statements hstop fun t => isEnd_of_mem_ahead
  refine ⟨haccount.invalids, exists_performsAll hstart, fun es d h => ?_, haccount.unfinished_le,
    haccount.closings, ?_, fun source h limit env => ok_runLineWithin_eq_false h limit env⟩
  -- a descent to the end comes to what is read, with the places at which it has found the faults
  · have hlogged := h.keeps (kept_logged ts) (logged_ofTokens ts)
    obtain ⟨hes, hcursor⟩ := Prod.mk.inj (h.arrives hstart rfl)
    have hfaults : d.faults = (parse ts).faults := congrArg Cursor.faults hcursor
    exact ⟨hes, hfaults, hlogged.ordered, hfaults ▸ hlogged.found⟩
  · have hlength := haccount.length_le
    have hunfinished := haccount.unfinished_le
    rw [findIdx_withEnd]
    omega

/-- Of a dot behind a number, and of a parenthesis that is not closed. -/
theorem faults_accounted_dot :
    (∃ es d, PerformsAll (.ofTokens (tokens "1 .")) es d ∧ d.places.Pairwise (· ≤ ·)) ∧
      (runLineWithin usualLimit "1 ." .empty).1.ok = false ∧
      (runLineWithin usualLimit "(1" .empty).1.ok = false := by
  obtain ⟨-, ⟨es, d, h⟩, hplaces, -, -, -, hok⟩ := faults_accounted (tokens "1 .")
  have hdot : ∃ t ∈ tokens "1 .", t.isForeign :=
    ⟨⟨.dot, ".", ⟨1, 3, 2⟩⟩, by decide +kernel, .inl rfl⟩
  have hopen : ¬ Balanced (tokens "(1") := by decide +kernel
  exact ⟨⟨es, d, h, (hplaces es d h).2.2.1⟩, hok _ (.inl hdot) _ _, hok _ (.inr hopen) _ _⟩

end Scratchpad
