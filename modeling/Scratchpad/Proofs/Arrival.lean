import Scratchpad.Proofs.Descent

/-! Where descents arrive. From every place and at every depth the rules lead to an end, and to one
end only: behind what the readers read, at the depth from which they set out. -/
namespace Scratchpad

/-! ## Layers -/

namespace Layer

def inside (stop : Token) : Nat → Option Reader
  | 0 => none
  | left + 1 => some (Scratchpad.expression stop left)

/-- The reader that begins at a layer. A primary does not begin with a sign. -/
def entry (stop : Token) (left : Nat) : Layer → Reader
  | statement => Scratchpad.statement stop left
  | binary level => ladder level.andTighter (Scratchpad.unary stop left)
  | unary => Scratchpad.unary stop left
  | primary => Scratchpad.primary stop (inside stop left)

variable {stop t : Token} {ts : List Token} {left : Nat}

theorem entry_binary (level : Level) :
    (binary level).entry stop left = level.chained (level.operand.entry stop left) := by
  cases level <;> rfl

theorem primary_nil : (primary.entry stop left).read [] = .refuse stop .expectedExpression [] := rfl

theorem primary_literal {atom : Atom} (h : t.kind = atom.kind) :
    (primary.entry stop left).read (t :: ts) = Parsed.endLine ⟨.literal atom, [], ts⟩ := by
  cases atom <;> simp [entry, Scratchpad.primary, h, Atom.kind]

theorem primary_openParen_zero (h : t.kind = .openParen) :
    (primary.entry stop 0).read (t :: ts) = .tooDeep t ts := by
  simp [entry, inside, Scratchpad.primary, h]

theorem primary_openParen_succ (h : t.kind = .openParen) :
    (primary.entry stop (left + 1)).read (t :: ts) =
      (((Scratchpad.expression stop left).read ts).close stop).endLine := by
  simp [entry, inside, Scratchpad.primary, h]

theorem primary_refuse (ha : ∀ atom : Atom, t.kind ≠ atom.kind) (hp : t.kind ≠ .openParen) :
    (primary.entry stop left).read (t :: ts) = .refuse t .expectedExpression ts := by
  have hb := fun b => ha (.boolean b)
  have hn := fun x => ha (.number x)
  have hi := fun n => ha (.name n)
  simp only [Atom.kind] at hb hn hi
  simp only [entry, Scratchpad.primary]

theorem unary_eq_primary (h : ∀ t ∈ ts.head?, t.kind ≠ .operator .minus) :
    (unary.entry stop left).read ts = (primary.entry stop left).read ts := by
  cases ts with
  | nil => cases left <;> rfl
  | cons t ts =>
    have hm := h t rfl
    cases left <;> simp only [entry, Scratchpad.unary, signed, if_neg hm] <;> rfl

end Layer

theorem Level.chain_faults_append (level : Level) (operand : Reader) (faults : List Diagnostic)
    (left : Parsed) :
    level.chain operand { left with faults := faults ++ left.faults } =
      { level.chain operand left with
        faults := faults ++ (level.chain operand left).faults } := by
  fun_induction Level.chain level operand left with
  | case1 left hr => exact Level.chain_eq_self (by simp [hr])
  | case2 left op ts hr ha right ih =>
    let later : Parsed := { left with faults := faults ++ left.faults }
    have hstep := @Level.chain_cons level operand later op ts hr ha
    rw [List.append_assoc] at hstep
    exact hstep.trans ih
  | case3 left op ts hr ha => exact Level.chain_eq_self (by simp [hr, ha])

/-! ## Outcomes -/

def Phase.read (stop : Token) (left : Nat) : Phase → List Token → Parsed
  | layer l, ts => (l.entry stop left).read ts
  | chain level e, ts => level.chain (level.operand.entry stop left) ⟨e, [], ts⟩

theorem Phase.read_suffix (stop : Token) (left : Nat) (phase : Phase) (ts : List Token) :
    (phase.read stop left ts).rest <:+ ts := by
  cases phase with
  | layer l => exact (l.entry stop left).suffix ts
  | chain level e => exact level.chain_suffix _ _

namespace Descent

def reads (d : Descent) (phase : Phase) : Parsed :=
  phase.read d.feed.stop d.nestingsLeft d.feed.ahead

theorem reads_suffix (d : Descent) (phase : Phase) : (d.reads phase).rest <:+ d.feed.ahead :=
  phase.read_suffix d.feed.stop d.nestingsLeft d.feed.ahead

theorem nestingsLeft_of_lt {d : Descent} (h : d.depth < maxNesting) :
    d.nestingsLeft = d.enter.nestingsLeft + 1 := by
  simp only [nestingsLeft, enter]
  omega

theorem nestingsLeft_enter_lt {d : Descent} (h : d.depth < maxNesting) :
    d.enter.nestingsLeft < d.nestingsLeft := by
  rw [nestingsLeft_of_lt h]
  exact Nat.lt_succ_self _

theorem nestingsLeft_of_le {d : Descent} (h : maxNesting ≤ d.depth) : d.nestingsLeft = 0 :=
  Nat.sub_eq_zero_of_le h

/-- A phase that has read `p` of what is ahead ends with its expression, at the cursor behind it
and at the depth at which it began. -/
structure Arrives (d : Descent) (p : Parsed) (e : Expr) (d' : Descent) : Prop where
  suffix : p.rest <:+ d.feed.ahead
  value : e = p.value
  cursor : d'.toCursor = d.toCursor.after p
  depth : d'.depth = d.depth

namespace Arrives

variable {d d₁ d' : Descent} {p q : Parsed} {e e₁ : Expr}

theorem ahead (h : d.Arrives p e d') : d'.feed.ahead = p.rest := by
  rw [h.cursor]
  rfl

theorem stop (h : d.Arrives p e d') : d'.feed.stop = d.feed.stop := by
  rw [h.cursor]
  rfl

theorem nestingsLeft (h : d.Arrives p e d') : d'.nestingsLeft = d.nestingsLeft :=
  congrArg (maxNesting - ·) h.depth

theorem ofAdvance (h : d.advance.Arrives p e d') : d.Arrives p e d' where
  suffix := h.suffix.trans (List.tail_suffix d.feed.ahead)
  value := h.value
  cursor := h.cursor.trans (Cursor.after_moveTo (List.tail_suffix d.feed.ahead) h.suffix)
  depth := h.depth

theorem ofEnter (h : d.enter.Arrives p e d') : d.Arrives p e d'.leave where
  suffix := h.suffix
  value := h.value
  cursor := h.cursor
  depth := by simp [leave, h.depth, enter]

theorem map (f : Expr → Expr) (h : d.Arrives p e d') : d.Arrives (p.map f) (f e) d' where
  suffix := h.suffix
  value := congrArg f h.value
  cursor := h.cursor
  depth := h.depth

theorem skipNewline (hstop : d.feed.stop.kind = .endOfInput) (h : d.Arrives p e d') :
    d.Arrives p.endLine e d'.skipNewline where
  suffix := p.endLine_suffix.trans h.suffix
  value := h.value
  cursor := by
    rw [← Cursor.skipNewline_after hstop h.suffix, ← h.cursor]
    rfl
  depth := h.depth

theorem close (hstop : d.feed.stop.kind = .endOfInput) (h : d.Arrives p e d') :
    d.Arrives (p.close d.feed.stop) (.group e) d'.close where
  suffix := (p.close_suffix _).trans h.suffix
  value := by rw [p.value_close, h.value]
  cursor := by
    rw [← Cursor.close_after hstop h.suffix, ← h.cursor, Descent.close, Cursor.close, Cursor.expect]
    by_cases hc : d'.current.kind = .closeParen
    · simp [Cursor.check, hc, Descent.advance]
    · simp [Cursor.check, hc, note]
  depth := by
    rw [← h.depth, Descent.close]
    split <;> rfl

theorem reads (h : d.Arrives p e d') (phase : Phase) :
    d'.reads phase = phase.read d.feed.stop d.nestingsLeft p.rest := by
  rw [Descent.reads, h.stop, h.nestingsLeft, h.ahead]

theorem andThen (h₁ : d.Arrives p e₁ d₁) (h : d₁.Arrives q e d') :
    d.Arrives ⟨q.value, p.faults ++ q.faults, q.rest⟩ e d' where
  suffix := (h₁.ahead ▸ h.suffix).trans h₁.suffix
  value := h.value
  cursor := by
    rw [h.cursor, h₁.cursor, Cursor.after_after h₁.suffix (h₁.ahead ▸ h.suffix)]
  depth := h.depth.trans h₁.depth

theorem advance (d : Descent) (e : Expr) : d.Arrives ⟨e, [], d.feed.ahead.tail⟩ e d.advance where
  suffix := List.tail_suffix d.feed.ahead
  value := rfl
  cursor := by simp [Descent.advance, Cursor.advance, Cursor.after, Cursor.moveTo]
  depth := rfl

theorem tooDeep {t : Token} {ts : List Token} (h : d.feed.ahead = t :: ts)
    (hn : t.kind ≠ .newline) (hc : t.kind ≠ .closeParen) :
    d.Arrives (.tooDeep t ts) (.invalid d.current .tooDeep) (d.note .tooDeep).skip where
  suffix := h ▸ (Parsed.tooDeep_suffix t ts).trans (List.suffix_cons t ts)
  value := by rw [d.current_of_cons h]; rfl
  cursor := by
    have hskip : skipNested 0 (t :: ts) = (Parsed.tooDeep t ts).rest := by
      by_cases hp : t.kind = .openParen
      · simp [Parsed.tooDeep, Parsed.refuse, hp, skipNested_openParen]
      · simp [Parsed.tooDeep, Parsed.refuse, hp, skipNested_cons hn hp hc]
    simp only [skip, note, h, hskip, d.current_of_cons h]
    rfl
  depth := rfl

end Arrives

section
variable {d : Descent} (hstop : d.feed.stop.kind = .endOfInput)
include hstop

theorem exists_assignment {name : String} (hname : d.current.kind = .identifier name)
    (hcolon : (d.peek 1).kind = .colon) :
    ∃ colon ts, colon.kind = .colon ∧ d.feed.ahead = d.current :: colon :: ts := by
  have hbegins := (d.beginsAssignment_iff hstop).2 ⟨⟨name, hname⟩, hcolon⟩
  rcases hahead : d.feed.ahead with _ | ⟨t, _ | ⟨colon, ts⟩⟩ <;> rw [hahead] at hbegins
  · exact hbegins.elim
  · exact hbegins.elim
  · exact ⟨colon, ts, hbegins.2, by rw [d.current_of_cons hahead]⟩

theorem reads_assign {name : String} (hname : d.current.kind = .identifier name)
    (hcolon : (d.peek 1).kind = .colon) (hdepth : d.depth < maxNesting) :
    d.reads (.layer .statement) =
      ((d.advance.advance.enter.reads (.layer .statement)).map (.assign name)).endLine := by
  obtain ⟨colon, ts, hc, hahead⟩ := exists_assignment hstop hname hcolon
  have hrest : d.advance.advance.enter.feed.ahead = ts := congrArg (·.tail.tail) hahead
  rw [reads, nestingsLeft_of_lt hdepth, hahead, reads, hrest]
  exact statement_assign_succ hname hc

theorem reads_assignTooDeep {name : String} (hname : d.current.kind = .identifier name)
    (hcolon : (d.peek 1).kind = .colon) (hdepth : maxNesting ≤ d.depth) :
    d.reads (.layer .statement) = .tooDeep d.current d.feed.ahead.tail := by
  obtain ⟨colon, ts, hc, hahead⟩ := exists_assignment hstop hname hcolon
  rw [reads, nestingsLeft_of_le hdepth, hahead]
  exact statement_assign_zero hname hc

theorem reads_expression
    (h : ¬ ((∃ name, d.current.kind = .identifier name) ∧ (d.peek 1).kind = .colon)) :
    d.reads (.layer .statement) = d.reads (.layer (.binary .disjunction)) :=
  statement_expression fun hbegins => h ((d.beginsAssignment_iff hstop).1 hbegins)

theorem reads_minus (hm : d.current.kind = .operator .minus) (hdepth : d.depth < maxNesting) :
    d.reads (.layer .unary) =
      (d.advance.enter.reads (.layer .unary)).map (.unary d.current) := by
  rw [reads, nestingsLeft_of_lt hdepth, d.ahead_eq hstop (by simp [hm])]
  exact unary_minus_succ hm

theorem reads_minusTooDeep (hm : d.current.kind = .operator .minus)
    (hdepth : maxNesting ≤ d.depth) :
    d.reads (.layer .unary) = .tooDeep d.current d.feed.ahead.tail := by
  rw [reads, nestingsLeft_of_le hdepth, d.ahead_eq hstop (by simp [hm])]
  exact unary_minus_zero hm

theorem reads_literal {atom : Atom} (ha : d.current.kind = atom.kind) :
    d.reads (.layer .primary) = Parsed.endLine ⟨.literal atom, [], d.feed.ahead.tail⟩ := by
  rw [reads, d.ahead_eq hstop (by cases atom <;> simp [ha, Atom.kind])]
  exact Layer.primary_literal ha

theorem reads_group (hp : d.current.kind = .openParen) (hdepth : d.depth < maxNesting) :
    d.reads (.layer .primary) =
      ((d.advance.enter.reads (.layer (.binary .disjunction))).close d.feed.stop).endLine := by
  rw [reads, nestingsLeft_of_lt hdepth, d.ahead_eq hstop (by simp [hp])]
  exact Layer.primary_openParen_succ hp

theorem reads_groupTooDeep (hp : d.current.kind = .openParen) (hdepth : maxNesting ≤ d.depth) :
    d.reads (.layer .primary) = .tooDeep d.current d.feed.ahead.tail := by
  rw [reads, nestingsLeft_of_le hdepth, d.ahead_eq hstop (by simp [hp])]
  exact Layer.primary_openParen_zero hp

theorem ahead_of_accepts {level : Level} (hop : level.accepts d.current = true) :
    d.feed.ahead = d.current :: d.feed.ahead.tail := by
  apply d.ahead_eq hstop
  intro h
  simp [Level.accepts, h] at hop

theorem reads_link {level : Level} {left : Expr} (hop : level.accepts d.current = true) :
    let right := d.advance.reads (.layer level.operand)
    let more := (Phase.chain level (level.join left d.current right.value)).read d.feed.stop
      d.nestingsLeft right.rest
    d.reads (.chain level left) = ⟨more.value, right.faults ++ more.faults, more.rest⟩ := by
  intro right more
  have hahead := ahead_of_accepts hstop hop
  have hlink : d.reads (.chain level left) =
      level.chain (level.operand.entry d.feed.stop d.nestingsLeft)
        ⟨level.join left d.current right.value, right.faults, right.rest⟩ :=
    Level.chain_cons hahead hop
  have happend := level.chain_faults_append (level.operand.entry d.feed.stop d.nestingsLeft)
    right.faults ⟨level.join left d.current right.value, [], right.rest⟩
  rw [List.append_nil] at happend
  exact hlink.trans happend

end

theorem reads_primary {d : Descent} (hm : d.current.kind ≠ .operator .minus) :
    d.reads (.layer .unary) = d.reads (.layer .primary) := by
  apply Layer.unary_eq_primary
  intro t ht
  obtain ⟨ts, hahead⟩ := List.head?_eq_some_iff.1 ht
  exact d.current_of_cons hahead ▸ hm

theorem reads_refuse {d : Descent} (ha : ∀ atom : Atom, d.current.kind ≠ atom.kind)
    (hp : d.current.kind ≠ .openParen) :
    d.reads (.layer .primary) = .refuse d.current .expectedExpression d.feed.ahead.tail := by
  cases hahead : d.feed.ahead with
  | nil =>
    rw [reads, hahead, d.current_of_nil hahead]
    exact Layer.primary_nil
  | cons t ts =>
    rw [d.current_of_cons hahead] at ha hp ⊢
    rw [reads, hahead]
    exact Layer.primary_refuse ha hp

theorem reads_done {d : Descent} {level : Level} {left : Expr}
    (hop : level.accepts d.current = false) :
    d.reads (.chain level left) = ⟨left, [], d.feed.ahead⟩ := by
  apply Level.chain_eq_self
  intro op hhead
  obtain ⟨ts, hahead⟩ := List.head?_eq_some_iff.1 hhead
  exact d.current_of_cons hahead ▸ hop

theorem reads_operands (d : Descent) (level : Level) :
    let left := d.reads (.layer level.operand)
    let more := (Phase.chain level left.value).read d.feed.stop d.nestingsLeft left.rest
    d.reads (.layer (.binary level)) = ⟨more.value, left.faults ++ more.faults, more.rest⟩ := by
  intro left more
  have hchained : d.reads (.layer (.binary level)) =
      level.chain (level.operand.entry d.feed.stop d.nestingsLeft) left := by
    rw [reads, Phase.read, Layer.entry_binary]
    rfl
  have happend := level.chain_faults_append (level.operand.entry d.feed.stop d.nestingsLeft)
    left.faults ⟨left.value, [], left.rest⟩
  rw [List.append_nil] at happend
  exact hchained.trans happend

end Descent

open Descent in
/-- However a phase goes, it ends behind what the readers read. -/
theorem Performs.arrives {phase : Phase} {d d' : Descent} {e : Expr} (h : Performs phase d e d')
    (hstop : d.feed.stop.kind = .endOfInput) : d.Arrives (d.reads phase) e d' := by
  induction h with
  | @assign d d' name e hname hcolon hdepth _ ih =>
    rw [reads_assign hstop hname hcolon hdepth]
    exact ((ih hstop).ofEnter.ofAdvance.ofAdvance.map (.assign name)).skipNewline hstop
  | @assignTooDeep d name hname hcolon hdepth =>
    rw [reads_assignTooDeep hstop hname hcolon hdepth]
    exact .tooDeep (d.ahead_eq hstop (by simp [hname])) (by simp [hname]) (by simp [hname])
  | expression hnone _ ih =>
    rw [reads_expression hstop hnone]
    exact ih hstop
  | @operands d d₁ d' level left e _ _ ihl ihc =>
    -- the chain begins where the left operand has ended
    have hleft := ihl hstop
    have hmore := ihc (hleft.stop ▸ hstop)
    rw [reads_operands, ← hleft.reads, ← hleft.value]
    exact hleft.andThen hmore
  | @link d d₁ d' level left right e hop _ _ ihr ihc =>
    have hright := (ihr hstop).ofAdvance
    have hmore := ihc (hright.stop ▸ hstop)
    rw [reads_link hstop hop, ← hright.reads, ← hright.value]
    exact hright.andThen hmore
  | @done d level left hop =>
    rw [reads_done hop]
    exact ⟨List.suffix_rfl, rfl, by simp [Cursor.after, Cursor.moveTo_ahead], rfl⟩
  | minus hm hdepth _ ih =>
    rw [reads_minus hstop hm hdepth]
    exact (ih hstop).ofEnter.ofAdvance.map _
  | @minusTooDeep d hm hdepth =>
    rw [reads_minusTooDeep hstop hm hdepth]
    exact .tooDeep (d.ahead_eq hstop (by simp [hm])) (by simp [hm]) (by simp [hm])
  | primary hm _ ih =>
    rw [reads_primary hm]
    exact ih hstop
  | @literal d atom ha =>
    rw [reads_literal hstop ha]
    exact (Arrives.advance d (.literal atom)).skipNewline hstop
  | group hp hdepth _ ih =>
    rw [reads_group hstop hp hdepth]
    exact ((ih hstop).ofEnter.ofAdvance.close hstop).skipNewline hstop
  | @groupTooDeep d hp hdepth =>
    rw [reads_groupTooDeep hstop hp hdepth]
    exact .tooDeep (d.ahead_eq hstop (by simp [hp])) (by simp [hp]) (by simp [hp])
  | refuse ha hp =>
    rw [reads_refuse ha hp]
    exact ⟨List.tail_suffix _, rfl, rfl, rfl⟩

theorem Descent.reads_statement {d : Descent} (hdepth : d.depth = 0) :
    d.reads (.layer .statement) = (statement d.feed.stop maxNesting).read d.feed.ahead := by
  rw [reads, nestingsLeft, hdepth]
  rfl

theorem PerformsAll.arrives {tokens : List Token} {d d' : Descent} {es : List Expr}
    (h : PerformsAll d es d') (hd : d.Within tokens) (hdepth : d.depth = 0) :
    (es, d'.toCursor) = d.toCursor.readAll := by
  induction h with
  | newline hn _ ih =>
    rw [Cursor.readAll_of_newline hd.kind_stop hn]
    exact ih ((Descent.Within.kept tokens).advance hd) hdepth
  | finish hend => exact (Cursor.readAll_of_nil (hd.ahead_eq_nil hend)).symm
  | @statement d d₁ d' e es hn hend hfirst _ ih =>
    have harrives := hfirst.arrives hd.kind_stop
    rw [Descent.reads_statement hdepth] at harrives
    have hmore := ih (hfirst.keeps (Descent.Within.kept tokens) hd) (harrives.depth.trans hdepth)
    rw [Cursor.readAll_of_statement hd.kind_stop hn hend, ← harrives.cursor, ← hmore,
      harrives.value]

/-- Statements end at the depth at which they began. -/
theorem PerformsAll.depth_eq {d d' : Descent} {es : List Expr} (h : PerformsAll d es d')
    (hstop : d.feed.stop.kind = .endOfInput) : d'.depth = d.depth := by
  induction h with
  | newline _ _ ih => exact ih hstop
  | finish => rfl
  | statement _ _ hfirst _ ih =>
    have harrives := hfirst.arrives hstop
    exact (ih (harrives.stop ▸ hstop)).trans harrives.depth

/-! ## Every phase ends -/

/-- With a given number of nestings left, a phase gets to an end from every descent. -/
def Ends (left : Nat) (phase : Phase) : Prop :=
  ∀ d : Descent, d.feed.stop.kind = .endOfInput → d.nestingsLeft = left →
    ∃ e d', Performs phase d e d'

namespace Ends

open Descent

theorem chain {left : Nat} {level : Level} (h : Ends left (.layer level.operand)) (e : Expr) :
    Ends left (.chain level e) := by
  intro d hstop hleft
  induction hn : d.feed.ahead.length using Nat.strongRecOn generalizing d e with
  | ind n ih =>
    cases hop : level.accepts d.current with
    | false => exact ⟨e, d, .done hop⟩
    | true =>
      obtain ⟨right, d₁, hright⟩ := h d.advance hstop hleft
      have harrives := (hright.arrives hstop).ofAdvance
      have hshorter : d₁.feed.ahead.length < n := by
        have hrest : d₁.feed.ahead.length ≤ d.feed.ahead.tail.length := by
          rw [harrives.ahead]
          exact (d.advance.reads_suffix (.layer level.operand)).length_le
        rw [← hn, ahead_of_accepts hstop hop, List.length_cons]
        omega
      obtain ⟨e', d', hmore⟩ := ih _ hshorter _ d₁ (harrives.stop ▸ hstop)
        (harrives.nestingsLeft.trans hleft) rfl
      exact ⟨e', d', .link hop hright hmore⟩

theorem binary {left : Nat} {level : Level} (h : Ends left (.layer level.operand)) :
    Ends left (.layer (.binary level)) := by
  intro d hstop hleft
  obtain ⟨e, d₁, hfirst⟩ := h d hstop hleft
  have harrives := hfirst.arrives hstop
  obtain ⟨e', d', hmore⟩ := h.chain e d₁ (harrives.stop ▸ hstop) (harrives.nestingsLeft.trans hleft)
  exact ⟨e', d', .operands hfirst hmore⟩

theorem ofUnary {left : Nat} (h : Ends left (.layer .unary)) (level : Level) :
    Ends left (.layer (.binary level)) :=
  Level.ofUnary (motive := fun layer => Ends left (.layer layer)) h (fun _ => .binary) level

theorem primary {left : Nat} (h : ∀ n, left = n + 1 → Ends n (.layer (.binary .disjunction))) :
    Ends left (.layer .primary) := by
  intro d hstop hleft
  by_cases ha : ∃ atom : Atom, d.current.kind = atom.kind
  · obtain ⟨atom, ha⟩ := ha
    exact ⟨_, _, .literal ha⟩
  by_cases hp : d.current.kind = .openParen
  · by_cases hdepth : d.depth < maxNesting
    · have hinside := h d.enter.nestingsLeft (hleft ▸ nestingsLeft_of_lt hdepth)
      obtain ⟨e, d', hgroup⟩ := hinside d.advance.enter hstop rfl
      exact ⟨_, _, .group hp hdepth hgroup⟩
    · exact ⟨_, _, .groupTooDeep hp (Nat.le_of_not_lt hdepth)⟩
  · exact ⟨_, _, .refuse (not_exists.1 ha) hp⟩

theorem unary (left : Nat) : Ends left (.layer .unary) := by
  -- signs and groups each take a nesting, so the induction is on the nestings left
  induction left using Nat.strongRecOn with
  | ind left ih =>
    intro d hstop hleft
    by_cases hm : d.current.kind = .operator .minus
    · by_cases hdepth : d.depth < maxNesting
      · have hsmaller : d.enter.nestingsLeft < left := hleft ▸ nestingsLeft_enter_lt hdepth
        obtain ⟨e, d', hoperand⟩ := ih _ hsmaller d.advance.enter hstop rfl
        exact ⟨_, _, .minus hm hdepth hoperand⟩
      · exact ⟨_, _, .minusTooDeep hm (Nat.le_of_not_lt hdepth)⟩
    · have hprimary : Ends left (.layer .primary) := by
        apply Ends.primary
        rintro n rfl
        exact (ih n n.lt_succ_self).ofUnary .disjunction
      obtain ⟨e, d', h⟩ := hprimary d hstop hleft
      exact ⟨e, d', .primary hm h⟩

theorem statement (left : Nat) : Ends left (.layer .statement) := by
  induction left using Nat.strongRecOn with
  | ind left ih =>
    intro d hstop hleft
    by_cases hbegins : (∃ name, d.current.kind = .identifier name) ∧ (d.peek 1).kind = .colon
    · obtain ⟨⟨name, hname⟩, hcolon⟩ := hbegins
      by_cases hdepth : d.depth < maxNesting
      · have hsmaller : d.enter.nestingsLeft < left := hleft ▸ nestingsLeft_enter_lt hdepth
        obtain ⟨e, d', hvalue⟩ := ih _ hsmaller d.advance.advance.enter hstop rfl
        exact ⟨_, _, .assign hname hcolon hdepth hvalue⟩
      · exact ⟨_, _, .assignTooDeep hname hcolon (Nat.le_of_not_lt hdepth)⟩
    · obtain ⟨e, d', h⟩ := (Ends.unary left).ofUnary .disjunction d hstop hleft
      exact ⟨e, d', .expression hbegins h⟩

end Ends

/-- From every descent every phase gets to an end, at any depth. -/
theorem exists_performs (phase : Phase) {d : Descent} (hstop : d.feed.stop.kind = .endOfInput) :
    ∃ e d', Performs phase d e d' := by
  have hlayer : ∀ layer, Ends d.nestingsLeft (.layer layer) := by
    intro layer
    have hunary := Ends.unary d.nestingsLeft
    cases layer with
    | statement => exact .statement _
    | binary level => exact hunary.ofUnary level
    | unary => exact hunary
    | primary => exact .primary fun n _ => (Ends.unary n).ofUnary .disjunction
  cases phase with
  | layer layer => exact hlayer layer d hstop rfl
  | chain level e => exact (hlayer level.operand).chain e d hstop rfl

theorem exists_performsAll {tokens : List Token} {d : Descent} (hd : d.Within tokens) :
    ∃ es d', PerformsAll d es d' := by
  induction hn : d.feed.ahead.length using Nat.strongRecOn generalizing d with
  | ind n ih =>
    by_cases hend : d.current.kind = .endOfInput
    · exact ⟨[], d, .finish hend⟩
    have hlength : d.feed.ahead.length = d.feed.ahead.tail.length + 1 := by
      rw [d.ahead_eq hd.kind_stop hend]
      rfl
    by_cases hnewline : d.current.kind = .newline
    · obtain ⟨es, d', h⟩ := ih d.feed.ahead.tail.length (by omega)
        ((Descent.Within.kept tokens).advance hd) rfl
      exact ⟨es, d', .newline hnewline h⟩
    · obtain ⟨e, d₁, hfirst⟩ := exists_performs (.layer .statement) hd.kind_stop
      have hshorter : d₁.feed.ahead.length ≤ d.feed.ahead.tail.length := by
        rw [(hfirst.arrives hd.kind_stop).ahead]
        exact (Reader.advances _ _).length_le
      obtain ⟨es, d', h⟩ := ih d₁.feed.ahead.length (by omega)
        (hfirst.keeps (Descent.Within.kept tokens) hd) rfl
      exact ⟨e :: es, d', .statement hnewline hend hfirst h⟩

end Scratchpad
