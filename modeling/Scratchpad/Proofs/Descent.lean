import Scratchpad.Proofs.Cursors

/-! Reading by descent, step by step. A descent keeps its place among the tokens, the depth at which
it stands, and what it has found wrong, and where. Each rule says which tokens a step takes and at
which depth it reads the parts. -/
namespace Scratchpad

/-- A cursor, the number of groups, signs and assignments that are open at it, and for each fault
the place at which it was found. -/
structure Descent extends Cursor where
  depth : Nat
  places : List Nat

namespace Descent

def ofTokens (tokens : List Token) : Descent := ⟨.ofTokens tokens, 0, []⟩

def nestingsLeft (d : Descent) : Nat := maxNesting - d.depth

def advance (d : Descent) : Descent := { d with toCursor := d.toCursor.advance }

def skipNewline (d : Descent) : Descent := { d with toCursor := d.toCursor.skipNewline }

def note (d : Descent) (fault : Fault) : Descent where
  toCursor := { d.toCursor with faults := d.faults ++ [⟨fault, some d.current⟩] }
  depth := d.depth
  places := d.places ++ [d.position]

def close (d : Descent) : Descent :=
  if d.current.kind = .closeParen then d.advance else d.note .expectedClosing

def skip (d : Descent) : Descent :=
  { d with toCursor := d.moveTo (skipNested 0 d.feed.ahead) }

def enter (d : Descent) : Descent := { d with depth := d.depth + 1 }

def leave (d : Descent) : Descent := { d with depth := d.depth - 1 }

end Descent

/-- What is to be read: a layer, or the chain of a level behind its left operand. -/
inductive Phase where
  | layer (layer : Layer)
  | chain (level : Level) (left : Expr)

open Descent in
/-- How each phase goes: at a descent, it builds an expression and ends at another descent. -/
inductive Performs : Phase → Descent → Expr → Descent → Prop where
  | assign {d d' : Descent} {name : String} {e : Expr} :
    d.current.kind = .identifier name → (d.peek 1).kind = .colon → d.depth < maxNesting →
    Performs (.layer .statement) d.advance.advance.enter e d' →
    Performs (.layer .statement) d (.assign name e) d'.leave.skipNewline
  | assignTooDeep {d : Descent} {name : String} :
    d.current.kind = .identifier name → (d.peek 1).kind = .colon → maxNesting ≤ d.depth →
    Performs (.layer .statement) d (.invalid d.current .tooDeep) (d.note .tooDeep).skip
  | expression {d d' : Descent} {e : Expr} :
    ¬ ((∃ name, d.current.kind = .identifier name) ∧ (d.peek 1).kind = .colon) →
    Performs (.layer (.binary .disjunction)) d e d' → Performs (.layer .statement) d e d'
  | operands {d d₁ d' : Descent} {level : Level} {left e : Expr} :
    Performs (.layer level.operand) d left d₁ → Performs (.chain level left) d₁ e d' →
    Performs (.layer (.binary level)) d e d'
  | link {d d₁ d' : Descent} {level : Level} {left right e : Expr} :
    level.accepts d.current = true → Performs (.layer level.operand) d.advance right d₁ →
    Performs (.chain level (level.join left d.current right)) d₁ e d' →
    Performs (.chain level left) d e d'
  | done {d : Descent} {level : Level} {left : Expr} :
    level.accepts d.current = false → Performs (.chain level left) d left d
  | minus {d d' : Descent} {e : Expr} :
    d.current.kind = .operator .minus → d.depth < maxNesting →
    Performs (.layer .unary) d.advance.enter e d' →
    Performs (.layer .unary) d (.unary d.current e) d'.leave
  | minusTooDeep {d : Descent} :
    d.current.kind = .operator .minus → maxNesting ≤ d.depth →
    Performs (.layer .unary) d (.invalid d.current .tooDeep) (d.note .tooDeep).skip
  | primary {d d' : Descent} {e : Expr} :
    d.current.kind ≠ .operator .minus → Performs (.layer .primary) d e d' →
    Performs (.layer .unary) d e d'
  | literal {d : Descent} {atom : Atom} :
    d.current.kind = atom.kind →
    Performs (.layer .primary) d (.literal atom) d.advance.skipNewline
  | group {d d' : Descent} {e : Expr} :
    d.current.kind = .openParen → d.depth < maxNesting →
    Performs (.layer (.binary .disjunction)) d.advance.enter e d' →
    Performs (.layer .primary) d (.group e) d'.leave.close.skipNewline
  | groupTooDeep {d : Descent} :
    d.current.kind = .openParen → maxNesting ≤ d.depth →
    Performs (.layer .primary) d (.invalid d.current .tooDeep) (d.note .tooDeep).skip
  | refuse {d : Descent} :
    (∀ atom : Atom, d.current.kind ≠ atom.kind) → d.current.kind ≠ .openParen →
    Performs (.layer .primary) d (.invalid d.current .expectedExpression)
      (d.note .expectedExpression).advance

inductive PerformsAll : Descent → List Expr → Descent → Prop where
  | newline {d d' : Descent} {es : List Expr} :
    d.current.kind = .newline → PerformsAll d.advance es d' → PerformsAll d es d'
  | finish {d : Descent} : d.current.kind = .endOfInput → PerformsAll d [] d
  | statement {d d₁ d' : Descent} {e : Expr} {es : List Expr} :
    d.current.kind ≠ .newline → d.current.kind ≠ .endOfInput →
    Performs (.layer .statement) d e d₁ → PerformsAll d₁ es d' → PerformsAll d (e :: es) d'

/-! ## What descents keep -/

/-- A property of descents that every single move keeps. -/
structure Kept (P : Descent → Prop) : Prop where
  advance {d : Descent} : P d → P d.advance
  note {d : Descent} (fault : Fault) : P d → P (d.note fault)
  skip {d : Descent} : P d → P d.skip
  enter {d : Descent} : P d → P d.enter
  leave {d : Descent} : P d → P d.leave

namespace Kept

variable {P : Descent → Prop} {d : Descent}

theorem skipNewline (hP : Kept P) (h : P d) : P d.skipNewline := by
  rw [Descent.skipNewline, Cursor.skipNewline, Cursor.accept]
  split
  · exact hP.advance h
  · exact h

theorem close (hP : Kept P) (h : P d) : P d.close := by
  rw [Descent.close]
  split
  · exact hP.advance h
  · exact hP.note .expectedClosing h

end Kept

/-- What every move keeps, every phase keeps. -/
theorem Performs.keeps {P : Descent → Prop} (hP : Kept P) {phase : Phase} {d d' : Descent}
    {e : Expr} (h : Performs phase d e d') (hd : P d) : P d' := by
  induction h with
  | assign _ _ _ _ ih =>
    have hvalue := ih (hP.enter (hP.advance (hP.advance hd)))
    exact hP.skipNewline (hP.leave hvalue)
  | assignTooDeep | minusTooDeep | groupTooDeep => exact hP.skip (hP.note .tooDeep hd)
  | expression _ _ ih | primary _ _ ih => exact ih hd
  | operands _ _ ihl ihc => exact ihc (ihl hd)
  | link _ _ _ ihr ihc => exact ihc (ihr (hP.advance hd))
  | done => exact hd
  | minus _ _ _ ih => exact hP.leave (ih (hP.enter (hP.advance hd)))
  | literal => exact hP.skipNewline (hP.advance hd)
  | group _ _ _ ih =>
    have hinside := ih (hP.enter (hP.advance hd))
    exact hP.skipNewline (hP.close (hP.leave hinside))
  | refuse => exact hP.advance (hP.note .expectedExpression hd)

theorem PerformsAll.keeps {P : Descent → Prop} (hP : Kept P) {d d' : Descent} {es : List Expr}
    (h : PerformsAll d es d') (hd : P d) : P d' := by
  induction h with
  | newline _ _ ih => exact ih (hP.advance hd)
  | finish => exact hd
  | statement _ _ hfirst _ ih => exact ih (hfirst.keeps hP hd)

theorem PerformsAll.current_eq {d d' : Descent} {es : List Expr} (h : PerformsAll d es d') :
    d'.current.kind = .endOfInput := by
  induction h with
  | newline _ _ ih => exact ih
  | finish hend => exact hend
  | statement _ _ _ _ ih => exact ih

namespace Descent

/-- What has been taken and what is ahead are the tokens in front of the first end of input. -/
structure Within (tokens : List Token) (d : Descent) : Prop where
  ahead : d.taken ++ d.feed.ahead = (feed tokens).ahead
  stop : d.feed.stop = (feed tokens).stop
  beyond : d.feed.beyond = (feed tokens).beyond

theorem within_ofTokens (tokens : List Token) : (ofTokens tokens).Within tokens := ⟨rfl, rfl, rfl⟩

namespace Within

variable {tokens rest : List Token} {d : Descent}

theorem moveTo (h : d.Within tokens) (hrest : rest <:+ d.feed.ahead) :
    Within tokens { d with toCursor := d.toCursor.moveTo rest } where
  ahead := by
    obtain ⟨used, hused⟩ := hrest
    rw [Cursor.moveTo_of_append hused.symm, ← h.ahead, ← hused]
    exact List.append_assoc ..
  stop := h.stop
  beyond := h.beyond

theorem kept (tokens : List Token) : Kept (Within tokens) where
  advance h := h.moveTo (List.tail_suffix _)
  note _ h := ⟨h.ahead, h.stop, h.beyond⟩
  skip h := h.moveTo (skipNested_suffix 0 _)
  enter h := ⟨h.ahead, h.stop, h.beyond⟩
  leave h := ⟨h.ahead, h.stop, h.beyond⟩

theorem kind_stop (h : d.Within tokens) : d.feed.stop.kind = .endOfInput :=
  h.stop ▸ kind_stop_feed tokens

theorem getElem?_position (h : d.Within tokens) :
    (withEnd tokens)[d.position]? = some d.current := by
  rw [← feed_eq_withEnd, ← h.ahead, ← h.stop, List.append_assoc, Cursor.position,
    List.getElem?_append_right (Nat.le_refl _), Nat.sub_self, Cursor.current]
  cases d.feed.ahead <;> rfl

theorem ahead_eq_nil (h : d.Within tokens) (hend : d.current.kind = .endOfInput) :
    d.feed.ahead = [] := by
  cases hahead : d.feed.ahead with
  | nil => rfl
  | cons t ts =>
    have hmem : t ∈ (feed tokens).ahead := by simp [← h.ahead, hahead]
    rw [d.current_of_cons hahead] at hend
    simpa [Token.isEnd, hend] using isEnd_of_mem_ahead hmem

theorem position_le (h : d.Within tokens) : d.position ≤ (feed tokens).ahead.length := by
  rw [← h.ahead, List.length_append]
  exact Nat.le_add_right ..

end Within

end Descent

end Scratchpad
