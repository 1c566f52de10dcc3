import Scratchpad.Proofs.Reading

/-! Which tokens may follow which, apart from the expressions they build. A place remembers how many
parentheses are open and whether the line has ended behind the last operand; each token leads from
one place to the next. Every derivation keeps to these moves, and a reader that keeps to them finds
no fault unless something nests too deep: taking all that can be taken never leads astray. -/
namespace Scratchpad

/-- `start` stands where a statement may begin or the text may end, `value` where a statement has to
follow, `name` behind a name that may be assigned to, `operand` where an operand has to follow, and
`behind` behind an operand. -/
inductive Place where
  | start
  | value
  | name
  | operand (opened : Nat)
  | behind (opened : Nat) (ended : Bool)
  deriving DecidableEq

namespace Place

def beginOperand (opened : Nat) : Kind → Option Place
  | .identifier _ | .number _ | .boolean _ => some (.behind opened false)
  | .operator .minus => some (.operand opened)
  | .openParen => some (.operand (opened + 1))
  | _ => none

def beginStatement : Kind → Option Place
  | .identifier _ => some .name
  | k => beginOperand 0 k

/-- Behind an operand a newline ends the line, once; a further one ends the statement. -/
def goOn (opened : Nat) (ended : Bool) : Kind → Option Place
  | .operator _ => some (.operand opened)
  | .closeParen => if opened = 0 then none else some (.behind (opened - 1) false)
  | .newline =>
    if ended then if opened = 0 then some .start else none else some (.behind opened true)
  | k => if opened = 0 then beginStatement k else none

def next : Place → Kind → Option Place
  | .start, .newline => some .start
  | .start, k => beginStatement k
  | .value, k => beginStatement k
  | .name, .colon => some .value
  | .name, k => goOn 0 false k
  | .operand opened, k => beginOperand opened k
  | .behind opened ended, k => goOn opened ended k

def isFinal : Place → Bool
  | .start | .name | .behind 0 _ => true
  | _ => false

def before : Layer → Nat → Place
  | .statement, _ => .value
  | _, opened => .operand opened

def after : Layer → Nat → Place
  | .statement, _ => .start
  | _, opened => .behind opened true

@[simp] theorem before_operand (level : Level) (opened : Nat) :
    before level.operand opened = .operand opened := by cases level <;> rfl

@[simp] theorem after_operand (level : Level) (opened : Nat) :
    after level.operand opened = .behind opened true := by cases level <;> rfl

theorem beginOperand_eq_none {opened : Nat} {k : Kind} (ha : ∀ atom : Atom, k ≠ atom.kind)
    (hp : k ≠ .openParen) (hm : k ≠ .operator .minus) : beginOperand opened k = none := by
  cases k with
  | identifier n => exact absurd rfl (ha (.name n))
  | number x => exact absurd rfl (ha (.number x))
  | boolean b => exact absurd rfl (ha (.boolean b))
  | operator op => cases op <;> simp_all [beginOperand]
  | _ => simp_all [beginOperand]

theorem goOn_of_beginStatement {k : Kind} {place : Place} (ended : Bool)
    (h : beginStatement k = some place) : goOn 0 ended k = some place := by
  cases k with
  | operator op => cases op <;> simp_all [beginStatement, beginOperand, goOn]
  | _ => simp_all [beginStatement, beginOperand, goOn]

theorem beginStatement_of_goOn {k : Kind} {place : Place} {ended : Bool}
    (ho : ∀ op, k ≠ .operator op) (hn : k ≠ .newline) (h : goOn 0 ended k = some place) :
    beginStatement k = some place := by
  cases k <;> simp_all [goOn]

theorem goOn_true_of_ne_newline {k : Kind} (opened : Nat) (hn : k ≠ .newline) :
    goOn opened true k = goOn opened false k := by
  cases k <;> simp_all [goOn]

theorem next_start {k : Kind} (hn : k ≠ .newline) : start.next k = beginStatement k := by
  cases k <;> simp_all [next]

theorem next_name {k : Kind} (hc : k ≠ .colon) : name.next k = goOn 0 false k := by
  cases k <;> simp_all [next]

theorem next_endOfInput (place : Place) : place.next .endOfInput = none := by
  cases place <;> simp [next, goOn, beginStatement, beginOperand]

end Place

/-- Tokens that lead from a place to the end of a text. -/
def Viable (place : Place) : List Token → Prop
  | [] => place.isFinal = true
  | t :: ts => ∃ next, place.next t.kind = some next ∧ Viable next ts

namespace Viable
open Place

variable {t : Token} {ts : List Token} {opened : Nat}

theorem isEnd_eq_false {place : Place} (h : Viable place ts) : ∀ t ∈ ts, t.isEnd = false := by
  induction ts generalizing place with
  | nil => simp
  | cons t ts ih =>
    obtain ⟨next, hnext, hrest⟩ := h
    intro u hu
    rcases List.mem_cons.1 hu with rfl | hu
    · cases hend : u.isEnd with
      | false => rfl
      | true =>
        have hkind : u.kind = .endOfInput := by simpa [Token.isEnd] using hend
        rw [hkind, next_endOfInput] at hnext
        cases hnext
    · exact ih hrest u hu

/-! ## Moves -/

theorem cons_iff {place next : Place} (h : place.next t.kind = some next) :
    Viable place (t :: ts) ↔ Viable next ts := by
  simp [Viable, h]

theorem start_newline_iff (ht : t.kind = .newline) :
    Viable .start (t :: ts) ↔ Viable .start ts := by
  apply cons_iff
  rw [ht]
  rfl

theorem assignment_iff {colon : Token} {name : String} (ht : t.kind = .identifier name)
    (hc : colon.kind = .colon) : Viable .value (t :: colon :: ts) ↔ Viable .value ts := by
  have hname : Place.value.next t.kind = some .name := by rw [ht]; rfl
  have hvalue : Place.name.next colon.kind = some .value := by rw [hc]; rfl
  rw [cons_iff hname, cons_iff hvalue]

theorem literal_iff {atom : Atom} (ht : t.kind = atom.kind) :
    Viable (.operand opened) (t :: ts) ↔ Viable (.behind opened false) ts := by
  apply cons_iff
  rw [ht]
  cases atom <;> rfl

theorem minus_iff (ht : t.kind = .operator .minus) :
    Viable (.operand opened) (t :: ts) ↔ Viable (.operand opened) ts := by
  apply cons_iff
  rw [ht]
  rfl

theorem openParen_iff (ht : t.kind = .openParen) :
    Viable (.operand opened) (t :: ts) ↔ Viable (.operand (opened + 1)) ts := by
  apply cons_iff
  rw [ht]
  rfl

theorem operator_iff {op : Operator} (ht : t.kind = .operator op) :
    Viable (.behind opened true) (t :: ts) ↔ Viable (.operand opened) ts := by
  apply cons_iff
  rw [ht]
  rfl

theorem closeParen_iff (ht : t.kind = .closeParen) :
    Viable (.behind (opened + 1) true) (t :: ts) ↔ Viable (.behind opened false) ts := by
  apply cons_iff
  rw [ht]
  rfl

theorem newline_iff (ht : t.kind = .newline) :
    Viable (.behind opened false) (t :: ts) ↔ Viable (.behind opened true) ts := by
  apply cons_iff
  rw [ht]
  rfl

/-- Where a parenthesis is open and the line has ended, only an operator or the parenthesis that
closes it may follow an operand. -/
theorem closeParen_of_clear (hclear : Clear Level.all ts)
    (h : Viable (.behind (opened + 1) true) ts) :
    ∃ closing rest, ts = closing :: rest ∧ closing.kind = .closeParen := by
  cases ts with
  | nil => simp [Viable, isFinal] at h
  | cons t ts =>
    obtain ⟨place, hnext, -⟩ := h
    have hop := not_operator_of_clear hclear
    refine ⟨t, ts, rfl, ?_⟩
    cases hk : t.kind <;> simp_all [next, goOn]

/-! ## What may follow at one place may follow at another -/

theorem behind_of_start (h : Viable .start ts) : Viable (.behind 0 true) ts := by
  cases ts with
  | nil => rfl
  | cons t ts =>
    obtain ⟨place, hnext, hplace⟩ := h
    refine ⟨place, ?_, hplace⟩
    by_cases hn : t.kind = .newline
    · simpa [hn, next, goOn] using hnext
    · rw [next_start hn] at hnext
      exact goOn_of_beginStatement true hnext

theorem of_ended (h : Viable (.behind opened true) ts) : Viable (.behind opened false) ts := by
  cases ts with
  | nil => cases opened <;> simp_all [Viable, isFinal]
  | cons t ts =>
    obtain ⟨place, hnext, hplace⟩ := h
    by_cases hn : t.kind = .newline
    · rw [newline_iff hn]
      cases opened with
      | zero =>
        obtain rfl : start = place := by simpa [hn, next, goOn] using hnext
        exact behind_of_start hplace
      | succ opened => simp [hn, next, goOn] at hnext
    · refine ⟨place, ?_, hplace⟩
      simp only [next] at hnext ⊢
      rw [← goOn_true_of_ne_newline opened hn]
      exact hnext

theorem name_of_behind (h : Viable (.behind 0 false) ts) : Viable .name ts := by
  cases ts with
  | nil => rfl
  | cons t ts =>
    obtain ⟨place, hnext, hplace⟩ := h
    by_cases hc : t.kind = .colon
    · simp [hc, next, goOn, beginStatement, beginOperand] at hnext
    · refine ⟨place, ?_, hplace⟩
      rw [next_name hc]
      exact hnext

theorem value_of_operand (h : Viable (.operand 0) ts) : Viable .value ts := by
  cases ts with
  | nil => simp [Viable, isFinal] at h
  | cons t ts =>
    obtain ⟨place, hnext, hplace⟩ := h
    cases hk : t.kind with
    | identifier n =>
      rw [hk] at hnext
      obtain rfl : Place.behind 0 false = place := by simpa [next, beginOperand] using hnext
      exact ⟨.name, by simp [hk, next, beginStatement], name_of_behind hplace⟩
    | _ =>
      refine ⟨place, ?_, hplace⟩
      simp_all [next, beginStatement]

theorem start_of_value (h : Viable .value ts) : Viable .start ts := by
  cases ts with
  | nil => simp [Viable, isFinal] at h
  | cons t ts =>
    obtain ⟨place, hnext, hplace⟩ := h
    refine ⟨place, ?_, hplace⟩
    by_cases hn : t.kind = .newline
    · simp [hn, next, beginStatement, beginOperand] at hnext
    · rw [next_start hn]
      exact hnext

theorem value_of_start (hn : t.kind ≠ .newline) (h : Viable .start (t :: ts)) :
    Viable .value (t :: ts) := by
  obtain ⟨place, hnext, hplace⟩ := h
  rw [next_start hn] at hnext
  exact ⟨place, hnext, hplace⟩

theorem operand_of_value (hb : ¬ BeginsAssignment ts) (h : Viable .value ts) :
    Viable (.operand 0) ts := by
  cases ts with
  | nil => simp [Viable, isFinal] at h
  | cons t ts =>
    obtain ⟨place, hnext, hplace⟩ := h
    cases hk : t.kind with
    | identifier n =>
      rw [hk] at hnext
      obtain rfl : Place.name = place := by simpa [next, beginStatement] using hnext
      refine ⟨.behind 0 false, by simp [hk, next, beginOperand], ?_⟩
      cases ts with
      | nil => rfl
      | cons colon ts =>
        obtain ⟨place, hnext, hplace⟩ := hplace
        have hc : colon.kind ≠ .colon := fun hc => hb ⟨⟨n, hk⟩, hc⟩
        rw [next_name hc] at hnext
        exact ⟨place, hnext, hplace⟩
    | _ =>
      refine ⟨place, ?_, hplace⟩
      simp_all [next, beginStatement]

theorem start_of_behind (hclear : Clear Level.all ts) (h : Viable (.behind 0 true) ts) :
    Viable .start ts := by
  cases ts with
  | nil => rfl
  | cons t ts =>
    obtain ⟨place, hnext, hplace⟩ := h
    refine ⟨place, ?_, hplace⟩
    by_cases hn : t.kind = .newline
    · simpa [hn, next, goOn] using hnext
    · rw [next_start hn]
      exact beginStatement_of_goOn (not_operator_of_clear hclear) hn hnext

/-! ## Newlines -/

theorem lineEnd_append {ending : List Token} (he : LineEnd ending)
    (h : Viable (.behind opened true) ts) : Viable (.behind opened false) (ending ++ ts) := by
  cases he with
  | none => exact of_ended h
  | newline hn => exact (newline_iff hn).2 h

theorem lineEnd_append_start {ending : List Token} (he : LineEnd ending)
    (h : Viable .start ts) : Viable .start (ending ++ ts) := by
  cases he with
  | none => exact h
  | newline hn => exact (start_newline_iff hn).2 h

theorem skipNewline_behind (h : Viable (.behind opened false) ts) :
    Viable (.behind opened true) (skipNewline ts) := by
  cases ts with
  | nil => cases opened <;> simp_all [Viable, isFinal, skipNewline]
  | cons t ts =>
    by_cases hn : t.kind = .newline
    · rw [newline_iff hn] at h
      simpa [skipNewline, hn] using h
    · obtain ⟨place, hnext, hplace⟩ := h
      rw [skipNewline_of_ne ts hn]
      refine ⟨place, ?_, hplace⟩
      simp only [next] at hnext ⊢
      rw [goOn_true_of_ne_newline opened hn]
      exact hnext

theorem skipNewline_start (h : Viable .start ts) : Viable .start (skipNewline ts) := by
  cases ts with
  | nil => exact h
  | cons t ts =>
    by_cases hn : t.kind = .newline
    · rw [start_newline_iff hn] at h
      simpa [skipNewline, hn] using h
    · rwa [skipNewline_of_ne ts hn]

end Viable
end Scratchpad
