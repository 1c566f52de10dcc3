import Scratchpad.Proofs.Acceptance

/-! Reading keeps every token. Whatever is wrong with the tokens, apart from newlines each of them
has its place in what is read, once and in order; only closing parentheses that were missing are
made up, one for each diagnostic that says so. -/
namespace Scratchpad

def withoutNewlines (ts : List Token) : List Token := ts.filter fun t => t.kind ≠ .newline

@[simp] theorem withoutNewlines_append (ts us : List Token) :
    withoutNewlines (ts ++ us) = withoutNewlines ts ++ withoutNewlines us := List.filter_append ..

theorem withoutNewlines_cons {t : Token} (ts : List Token) (h : t.kind ≠ .newline) :
    withoutNewlines (t :: ts) = t :: withoutNewlines ts := by
  simp [withoutNewlines, h]

theorem withoutNewlines_newline {t : Token} (ts : List Token) (h : t.kind = .newline) :
    withoutNewlines (t :: ts) = withoutNewlines ts := by
  simp [withoutNewlines, h]

theorem withoutNewlines_eq_self {ts : List Token} (h : ∀ t ∈ ts, t.kind ≠ .newline) :
    withoutNewlines ts = ts := by
  simpa [withoutNewlines, List.filter_eq_self] using h

@[simp] theorem withoutNewlines_lineEnd {ending : List Token} (h : LineEnd ending) :
    withoutNewlines ending = [] := by
  cases h with
  | none => rfl
  | newline ht => rw [withoutNewlines_newline _ ht]; rfl

/-- The number of closing parentheses that diagnostics miss. -/
def missingClosings (faults : List Diagnostic) : Nat :=
  faults.countP fun d => d.fault = .expectedClosing

@[simp] theorem missingClosings_append (a b : List Diagnostic) :
    missingClosings (a ++ b) = missingClosings a + missingClosings b := List.countP_append

/-- The tokens that an expression stands for, in order and without newlines, among those of a
source. The number is that of the groups in it which are not closed. What nests too deep stands for
a span of the source within one line, of which only the first token is kept. -/
inductive Yields (source : List Token) : Expr → Nat → List Token → Prop where
  | literal {t : Token} {atom : Atom} :
    t.kind = atom.kind → Yields source (.literal atom) 0 [t]
  | unary {op : Token} {e : Expr} {n : Nat} {ts : List Token} :
    Yields source e n ts → Yields source (.unary op e) n (op :: ts)
  | binary {a b : Expr} {op : Token} {m n : Nat} {ts us : List Token} :
    Yields source a m ts → Yields source b n us →
    Yields source (.binary a op b) (m + n) (ts ++ op :: us)
  | logical {a b : Expr} {op : Token} {m n : Nat} {ts us : List Token} :
    Yields source a m ts → Yields source b n us →
    Yields source (.logical a op b) (m + n) (ts ++ op :: us)
  | assign {t colon : Token} {name : String} {e : Expr} {n : Nat} {ts : List Token} :
    t.kind = .identifier name → colon.kind = .colon → Yields source e n ts →
    Yields source (.assign name e) n (t :: colon :: ts)
  | group {opening closing : Token} {e : Expr} {n : Nat} {ts : List Token} :
    opening.kind = .openParen → Yields source e n ts → closing.kind = .closeParen →
    Yields source (.group e) n (opening :: ts ++ [closing])
  | unclosed {opening : Token} {e : Expr} {n : Nat} {ts : List Token} :
    opening.kind = .openParen → Yields source e n ts →
    Yields source (.group e) (n + 1) (opening :: ts)
  | refused {t : Token} :
    t.kind ≠ .newline → t.kind ≠ .endOfInput →
    Yields source (.invalid t .expectedExpression) 0 [t]
  | refusedLineEnd {t : Token} :
    t.kind = .newline ∨ t.kind = .endOfInput →
    Yields source (.invalid t .expectedExpression) 0 []
  | tooDeep {t : Token} {span : List Token} :
    t :: span <:+: source → (∀ s ∈ t :: span, s.kind ≠ .newline) →
    Yields source (.invalid t .tooDeep) 0 (t :: span)

inductive YieldsAll (source : List Token) : List Expr → Nat → List Token → Prop where
  | nil : YieldsAll source [] 0 []
  | cons {e : Expr} {es : List Expr} {m n : Nat} {ts us : List Token} :
    Yields source e m ts → YieldsAll source es n us →
    YieldsAll source (e :: es) (m + n) (ts ++ us)

theorem exists_skipped (depth : Nat) (ts : List Token) :
    ∃ span, ts = span ++ skipNested depth ts ∧ ∀ t ∈ span, t.kind ≠ .newline := by
  fun_induction skipNested depth ts with
  | case1 => exact ⟨[], rfl, by simp⟩
  | case2 => exact ⟨[], rfl, by simp⟩
  | case3 => exact ⟨[], rfl, by simp⟩
  | case4 t ts depth hk ih =>
    obtain ⟨span, hspan, hline⟩ := ih
    exact ⟨t :: span, congrArg (t :: ·) hspan, by simpa [hk] using hline⟩
  | case5 t ts depth hk ih =>
    obtain ⟨span, hspan, hline⟩ := ih
    exact ⟨t :: span, congrArg (t :: ·) hspan, by simpa [hk] using hline⟩
  | case6 t ts depth hn _ _ _ ih =>
    obtain ⟨span, hspan, hline⟩ := ih
    exact ⟨t :: span, congrArg (t :: ·) hspan, by simpa using ⟨hn, hline⟩⟩

section
variable {stop : Token} {source : List Token}

theorem yields_tooDeep {t : Token} {ts : List Token} (hn : t.kind ≠ .newline)
    (hsource : t :: ts <:+ source) :
    ∃ used, t :: ts = used ++ (Parsed.tooDeep t ts).rest ∧
      Yields source (Parsed.tooDeep t ts).value 0 (withoutNewlines used) := by
  obtain ⟨span, hspan, hline⟩ := exists_skipped (if t.kind = .openParen then 1 else 0) ts
  refine ⟨t :: span, congrArg (t :: ·) hspan, ?_⟩
  have hfree : ∀ s ∈ t :: span, s.kind ≠ .newline := by simpa [hn] using hline
  have hfront : t :: span <+: t :: ts := ⟨_, (congrArg (t :: ·) hspan).symm⟩
  rw [withoutNewlines_eq_self hfree]
  exact .tooDeep (hfront.isInfix.trans hsource.isInfix) hfree

theorem yields_endLine {ts rest : List Token} {e : Expr} {n : Nat}
    (h : ∃ used, ts = used ++ rest ∧ Yields source e n (withoutNewlines used)) :
    ∃ used, ts = used ++ skipNewline rest ∧ Yields source e n (withoutNewlines used) := by
  obtain ⟨used, hused, hy⟩ := h
  obtain ⟨ending, hending, hrest⟩ := exists_lineEnd rest
  refine ⟨used ++ ending, ?_, ?_⟩
  · rw [List.append_assoc, ← hrest]
    exact hused
  · rw [withoutNewlines_append, withoutNewlines_lineEnd hending, List.append_nil]
    exact hy

theorem yields_close {t : Token} {ts : List Token} {p : Parsed} (ht : t.kind = .openParen)
    (h : ∃ used, ts = used ++ p.rest ∧
      Yields source p.value (missingClosings p.faults) (withoutNewlines used)) :
    ∃ used, t :: ts = used ++ (p.close stop).rest ∧
      Yields source (p.close stop).value (missingClosings (p.close stop).faults)
        (withoutNewlines used) := by
  obtain ⟨used, hused, hy⟩ := h
  have hopen : t.kind ≠ .newline := by simp [ht]
  simp only [Parsed.close]
  split
  · next hr =>
    refine ⟨t :: used, by simp [hused, hr], ?_⟩
    rw [withoutNewlines_cons _ hopen, missingClosings_append]
    exact .unclosed ht hy
  · next closing rest hr =>
    split
    · next hclosing =>
      refine ⟨t :: used ++ [closing], by simp [hused, hr], ?_⟩
      have hclose : closing.kind ≠ .newline := by simp [hclosing]
      rw [withoutNewlines_append, withoutNewlines_cons _ hopen, withoutNewlines_cons _ hclose]
      exact .group ht hy hclosing
    · refine ⟨t :: used, by simp [hused, hr], ?_⟩
      rw [withoutNewlines_cons _ hopen, missingClosings_append]
      exact .unclosed ht hy

theorem yields_join {level : Level} {a b : Expr} {op : Token} {m n : Nat} {ts us : List Token}
    (ha : Yields source a m ts) (hb : Yields source b n us) :
    Yields source (level.join a op b) (m + n) (ts ++ op :: us) := by
  apply level.join_cases (motive := fun e => Yields source e (m + n) (ts ++ op :: us))
  · intro _
    exact .logical ha hb
  · intro _
    exact .binary ha hb

/-- What is read stands for the tokens that are taken. -/
theorem Reading.yields {layer : Layer} {depth : Nat} {ts : List Token} {p : Parsed}
    (h : Reading stop layer depth ts p) (hstop : stop.kind = .endOfInput)
    (hsource : ts <:+ source) (hends : ∀ t ∈ source, t.kind ≠ .endOfInput) :
    ∃ used, ts = used ++ p.rest ∧
      Yields source p.value (missingClosings p.faults) (withoutNewlines used) := by
  induction h with
  | assignTooDeep ht | minusTooDeep ht | groupTooDeep ht =>
    exact yields_tooDeep (by simp [ht]) hsource
  | @assign t colon name ts depth p ht hc _ ih =>
    have hrest : ts <:+ source :=
      ((List.suffix_cons colon ts).trans (List.suffix_cons t _)).trans hsource
    obtain ⟨used, hused, hy⟩ := ih hrest
    refine yields_endLine ⟨t :: colon :: used, by simp [hused], ?_⟩
    rw [withoutNewlines_cons _ (by simp [ht]), withoutNewlines_cons _ (by simp [hc])]
    exact .assign ht hc hy
  | expression _ _ _ ih => exact ih hsource
  | @join level ts rest depth left right op _ hleft hop _ ihl ihr =>
    obtain ⟨used, hused, hy⟩ := ihl hsource
    rw [hleft] at hused
    -- the right operand is read where the source goes on behind the operator
    have hrest : rest <:+ source :=
      ((List.suffix_cons op rest).trans ⟨used, hused.symm⟩).trans hsource
    obtain ⟨used', hused', hy'⟩ := ihr hrest
    obtain ⟨o, -, hkind⟩ := hop
    refine ⟨used ++ op :: used', by simp [hused, hused'], ?_⟩
    rw [withoutNewlines_append, withoutNewlines_cons _ (by simp [hkind]), missingClosings_append]
    exact yields_join hy hy'
  | operand _ ih => exact ih hsource
  | @minus t ts depth p ht _ ih =>
    obtain ⟨used, hused, hy⟩ := ih ((List.suffix_cons t ts).trans hsource)
    refine ⟨t :: used, by simp [hused], ?_⟩
    rw [withoutNewlines_cons _ (by simp [ht])]
    exact .unary hy
  | primary _ ih => exact ih hsource
  | @literal t ts depth atom ht =>
    have hn : t.kind ≠ .newline := by cases atom <;> simp [ht, Atom.kind]
    refine yields_endLine ⟨[t], rfl, ?_⟩
    rw [withoutNewlines_cons _ hn]
    exact .literal ht
  | @group t ts depth p ht _ _ ih =>
    exact yields_endLine (yields_close ht (ih ((List.suffix_cons t ts).trans hsource)))
  | @refuse t ts depth _ _ _ =>
    refine ⟨[t], rfl, ?_⟩
    -- a refused newline is among the tokens that do not count
    by_cases hn : t.kind = .newline
    · rw [withoutNewlines_newline _ hn]
      exact .refusedLineEnd (.inl hn)
    · rw [withoutNewlines_cons _ hn]
      exact .refused hn (hends t (hsource.subset List.mem_cons_self))
  | finish => exact ⟨[], rfl, .refusedLineEnd (.inr hstop)⟩

theorem yieldsAll_statements (hstop : stop.kind = .endOfInput) {ts : List Token}
    (hsource : ts <:+ source) (hends : ∀ t ∈ source, t.kind ≠ .endOfInput) :
    YieldsAll source (statements stop ts).statements (missingClosings (statements stop ts).faults)
      (withoutNewlines ts) := by
  fun_induction statements stop ts with
  | case1 => exact .nil
  | case2 t ts hn ih =>
    rw [withoutNewlines_newline ts hn]
    exact ih ((List.suffix_cons t ts).trans hsource)
  | case3 t ts hn first more ih =>
    have hreading := reading_statement stop maxNesting (t :: ts)
    obtain ⟨used, hused, hy⟩ := hreading.yields hstop hsource hends
    have hmore := ih ((((statement stop maxNesting).suffix (t :: ts))).trans hsource)
    rw [hused, withoutNewlines_append, missingClosings_append]
    exact .cons hy hmore

end

/-- Apart from newlines, the tokens up to the first end of input are those that the statements read
from them stand for, in the same order. Closing parentheses are missing where a diagnostic says so,
and nowhere else. -/
theorem parse_yieldsAll (tokens : List Token) :
    YieldsAll (tokens.takeWhile fun t => !t.isEnd) (parse tokens).statements
      (missingClosings (parse tokens).faults)
      (withoutNewlines (tokens.takeWhile fun t => !t.isEnd)) := by
  rw [← ahead_feed]
  have hends : ∀ t ∈ (feed tokens).ahead, t.kind ≠ .endOfInput := by
    intro t ht
    simpa [Token.isEnd] using isEnd_of_mem_ahead ht
  exact yieldsAll_statements (kind_stop_feed tokens) List.suffix_rfl hends

end Scratchpad
