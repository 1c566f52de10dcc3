import Scratchpad.Proofs.Viability

/-! What is read without a fault is what the grammar derives. In one direction each reading without
faults builds a derivation of the tokens it takes; in the other, derived tokens are viable, and a
reading of viable tokens finds no fault unless something nests too deep. -/
namespace Scratchpad

/-! ## Derived tokens are viable -/

theorem Derives.viable {layer : Layer} {e : Expr} {ts : List Token} (h : Derives layer e ts)
    (opened : Nat) {rest : List Token} (hrest : Viable (.after layer opened) rest) :
    Viable (.before layer opened) (ts ++ rest) := by
  induction h generalizing opened rest with
  | @assign t colon name e ts ending ht hc _ hending ih =>
    have hvalue := ih opened (Viable.lineEnd_append_start hending hrest)
    rw [List.append_assoc]
    exact (Viable.assignment_iff ht hc).2 hvalue
  | expression _ ih => exact Viable.value_of_operand (ih 0 (Viable.behind_of_start hrest))
  | logical _ hop _ _ iha ihb | binary _ hop _ _ iha ihb =>
    obtain ⟨o, -, hkind⟩ := hop
    simp only [Place.before_operand, Place.after_operand] at ihb
    rw [List.append_assoc]
    exact iha opened ((Viable.operator_iff hkind).2 (ihb opened hrest))
  | operand _ ih =>
    simp only [Place.before_operand, Place.after_operand] at ih
    exact ih opened hrest
  | unary hop _ ih => exact (Viable.minus_iff hop).2 (ih opened hrest)
  | primary _ ih => exact ih opened hrest
  | literal ht hending => exact (Viable.literal_iff ht).2 (Viable.lineEnd_append hending hrest)
  | group hopening _ hclosing hending ih =>
    have hbehind := (Viable.closeParen_iff hclosing).2 (Viable.lineEnd_append hending hrest)
    rw [List.append_assoc]
    exact (Viable.openParen_iff hopening).2 (ih (opened + 1) hbehind)

theorem DerivesProgram.viable {es : List Expr} {ts : List Token} (h : DerivesProgram es ts) :
    Viable .start ts := by
  induction h with
  | nil => rfl
  | newline hn _ ih => exact (Viable.start_newline_iff hn).2 ih
  | statement hd _ ih => exact Viable.start_of_value (hd.viable 0 ih)

/-! ## Readings of viable tokens -/

section
variable {stop : Token}

/-- A reading of viable tokens takes a viable step, whatever it takes. Only a limit on nesting, not
a wrong choice, can be the first fault. -/
theorem Reading.faultless_or_tooDeep {layer : Layer} {depth : Nat} {ts : List Token} {p : Parsed}
    (h : Reading stop layer depth ts p) (opened : Nat) (hv : Viable (.before layer opened) ts) :
    (∃ d ∈ p.faults, d.fault = .tooDeep) ∨
      p.faults = [] ∧ Viable (.after layer opened) p.rest := by
  induction h generalizing opened with
  | assignTooDeep | minusTooDeep | groupTooDeep => exact .inl ⟨_, List.mem_singleton.2 rfl, rfl⟩
  | assign ht hc _ ih =>
    rcases ih opened ((Viable.assignment_iff ht hc).1 hv) with hdeep | ⟨hfaults, hrest⟩
    · exact .inl hdeep
    · exact .inr ⟨hfaults, Viable.skipNewline_start hrest⟩
  | expression hb _ hclear ih =>
    -- what does not begin an assignment is an operand, read up to where no operator follows
    rcases ih 0 (Viable.operand_of_value hb hv) with hdeep | ⟨hfaults, hrest⟩
    · exact .inl hdeep
    · exact .inr ⟨hfaults, Viable.start_of_behind hclear hrest⟩
  | join _ hleft hop _ ihl ihr =>
    obtain ⟨o, -, hkind⟩ := hop
    simp only [Place.before_operand, Place.after_operand] at ihr
    rcases ihl opened hv with ⟨d, hd, hdeep⟩ | ⟨hfaults, hrest⟩
    · exact .inl ⟨d, List.mem_append_left _ hd, hdeep⟩
    rw [hleft] at hrest
    rcases ihr opened ((Viable.operator_iff hkind).1 hrest) with ⟨d, hd, hdeep⟩ | ⟨hfaults', hrest'⟩
    · exact .inl ⟨d, List.mem_append_right _ hd, hdeep⟩
    · exact .inr ⟨by simp [hfaults, hfaults'], hrest'⟩
  | operand _ ih =>
    simp only [Place.before_operand, Place.after_operand] at ih
    exact ih opened hv
  | minus ht _ ih => exact ih opened ((Viable.minus_iff ht).1 hv)
  | primary _ ih => exact ih opened hv
  | literal ht => exact .inr ⟨rfl, Viable.skipNewline_behind ((Viable.literal_iff ht).1 hv)⟩
  | @group t ts depth p ht _ hclear ih =>
    rcases ih (opened + 1) ((Viable.openParen_iff ht).1 hv) with ⟨d, hd, hdeep⟩ | ⟨hfaults, hrest⟩
    · obtain ⟨more, hmore⟩ := Parsed.faults_close stop p
      exact .inl ⟨d, by simp [hmore, hd], hdeep⟩
    -- no operator follows the inside, so only the closing parenthesis can
    · obtain ⟨closing, rest, hr, hclosing⟩ := Viable.closeParen_of_clear hclear hrest
      have hbehind := hr ▸ hrest
      rw [Parsed.close_of_closeParen stop hr hclosing]
      exact .inr ⟨hfaults, Viable.skipNewline_behind ((Viable.closeParen_iff hclosing).1 hbehind)⟩
  | refuse ha hp hm =>
    obtain ⟨place, hnext, -⟩ := hv
    exact absurd hnext (by simp [Place.before, Place.next, Place.beginOperand_eq_none ha hp hm])
  | finish => simp [Place.before, Viable, Place.isFinal] at hv

theorem statements_faultless_or_tooDeep (stop : Token) {ts : List Token} (hv : Viable .start ts) :
    (∃ d ∈ (statements stop ts).faults, d.fault = .tooDeep) ∨
      (statements stop ts).faults = [] := by
  fun_induction statements stop ts with
  | case1 => exact .inr rfl
  | case2 t ts hn ih => exact ih ((Viable.start_newline_iff hn).1 hv)
  | case3 t ts hn first more ih =>
    have hreading := reading_statement stop maxNesting (t :: ts)
    rcases hreading.faultless_or_tooDeep 0 (Viable.value_of_start hn hv) with
      ⟨d, hd, hdeep⟩ | ⟨hfaults, hrest⟩
    · exact .inl ⟨d, List.mem_append_left _ hd, hdeep⟩
    · rcases ih hrest with ⟨d, hd, hdeep⟩ | hmore
      · exact .inl ⟨d, List.mem_append_right _ hd, hdeep⟩
      · right
        simp [first, more, hfaults, hmore]

/-! ## Readings without faults -/

theorem derives_join {level : Level} {a b : Expr} {op : Token} {ts us : List Token}
    (hop : level.SpelledBy op) (ha : Derives (.binary level) a ts)
    (hb : Derives level.operand b us) :
    Derives (.binary level) (level.join a op b) (ts ++ op :: us) := by
  apply level.join_cases (motive := fun e => Derives (.binary level) e (ts ++ op :: us))
  · intro hl
    exact .logical hl hop ha hb
  · intro hl
    exact .binary hl hop ha hb

theorem Reading.derives {layer : Layer} {depth : Nat} {ts : List Token} {p : Parsed}
    (h : Reading stop layer depth ts p) (hf : p.faults = []) :
    ∃ used, ts = used ++ p.rest ∧ Derives layer p.value used := by
  induction h with
  | assignTooDeep | minusTooDeep | groupTooDeep | refuse | finish =>
    simp [Parsed.tooDeep, Parsed.refuse] at hf
  | @assign t colon name ts depth p ht hc _ ih =>
    obtain ⟨used, hused, hd⟩ := ih hf
    obtain ⟨ending, hending, hrest⟩ := exists_lineEnd p.rest
    refine ⟨t :: colon :: used ++ ending, ?_, .assign ht hc hd hending⟩
    simp only [hused, Parsed.endLine, Parsed.rest_map, List.cons_append, List.append_assoc]
    rw [← hrest]
  | expression _ _ _ ih =>
    obtain ⟨used, hused, hd⟩ := ih hf
    exact ⟨used, hused, .expression hd⟩
  | @join level ts rest depth left right op _ hleft hop _ ihl ihr =>
    obtain ⟨hfl, hfr⟩ := List.append_eq_nil_iff.1 hf
    obtain ⟨used, hused, hd⟩ := ihl hfl
    obtain ⟨used', hused', hd'⟩ := ihr hfr
    refine ⟨used ++ op :: used', by simp [hused, hleft, hused'], ?_⟩
    exact derives_join hop hd hd'
  | operand _ ih =>
    obtain ⟨used, hused, hd⟩ := ih hf
    exact ⟨used, hused, .operand hd⟩
  | @minus t ts depth p ht _ ih =>
    obtain ⟨used, hused, hd⟩ := ih hf
    exact ⟨t :: used, by simp [hused], .unary ht hd⟩
  | primary _ ih =>
    obtain ⟨used, hused, hd⟩ := ih hf
    exact ⟨used, hused, .primary hd⟩
  | @literal t ts depth atom ht =>
    obtain ⟨ending, hending, hrest⟩ := exists_lineEnd ts
    exact ⟨t :: ending, congrArg (t :: ·) hrest, .literal ht hending⟩
  | @group t ts depth p ht _ hclear ih =>
    -- that no fault is found in closing says that the parenthesis is there
    obtain ⟨closing, rest, hr, hclosing⟩ := Parsed.closeParen_of_close_faultless hf
    rw [Parsed.close_of_closeParen stop hr hclosing] at hf ⊢
    obtain ⟨used, hused, hd⟩ := ih hf
    obtain ⟨ending, hending, hrest⟩ := exists_lineEnd rest
    refine ⟨t :: used ++ closing :: ending, ?_, .group ht hd hclosing hending⟩
    rw [hused, hr]
    simpa [Parsed.endLine] using hrest

theorem derivesProgram_statements {ts : List Token} (hf : (statements stop ts).faults = []) :
    DerivesProgram (statements stop ts).statements ts := by
  fun_induction statements stop ts with
  | case1 => exact .nil
  | case2 t ts hn ih => exact .newline hn (ih hf)
  | case3 t ts hn first more ih =>
    obtain ⟨hfirst, hmore⟩ := List.append_eq_nil_iff.1 hf
    obtain ⟨used, hused, hd⟩ := (reading_statement stop maxNesting (t :: ts)).derives hfirst
    rw [hused]
    exact .statement hd (ih hmore)

end

/-- Unless something nests too deep, tokens are read without a fault exactly if the grammar derives
them up to the first end of input, and then what is read is derived from them. -/
theorem parse_faultless_iff_derivesProgram (tokens : List Token)
    (h : ∀ d ∈ (parse tokens).faults, d.fault ≠ .tooDeep) :
    ((parse tokens).faults = [] ↔
        ∃ es, DerivesProgram es (tokens.takeWhile fun t => !t.isEnd)) ∧
      ((parse tokens).faults = [] →
        DerivesProgram (parse tokens).statements (tokens.takeWhile fun t => !t.isEnd)) := by
  rw [← ahead_feed]
  have hderives : (parse tokens).faults = [] →
      DerivesProgram (parse tokens).statements (feed tokens).ahead := derivesProgram_statements
  refine ⟨⟨fun hf => ⟨_, hderives hf⟩, ?_⟩, hderives⟩
  rintro ⟨es, hes⟩
  rcases statements_faultless_or_tooDeep (feed tokens).stop hes.viable with
    ⟨d, hd, hdeep⟩ | hf
  · exact absurd hdeep (h d hd)
  · exact hf

def continuedTokens : List Token :=
  [⟨.identifier "x", "x", ⟨1, 1, 0⟩⟩, ⟨.colon, ":", ⟨1, 2, 1⟩⟩, ⟨.identifier "a", "a", ⟨1, 4, 3⟩⟩,
   ⟨.newline, "\n", ⟨1, 5, 4⟩⟩, ⟨.operator .minus, "-", ⟨2, 1, 5⟩⟩, ⟨.openParen, "(", ⟨2, 3, 7⟩⟩,
   ⟨.identifier "b", "b", ⟨2, 4, 8⟩⟩, ⟨.closeParen, ")", ⟨2, 5, 9⟩⟩]

/-- The second line goes on with the first, although it could be a statement of its own. -/
theorem derivesProgram_continuedTokens :
    (∀ d ∈ (parse continuedTokens).faults, d.fault ≠ .tooDeep) ∧
      DerivesProgram (parse continuedTokens).statements
        (continuedTokens.takeWhile fun t => !t.isEnd) ∧
      (parse continuedTokens).statements.length = 1 := by
  have hshallow : ∀ d ∈ (parse continuedTokens).faults, d.fault ≠ .tooDeep := by decide +kernel
  have hfaults : (parse continuedTokens).faults = [] := by decide +kernel
  have hlength : (parse continuedTokens).statements.length = 1 := by decide +kernel
  exact ⟨hshallow, (parse_faultless_iff_derivesProgram continuedTokens hshallow).2 hfaults, hlength⟩

end Scratchpad
