import Scratchpad.Proofs.Trees
import Scratchpad.Proofs.Accounting
import Scratchpad.Proofs.Retyping
import Scratchpad.Proofs.Rows

/-! Outlines can be read back. The first row of an expression says which node is at its top, so rows
tell where the rows of a part end. The text of a leaf spells the leaf, and a lexeme has one kind, so
booleans, numbers and names are told apart, and operators too. -/
namespace Scratchpad

/-! ## Leaves -/

theorem Atom.eq_of_kind_eq {a b : Atom} (h : a.kind = b.kind) : a = b := by
  cases a <;> cases b <;> simp_all [Atom.kind]

theorem Binary64.ofDecimal_cases (negative : Bool) (d : Decimal) :
    ofDecimal negative d = infinite negative ∨
      ∃ units fits, ofDecimal negative d = finite negative units fits := by
  rw [ofDecimal, ofRatio]
  split
  · next h => exact .inr ⟨_, .mul_twoTo (significand_le _ _) h, rfl⟩
  · exact .inl rfl

theorem Binary64.spells_text (units : Nat) (fits : Fits units) :
    Spells (finite false units fits).text.toList (.number (finite false units fits)) := by
  have hsame := (shortest units fits).same_ofNumeral_numeral
  have hback := readsBack_of_same (readsBack_shortest units fits) hsame
  have hread := ofDecimal_of_readsBack hback false
  rw [text_finite, withSign_false, String.toList_ofList, ← hread]
  exact (shortest units fits).plainNumeral_numeral.spells

/-- A lexeme that stands for a number is read as the numeral of that number. -/
theorem Spells.eq_ofDecimal {text : List Char} {x : Binary64} (h : Spells text (.number x)) :
    x = .ofDecimal false (.ofNumeral text) := by
  generalize hkind : Kind.number x = kind at h
  cases h with
  | symbol hs => subst hkind; cases hs
  | keyword hk => subst hkind; cases hk
  | whole | fraction => exact Kind.number.inj hkind
  | blank | name | invalid => cases hkind

theorem Spells.text {lexeme : List Char} {atom : Atom} (h : Spells lexeme atom.kind)
    (hfinite : atom ≠ .number (.infinite false)) : Spells atom.text.toList atom.kind := by
  cases atom with
  | boolean value => cases value <;> exact .keyword rfl
  | number x =>
    rcases Binary64.ofDecimal_cases false (.ofNumeral lexeme) with hx | ⟨units, fits, hx⟩
    · exact absurd (congrArg Atom.number (h.eq_ofDecimal.trans hx)) hfinite
    · rw [h.eq_ofDecimal, hx]
      exact Binary64.spells_text units fits
  | name n =>
    have hn : n = String.ofList lexeme := h.eq_name
    rwa [Atom.text, hn, String.toList_ofList, ← hn]

structure Token.IsOperator (t : Token) : Prop where
  spells : Spells t.lexeme.toList t.kind
  operator : ∃ op, t.kind = .operator op

theorem Token.IsOperator.unplaced_eq {t u : Token} (ht : t.IsOperator) (hu : u.IsOperator)
    (h : t.lexeme = u.lexeme) : t.unplaced = u.unplaced := by
  rw [unplaced, unplaced, ht.spells.kind_eq, hu.spells.kind_eq, h]

theorem Token.IsOperator.lineBreaks_eq {t : Token} (h : t.IsOperator) :
    lineBreaks t.lexeme = [] := by
  obtain ⟨op, hop⟩ := h.operator
  rw [h.spells.lineBreaks_eq (by simp [hop]), if_neg (by simp [hop])]

namespace Expr

/-- Expressions in which every leaf and every operator is what its text spells. -/
def Legible : Expr → Prop
  | nothing | invalid _ _ => False
  | literal atom => Spells atom.text.toList atom.kind
  | group e => e.Legible
  | unary op e => op.IsOperator ∧ e.Legible
  | binary a op b | logical a op b => a.Legible ∧ op.IsOperator ∧ b.Legible
  | assign name e => Spells name.toList (.identifier name) ∧ e.Legible

end Expr

/-! ## Rows -/

namespace Row

def indented (r : Row) : String := String.ofList (List.replicate (2 * r.depth) ' ') ++ r.text

theorem indented_inj {depth : Nat} {text other : String} :
    indented ⟨depth, text⟩ = indented ⟨depth, other⟩ ↔ text = other := by
  simp [indented]

end Row

namespace Expr

def label : Expr → String
  | nothing => "none"
  | literal _ => "literal"
  | group _ => "group"
  | unary _ _ => "unary"
  | binary _ _ _ => "binary"
  | logical _ _ _ => "logical"
  | assign _ _ => "variable"
  | invalid _ _ => "invalid"

/-- The word for the top node stands on the first row, up to a tab. -/
theorem exists_rows_eq (e : Expr) (depth : Nat) :
    ∃ text below, e.rows depth = ⟨depth, text⟩ :: below ∧
      text.toList.takeWhile (· ≠ '\t') = e.label.toList := by
  cases e <;> refine ⟨_, _, rfl, ?_⟩ <;> simp [label]

theorem label_eq_of_rows {e f : Expr} {depth : Nat} {rest rest' : List String}
    (h : (e.rows depth).map Row.indented ++ rest = (f.rows depth).map Row.indented ++ rest') :
    e.label = f.label := by
  obtain ⟨text, below, he, htext⟩ := e.exists_rows_eq depth
  obtain ⟨other, below', hf, hother⟩ := f.exists_rows_eq depth
  rw [he, hf] at h
  have hsame : text = other := Row.indented_inj.1 (List.cons.inj h).1
  rw [← String.toList_inj, ← htext, ← hother, hsame]

/-- The rows of an expression, in front of whatever rows, tell what it is and where it ends. -/
def Told (e : Expr) : Prop :=
  ∀ (f : Expr) (depth : Nat) (rest rest' : List String), f.Legible →
    (e.rows depth).map Row.indented ++ rest = (f.rows depth).map Row.indented ++ rest' →
    e.unplaced = f.unplaced ∧ rest = rest'

theorem Told.operands {a b c d : Expr} {op op' : Token} (ha : a.Told) (hb : b.Told)
    (hop : op.IsOperator) (hc : c.Legible) (hop' : op'.IsOperator) (hd : d.Legible) {depth : Nat}
    {rest rest' : List String}
    (h : (a.rows depth ++ ⟨depth, op.lexeme⟩ :: b.rows depth).map Row.indented ++ rest =
      (c.rows depth ++ ⟨depth, op'.lexeme⟩ :: d.rows depth).map Row.indented ++ rest') :
    (a.unplaced = c.unplaced ∧ op.unplaced = op'.unplaced ∧ b.unplaced = d.unplaced) ∧
      rest = rest' := by
  simp only [List.map_append, List.map_cons, List.append_assoc, List.cons_append] at h
  obtain ⟨hleft, hmore⟩ := ha c depth _ _ hc h
  obtain ⟨hrow, hbelow⟩ := List.cons.inj hmore
  obtain ⟨hright, hrest⟩ := hb d depth _ _ hd hbelow
  exact ⟨⟨hleft, hop.unplaced_eq hop' (Row.indented_inj.1 hrow), hright⟩, hrest⟩

/-- Legible expressions are told by their rows: where the words at the top agree, part after part
is told in front of what stands behind it. -/
theorem Legible.told {e : Expr} (he : e.Legible) : e.Told := by
  intro f depth rest rest' hf h
  induction e generalizing f depth rest rest' with
  | nothing | invalid => exact he.elim
  | literal atom =>
    cases f with
    | literal other =>
      -- the texts are equal, and a text spells one kind only
      obtain ⟨hrow, hrest⟩ := List.cons.inj h
      have htext : atom.text = other.text := by
        simpa only [String.append_right_inj] using Row.indented_inj.1 hrow
      have hkind : atom.kind = other.kind := by
        rw [Spells.kind_eq he, Spells.kind_eq hf, htext]
      exact ⟨by rw [Atom.eq_of_kind_eq hkind], hrest⟩
    | _ => exact absurd (label_eq_of_rows h) (by simp [label])
  | group e ih =>
    cases f with
    | group f =>
      obtain ⟨hinner, hrest⟩ := ih he f (depth + 1) rest rest' hf (List.cons.inj h).2
      exact ⟨by rw [unplaced, hinner, unplaced], hrest⟩
    | _ => exact absurd (label_eq_of_rows h) (by simp [label])
  | unary op e ih =>
    cases f with
    | unary op' f =>
      obtain ⟨hrow, hbelow⟩ := List.cons.inj (List.cons.inj h).2
      obtain ⟨hoperand, hrest⟩ := ih he.2 f (depth + 1) rest rest' hf.2 hbelow
      have hop := he.1.unplaced_eq hf.1 (Row.indented_inj.1 hrow)
      exact ⟨by rw [unplaced, hoperand, hop, unplaced], hrest⟩
    | _ => exact absurd (label_eq_of_rows h) (by simp [label])
  | binary a op b iha ihb =>
    cases f with
    | binary c op' d =>
      obtain ⟨ha, hop, hb⟩ := he
      obtain ⟨hc, hop', hd⟩ := hf
      obtain ⟨⟨hleft, hops, hright⟩, hrest⟩ :=
        Told.operands (iha ha) (ihb hb) hop hc hop' hd (List.cons.inj h).2
      exact ⟨by rw [unplaced, hleft, hops, hright, unplaced], hrest⟩
    | _ => exact absurd (label_eq_of_rows h) (by simp [label])
  | logical a op b iha ihb =>
    cases f with
    | logical c op' d =>
      obtain ⟨ha, hop, hb⟩ := he
      obtain ⟨hc, hop', hd⟩ := hf
      obtain ⟨⟨hleft, hops, hright⟩, hrest⟩ :=
        Told.operands (iha ha) (ihb hb) hop hc hop' hd (List.cons.inj h).2
      exact ⟨by rw [unplaced, hleft, hops, hright, unplaced], hrest⟩
    | _ => exact absurd (label_eq_of_rows h) (by simp [label])
  | assign name e ih =>
    cases f with
    | assign name' f =>
      obtain ⟨hrow, hbelow⟩ := List.cons.inj (List.cons.inj h).2
      obtain ⟨hvalue, hrest⟩ := ih he.2 f (depth + 1) rest rest' hf.2 hbelow
      exact ⟨by rw [unplaced, hvalue, Row.indented_inj.1 hrow, unplaced], hrest⟩
    | _ => exact absurd (label_eq_of_rows h) (by simp [label])

theorem map_unplaced_eq_of_rows {es fs : List Expr} (hes : ∀ e ∈ es, e.Legible)
    (hfs : ∀ f ∈ fs, f.Legible) {depth : Nat}
    (h : (es.flatMap (rows depth)).map Row.indented = (fs.flatMap (rows depth)).map Row.indented) :
    es.map unplaced = fs.map unplaced := by
  induction es generalizing fs with
  | nil =>
    cases fs with
    | nil => rfl
    | cons f fs =>
      obtain ⟨text, below, hf, -⟩ := f.exists_rows_eq depth
      simp [hf] at h
  | cons e es ih =>
    cases fs with
    | nil =>
      obtain ⟨text, below, he, -⟩ := e.exists_rows_eq depth
      simp [he] at h
    | cons f fs =>
      obtain ⟨he, hes⟩ := List.forall_mem_cons.1 hes
      obtain ⟨hf, hfs⟩ := List.forall_mem_cons.1 hfs
      simp only [List.flatMap_cons, List.map_append] at h
      obtain ⟨hfirst, hmore⟩ := he.told f depth _ _ hf h
      rw [List.map_cons, List.map_cons, hfirst, ih hes hfs hmore]

/-! ## Outlines -/

theorem lineBreaks_atom (atom : Atom) (h : Spells atom.text.toList atom.kind) :
    lineBreaks atom.text = [] := by
  have hkind : atom.kind ≠ .blank ∧ atom.kind ≠ .newline := by cases atom <;> simp [Atom.kind]
  rw [h.lineBreaks_eq hkind.1, if_neg hkind.2]

theorem Legible.lineBreaks_eq {e : Expr} (he : e.Legible) (depth : Nat) :
    ∀ r ∈ e.rows depth, lineBreaks r.text = [] := by
  have hwords : lineBreaks "literal\t" = [] ∧ lineBreaks "group" = [] ∧
      lineBreaks "unary" = [] ∧ lineBreaks "binary" = [] ∧ lineBreaks "logical" = [] ∧
      lineBreaks "variable" = [] := by decide
  induction e generalizing depth with
  | nothing | invalid => exact he.elim
  | literal atom => simp [rows, hwords, lineBreaks_atom atom he]
  | group e ih => simpa [rows, hwords] using ih he (depth + 1)
  | unary op e ih => simpa [rows, hwords, he.1.lineBreaks_eq] using ih he.2 (depth + 1)
  | binary a op b iha ihb | logical a op b iha ihb =>
    obtain ⟨ha, hop, hb⟩ := he
    simp only [rows, List.cons_append, List.forall_mem_cons, List.forall_mem_append, hwords,
      hop.lineBreaks_eq, true_and]
    exact ⟨iha ha (depth + 1), ihb hb (depth + 1)⟩
  | assign name e ih =>
    have hname : lineBreaks name = [] := lineBreaks_atom (.name name) he.1
    simpa [rows, hwords, hname] using ih he.2 (depth + 1)

end Expr

theorem Row.lineBreaks_indented {r : Row} (h : lineBreaks r.text = []) :
    lineBreaks r.indented = [] := by
  have hspaces : lineBreaks (String.ofList (List.replicate (2 * r.depth) ' ')) = [] := by
    rw [lineBreaks_eq_nil_iff, String.toList_ofList]
    intro c hc
    rw [List.eq_of_mem_replicate hc]
    decide
  rw [indented, lineBreaks_append, hspaces, h, List.append_nil]

theorem lines_outlineRows {es : List Expr} (h : ∀ e ∈ es, e.Legible) :
    lines (String.join ((outlineRows es).map Row.line)) =
      (outlineRows es).map Row.indented ++ [""] := by
  have hrows : ∀ row ∈ (outlineRows es).map Row.indented, lineBreaks row = [] := by
    refine List.forall_mem_map.2 fun r hr => Row.lineBreaks_indented ?_
    rcases List.mem_cons.1 hr with rfl | hr
    · decide
    · obtain ⟨e, he, hr⟩ := List.mem_flatMap.1 hr
      exact (h e he).lineBreaks_eq 1 r hr
  rw [← lines_join_rows hrows, List.map_map]
  rfl

/-- A printer that writes a tree in its layout, if it has the stack for it: every label on a row of
its own, two spaces deeper than the label above it; a leaf behind a tab on the row of its label where
it is alone, and otherwise on a row of its own. -/
structure Machine.PrintsLayout (machine : Machine) : Prop where
  layout : ∀ tree text, machine.print tree = some text → text = tree.layout

theorem Machine.PrintsLayout.outline_eq {machine : Machine} (h : machine.PrintsLayout)
    {es : List Expr} {text : String} (htext : machine.outline es = some text) :
    text = String.join ((outlineRows es).map Row.line) := by
  obtain ⟨tree, htree, hprint⟩ := Option.bind_eq_some_iff.1 htext
  rw [h.layout tree text hprint, Tree.layout, rows_of_treeOf htree]

theorem Machine.PrintsLayout.map_unplaced_eq {machine : Machine} (h : machine.PrintsLayout)
    {es fs : List Expr} (hes : ∀ e ∈ es, e.Legible) (hfs : ∀ f ∈ fs, f.Legible) {text : String}
    (he : machine.outline es = some text) (hf : machine.outline fs = some text) :
    es.map Expr.unplaced = fs.map Expr.unplaced := by
  have hlines : (outlineRows es).map Row.indented = (outlineRows fs).map Row.indented := by
    rw [← List.append_left_inj [""], ← lines_outlineRows hes, ← lines_outlineRows hfs,
      ← h.outline_eq he, ← h.outline_eq hf]
  exact Expr.map_unplaced_eq_of_rows hes hfs (List.cons.inj hlines).2

theorem Machine.outline_map_unplaced (machine : Machine) (es : List Expr) :
    machine.outline (es.map Expr.unplaced) = machine.outline es := by
  rw [outline, outline, treeOf_map_unplaced]

/-! ## Reading -/

theorem Derives.legible {layer : Layer} {e : Expr} {ts : List Token} (h : Derives layer e ts)
    (hspells : ∀ t ∈ ts, Spells t.lexeme.toList t.kind)
    (hfinite : ∀ t ∈ ts, t.kind ≠ .number (.infinite false)) : e.Legible := by
  induction h with
  | expression _ ih | operand _ ih | primary _ ih => exact ih hspells hfinite
  | @assign t colon name e ts ending ht hc _ _ ih =>
    simp only [List.forall_mem_append, List.forall_mem_cons] at hspells hfinite
    obtain ⟨⟨hname, -, hvalue⟩, -⟩ := hspells
    rw [ht] at hname
    -- a name is its own lexeme
    have htext := hname.eq_name
    rw [String.ofList_toList] at htext
    exact ⟨htext ▸ hname, ih hvalue hfinite.1.2.2⟩
  | @logical _ _ _ op _ _ _ hop _ _ iha ihb | @binary _ _ _ op _ _ _ hop _ _ iha ihb =>
    obtain ⟨o, -, ho⟩ := hop
    simp only [List.forall_mem_append, List.forall_mem_cons] at hspells hfinite
    obtain ⟨hleft, hthis, hright⟩ := hspells
    exact ⟨iha hleft hfinite.1, ⟨hthis, o, ho⟩, ihb hright hfinite.2.2⟩
  | unary hop _ ih =>
    obtain ⟨hthis, hoperand⟩ := List.forall_mem_cons.1 hspells
    exact ⟨⟨hthis, .minus, hop⟩, ih hoperand (List.forall_mem_cons.1 hfinite).2⟩
  | literal ht _ =>
    have hthis := hspells _ List.mem_cons_self
    have hnot := hfinite _ List.mem_cons_self
    rw [ht] at hthis hnot
    exact hthis.text fun h => hnot (congrArg Atom.kind h)
  | group _ _ _ _ ih =>
    simp only [List.forall_mem_append, List.forall_mem_cons] at hspells hfinite
    exact ih hspells.1.2 hfinite.1.2

theorem DerivesProgram.legible {es : List Expr} {ts : List Token} (h : DerivesProgram es ts)
    (hspells : ∀ t ∈ ts, Spells t.lexeme.toList t.kind)
    (hfinite : ∀ t ∈ ts, t.kind ≠ .number (.infinite false)) : ∀ e ∈ es, e.Legible := by
  induction h with
  | nil => simp
  | newline _ _ ih =>
    exact ih (List.forall_mem_cons.1 hspells).2 (List.forall_mem_cons.1 hfinite).2
  | statement hd _ ih =>
    obtain ⟨hthis, hmore⟩ := List.forall_mem_append.1 hspells
    obtain ⟨hthisFinite, hmoreFinite⟩ := List.forall_mem_append.1 hfinite
    exact List.forall_mem_cons.2 ⟨hd.legible hthis hthisFinite, ih hmore hmoreFinite⟩

theorem legible_of_mem_parse {source : String} (hfaults : (parse (tokens source)).faults = [])
    (hfinite : ∀ t ∈ tokens source, t.kind ≠ .number (.infinite false)) :
    ∀ e ∈ (parse (tokens source)).statements, e.Legible := by
  have hmem : ∀ t ∈ (feed (tokens source)).ahead, t ∈ tokens source := by
    intro t ht
    rw [tokens_eq_ahead]
    exact List.mem_append_left _ ht
  refine (derivesProgram_statements hfaults).legible (fun t ht => ?_) fun t ht =>
    hfinite t (hmem t ht)
  -- what has been read stands in front of the end of input
  have hend : t.kind ≠ .endOfInput := by
    simpa [Token.isEnd] using isEnd_of_mem_ahead ht
  exact (spells_of_mem_allTokens (List.mem_of_mem_filter (hmem t ht))).resolve_left hend

/-- Of texts that are read without faults and hold no numeral that overflows, the outlines are equal
just if the statements are equal up to the places of their tokens. -/
theorem outline_faithful {machine : Machine} (hprint : machine.PrintsLayout) {a b : String}
    (ha : (parse (tokens a)).faults = []) (hb : (parse (tokens b)).faults = [])
    (hfinite : ∀ t ∈ tokens a ++ tokens b, t.kind ≠ .number (.infinite false)) {text : String}
    (htext : machine.outline (parse (tokens a)).statements = some text) :
    machine.outline (parse (tokens b)).statements = some text ↔
      (parse (tokens a)).statements.map Expr.unplaced =
        (parse (tokens b)).statements.map Expr.unplaced := by
  obtain ⟨hfiniteA, hfiniteB⟩ := List.forall_mem_append.1 hfinite
  constructor
  · exact hprint.map_unplaced_eq (legible_of_mem_parse ha hfiniteA)
      (legible_of_mem_parse hb hfiniteB) htext
  · intro h
    rw [← machine.outline_map_unplaced, ← h, machine.outline_map_unplaced, htext]

theorem Machine.printsLayout_usual : usual.PrintsLayout :=
  ⟨fun _ _ h => (Option.some.inj h).symm⟩

/-- Of a name that is the word for a node, with a number written in two ways, and of the two
spellings of the remainder. -/
theorem outline_faithful_group :
    let typed := "group: -none % (1.5)"
    let spaced := "group :-none%( 1.50 )"
    let outline (source : String) := Machine.usual.outline (parse (tokens source)).statements
    (∃ text, outline typed = some text ∧ outline spaced = some text) ∧
      (parse (tokens typed)).statements.map Expr.unplaced =
        (parse (tokens spaced)).statements.map Expr.unplaced ∧
      (outline "a % b").isSome = true ∧ outline "a mod b" ≠ outline "a % b" := by
  intro typed spaced outline
  have hsame : outline spaced = outline typed := by decide +kernel
  obtain ⟨text, htyped⟩ : ∃ text, outline typed = some text :=
    Option.isSome_iff_exists.1 (by decide +kernel)
  obtain ⟨percent, hpercent⟩ : ∃ text, outline "a % b" = some text :=
    Option.isSome_iff_exists.1 (by decide +kernel)
  have hgroup := outline_faithful Machine.printsLayout_usual (a := typed) (b := spaced)
    (by decide +kernel) (by decide +kernel) (by decide +kernel) htyped
  have hremainder := outline_faithful Machine.printsLayout_usual (a := "a % b") (b := "a mod b")
    (by decide +kernel) (by decide +kernel) (by decide +kernel) hpercent
  have hspaced : outline spaced = some text := hsame.trans htyped
  refine ⟨⟨text, htyped, hspaced⟩, hgroup.1 hspaced, by simp [hpercent], fun h => ?_⟩
  exact absurd (hremainder.1 (h.trans hpercent)) (by decide +kernel)

/-- A numeral that overflows is shown as a name might be. -/
example : Machine.usual.outline [.literal (.number (.infinite false))] =
    Machine.usual.outline [.literal (.name "inf")] := by decide +kernel

end Scratchpad
