import Scratchpad.Proofs.DeepNesting
import Scratchpad.Proofs.Limit
import Scratchpad.Proofs.Naming
import Scratchpad.Proofs.Separation

/-! Parentheses. A group is worth what stands in it, so groups more or less do not show in a value.
And a line in parentheses is read as the group of what the line is read as: neither parenthesis is
part of another lexeme, and what was one statement up to the end of the line is one expression up to
the closing parenthesis. -/
namespace Scratchpad

/-! ## Evaluation -/

namespace Expr

def ungrouped : Expr → Expr
  | group e => e.ungrouped
  | unary op e => unary op e.ungrouped
  | binary a op b => binary a.ungrouped op b.ungrouped
  | logical a op b => logical a.ungrouped op b.ungrouped
  | assign name e => assign name e.ungrouped
  | e => e

theorem eval_ungrouped (e : Expr) (env : Environment) : e.ungrouped.eval env = e.eval env := by
  induction e generalizing env with
  | nothing | literal | invalid => rfl
  | group e ih => exact ih env
  | unary op e ih | assign name e ih => rw [ungrouped, eval, eval, ih]
  | binary a op b iha ihb | logical a op b iha ihb =>
    rw [ungrouped, eval, eval, iha]
    simp only [ihb]

theorem eval_eq_of_ungrouped_eq {e f : Expr} (h : e.ungrouped = f.ungrouped) (env : Environment) :
    e.eval env = f.eval env := by
  rw [← eval_ungrouped, h, eval_ungrouped]

@[simp] theorem nesting_gist (e : Expr) : e.gist.nesting = e.nesting := by
  induction e with
  | nothing | literal | invalid => rfl
  | group e ih | unary op e ih | assign name e ih => simp only [gist, nesting, ih]
  | binary a op b iha ihb | logical a op b iha ihb => simp only [gist, nesting, iha, ihb]

end Expr

/-! ## Reading -/

theorem DerivesProgram.derives {e : Expr} {ts : List Token} (h : DerivesProgram [e] ts)
    (hline : ∀ t ∈ ts, t.kind ≠ .newline) : Derives .statement e ts := by
  cases h with
  | newline hn => exact absurd hn (hline _ List.mem_cons_self)
  | @statement _ _ ts us hd hmore =>
    cases hmore with
    | nil => rwa [List.append_nil]
    | newline hn => exact absurd hn (hline _ (List.mem_append_right ts List.mem_cons_self))

theorem Derives.expression_of_ne_assign {e : Expr} {ts : List Token} (h : Derives .statement e ts)
    (hne : ∀ name value, e ≠ .assign name value) : Derives (.binary .disjunction) e ts := by
  cases h with
  | assign => exact absurd rfl (hne _ _)
  | expression hd => exact hd

theorem statements_of_derives (stop : Token) {e : Expr} {ts : List Token}
    (h : Derives (.binary .disjunction) e ts) (hnesting : e.nesting ≤ maxNesting)
    (hline : ∀ t ∈ ts, t.kind ≠ .newline) : statements stop ts = ⟨[e], []⟩ := by
  have hread := read_statement_of_derives stop h hnesting
  have hne : ts ≠ [] := by
    rintro rfl
    have hv : Viable (.operand 0) ([] ++ []) := h.viable 0 rfl
    simp [Viable, Place.isFinal] at hv
  rw [statements_of_rest_eq_nil hne hline (by rw [hread]), hread]

/-- Parentheses around an expression on one line are read as a group. -/
theorem statements_grouped (stop : Token) {opening closing : Token} {e : Expr} {ts : List Token}
    (hopening : opening.kind = .openParen) (hclosing : closing.kind = .closeParen)
    (he : statements stop ts = ⟨[e], []⟩) (hne : ∀ name value, e ≠ .assign name value)
    (hnesting : e.nesting < maxNesting) (hline : ∀ t ∈ ts, t.kind ≠ .newline) :
    statements stop (opening :: ts ++ [closing]) = ⟨[.group e], []⟩ := by
  have hprogram : DerivesProgram (statements stop ts).statements ts :=
    derivesProgram_statements (by rw [he])
  rw [he] at hprogram
  have hinner := (hprogram.derives hline).expression_of_ne_assign hne
  have hgroup : Derives .unary (.group e) (opening :: ts ++ [closing]) :=
    .primary (.group hopening hinner hclosing .none)
  refine statements_of_derives stop (hgroup.ofUnary .disjunction) hnesting ?_
  simpa [hopening, hclosing, or_imp, forall_and] using hline

/-! ## Lines -/

theorem kindTokens_grouped (line : List Char) :
    kindTokens ('(' :: line ++ [')']) =
      ⟨.openParen, "", .start⟩ :: kindTokens line ++ [⟨.closeParen, "", .start⟩] := by
  have hopening : kindsOf [['(']] = [.openParen] := by decide
  have hclosing : kindsOf [[')']] = [.closeParen] := by decide
  have hextent : extent '(' (line ++ [')']) = [] := rfl
  have hlast : lexemes [')'] = [[')']] := by
    rw [lexemes_cons_of_extent rfl, lexemes_nil]
  have hlexemes : lexemes ('(' :: line ++ [')']) = [['(']] ++ lexemes line ++ [[')']] := by
    rw [List.cons_append, lexemes_cons_of_extent hextent,
      lexemes_append_of_continues line (by decide) [], hlast]
    rfl
  rw [kindTokens, hlexemes, kindsOf_append, kindsOf_append, hopening, hclosing, List.map_append,
    List.map_append]
  rfl

theorem kind_ne_newline_of_mem_kindTokens {line : List Char} (h : '\n' ∉ line) {t : Token}
    (ht : t ∈ kindTokens line) : t.kind ≠ .newline := by
  obtain ⟨kind, hkind, rfl⟩ := List.mem_map.1 ht
  exact fun hn => newline_notMem_kindsOf h (hn ▸ hkind)

/-- A line of one expression is read in parentheses as the group of that expression, spelling and
places apart. -/
theorem parse_grouped {source : String} {e : Expr} (hline : '\n' ∉ source.toList)
    (he : parse (tokens source) = ⟨[e], []⟩) (hne : ∀ name value, e ≠ .assign name value)
    (hnesting : e.nesting < maxNesting) :
    ∃ grouped, parse (tokens ("(" ++ source ++ ")")) = ⟨[grouped], []⟩ ∧
      grouped.gist = (Expr.group e).gist := by
  have hread : statements ⟨.endOfInput, "", .start⟩ (kindTokens source.toList) =
      ⟨[e.gist], []⟩ := by
    rw [← readKinds, ← gist_parse_tokens, he]
    rfl
  have hne' : ∀ name value, e.gist ≠ .assign name value := by
    intro name value
    cases e with
    | assign name value => exact absurd rfl (hne name value)
    | _ => simp [Expr.gist]
  have htext : ("(" ++ source ++ ")").toList = '(' :: source.toList ++ [')'] := by simp
  apply Program.eq_single_of_gist
  rw [gist_parse_tokens, readKinds, htext, kindTokens_grouped]
  exact statements_grouped _ rfl rfl hread hne' (by rwa [Expr.nesting_gist])
    fun t => kind_ne_newline_of_mem_kindTokens hline

/-- Expressions that differ in groups are worth the same in every environment and leave the same
environment, also under limits that both keep. A line that is read as one expression, with room for
one more nesting, is read without faults in parentheses too. Unless this nests too deep to be
evaluated, both lines are in order, are worth the same, show the same and leave the same
environment. -/
theorem parentheses_neutral :
    (∀ (e f : Expr) (env : Environment), e.ungrouped = f.ungrouped →
      e.eval env = f.eval env ∧
        ∀ limit limit' v w env' env'', e.evalWithin limit env = (some v, env') →
          f.evalWithin limit' env = (some w, env'') → v = w ∧ env' = env'') ∧
    ∀ (source : String) (e : Expr) (limit : Nat) (env : Environment),
      '\n' ∉ source.toList → parse (tokens source) = ⟨[e], []⟩ →
      (∀ name value, e ≠ .assign name value) → e.nesting ≤ 31 →
        let plain := runLineWithin limit source env
        let grouped := runLineWithin limit ("(" ++ source ++ ")") env
        (parse (tokens ("(" ++ source ++ ")"))).faults = [] ∧
          (⟨.tooDeep, none⟩ ∉ grouped.1.faults →
            grouped.1.faults = [] ∧ plain.1.faults = [] ∧ grouped.1.value = plain.1.value ∧
              grouped.1.display = plain.1.display ∧ grouped.2 = plain.2) := by
  refine ⟨fun e f env h => ⟨Expr.eval_eq_of_ungrouped_eq h env, ?_⟩, ?_⟩
  · intro limit limit' v w env' env'' he hf
    have hvalues := Expr.eval_eq_of_ungrouped_eq h env
    rw [Expr.eval_eq_of_evalWithin he, Expr.eval_eq_of_evalWithin hf] at hvalues
    exact Prod.mk.inj hvalues
  · intro source e limit env hline he hne hnesting plain grouped
    obtain ⟨g, hg, hgist⟩ := parse_grouped hline he hne (Nat.lt_succ_of_le hnesting)
    have hsame : g.evalWithin limit env = (Expr.group e).evalWithin limit env := by
      rw [← evalWithin_gist, hgist, evalWithin_gist]
    refine ⟨by rw [hg], fun hshallow => ?_⟩
    -- the group is evaluated one step deeper than what stands in it, so both keep the limit
    have hdepth : (Expr.group e).depth env < limit := by
      refine Nat.lt_of_not_le fun hle => hshallow (tooDeep_mem_of_parse hg (Prod.ext ?_ rfl))
      rw [hsame, Expr.fst_evalWithin_of_le_depth hle]
    have hgroup : g.evalWithin limit env = (some (e.eval env).1, (e.eval env).2) :=
      hsame.trans (Expr.evalWithin_of_depth_lt hdepth)
    have hplain : e.evalWithin limit env = (some (e.eval env).1, (e.eval env).2) :=
      Expr.evalWithin_of_depth_lt (Nat.lt_of_succ_lt hdepth)
    have hgrouped := runLineWithin_of_parse hg hgroup
    have hsource := runLineWithin_of_parse he hplain
    simp only [grouped, plain, hgrouped, hsource, and_self]

/-- Of a word in parentheses, and of a line that begins with a minus sign and ends in a name. -/
theorem parentheses_neutral_disjunction :
    let word : Expr := .literal (.boolean true)
    word.group.eval .empty = word.eval .empty ∧ word.group.eval .empty = (word, .empty) ∧
      (runLineWithin 4 "(-a or b)" .empty).1.faults = [] ∧
      (runLineWithin 4 "(-a or b)" .empty).1.value =
        (runLineWithin 4 "-a or b" .empty).1.value := by
  intro word
  obtain ⟨hexprs, hlines⟩ := parentheses_neutral
  obtain ⟨heval, hlimits⟩ := hexprs word.group word .empty rfl
  obtain ⟨hvalue, henv⟩ := hlimits 2 1 (word.group.eval .empty).1 word
    (word.group.eval .empty).2 .empty rfl rfl
  let operand : Expr := .unary ⟨.operator .minus, "-", .start⟩ (.literal (.name "a"))
  let e : Expr := .logical operand ⟨.operator .or, "or", ⟨1, 4, 3⟩⟩ (.literal (.name "b"))
  obtain ⟨-, hline⟩ := hlines "-a or b" e 4 .empty (by decide) (by decide +kernel) (by simp [e])
    (by decide)
  obtain ⟨hfaults, -, hvalues, -, -⟩ := hline (by decide +kernel)
  exact ⟨heval, Prod.ext hvalue henv, hfaults, hvalues⟩

end Scratchpad
