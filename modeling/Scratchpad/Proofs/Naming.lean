import Scratchpad.Proofs.Gist
import Scratchpad.Proofs.Limit
import Scratchpad.Proofs.Nesting
import Scratchpad.Proofs.Words

/-! Naming the value of a line. A name and a colon in front of a statement bind the name to the
statement's value, and the line shows what is found behind the name. That is what the statement
shows by itself, unless its value refers back to the name. -/
namespace Scratchpad

/-! ## References -/

namespace Expr

/-- The names that are met on the way from a value along references, up to one that is not bound or
has been met before. -/
def trail (value : Expr) (env : Environment) : List String :=
  match value with
  | literal (.name n) =>
    match _ : env.lookup n with
    | some value => n :: value.trail (env.erase n)
    | none => [n]
  | _ => []
termination_by env.size
decreasing_by exact Environment.size_erase_lt (by assumption)

theorem display_erase (v : Expr) (env : Environment) (x : String) :
    v.display (env.erase x) = if x ∈ v.trail env then "" else v.display env := by
  fun_induction trail v env with
  | case1 env n w hw ih =>
    by_cases hx : n = x
    · subst hx
      have hnone : (env.erase n).lookup n = none := by simp [Environment.lookup_erase]
      rw [display_of_lookup_eq_none hnone, if_pos List.mem_cons_self]
    · have hsome : (env.erase x).lookup n = some w := by
        rw [Environment.lookup_erase, if_neg hx, hw]
      rw [display_of_lookup_eq_some hsome, Environment.erase_comm, ih,
        display_of_lookup_eq_some hw]
      simp [Ne.symm hx]
  | case2 env n hn =>
    have hnone : (env.erase x).lookup n = none := by simp [Environment.lookup_erase, hn]
    rw [display_of_lookup_eq_none hnone, display_of_lookup_eq_none hn, ite_self]
  | case3 env v hv =>
    rw [if_neg List.not_mem_nil, display_congr hv]

theorem display_bind (v : Expr) (env : Environment) (x : String) :
    (literal (.name x)).display (env.bind x v) = if x ∈ v.trail env then "" else v.display env := by
  have hx : (env.bind x v).lookup x = some v := by simp
  rw [display_of_lookup_eq_some hx, Environment.erase_bind, display_erase]

end Expr

/-! ## Reading -/

theorem tokens_named {x : String} (hx : IsIdentifier x) (source : String) :
    ∃ t colon ts, tokens (x ++ ": " ++ source) = t :: colon :: ts ∧
      t.kind = .identifier x ∧ colon.kind = .colon ∧
      ts.map Token.gist = (tokens source).map Token.gist := by
  have htext : (x ++ ": " ++ source).toList = x.toList ++ ':' :: ' ' :: source.toList := by simp
  have hlexemes : lexemes (x ++ ": " ++ source).toList =
      x.toList :: [':'] :: [' '] :: lexemes source.toList := by
    have hend : ∀ c ∈ (':' :: ' ' :: source.toList).head?, isWordChar c = false := by
      simpa using (by decide : isWordChar ':' = false)
    have hcolon : extent ':' (' ' :: source.toList) = [] := rfl
    have hblank : extent ' ' source.toList = [] := rfl
    rw [htext, hx.lexemes_append hend, lexemes_cons_of_extent hcolon,
      lexemes_cons_of_extent hblank]
  have hcolon : Kind.ofLexeme [':'] = .colon := by decide
  have hblank : Kind.ofLexeme [' '] = .blank := by decide
  have hplaced : tokens (x ++ ": " ++ source) =
      ⟨.identifier x, x, .start⟩ :: ⟨.colon, ":", Position.start.after x.toList⟩ ::
        (place (((Position.start.after x.toList).after [':']).after [' '])
          (lexemes source.toList)).filter fun t => t.kind ≠ .blank := by
    rw [tokens, allTokens, hlexemes]
    simp [place, hx.ofLexeme, hcolon, hblank]
  refine ⟨_, _, _, hplaced, rfl, rfl, ?_⟩
  rw [map_gist_filter_blank, map_gist_place _ .start, ← map_gist_filter_blank, tokens, allTokens]

/-- A statement keeps its reading behind a name and a colon, where nothing is nested too deep. -/
theorem statements_assign {stop t colon u : Token} {x : String} {us : List Token} {e : Expr}
    (ht : t.kind = .identifier x) (hc : colon.kind = .colon) (hu : u.kind ≠ .newline)
    (he : statements stop (u :: us) = ⟨[e], []⟩)
    (hs : Shallow (statements stop (t :: colon :: u :: us)).faults) :
    statements stop (t :: colon :: u :: us) = ⟨[.assign x e], []⟩ := by
  have htn : t.kind ≠ .newline := by simp [ht]
  -- The assignment takes one of the nestings for itself.
  obtain ⟨depth, hdepth⟩ : ∃ depth, maxNesting = depth + 1 := ⟨31, rfl⟩
  rw [statements_cons stop us hu, hdepth] at he
  rw [statements_cons stop _ htn, hdepth, statement_assign_succ ht hc] at hs ⊢
  have hinner : Shallow ((statement stop depth).read (u :: us)).faults := (shallow_append.1 hs).1
  rw [agreesWith_statement stop depth (u :: us) hinner] at he
  simp only [Program.mk.injEq, List.cons.injEq, List.append_eq_nil_iff] at he
  obtain ⟨⟨hvalue, hmore⟩, hfaults, hfaults'⟩ := he
  simp [statements_skipNewline, hvalue, hmore, hfaults, hfaults']

theorem parse_assign {t colon : Token} {x : String} {ts : List Token} {e : Expr}
    (ht : t.kind = .identifier x) (hc : colon.kind = .colon) (he : parse ts = ⟨[e], []⟩)
    (hstarts : ∀ u ∈ ts.head?, u.kind ≠ .newline)
    (hs : Shallow (parse (t :: colon :: ts)).faults) :
    parse (t :: colon :: ts) = ⟨[.assign x e], []⟩ := by
  have htend : t.isEnd = false := by simp [Token.isEnd, ht]
  have hcend : colon.isEnd = false := by simp [Token.isEnd, hc]
  have hne : ts ≠ [] := by
    rintro rfl
    simp [parse, feed] at he
  have hstop : (feed (t :: colon :: ts)).stop = (feed ts).stop := by
    rw [stop_feed_cons htend (List.cons_ne_nil _ _), stop_feed_cons hcend hne]
  have hahead : (feed (t :: colon :: ts)).ahead = t :: colon :: (feed ts).ahead := by
    rw [ahead_feed_cons htend, ahead_feed_cons hcend]
  rw [parse, hstop, hahead] at hs ⊢
  rw [parse] at he
  cases hus : (feed ts).ahead with
  | nil => simp [hus] at he
  | cons u us =>
    rw [hus] at he hs
    have hhead : (feed ts).ahead.head? = some u := by rw [hus]; rfl
    rw [ahead_feed, List.head?_takeWhile, Option.filter_eq_some_iff] at hhead
    exact statements_assign ht hc (hstarts u hhead.1) he hs

/-- A single statement, with no newline in front of it and nothing wrong in it. -/
structure IsStatement (source : String) : Prop where
  parsed : ∃ e, parse (tokens source) = ⟨[e], []⟩
  starts : ∀ t ∈ (tokens source).head?, t.kind ≠ .newline

/-- With a name and a colon in front, the same statement is read as what is assigned, places apart.
-/
theorem parse_named {x source : String} {e : Expr} (hx : IsIdentifier x)
    (he : parse (tokens source) = ⟨[e], []⟩)
    (hstarts : ∀ t ∈ (tokens source).head?, t.kind ≠ .newline)
    (hs : Shallow (parse (tokens (x ++ ": " ++ source))).faults) :
    ∃ e', parse (tokens (x ++ ": " ++ source)) = ⟨[.assign x e'], []⟩ ∧ e'.gist = e.gist := by
  obtain ⟨t, colon, ts, htokens, ht, hc, hgist⟩ := tokens_named hx source
  have hparsed : (parse ts).gist = ⟨[e.gist], []⟩ := by
    rw [gist_parse, hgist, ← gist_parse, he]
    rfl
  obtain ⟨e', he', hsame⟩ := Program.eq_single_of_gist hparsed
  have hstarts' : ∀ u ∈ ts.head?, u.kind ≠ .newline := by
    intro u hu hn
    have hhead : (tokens source).head?.map Token.gist = some u.gist := by
      rw [← List.head?_map, ← hgist, List.head?_map, Option.mem_def.1 hu]
      rfl
    obtain ⟨w, hw, hwu⟩ := Option.map_eq_some_iff.1 hhead
    have hwn : w.kind = .newline := by
      rwa [← Token.kind_gist_eq_newline_iff, hwu, Token.kind_gist_eq_newline_iff]
    exact hstarts w hw hwn
  rw [htokens] at hs ⊢
  exact ⟨e', parse_assign ht hc he' hstarts' hs, hsame⟩

/-! ## Lines -/

theorem exists_runLineWithin_of_parse {limit : Nat} {source : String} {env : Environment} {e : Expr}
    (he : parse (tokens source) = ⟨[e], []⟩)
    (hs : Shallow (runLineWithin limit source env).1.faults) :
    ∃ v env', e.evalWithin limit env = (some v, env') ∧
      runLineWithin limit source env = (⟨source, v, v.display env', []⟩, env') := by
  rcases hv : e.evalWithin limit env with ⟨_ | v, env'⟩
  · exact absurd rfl (hs _ (tooDeep_mem_of_parse he hv))
  · exact ⟨v, env', rfl, runLineWithin_of_parse he hv⟩

/-- A name and a colon in front of a statement do not change what the line shows, unless the way
along references from the statement's value comes by that name: then the assignment closes a circle,
and the line shows nothing. -/
theorem display_named {x source : String} (limit : Nat) (env : Environment) (hx : IsIdentifier x)
    (hsource : IsStatement source) (hplain : Shallow (runLineWithin limit source env).1.faults)
    (hnamed : Shallow (runLineWithin limit (x ++ ": " ++ source) env).1.faults) :
    let plain := runLineWithin limit source env
    let named := runLineWithin limit (x ++ ": " ++ source) env
    named.1.display = if x ∈ plain.1.value.trail plain.2 then "" else plain.1.display := by
  obtain ⟨e, he⟩ := hsource.parsed
  obtain ⟨more, hmore⟩ := faults_runLineWithin limit (x ++ ": " ++ source) env
  have hshallow : Shallow (parse (tokens (x ++ ": " ++ source))).faults := by
    rw [hmore, shallow_append] at hnamed
    exact hnamed.1
  obtain ⟨e', he', hgist⟩ := parse_named hx he hsource.starts hshallow
  obtain ⟨v, env₁, hv, hrun⟩ := exists_runLineWithin_of_parse he hplain
  obtain ⟨w, env₂, hw, hrun'⟩ := exists_runLineWithin_of_parse he' hnamed
  have hsame : e'.evalWithin limit env = e.evalWithin limit env := by
    rw [← evalWithin_gist, hgist, evalWithin_gist]
  have hassign := Expr.eval_eq_of_evalWithin hw
  rw [Expr.eval, Expr.eval_eq_of_evalWithin (hsame.trans hv)] at hassign
  obtain ⟨rfl, rfl⟩ := Prod.mk.inj hassign
  intro plain named
  calc named.1.display = (Expr.literal (.name x)).display (env₁.bind x v) := by
        simp only [named, hrun']
    _ = if x ∈ v.trail env₁ then "" else v.display env₁ := Expr.display_bind v env₁ x
    _ = if x ∈ plain.1.value.trail plain.2 then "" else plain.1.display := by
        simp only [plain, hrun]

/-- An alias shows its value behind a third name too, but not behind the name that it stands for. -/
theorem display_named_alias :
    let env := (runLineWithin usualLimit "a: b: true" .empty).2
    IsStatement "a" ∧ IsIdentifier "b" ∧ IsIdentifier "c" ∧
      (runLineWithin usualLimit "a" env).1.display = "true" ∧
      (runLineWithin usualLimit "c: a" env).1.display = "true" ∧
      (runLineWithin usualLimit "b: a" env).1.display = "" := by
  intro env
  have ha : IsStatement "a" := ⟨⟨.literal (.name "a"), by decide +kernel⟩, by decide +kernel⟩
  have hb : IsIdentifier "b" := ⟨⟨'b', [], rfl, by decide +kernel, by simp⟩, by decide +kernel⟩
  have hc : IsIdentifier "c" := ⟨⟨'c', [], rfl, by decide +kernel, by simp⟩, by decide +kernel⟩
  have hplain : Shallow (runLineWithin usualLimit "a" env).1.faults := by decide +kernel
  have hnamedb : Shallow (runLineWithin usualLimit ("b" ++ ": " ++ "a") env).1.faults := by
    decide +kernel
  have hnamedc : Shallow (runLineWithin usualLimit ("c" ++ ": " ++ "a") env).1.faults := by
    decide +kernel
  have hcircle := display_named usualLimit env hb ha hplain hnamedb
  have hchain := display_named usualLimit env hc ha hplain hnamedc
  have hmem : "b" ∈ (runLineWithin usualLimit "a" env).1.value.trail
      (runLineWithin usualLimit "a" env).2 := by decide +kernel
  have hnotMem : "c" ∉ (runLineWithin usualLimit "a" env).1.value.trail
      (runLineWithin usualLimit "a" env).2 := by decide +kernel
  have hshown : (runLineWithin usualLimit "a" env).1.display = "true" := by decide +kernel
  have hchained : (runLineWithin usualLimit "c: a" env).1.display = "true" :=
    (hchain.trans (if_neg hnotMem)).trans hshown
  exact ⟨ha, hb, hc, hshown, hchained, hcircle.trans (if_pos hmem)⟩

/-- So a name in front of a statement may change what the line shows: behind a second `x`, the first
stands for itself. -/
theorem naming_can_hide_value :
    ¬ ∀ (sources : List String) (x source : String), IsIdentifier x → IsStatement source →
      let env := (runLinesWithin usualLimit sources .empty).2
      let plain := (runLineWithin usualLimit source env).1
      let named := (runLineWithin usualLimit (x ++ ": " ++ source) env).1
      plain.faults = [] → named.faults = [] → named.display = plain.display := by
  intro h
  have hx : IsIdentifier "x" := ⟨⟨'x', [], rfl, by decide +kernel, by simp⟩, by decide +kernel⟩
  have hsource : IsStatement "x: true" :=
    ⟨⟨.assign "x" (.literal (.boolean true)), by decide +kernel⟩, by decide +kernel⟩
  have hsame := h [] "x" "x: true" hx hsource (by decide +kernel) (by decide +kernel)
  exact absurd hsame (by decide +kernel)

end Scratchpad
