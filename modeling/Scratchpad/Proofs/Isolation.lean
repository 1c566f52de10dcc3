import Scratchpad.Proofs.Reading
import Scratchpad.Proofs.Writes

/-! A line changes only the names that it assigns to, however malformed it is. Assignments in what
is read stem from a name and a colon next to each other, also where reading recovers from faults,
and evaluation binds nothing but the names of assignments. So a line without such a pair can be
replaced by another one without, and no other line shows it. -/
namespace Scratchpad

/-- The names that have a colon right behind them. -/
def assignedNames : List Token → List String
  | t :: colon :: ts =>
    match t.kind, colon.kind with
    | .identifier name, .colon => name :: assignedNames (colon :: ts)
    | _, _ => assignedNames (colon :: ts)
  | _ => []

theorem assignedNames_subset_cons (t : Token) (ts : List Token) :
    assignedNames ts ⊆ assignedNames (t :: ts) := by
  cases ts with
  | nil => simp [assignedNames]
  | cons colon ts =>
    rw [assignedNames]
    split
    · exact List.subset_cons_self _ _
    · exact List.Subset.refl _

theorem assignedNames_subset_of_suffix {ts us : List Token} (h : ts <:+ us) :
    assignedNames ts ⊆ assignedNames us := by
  obtain ⟨front, rfl⟩ := h
  induction front with
  | nil => exact List.Subset.refl _
  | cons t front ih => exact List.Subset.trans ih (assignedNames_subset_cons t (front ++ ts))

theorem assignedNames_subset_append (ts us : List Token) :
    assignedNames ts ⊆ assignedNames (ts ++ us) := by
  fun_induction assignedNames ts with
  | case1 t colon ts name ht hc ih =>
    simp only [List.cons_append, assignedNames, ht, hc]
    exact List.cons_subset_cons name ih
  | case2 t colon ts h ih =>
    exact List.Subset.trans ih (assignedNames_subset_cons t (colon :: ts ++ us))
  | case3 => exact List.nil_subset _

theorem mem_assignedNames {t colon : Token} {name : String} (ts : List Token)
    (ht : t.kind = .identifier name) (hc : colon.kind = .colon) :
    name ∈ assignedNames (t :: colon :: ts) := by
  simp [assignedNames, ht, hc]

/-! ## Assignments in what is read -/

theorem assigned_join (level : Level) (a : Expr) (op : Token) (b : Expr) :
    (level.join a op b).assigned = a.assigned ++ b.assigned := by
  cases level <;> rfl

/-- Only statements assign, and only to names in front of a colon. -/
theorem Reading.assigned {stop : Token} {layer : Layer} {depth : Nat} {ts : List Token}
    {p : Parsed} (h : Reading stop layer depth ts p) {x : String} (hx : x ∈ p.value.assigned) :
    layer = .statement ∧ x ∈ assignedNames ts := by
  induction h with
  | assignTooDeep | minusTooDeep | groupTooDeep | refuse | finish | literal =>
    simp [Parsed.tooDeep, Parsed.refuse, Expr.assigned] at hx
  | @assign t colon name ts depth p ht hc _ ih =>
    refine ⟨rfl, ?_⟩
    have hmem : x = name ∨ x ∈ p.value.assigned := by
      simpa [Expr.assigned] using hx
    rcases hmem with rfl | hmem
    · exact mem_assignedNames ts ht hc
    · have hsuffix : ts <:+ t :: colon :: ts := ⟨[t, colon], rfl⟩
      exact assignedNames_subset_of_suffix hsuffix (ih hmem).2
  | expression _ _ _ ih => cases (ih hx).1
  | @join level ts rest depth left right op _ hleft _ _ ihl ihr =>
    simp only [assigned_join, List.mem_append] at hx
    rcases hx with hx | hx
    · cases (ihl hx).1
    · exact absurd (ihr hx).1 level.operand_ne_statement
  | @operand level ts depth p _ ih => exact absurd (ih hx).1 level.operand_ne_statement
  | minus _ _ ih | primary _ ih => cases (ih hx).1
  | @group t ts depth p _ _ _ ih =>
    rw [Parsed.value_endLine, Parsed.value_close] at hx
    cases (ih hx).1

theorem mem_assignedNames_of_mem_statements {stop : Token} {ts : List Token} {s : Expr}
    (hs : s ∈ (statements stop ts).statements) {x : String} (hx : x ∈ s.assigned) :
    x ∈ assignedNames ts := by
  fun_induction statements stop ts with
  | case1 => simp at hs
  | case2 t ts hn ih => exact assignedNames_subset_cons t ts (ih hs)
  | case3 t ts hn first more ih =>
    rcases List.mem_cons.1 hs with rfl | hs
    · exact ((reading_statement stop maxNesting (t :: ts)).assigned hx).2
    · have hsuffix := (statement stop maxNesting).suffix (t :: ts)
      exact assignedNames_subset_of_suffix hsuffix (ih hs)

theorem mem_assignedNames_of_mem_parse {tokens : List Token} {s : Expr}
    (hs : s ∈ (parse tokens).statements) {x : String} (hx : x ∈ s.assigned) :
    x ∈ assignedNames tokens := by
  have hmem := mem_assignedNames_of_mem_statements hs hx
  rw [ahead_feed] at hmem
  obtain ⟨rest, hrest⟩ := List.takeWhile_prefix (l := tokens) fun t => !t.isEnd
  rw [← hrest]
  exact assignedNames_subset_append _ _ hmem

/-! ## Lines -/

theorem mem_assignedNames_of_mem_writes {limit : Nat} {source : String} {env : Environment}
    {b : String × Expr} (h : b ∈ Line.writes limit source env) :
    b.1 ∈ assignedNames (tokens source) := by
  obtain ⟨s, hs, hb⟩ := exists_mem_assigned_of_mem_writesAll h
  exact mem_assignedNames_of_mem_parse hs hb

theorem snd_runLineWithin_of_assignedNames_eq_nil {source : String}
    (h : assignedNames (tokens source) = []) (limit : Nat) (env : Environment) :
    (runLineWithin limit source env).2 = env := by
  have hwrites : Line.writes limit source env = [] := by
    rw [List.eq_nil_iff_forall_not_mem]
    intro b hb
    have hmem := mem_assignedNames_of_mem_writes hb
    simp [h] at hmem
  rw [snd_runLineWithin, hwrites, Environment.bindAll_nil]

theorem runLinesWithin_around {source : String} (h : assignedNames (tokens source) = [])
    (limit : Nat) (front back : List String) (env : Environment) :
    runLinesWithin limit (front ++ source :: back) env =
      let before := runLinesWithin limit front env
      let after := runLinesWithin limit back before.2
      (before.1 ++ (runLineWithin limit source before.2).1 :: after.1, after.2) := by
  rw [runLinesWithin_append, runLinesWithin, snd_runLineWithin_of_assignedNames_eq_nil h]

theorem runLinesWithin_replace {source other : String} (h : assignedNames (tokens source) = [])
    (h' : assignedNames (tokens other) = []) (limit : Nat) (front back : List String)
    (env : Environment) :
    let run := runLinesWithin limit (front ++ source :: back) env
    let run' := runLinesWithin limit (front ++ other :: back) env
    run'.2 = run.2 ∧ ∀ j, j ≠ front.length → run'.1[j]? = run.1[j]? := by
  rw [runLinesWithin_around h, runLinesWithin_around h']
  refine ⟨rfl, fun j hj => ?_⟩
  dsimp only
  have hset (a b : Line) (as bs : List Line) : as ++ b :: bs = (as ++ a :: bs).set as.length b := by
    simp
  rw [hset (runLineWithin limit source (runLinesWithin limit front env).2).1,
    length_runLinesWithin]
  exact List.getElem?_set_ne (Ne.symm hj)

/-- A line leaves all names alone that do not stand in front of a colon in it. It removes no name
and moves none, and new names come last, in the order in which they are first bound; all of this
also where reading or evaluating it fails. Hence a line of a text that assigns to nothing can be
replaced by another one that assigns to nothing: the other lines and the environment behind the text
stay the same. -/
theorem runLine_isolated :
    (∀ (limit : Nat) (source : String) (env : Environment),
      let writes := Line.writes limit source env
      let after := (runLineWithin limit source env).2
      after = env.bindAll writes ∧
      (∀ x, x ∉ assignedNames (tokens source) → after.lookup x = env.lookup x) ∧
      after.names = env.names ++ ((writes.map Prod.fst).filter (· ∉ env.names)).eraseDups) ∧
    ∀ (limit : Nat) (text text' source other : String) (i : Nat) (env : Environment),
      (lines text)[i]? = some source → lines text' = (lines text).set i other →
      assignedNames (tokens source) = [] → assignedNames (tokens other) = [] →
      let run := runTextWithin limit text env
      let run' := runTextWithin limit text' env
      run'.2 = run.2 ∧ ∀ j, j ≠ i → run'.1[j]? = run.1[j]? := by
  constructor
  · intro limit source env writes after
    have hafter : after = env.bindAll writes := snd_runLineWithin limit source env
    refine ⟨hafter, fun x hx => ?_, ?_⟩
    · have hnotMem : x ∉ writes.map Prod.fst := by
        intro hmem
        obtain ⟨b, hb, rfl⟩ := List.mem_map.1 hmem
        exact hx (mem_assignedNames_of_mem_writes hb)
      rw [hafter, Environment.lookup_bindAll_of_notMem env hnotMem]
    · rw [hafter, Environment.names_bindAll]
  · intro limit text text' source other i env hsource hlines h h'
    obtain ⟨hi, rfl⟩ := List.getElem?_eq_some_iff.1 hsource
    -- both texts are the same lines around the one that is replaced
    have hsplit : lines text =
        (lines text).take i ++ (lines text)[i] :: (lines text).drop (i + 1) := by
      rw [List.getElem_cons_drop, List.take_append_drop]
    have hset : (lines text).set i other =
        (lines text).take i ++ other :: (lines text).drop (i + 1) :=
      List.set_eq_take_append_cons_drop.trans (if_pos hi)
    have hlength : ((lines text).take i).length = i := List.length_take_of_le (Nat.le_of_lt hi)
    have hreplace :=
      runLinesWithin_replace h h' limit ((lines text).take i) ((lines text).drop (i + 1)) env
    rw [← hsplit, ← hset, ← hlines, hlength] at hreplace
    exact hreplace

/-- A malformed line between an assignment and its use may as well be blank. -/
theorem isolated_malformed_line :
    assignedNames (tokens "2 + )") = [] ∧ assignedNames (tokens "") = [] ∧
      let run := runTextWithin usualLimit "x: 1\n2 + )\nx" .empty
      let blank := runTextWithin usualLimit "x: 1\n\nx" .empty
      blank.2 = run.2 ∧ blank.1[2]? = run.1[2]? := by
  have hsource : (lines "x: 1\n2 + )\nx")[1]? = some "2 + )" := by decide +kernel
  have hlines : lines "x: 1\n\nx" = (lines "x: 1\n2 + )\nx").set 1 "" := by decide +kernel
  have h : assignedNames (tokens "2 + )") = [] := by decide +kernel
  have h' : assignedNames (tokens "") = [] := by decide +kernel
  have hreplace := runLine_isolated.2 usualLimit _ _ _ "" 1 .empty hsource hlines h h'
  exact ⟨h, h', hreplace.1, hreplace.2 2 (by decide)⟩

end Scratchpad
