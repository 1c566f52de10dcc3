import Scratchpad.Proofs.Closure
import Scratchpad.Proofs.Isolation
import Scratchpad.Proofs.Reads
import Scratchpad.Proofs.Recovery

/-! Lines that do not concern each other can change places. A line reads the names that occur in it
and binds some of those in front of a colon; what it shows is found along references that it has
made itself, as long as there were none before. So a line does not notice another one that assigns
to none of its names. -/
namespace Scratchpad

/-! ## References -/

/-- A value that is no reference to another name than the given ones. -/
def Expr.RefersInto (names : List String) (v : Expr) : Prop :=
  ∀ n, v = .literal (.name n) → n ∈ names

namespace Environment

def RefersInto (names : List String) (env : Environment) : Prop :=
  ∀ b ∈ env.bindings, b.2.RefersInto names

theorem RefersInto.mono {names more : List String} {env : Environment} (h : env.RefersInto names)
    (hmore : names ⊆ more) : env.RefersInto more :=
  fun b hb n hn => hmore (h b hb n hn)

theorem RefersInto.lookup {names : List String} {env : Environment} (h : env.RefersInto names)
    {x : String} {v : Expr} (hv : env.lookup x = some v) : v.RefersInto names :=
  h _ (mem_bindings_of_lookup hv)

theorem RefersInto.bind {names : List String} {env : Environment} (h : env.RefersInto names)
    (name : String) {value : Expr} (hv : value.RefersInto names) :
    (env.bind name value).RefersInto names := by
  intro b hb
  rcases mem_bindIn hb with rfl | hb
  · exact hv
  · exact h b hb

theorem RefersInto.erase {names : List String} {env : Environment} (h : env.RefersInto names)
    (name : String) : (env.erase name).RefersInto names :=
  fun b hb => h b (List.mem_filter.1 hb).1

end Environment

/-- Values and bindings behind an evaluation that are no references to other names. -/
structure Refers (names : List String) (r : Option Expr × Environment) : Prop where
  env : r.2.RefersInto names
  value : ∀ v ∈ r.1, v.RefersInto names

theorem refers_some {names : List String} {v : Expr} {env : Environment}
    (h : env.RefersInto names) (hv : v.RefersInto names) : Refers names (some v, env) where
  env := h
  value := by simpa using hv

theorem Refers.andThen {names : List String} {r : Option Expr × Environment} (h : Refers names r)
    {next : Expr → Environment → Option Expr × Environment}
    (hnext : ∀ v env, env.RefersInto names → v.RefersInto names → Refers names (next v env)) :
    Refers names (match r with
      | (some v, env) => next v env
      | stuck => stuck) := by
  obtain ⟨_ | v, env⟩ := r
  · exact h
  · exact hnext v env h.env (h.value v rfl)

theorem Expr.IsValueIn.refersInto {v : Expr} (h : v.IsValueIn .empty) (names : List String) :
    v.RefersInto names := by
  rintro n rfl
  cases h with
  | name hn => cases hn

theorem refersInto_resolve {names : List String} {env : Environment} (h : env.RefersInto names)
    (atom : Atom) : (atom.resolve env).RefersInto names := by
  cases atom with
  | boolean value => exact (Expr.IsValueIn.boolean value).refersInto names
  | number value => exact (Expr.IsValueIn.number value).refersInto names
  | name n =>
    rw [Atom.resolve]
    cases hn : env.lookup n with
    | none => exact Expr.IsValueIn.nothing.refersInto names
    | some v => exact h.lookup hn

theorem settle_eq_some {op : Token} {left v : Expr} (h : op.settle left = some v) :
    v = .nothing ∨ v = left := by
  rw [Token.settle] at h
  split at h
  · exact .inl (Option.some.inj h).symm
  · split at h
    · exact .inr (Option.some.inj h).symm
    · cases h

/-- Evaluation makes references to assigned names only. -/
theorem refers_evalWithin (limit : Nat) {names : List String} (e : Expr) {env : Environment}
    (h : env.RefersInto names) (he : e.assigned ⊆ names) :
    Refers names (e.evalWithin limit env) := by
  induction limit generalizing e env with
  | zero => cases e <;> exact ⟨h, by simp [Expr.evalWithin]⟩
  | succ limit ih =>
    cases e with
    | nothing | invalid => exact refers_some h (Expr.IsValueIn.nothing.refersInto names)
    | literal atom => exact refers_some h (refersInto_resolve h atom)
    | group inner => exact ih inner h he
    | unary op e =>
      refine (ih e h he).andThen fun v env' h' _ => ?_
      exact refers_some h' ((isValueIn_sign op v).refersInto names)
    | assign name e =>
      -- Only here does a value become a reference, to the name that has just been bound.
      obtain ⟨hname, he⟩ := List.cons_subset.1 he
      refine (ih e h he).andThen fun v env' h' hv => ?_
      refine refers_some (h'.bind name hv) ?_
      rintro n hn
      obtain rfl : name = n := by simpa using hn
      exact hname
    | binary a op b =>
      obtain ⟨ha, hb⟩ := List.append_subset.1 he
      refine (ih a h ha).andThen fun l env' h' _ => (ih b h' hb).andThen fun r env'' h'' _ => ?_
      exact refers_some h'' ((isValueIn_combine op l r).refersInto names)
    | logical a op b =>
      obtain ⟨ha, hb⟩ := List.append_subset.1 he
      refine (ih a h ha).andThen fun l env' h' hl => ?_
      cases hs : op.settle l with
      | some v =>
        rcases settle_eq_some hs with rfl | rfl
        · exact refers_some h' (Expr.IsValueIn.nothing.refersInto names)
        · exact refers_some h' hl
      | none => exact ih b h' hb

theorem refers_evalAll (limit : Nat) {names : List String} (statements : List Expr) {last : Expr}
    {env : Environment} (h : env.RefersInto names) (hlast : last.RefersInto names)
    (hs : ∀ s ∈ statements, s.assigned ⊆ names) :
    Refers names (evalAll limit statements last env) := by
  induction statements generalizing last env with
  | nil => exact refers_some h hlast
  | cons s rest ih =>
    refine (refers_evalWithin limit s h (hs s List.mem_cons_self)).andThen fun v env' h' hv => ?_
    exact ih h' hv fun r hr => hs r (List.mem_cons_of_mem s hr)

/-- What is shown depends on the names only that references lead to. -/
theorem display_of_agreeOn {names : List String} {v : Expr} {env other : Environment}
    (hv : v.RefersInto names) (henv : env.RefersInto names)
    (h : Environment.AgreeOn names env other) : v.display other = v.display env := by
  fun_induction Expr.display v env generalizing other with
  | case1 env n w hw ih =>
    have hw' : other.lookup n = some w := (h n (hv n rfl)).trans hw
    rw [Expr.display_of_lookup_eq_some hw']
    exact ih (henv.lookup hw) (henv.erase n) (h.erase n)
  | case2 env n hn =>
    exact Expr.display_of_lookup_eq_none ((h n (hv n rfl)).trans hn)
  | case3 env atom hname =>
    rw [Expr.display]
    exact hname
  | case4 v env hname hliteral => rw [Expr.display] <;> assumption

/-! ## Names in tokens -/

namespace Kind

def name? : Kind → Option String
  | identifier name => some name
  | _ => none

end Kind

def identifiers (ts : List Token) : List String := ts.filterMap fun t => t.kind.name?

theorem mem_identifiers {t : Token} {name : String} (ht : t.kind = .identifier name)
    (ts : List Token) : name ∈ identifiers (t :: ts) := by
  simp [identifiers, ht, Kind.name?]

theorem subset_identifiers_of_sublist {names : List String} {ts us : List Token}
    (h : names ⊆ identifiers ts) (hts : ts.Sublist us) : names ⊆ identifiers us :=
  List.Subset.trans h (hts.filterMap _).subset

theorem assignedNames_subset_identifiers (ts : List Token) :
    assignedNames ts ⊆ identifiers ts := by
  fun_induction assignedNames ts with
  | case1 t colon ts name hc ht ih =>
    have hrest := subset_identifiers_of_sublist ih (List.sublist_cons_self t (colon :: ts))
    exact List.cons_subset.2 ⟨mem_identifiers ht (colon :: ts), hrest⟩
  | case2 t colon ts h ih =>
    exact subset_identifiers_of_sublist ih (List.sublist_cons_self t (colon :: ts))
  | case3 => exact List.nil_subset _

/-- The names in what is read stand in the tokens that it stands for. -/
theorem Yields.mentioned {source : List Token} {e : Expr} {n : Nat} {ts : List Token}
    (h : Yields source e n ts) : e.mentioned ⊆ identifiers ts := by
  induction h with
  | @literal t atom ht =>
    cases atom with
    | boolean | number => exact List.nil_subset _
    | name n => exact List.cons_subset.2 ⟨mem_identifiers ht [], List.nil_subset _⟩
  | @unary op e n ts _ ih =>
    exact subset_identifiers_of_sublist ih (List.sublist_cons_self op ts)
  | @binary a b op m n ts us _ _ iha ihb | @logical a b op m n ts us _ _ iha ihb =>
    have hleft : ts.Sublist (ts ++ op :: us) := List.sublist_append_left ts _
    have hright : us.Sublist (ts ++ op :: us) :=
      (List.sublist_cons_self op us).trans (List.sublist_append_right ts _)
    exact List.append_subset.2 ⟨subset_identifiers_of_sublist iha hleft,
      subset_identifiers_of_sublist ihb hright⟩
  | @assign t colon name e n ts _ _ _ ih =>
    have hvalue : ts.Sublist (t :: colon :: ts) :=
      (List.sublist_cons_self colon ts).trans (List.sublist_cons_self t _)
    exact subset_identifiers_of_sublist ih hvalue
  | @group opening closing e n ts _ _ _ ih =>
    have hinner : ts.Sublist (opening :: ts ++ [closing]) :=
      (List.sublist_cons_self opening ts).trans (List.sublist_append_left _ _)
    exact subset_identifiers_of_sublist ih hinner
  | @unclosed opening e n ts _ _ ih =>
    exact subset_identifiers_of_sublist ih (List.sublist_cons_self opening ts)
  | refused | refusedLineEnd | tooDeep => exact List.nil_subset _

theorem YieldsAll.mentioned {source : List Token} {es : List Expr} {n : Nat} {ts : List Token}
    (h : YieldsAll source es n ts) {s : Expr} (hs : s ∈ es) : s.mentioned ⊆ identifiers ts := by
  induction h with
  | nil => cases hs
  | cons hy _ ih =>
    rcases List.mem_cons.1 hs with rfl | hs
    · exact subset_identifiers_of_sublist hy.mentioned (List.sublist_append_left _ _)
    · exact subset_identifiers_of_sublist (ih hs) (List.sublist_append_right _ _)

theorem mentioned_subset_identifiers {tokens : List Token} {s : Expr}
    (hs : s ∈ (parse tokens).statements) : s.mentioned ⊆ identifiers tokens := by
  have hends : ∀ t ∈ (feed tokens).ahead, t.kind ≠ .endOfInput := by
    intro t ht
    simpa [Token.isEnd] using isEnd_of_mem_ahead ht
  have hyields := yieldsAll_statements (kind_stop_feed tokens) List.suffix_rfl hends
  refine subset_identifiers_of_sublist (hyields.mentioned hs) ?_
  rw [ahead_feed]
  exact List.filter_sublist.trans (List.takeWhile_sublist _)

/-! ## Lines -/

namespace Environment

theorem mem_bindings_iff {env : Environment} {x : String} {v : Expr} :
    (x, v) ∈ env.bindings ↔ env.lookup x = some v := by
  refine ⟨fun h => ?_, mem_bindings_of_lookup⟩
  obtain ⟨front, back, hbindings⟩ := List.append_of_mem h
  have hnodup := env.nodup
  rw [hbindings, List.map_append, List.map_cons, List.nodup_append] at hnodup
  refine List.lookup_eq_some_iff.2 ⟨front, back, hbindings, fun b hb => ?_⟩
  have hne := hnodup.2.2 b.1 (List.mem_map_of_mem hb) x List.mem_cons_self
  simpa using hne.symm

/-- Environments in which the same names have the same values differ in their order at most. -/
theorem perm_of_lookup_eq {env other : Environment} (h : ∀ x, other.lookup x = env.lookup x) :
    env.bindings.Perm other.bindings := by
  have hnodup (env : Environment) : env.bindings.Nodup :=
    List.Pairwise.of_map Prod.fst (fun _ _ hne heq => hne (congrArg Prod.fst heq)) env.nodup
  refine (List.perm_ext_iff_of_nodup (hnodup env) (hnodup other)).2 fun ⟨x, v⟩ => ?_
  rw [mem_bindings_iff, mem_bindings_iff, h]

end Environment

/-- A line does not notice what happens to names that do not occur in it, where no name stands for
another one in front of it. -/
theorem runLineWithin_of_agreeOn (limit : Nat) {source : String} {env other : Environment}
    (henv : env.RefersInto [])
    (h : Environment.AgreeOn (identifiers (tokens source)) env other) :
    (runLineWithin limit source other).1 = (runLineWithin limit source env).1 ∧
      Line.writes limit source other = Line.writes limit source env := by
  have hread : ∀ s ∈ (parse (tokens source)).statements,
      Environment.AgreeOn s.mentioned env other :=
    fun s hs => h.mono (mentioned_subset_identifiers hs)
  have hassigned : ∀ s ∈ (parse (tokens source)).statements,
      s.assigned ⊆ identifiers (tokens source) :=
    fun s hs x hx =>
      assignedNames_subset_identifiers _ (mem_assignedNames_of_mem_parse hs hx)
  obtain ⟨hvalue, hwrites⟩ := evalAll_of_agreeOn limit .nothing hread
  -- References lead to names of the line only, so what is shown is found among them.
  have hrefers := refers_evalAll limit (parse (tokens source)).statements
    (henv.mono (List.nil_subset _)) (Expr.IsValueIn.nothing.refersInto _) hassigned
  have hbehind := h.bindAll (writesAll limit (parse (tokens source)).statements env)
  rw [← hwrites, ← snd_evalAll limit _ .nothing other, hwrites,
    ← snd_evalAll limit _ .nothing env] at hbehind
  refine ⟨?_, hwrites⟩
  rw [runLineWithin, runLineWithin]
  rcases hv : evalAll limit (parse (tokens source)).statements .nothing env with ⟨v, env'⟩
  rcases hv' : evalAll limit (parse (tokens source)).statements .nothing other with ⟨v', other'⟩
  rw [hv, hv'] at hvalue hbehind
  rw [hv] at hrefers
  obtain rfl : v' = v := hvalue
  cases v' with
  | none => rfl
  | some v =>
    have hshown := display_of_agreeOn (hrefers.value v rfl) hrefers.env hbehind
    simp only [hshown]

theorem mem_assignedNames_of_mem_map_writes {limit : Nat} {source : String} {env : Environment}
    {x : String} (h : x ∈ (Line.writes limit source env).map Prod.fst) :
    x ∈ assignedNames (tokens source) := by
  obtain ⟨b, hb, rfl⟩ := List.mem_map.1 h
  exact mem_assignedNames_of_mem_writes hb

/-- Two lines that assign to no name that occurs in the other one can change places, where no name
stands for another one in front of them. Each has the value, shows the text and finds the faults
that it does in the other order, and both orders bind the same names to the same values. -/
theorem runLineWithin_comm (limit : Nat) {a b : String} {env : Environment}
    (henv : ∀ x n, env.lookup x ≠ some (.literal (.name n)))
    (hab : ∀ x ∈ assignedNames (tokens a), x ∉ identifiers (tokens b))
    (hba : ∀ x ∈ assignedNames (tokens b), x ∉ identifiers (tokens a)) :
    let firstA := runLineWithin limit a env
    let thenB := runLineWithin limit b firstA.2
    let firstB := runLineWithin limit b env
    let thenA := runLineWithin limit a firstB.2
    thenA.1 = firstA.1 ∧ thenB.1 = firstB.1 ∧ (∀ x, thenA.2.lookup x = thenB.2.lookup x) ∧
      thenA.2.bindings.Perm thenB.2.bindings := by
  have hnone : env.RefersInto [] := by
    rintro ⟨x, v⟩ hmem n rfl
    exact absurd (Environment.mem_bindings_iff.1 hmem) (henv x n)
  -- in front of the second line the first has bound nothing that the second reads
  have hunseen {c d : String} (h : ∀ x ∈ assignedNames (tokens c), x ∉ identifiers (tokens d)) :
      Environment.AgreeOn (identifiers (tokens d)) env (runLineWithin limit c env).2 := by
    rw [snd_runLineWithin]
    exact Environment.agreeOn_bindAll env fun x hx hmem =>
      h x (mem_assignedNames_of_mem_map_writes hmem) hx
  obtain ⟨hlineA, hwritesA⟩ := runLineWithin_of_agreeOn limit hnone (hunseen hba)
  obtain ⟨hlineB, hwritesB⟩ := runLineWithin_of_agreeOn limit hnone (hunseen hab)
  have hdisjoint : ∀ x ∈ (Line.writes limit a env).map Prod.fst,
      x ∉ (Line.writes limit b env).map Prod.fst := by
    intro x ha hb
    have hassigned := mem_assignedNames_of_mem_map_writes hb
    exact hab x (mem_assignedNames_of_mem_map_writes ha)
      (assignedNames_subset_identifiers _ hassigned)
  intro firstA thenB firstB thenA
  have hthenB : thenB.2 = (env.bindAll (Line.writes limit a env)).bindAll
      (Line.writes limit b env) := by
    rw [snd_runLineWithin, hwritesB, snd_runLineWithin]
  have hthenA : thenA.2 = (env.bindAll (Line.writes limit b env)).bindAll
      (Line.writes limit a env) := by
    rw [snd_runLineWithin, hwritesA, snd_runLineWithin]
  -- the bindings of both lines are of different names, so their order does not matter
  have hlookup : ∀ x, thenA.2.lookup x = thenB.2.lookup x := by
    rw [hthenA, hthenB]
    exact Environment.lookup_bindAll_comm env hdisjoint
  exact ⟨hlineA, hlineB, hlookup, Environment.perm_of_lookup_eq fun x => (hlookup x).symm⟩

/-- A chain of aliases and a malformed line about the same name, neither of which assigns to it. -/
theorem runLineWithin_comm_aliases :
    let env := Environment.empty.bind "z" (.literal (.boolean true))
    let firstA := runLineWithin usualLimit "x: y: z" env
    let firstB := runLineWithin usualLimit "w: (z or 1 )) w" env
    (∀ x n, env.lookup x ≠ some (.literal (.name n))) ∧
      assignedNames (tokens "x: y: z") = ["x", "y"] ∧
      identifiers (tokens "w: (z or 1 )) w") = ["w", "z", "w"] ∧
      (runLineWithin usualLimit "x: y: z" firstB.2).1 = firstA.1 ∧ firstA.1.display = "true" ∧
      (runLineWithin usualLimit "w: (z or 1 )) w" firstA.2).1 = firstB.1 ∧
      firstB.1.display = "true" := by
  intro env firstA firstB
  have henv : ∀ x n, env.lookup x ≠ some (.literal (.name n)) := by
    intro x n
    rw [Environment.lookup_bind]
    split <;> simp
  have hassigned : assignedNames (tokens "x: y: z") = ["x", "y"] := by decide +kernel
  have hnames : identifiers (tokens "w: (z or 1 )) w") = ["w", "z", "w"] := by decide +kernel
  have hab : ∀ x ∈ assignedNames (tokens "x: y: z"),
      x ∉ identifiers (tokens "w: (z or 1 )) w") := by decide +kernel
  have hba : ∀ x ∈ assignedNames (tokens "w: (z or 1 )) w"),
      x ∉ identifiers (tokens "x: y: z") := by decide +kernel
  obtain ⟨hA, hB, -⟩ := runLineWithin_comm usualLimit henv hab hba
  exact ⟨henv, hassigned, hnames, hA, by decide +kernel, hB, by decide +kernel⟩

end Scratchpad
