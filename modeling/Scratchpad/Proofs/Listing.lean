import Scratchpad.Proofs.LineStack
import Scratchpad.Proofs.Printout
import Scratchpad.Proofs.Retyping
import Scratchpad.Proofs.Spacing

/-! Listings of names. Only names that are spelled in lines are ever bound, so each of them is a line
that is read as this name alone: it leaves the environment as it is, and shows what the listing has
for the name, also where references lead over other names or in a circle. -/
namespace Scratchpad

/-! ## Environments that are reached -/

/-- The environments that lines lead to, run one after the other from the empty one. Each may have a
limit of its own on how deep evaluation nests. -/
inductive Reached : Environment → Prop where
  | empty : Reached .empty
  | line {env : Environment} (limit : Nat) (source : String) :
    Reached env → Reached (runLineWithin limit source env).2

theorem Environment.mem_names_of_mem_names_bindAll {env : Environment}
    {bindings : List (String × Expr)} {n : String} (h : n ∈ (env.bindAll bindings).names) :
    n ∈ env.names ∨ n ∈ bindings.map Prod.fst := by
  rw [names_bindAll, List.mem_append, List.mem_eraseDups] at h
  exact h.imp_right List.mem_of_mem_filter

namespace Reached
variable {env : Environment}

/-- A name that is bound is what its text spells. -/
theorem spells (h : Reached env) : ∀ n ∈ env.names, Spells n.toList (.identifier n) := by
  induction h with
  | empty => exact List.forall_mem_nil _
  | line limit source _ ih =>
    intro n hn
    rw [snd_runLineWithin] at hn
    rcases Environment.mem_names_of_mem_names_bindAll hn with hn | hn
    · exact ih n hn
    · obtain ⟨b, hb, rfl⟩ := List.mem_map.1 hn
      exact spells_of_mem_writes hb

theorem runLinesWithin (h : Reached env) (limit : Nat) (sources : List String) :
    Reached (Scratchpad.runLinesWithin limit sources env).2 := by
  induction sources generalizing env with
  | nil => exact h
  | cons source rest ih => exact ih (.line limit source h)

end Reached

theorem Notepad.Coherent.reached {machine : Machine} {pad : Notepad}
    (h : pad.Coherent machine.evaluationLimit) : Reached pad.document.after := by
  rw [h.after_eq, LineStack.run]
  split
  · exact .empty
  · exact Reached.empty.runLinesWithin _ _

/-! ## Names as lines -/

section
variable {name : String} (h : Spells name.toList (.identifier name))
include h

theorem tokens_of_name :
    tokens name =
      [⟨.identifier name, name, .start⟩,
        ⟨.endOfInput, "", Position.start.after name.toList⟩] := by
  rw [tokens, h.allTokens_eq]
  rfl

theorem parse_of_name : parse (tokens name) = ⟨[.literal (.name name)], []⟩ := by
  rw [tokens_of_name h]
  refine parse_of_spelled (fits_statement_of_unary (.primary .literal)) (Nat.zero_le _)
    (.literal rfl .none) (List.cons_ne_nil _ _) (List.forall_mem_singleton.2 ?_)
    (List.forall_mem_singleton.2 rfl) rfl
  simp

theorem runLineWithin_of_name {env : Environment} {value : Expr}
    (hvalue : env.lookup name = some value) (limit : Nat) :
    runLineWithin (limit + 1) name env = (⟨name, value, value.display env, []⟩, env) := by
  have heval : (Expr.literal (.name name)).evalWithin (limit + 1) env = (some value, env) := by
    rw [Expr.evalWithin, Atom.resolve, hvalue, Option.getD_some]
  exact runLineWithin_of_parse (parse_of_name h) heval

end

/-- A name as a line: it has one token in front of the end of input, and running it finds nothing
wrong, gives what is bound to the name, and changes nothing. -/
structure Recalls (env : Environment) (name : String) (value : Expr) : Prop where
  token : tokens name =
    [⟨.identifier name, name, .start⟩, ⟨.endOfInput, "", Position.start.after name.toList⟩]
  bound : env.lookup name = some value
  run (limit : Nat) :
    runLineWithin (limit + 1) name env = (⟨name, value, value.display env, []⟩, env)

def recalledRows (limit : Nat) (env : Environment) : List String :=
  env.names.map fun name => name ++ ": " ++ (runLineWithin limit name env).1.display

namespace Reached
variable {env : Environment}

theorem recalls (h : Reached env) {name : String} (hname : name ∈ env.names) :
    ∃ value, Recalls env name value := by
  have hspells := h.spells name hname
  obtain ⟨b, hb, rfl⟩ := List.mem_map.1 hname
  have hbound : env.lookup b.1 = some b.2 := Environment.mem_bindings_iff.1 hb
  exact ⟨b.2, tokens_of_name hspells, hbound, runLineWithin_of_name hspells hbound⟩

theorem listing_eq (h : Reached env) (limit : Nat) :
    env.listing = recalledRows (limit + 1) env := by
  rw [Scratchpad.listing_eq, recalledRows]
  refine List.map_congr_left fun name hname => ?_
  obtain ⟨value, hrecalls⟩ := h.recalls hname
  rw [variableRow, hrecalls.bound, hrecalls.run]
  rfl

end Reached

/-- In every environment that lines lead to from the empty one, each name that is bound is read as
itself, and a line of it shows what the listing has for the name. So what is listed of a notepad,
whatever has been done at it, and of a text on the command line, are the names with what they show
as lines. This is so at every limit that leaves room for a name. -/
theorem listing_recalls :
    (∀ env, Reached env →
      (∀ name ∈ env.names, ∃ value, Recalls env name value) ∧
        ∀ limit, env.listing = recalledRows (limit + 1) env) ∧
    (∀ (machine : Machine) (actions : List Action) (limit : Nat),
      let pad := actions.foldl (Notepad.act machine) .empty
      Command.listNames.run machine pad =
        (.ofOutputs ((recalledRows (limit + 1) pad.document.after).map .line), pad)) ∧
    ∀ (limit room : Nat) (options : CommandLine.Options) (text : String),
      options.environment = true →
      CommandLine.evaluateText limit options text =
        CommandLine.evaluateText limit { options with environment := false } text ++
          (recalledRows (room + 1) (runTextWithin limit text .empty).2).map .line := by
  refine ⟨fun env h => ⟨fun name => h.recalls, h.listing_eq⟩, fun machine actions limit => ?_,
    fun limit room options text henvironment => ?_⟩
  · intro pad
    have hpad : pad.Coherent machine.evaluationLimit :=
      Notepad.coherent_foldl_act actions Notepad.coherent_empty
    rw [← hpad.reached.listing_eq]
    rfl
  · have hreached : Reached (runTextWithin limit text .empty).2 :=
      Reached.empty.runLinesWithin _ _
    rw [← hreached.listing_eq]
    simp [CommandLine.evaluateText, henvironment, Document.update, Document.new]

/-- Of a name bound to a reference to another one, and of a name that refers to itself. -/
theorem listing_recalls_references :
    let text := "a: b: 2.5\nx: x: true"
    let env := (runTextWithin usualLimit text .empty).2
    let options : CommandLine.Options := ⟨false, false, true, none⟩
    Reached env ∧ (∃ value, Recalls env "a" value) ∧ (∃ value, Recalls env "x" value) ∧
      env.listing = ["b: 2.5", "a: 2.5", "x: "] ∧
      recalledRows usualLimit env = ["b: 2.5", "a: 2.5", "x: "] ∧
      CommandLine.evaluateText usualLimit options text =
        [.line "2.5", .line "", .line "b: 2.5", .line "a: 2.5", .line "x: "] := by
  intro text env options
  have hreached : Reached env := Reached.empty.runLinesWithin _ _
  have ha : "a" ∈ env.names := by decide +kernel
  have hx : "x" ∈ env.names := by decide +kernel
  have hlisting : env.listing = ["b: 2.5", "a: 2.5", "x: "] := by decide +kernel
  have hdisplays : CommandLine.evaluateText usualLimit { options with environment := false } text =
      [.line "2.5", .line ""] := by decide +kernel
  obtain ⟨hreach, -, htexts⟩ := listing_recalls
  obtain ⟨hnames, hrows⟩ := hreach env hreached
  have hrecalled : recalledRows usualLimit env = ["b: 2.5", "a: 2.5", "x: "] :=
    (hrows 329).symm.trans hlisting
  refine ⟨hreached, hnames "a" ha, hnames "x" hx, hlisting, hrecalled, ?_⟩
  have htext := htexts usualLimit 329 options text rfl
  rw [hdisplays] at htext
  exact htext.trans (congrArg (fun rows => _ ++ rows.map Output.line) hrecalled)

end Scratchpad
