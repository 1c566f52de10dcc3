import Mathlib.Data.List.DropRight
import Scratchpad.Session
import Scratchpad.Proofs.Coherence

/-! A session as a stack of lines. All that a session remembers is the lines entered and not taken
back: what it writes at a prompt is told by them and by what is typed there, and every run is one of
these lines as a document of their own. -/
namespace Scratchpad

/-! ## Commands -/

namespace Command

def argument (line : String) : String :=
  String.ofList (trimStart ((trim line.toList).dropWhile fun c => !isBlank c))

def opens (line : String) : Bool := line.toList.find? (fun c => !isBlank c) = some '/'

theorem head?_trim (text : List Char) :
    (trim text).head? = text.find? fun c => !isBlank c := by
  rw [List.find?_not_eq_head?_dropWhile, trim, trimStart]
  cases htext : text.dropWhile isBlank with
  | nil => rfl
  | cons c cs =>
    have hc : isBlank c = false := by
      have hhead := List.head?_dropWhile_not isBlank text
      simpa [htext] using hhead
    -- The first character is not blank, so trimming the end stops behind it.
    have hfront : trimEnd (c :: cs) <+: c :: cs := List.rdropWhile_prefix isBlank (c :: cs)
    have hne : trimEnd (c :: cs) ≠ [] := by
      intro hnil
      have hblank := List.rdropWhile_eq_nil_iff.1 hnil c List.mem_cons_self
      simp [hc] at hblank
    obtain ⟨d, ds, hd⟩ := List.exists_cons_of_ne_nil hne
    rw [hd] at hfront
    rw [hd, (List.cons_prefix_cons.1 hfront).1]
    rfl

theorem ofLine?_eq (line : String) :
    ofLine? line = if opens line then some (ofWord (firstWord line) (argument line)) else none := by
  simp only [ofLine?, opens, head?_trim, decide_eq_true_eq]
  rfl

end Command

/-! ## Stacks of lines -/

namespace LineStack

variable (machine : Machine)

/-- The run of the lines as one document; where there are none, nothing is run. -/
def run (stack : List String) : List Line × Environment :=
  if stack.isEmpty then ([], .empty)
  else runTextWithin machine.evaluationLimit (unlines stack) .empty

def diagnostics (stack : List String) : List Output :=
  ((run machine stack).1.flatMap Line.faults).map .diagnostic

def rows (stack : List String) : List String :=
  (run machine stack).1.map (Notepad.renderLine ((stack.map String.length).foldl max 0))

/-- The lines behind a command. Two words change them. -/
def edited (stack : List String) (word : String) : List String :=
  if word = "/undo" then stack.dropLast
  else if word = "/reset" then []
  else stack

/-- The text whose outline is asked for: what stands behind the command, or else the last line. -/
def outlined (stack : List String) (argument : String) : String :=
  if argument.isEmpty then stack.getLastD "" else argument

def reply (stack : List String) (word argument : String) : List Output :=
  if word = "/clear" then [.clearScreen]
  else if word = "/reset" then [.line "Document reset."]
  else if word = "/show" then (rows machine stack).map .line
  else if word = "/vars" then (run machine stack).2.listing.map .line
  else if word = "/undo" then
    if stack.isEmpty then [.complaint "Nothing to undo."] else diagnostics machine stack.dropLast
  else if word = "/ast" then (machine.outlineText (outlined stack argument)).outputs
  else [.complaint s!"Unknown command: {word}"]

def next (stack : List String) (typed : String) : List String :=
  let line := Session.normalize typed
  if Command.opens line then edited stack (Command.firstWord line) else stack ++ [line]

/-- What is written on the last of the lines: the diagnostics of all of them, and what it shows in
their document, if that is anything. -/
def entered (stack : List String) : List Output :=
  let document := runTextWithin machine.evaluationLimit (unlines stack) .empty
  let shown := (document.1.map Line.display).getLastD ""
  diagnostics machine stack ++ if shown.isEmpty then [] else [.line s!"    = {shown}"]

def answer (stack : List String) (typed : String) : List Output :=
  let line := Session.normalize typed
  if Command.opens line then reply machine stack (Command.firstWord line) (Command.argument line)
  else entered machine (stack ++ [line])

def prompt (stack : List String) : String :=
  String.ofList (List.leftpad 3 ' ' (Nat.toDigits 10 (stack.length + 1))) ++ " │ "

def screens (stack : List String) (pending : List Output) : List Input → List Session.Screen
  | .line typed :: inputs =>
    ⟨pending, some (prompt stack)⟩ ::
      screens (next stack typed) (answer machine stack typed) inputs
  | .interrupt :: inputs =>
    ⟨pending, some (prompt stack)⟩ :: screens stack [.line "KeyboardInterrupt"] inputs
  | .finish :: _ | [] => [⟨pending, some (prompt stack)⟩, ⟨[.line ""], none⟩]

def transcript (inputs : List Input) : List Session.Screen :=
  screens machine [] [.line Session.greeting] inputs

/-- Whether a typed line asks for an outline that the machine has no stack for. -/
def overruns (stack : List String) (typed : String) : Bool :=
  let line := Session.normalize typed
  Command.opens line && Command.firstWord line = "/ast" &&
    (machine.outline
      (parse (tokens (outlined stack (Command.argument line)))).statements).isNone

/-- The number of inputs in front of the first that asks for such an outline. -/
def firstOverrun (stack : List String) : List Input → Option Nat
  | .line typed :: inputs =>
    if overruns machine stack typed then some 0
    else (firstOverrun (next stack typed) inputs).map (· + 1)
  | .interrupt :: inputs => (firstOverrun stack inputs).map (· + 1)
  | .finish :: _ | [] => none

end LineStack

/-! ## Notepads -/

namespace Notepad
open LineStack

variable {machine : Machine} {pad : Notepad} (h : pad.Coherent machine.evaluationLimit)
include h

theorem Coherent.run_eq :
    (pad.document.results, pad.document.after) = LineStack.run machine pad.buffer := by
  rw [LineStack.run]
  split
  · next hb =>
    obtain ⟨-, hresults, hafter⟩ := h.blank (List.isEmpty_iff.1 hb)
    rw [hresults, hafter]
  · next hb => exact (h.run fun hn => hb (List.isEmpty_iff.2 hn)).2

theorem Coherent.results_eq : pad.document.results = (LineStack.run machine pad.buffer).1 :=
  congrArg Prod.fst h.run_eq

theorem Coherent.after_eq : pad.document.after = (LineStack.run machine pad.buffer).2 :=
  congrArg Prod.snd h.run_eq

theorem Coherent.diagnostics_eq : pad.diagnostics = LineStack.diagnostics machine pad.buffer := by
  rw [diagnostics, Document.faults, h.results_eq]
  rfl

theorem Coherent.render_eq : pad.render = rows machine pad.buffer := by
  rw [render, h.results_eq]
  rfl

end Notepad

/-! ## Steps -/

namespace LineStack
variable {machine : Machine}

/-- What has been done at a notepad: what is written, the failure if there is one, and the buffer
that is left. -/
structure Does (machine : Machine) (done : Written × Notepad) (outputs : List Output)
    (failure : Option Failure) (stack : List String) : Prop where
  written : done.1 = ⟨outputs, failure⟩
  buffer : done.2.buffer = stack
  coherent : done.2.Coherent machine.evaluationLimit

theorem does_undo {pad : Notepad} (h : pad.Coherent machine.evaluationLimit) :
    Does machine (Command.undo.run machine pad)
      (if pad.buffer.isEmpty then [.complaint "Nothing to undo."]
        else diagnostics machine pad.buffer.dropLast) none pad.buffer.dropLast := by
  cases hb : pad.buffer.isEmpty with
  | true =>
    have hu : pad.undo? machine.evaluationLimit = none := by simp [Notepad.undo?, hb]
    rw [Command.run, hu, List.isEmpty_iff.1 hb]
    exact ⟨rfl, List.isEmpty_iff.1 hb, h⟩
  | false =>
    obtain ⟨after, hu⟩ : ∃ after, pad.undo? machine.evaluationLimit = some after := by
      simp [Notepad.undo?, hb]
    have hafter := h.undo hu
    have hbuffer : after.buffer = pad.buffer.dropLast := by
      simp only [Notepad.undo?, hb, Bool.false_eq_true, if_false, Option.some.injEq] at hu
      rw [← hu, Notepad.buffer_refresh]
    rw [Command.run, hu]
    refine ⟨?_, hbuffer, hafter⟩
    rw [← hbuffer, ← hafter.diagnostics_eq]
    rfl

theorem does_ofWord {pad : Notepad} (h : pad.Coherent machine.evaluationLimit)
    (word argument : String) :
    Does machine ((Command.ofWord word argument).run machine pad)
      (reply machine pad.buffer word argument)
      (if word = "/ast" then (machine.outlineText (outlined pad.buffer argument)).failure else none)
      (edited pad.buffer word) := by
  have hkept {command : Command} {outputs : List Output} {failure : Option Failure}
      (hwritten : (command.run machine pad).1 = ⟨outputs, failure⟩)
      (hpad : (command.run machine pad).2 = pad) :
      Does machine (command.run machine pad) outputs failure pad.buffer :=
    ⟨hwritten, congrArg Notepad.buffer hpad, by rwa [hpad]⟩
  by_cases hclear : word = "/clear"
  · subst hclear
    exact hkept rfl rfl
  by_cases hreset : word = "/reset"
  · subst hreset
    exact ⟨rfl, rfl, Notepad.coherent_empty⟩
  by_cases hshow : word = "/show"
  · subst hshow
    have hrows : (Command.listLines.run machine pad).1 =
        ⟨(rows machine pad.buffer).map .line, none⟩ := by
      rw [Command.run, h.render_eq]
      rfl
    exact hkept hrows rfl
  by_cases hvars : word = "/vars"
  · subst hvars
    have hlisting : (Command.listNames.run machine pad).1 =
        ⟨(run machine pad.buffer).2.listing.map .line, none⟩ := by
      rw [Command.run, h.after_eq]
      rfl
    exact hkept hlisting rfl
  by_cases hundo : word = "/undo"
  · subst hundo
    exact does_undo h
  by_cases hast : word = "/ast"
  · subst hast
    exact hkept rfl rfl
  · have hword : Command.ofWord word argument = .unknown word := by
      simp [Command.ofWord, hclear, hreset, hshow, hvars, hundo, hast]
    rw [hword, reply, edited]
    simp only [hclear, hreset, hshow, hvars, hundo, hast, if_false]
    exact hkept rfl rfl

theorem does_enter {pad : Notepad} (h : pad.Coherent machine.evaluationLimit) (line : String) :
    Does machine (Session.enter machine.evaluationLimit pad line)
      (entered machine (pad.buffer ++ [line])) none (pad.buffer ++ [line]) := by
  have happend := h.append line
  have hbuffer : (pad.append machine.evaluationLimit line).buffer = pad.buffer ++ [line] :=
    Notepad.buffer_append pad line
  have hrun : run machine (pad.buffer ++ [line]) =
      runTextWithin machine.evaluationLimit (unlines (pad.buffer ++ [line])) .empty := by simp [run]
  have hshown : (pad.append machine.evaluationLimit line).lastDisplay =
      ((run machine (pad.buffer ++ [line])).1.map Line.display).getLastD "" := by
    rw [Notepad.lastDisplay, Document.displays, happend.results_eq, hbuffer]
  refine ⟨?_, hbuffer, happend⟩
  rw [Session.enter, entered, ← hrun, ← hshown, ← hbuffer, ← happend.diagnostics_eq]
  rfl

theorem does_respond {pad : Notepad} (h : pad.Coherent machine.evaluationLimit) (typed : String) :
    Does machine (Session.respond machine pad typed) (answer machine pad.buffer typed)
      (if overruns machine pad.buffer typed then some .stack else none)
      (next pad.buffer typed) := by
  rw [Session.respond, Command.ofLine?_eq]
  by_cases hopens : Command.opens (Session.normalize typed) = true
  · have hword := does_ofWord h (Command.firstWord (Session.normalize typed))
      (Command.argument (Session.normalize typed))
    simp only [Machine.failure_outlineText, ← ite_and] at hword
    simpa only [answer, next, overruns, hopens, if_true, Bool.true_and, Bool.and_eq_true,
      decide_eq_true_eq] using hword
  · simp only [Bool.not_eq_true] at hopens
    simpa only [answer, next, overruns, hopens, Bool.false_eq_true, if_false, Bool.false_and]
      using does_enter h (Session.normalize typed)

/-! ## Sessions -/

/-- What a session may be, next to the screens of a stack: the same; or as much of them as there is
up to the input that asks for an outline without the stack for it. There the diagnostics of reading
the text are the last that is written, and no prompt follows. -/
inductive Follows (stack : List Session.Screen) : Option Nat → Session.Transcript → Prop where
  | whole : Follows stack none ⟨stack, none⟩
  | upTo {n : Nat} {last : Session.Screen} : stack[n + 1]? = some last →
    Follows stack (some n)
      ⟨stack.take (n + 1) ++ [{ last with prompt := none }], some .stack⟩

theorem Follows.behind {stack : List Session.Screen} {at? : Option Nat} {t : Session.Transcript}
    (h : Follows stack at? t) (first : Session.Screen) :
    Follows (first :: stack) (at?.map (· + 1)) (t.behind first) := by
  cases h with
  | whole => exact .whole
  | upTo hlast => exact .upTo hlast

theorem exists_screens_eq_cons (machine : Machine) (stack : List String) (pending : List Output)
    (inputs : List Input) :
    ∃ prompt rest, screens machine stack pending inputs = ⟨pending, prompt⟩ :: rest := by
  cases inputs with
  | nil => exact ⟨_, _, rfl⟩
  | cons input inputs => cases input <;> exact ⟨_, _, rfl⟩

theorem follows_run {pad : Notepad} (h : pad.Coherent machine.evaluationLimit)
    (pending : List Output) (inputs : List Input) :
    Follows (screens machine pad.buffer pending inputs) (firstOverrun machine pad.buffer inputs)
      (Session.run machine pad pending inputs) := by
  induction inputs generalizing pad pending with
  | nil => exact .whole
  | cons input inputs ih =>
    cases input with
    | line typed =>
      obtain ⟨hwritten, hbuffer, hcoherent⟩ := does_respond h typed
      have hrest := ih hcoherent (answer machine pad.buffer typed)
      rw [hbuffer] at hrest
      rw [Session.run, screens, firstOverrun, hwritten]
      -- the session goes on just if the machine has the stack for the outline
      cases hover : overruns machine pad.buffer typed with
      | true =>
        obtain ⟨last, rest, hscreens⟩ := exists_screens_eq_cons machine (next pad.buffer typed)
          (answer machine pad.buffer typed) inputs
        have hlast : (⟨pending, some (prompt pad.buffer)⟩ ::
            ⟨answer machine pad.buffer typed, last⟩ :: rest)[0 + 1]? =
          some ⟨answer machine pad.buffer typed, last⟩ := rfl
        rw [hscreens]
        exact .upTo hlast
      | false => exact hrest.behind _
    | interrupt => exact (ih h _).behind _
    | finish => exact .whole

/-- Whatever is typed, in whatever order, what a session writes at each prompt is what a stack of
lines, empty at first, tells: no display, binding or diagnostic outlives the lines it comes from.
This is so up to the first outline that is asked for without the machine having the stack for it,
where the session ends, and throughout if there is none. -/
theorem transcript_eq (machine : Machine) (inputs : List Input) :
    Follows (LineStack.transcript machine inputs) (firstOverrun machine [] inputs)
      (Session.transcript machine inputs) :=
  follows_run Notepad.coherent_empty _ inputs

end LineStack

end Scratchpad
