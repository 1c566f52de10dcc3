import Scratchpad.Command

/-! A notepad is its buffer. Whatever is done at it, the document is what running the buffer in an
empty environment leads to, so that two notepads with one buffer are the same, and taking back a
line leaves no trace of it. -/
namespace Scratchpad
namespace Notepad

/-- The document is that of the buffer: without a text if there are no lines, and otherwise the run
of the lines as one text. Nothing that they bind is kept. -/
structure Coherent (limit : Nat) (pad : Notepad) : Prop where
  before : pad.document.before = .empty
  blank : pad.buffer = [] →
    pad.document.text = "" ∧ pad.document.results = [] ∧ pad.document.after = .empty
  run : pad.buffer ≠ [] →
    pad.document.text = unlines pad.buffer ∧
      (pad.document.results, pad.document.after) = runTextWithin limit (unlines pad.buffer) .empty

variable {limit : Nat}

theorem coherent_empty : empty.Coherent limit where
  before := rfl
  blank _ := ⟨rfl, rfl, rfl⟩
  run h := absurd rfl h

theorem eq_of_buffer_eq {pad other : Notepad} (h : pad.Coherent limit) (h' : other.Coherent limit)
    (hbuffer : pad.buffer = other.buffer) : pad = other := by
  obtain ⟨buffer, ⟨before, text, results, after⟩⟩ := pad
  obtain ⟨buffer', ⟨before', text', results', after'⟩⟩ := other
  obtain rfl : buffer = buffer' := hbuffer
  obtain rfl : before = .empty := h.before
  obtain rfl : before' = .empty := h'.before
  by_cases hb : buffer = []
  · obtain ⟨rfl, rfl, rfl⟩ : text = "" ∧ results = [] ∧ after = .empty := h.blank hb
    obtain ⟨rfl, rfl, rfl⟩ : text' = "" ∧ results' = [] ∧ after' = .empty := h'.blank hb
    rfl
  · obtain ⟨rfl, hrun⟩ : text = unlines buffer ∧
        (results, after) = runTextWithin limit (unlines buffer) .empty := h.run hb
    obtain ⟨rfl, hrun'⟩ : text' = unlines buffer ∧
        (results', after') = runTextWithin limit (unlines buffer) .empty := h'.run hb
    obtain ⟨rfl, rfl⟩ := Prod.mk.inj (hrun.trans hrun'.symm)
    rfl

/-! ## Operations -/

@[simp] theorem buffer_refresh (pad : Notepad) : (pad.refresh limit).buffer = pad.buffer := by
  rw [refresh]
  split <;> rfl

@[simp] theorem buffer_append (pad : Notepad) (line : String) :
    (pad.append limit line).buffer = pad.buffer ++ [line] := buffer_refresh _

theorem coherent_refresh {pad : Notepad} (h : pad.document.before = .empty) :
    (pad.refresh limit).Coherent limit := by
  rw [refresh]
  split
  · next hb => exact ⟨rfl, fun _ => ⟨rfl, rfl, rfl⟩, fun hn => absurd (List.isEmpty_iff.1 hb) hn⟩
  · next hb =>
    refine ⟨h, fun hn => absurd (List.isEmpty_iff.2 hn) hb, fun _ => ⟨rfl, ?_⟩⟩
    rw [← h]
    rfl

theorem refresh_eq_self {pad : Notepad} (h : pad.Coherent limit) : pad.refresh limit = pad :=
  eq_of_buffer_eq (coherent_refresh h.before) h (buffer_refresh pad)

theorem Coherent.append {pad : Notepad} (h : pad.Coherent limit) (line : String) :
    (pad.append limit line).Coherent limit := coherent_refresh h.before

theorem Coherent.undo {pad after : Notepad} (h : pad.Coherent limit)
    (hu : pad.undo? limit = some after) : after.Coherent limit := by
  rw [undo?] at hu
  split at hu
  · cases hu
  · obtain rfl := Option.some.inj hu
    exact coherent_refresh h.before

/-- The notepad with one line more, and that line taken back, is the notepad. -/
theorem undo?_append {pad : Notepad} (h : pad.Coherent limit) (line : String) :
    (pad.append limit line).undo? limit = some pad := by
  have hb : (pad.append limit line).buffer.isEmpty = false := by simp
  have hundo : (pad.append limit line).undo? limit =
      some (refresh limit
        { pad.append limit line with buffer := (pad.append limit line).buffer.dropLast }) := by
    rw [undo?, hb]
    rfl
  have hbuffer : (refresh limit { pad.append limit line with
      buffer := (pad.append limit line).buffer.dropLast }).buffer = pad.buffer := by simp
  rw [hundo, eq_of_buffer_eq ((h.append line).undo hundo) h hbuffer]

end Notepad

/-! ## Commands -/

namespace Command

/-- The characters of a line up to a blank, those before its first one that is not blank apart. -/
def firstWord (line : String) : String :=
  String.ofList ((trim line.toList).takeWhile fun c => !isBlank c)

def edits : Command → Bool
  | reset | undo => true
  | _ => false

theorem word_of_edits {word argument : String} (h : (ofWord word argument).edits = true) :
    word = "/undo" ∨ word = "/reset" := by
  grind [ofWord, edits]

theorem firstWord_of_edits {line : String} {command : Command} (h : ofLine? line = some command)
    (he : command.edits = true) : firstWord line = "/undo" ∨ firstWord line = "/reset" := by
  simp only [ofLine?] at h
  split at h
  · obtain rfl := Option.some.inj h
    exact word_of_edits he
  · cases h

variable (machine : Machine)

theorem snd_run_of_edits_eq_false {command : Command} (h : command.edits = false) (pad : Notepad) :
    (command.run machine pad).2 = pad := by
  cases command with
  | reset | undo => cases h
  | _ => rfl

theorem coherent_run (command : Command) {pad : Notepad}
    (h : pad.Coherent machine.evaluationLimit) :
    (command.run machine pad).2.Coherent machine.evaluationLimit := by
  cases command with
  | reset => exact Notepad.coherent_empty
  | undo =>
    rw [run]
    split
    · next after hu => exact h.undo hu
    · exact h
  | _ => exact h

end Command

/-! ## All that is done at a notepad -/

/-- What may be done at a notepad; a line with a slash in front is a command, others are none. -/
inductive Action where
  | append (line : String)
  | undo
  | reset
  | refresh
  | slash (line : String)

namespace Action

def MayEdit : Action → Prop
  | append _ | undo | reset => True
  | refresh => False
  | slash line => Command.firstWord line = "/undo" ∨ Command.firstWord line = "/reset"

end Action

namespace Notepad

def act (machine : Machine) (pad : Notepad) : Action → Notepad
  | .append line => pad.append machine.evaluationLimit line
  | .undo => (pad.undo? machine.evaluationLimit).getD pad
  | .reset => empty
  | .refresh => pad.refresh machine.evaluationLimit
  | .slash line =>
    match Command.ofLine? line with
    | some command => (command.run machine pad).2
    | none => pad

variable {machine : Machine}

theorem Coherent.act {pad : Notepad} (h : pad.Coherent machine.evaluationLimit) (action : Action) :
    (pad.act machine action).Coherent machine.evaluationLimit := by
  cases action with
  | append line => exact h.append line
  | undo =>
    rw [Notepad.act]
    cases hu : pad.undo? machine.evaluationLimit with
    | none => exact h
    | some after => exact h.undo hu
  | reset => exact coherent_empty
  | refresh => exact coherent_refresh h.before
  | slash line =>
    rw [Notepad.act]
    split
    · exact Command.coherent_run machine _ h
    · exact h

theorem act_eq_self {pad : Notepad} (h : pad.Coherent machine.evaluationLimit) {action : Action}
    (ha : ¬ action.MayEdit) : pad.act machine action = pad := by
  cases action with
  | append | undo | reset => exact absurd trivial ha
  | refresh => exact refresh_eq_self h
  | slash line =>
    rw [act]
    split
    · next command hc =>
      have he : command.edits = false := by
        rw [← Bool.not_eq_true]
        exact fun he => ha (Command.firstWord_of_edits hc he)
      exact Command.snd_run_of_edits_eq_false machine he pad
    · rfl

theorem coherent_foldl_act (actions : List Action) {pad : Notepad}
    (h : pad.Coherent machine.evaluationLimit) :
    (actions.foldl (act machine) pad).Coherent machine.evaluationLimit := by
  induction actions generalizing pad with
  | nil => exact h
  | cons action actions ih => exact ih (h.act action)

/-- After any sequence of actions the document of a notepad is that of its buffer, and so determined
by the buffer alone. Adding or removing a line, starting anew, and the two commands for these may
change the buffer; all other actions leave the whole notepad as it is, a command that fails among
them. Removing a line that has just been added restores the notepad. -/
theorem coherent_after_actions (machine : Machine) (actions : List Action) :
    let limit := machine.evaluationLimit
    let pad := actions.foldl (act machine) empty
    pad.Coherent limit ∧ (∀ action : Action, action.MayEdit ∨ pad.act machine action = pad) ∧
      ∀ line : String, (pad.append limit line).undo? limit = some pad := by
  intro limit pad
  have hpad : pad.Coherent limit := coherent_foldl_act actions coherent_empty
  refine ⟨hpad, fun action => ?_, undo?_append hpad⟩
  by_cases ha : action.MayEdit
  · exact .inl ha
  · exact .inr (act_eq_self hpad ha)

end Notepad
end Scratchpad
