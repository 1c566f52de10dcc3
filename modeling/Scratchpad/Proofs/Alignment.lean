import Mathlib.Data.List.DropRight
import Mathlib.Data.List.Forall2
import Scratchpad.Proofs.Coherence
import Scratchpad.Proofs.Rows

/-! The rows of a notepad. Whatever has been done at it, each line of the document has a row. What is
shown for a line stands at the end of the row, whole, since it holds no blanks, and it begins two
columns behind the longest line of the buffer, since the lines of the document are parts of these.
-/
namespace Scratchpad

/-! ## Blanks at the end -/

theorem trimEnd_append_of_isBlank (text : List Char) {blanks : List Char}
    (h : ∀ c ∈ blanks, isBlank c = true) : trimEnd (text ++ blanks) = trimEnd text := by
  have hblanks : ∀ c ∈ blanks.reverse, isBlank c = true :=
    fun c hc => h c (List.mem_reverse.1 hc)
  rw [trimEnd, List.reverse_append, List.dropWhile_append_of_pos hblanks, ← trimEnd]

theorem trimEnd_append_of_ne_nil (front : List Char) {text : List Char} (hne : text ≠ [])
    (h : ∀ c ∈ text, isBlank c = false) : trimEnd (front ++ text) = front ++ text := by
  refine List.rdropWhile_eq_self_iff.2 fun hl => ?_
  rw [List.getLast_append_of_ne_nil hl hne, h _ (List.getLast_mem hne)]
  exact Bool.false_ne_true

theorem exists_blanks_trimEnd (text : List Char) :
    ∃ blanks, text = trimEnd text ++ blanks ∧ (∀ c ∈ blanks, isBlank c = true) ∧
      ∀ c ∈ (trimEnd text).getLast?, isBlank c = false := by
  refine ⟨text.rtakeWhile isBlank, (List.rdropWhile_append_rtakeWhile ..).symm,
    fun c => List.mem_rtakeWhile_imp, fun c hc => ?_⟩
  obtain ⟨hne, rfl⟩ := List.mem_getLast?_eq_getLast hc
  exact Bool.eq_false_iff.2 (List.rdropWhile_last_not isBlank text hne)

/-! ## Widths -/

theorem length_le_of_mem_lines {text line : String} (h : line ∈ lines text) :
    line.length ≤ text.length := by
  have hsplit (cs : List Char) : ∀ part ∈ splitLines cs, part.length ≤ cs.length := by
    induction cs using lines_induction with
    | line a ha => simp [splitLines_eq_singleton ha]
    | more a b ha ih =>
      rw [splitLines_append, splitLines_eq_singleton ha, List.singleton_append]
      refine List.forall_mem_cons.2 ⟨by simp, fun part hpart => ?_⟩
      have hle := ih part hpart
      simp only [List.length_append, List.length_cons]
      omega
  obtain ⟨part, hpart, rfl⟩ := List.mem_map.1 h
  rw [String.length_ofList, ← String.length_toList]
  exact hsplit text.toList part hpart

structure IsLongest (lines : List String) (width : Nat) : Prop where
  le : ∀ line ∈ lines, line.length ≤ width
  attained : lines ≠ [] → ∃ line ∈ lines, line.length = width

theorem Notepad.isLongest_width (pad : Notepad) : IsLongest pad.buffer pad.width := by
  have hmax : (0 :: pad.buffer.map String.length).max? = some pad.width := rfl
  obtain ⟨hmem, hle⟩ := List.max?_eq_some_iff.1 hmax
  have hlines : ∀ line ∈ pad.buffer, line.length ≤ pad.width :=
    fun line hline => hle _ (List.mem_cons_of_mem _ (List.mem_map_of_mem hline))
  refine ⟨hlines, fun hne => ?_⟩
  rcases List.mem_cons.1 hmem with hzero | hmem
  · obtain ⟨line, hline⟩ := List.exists_mem_of_ne_nil _ hne
    exact ⟨line, hline, by have := hlines line hline; omega⟩
  · obtain ⟨line, hline, hlength⟩ := List.mem_map.1 hmem
    exact ⟨line, hline, hlength⟩

/-! ## Rows -/

/-- A row for a line: what is shown for the line, complete, behind spaces up to a column two past
the width; if that is nothing, the line without the blanks at its end. -/
structure RowOf (width : Nat) (line : Line) (row : String) : Prop where
  shown : line.display ≠ "" → ∃ padding : Nat, line.source.length + padding = width + 2 ∧
    row = line.source ++ String.ofList (List.replicate padding ' ') ++ line.display
  bare : line.display = "" → ∃ blanks : String, line.source = row ++ blanks ∧
    (∀ c ∈ blanks.toList, isBlank c = true) ∧ ∀ c ∈ row.toList.getLast?, isBlank c = false

theorem renderLine_eq (width : Nat) (line : Line) :
    Notepad.renderLine width line = String.ofList (trimEnd (line.source.toList ++
      List.replicate (width - line.source.length + 2) ' ' ++ line.display.toList)) := by
  have hpadding : List.replicate (width - line.source.length) ' ' ++ [' ', ' '] =
      List.replicate (width - line.source.length + 2) ' ' := by
    rw [List.replicate_add]
    rfl
  rw [← hpadding, ← String.length_toList, Notepad.renderLine]
  simp only [List.append_assoc]

theorem rowOf_renderLine {width : Nat} {line : Line} (hsource : line.source.length ≤ width)
    (hdisplay : ∀ c ∈ line.display.toList, isBlank c = false) :
    RowOf width line (Notepad.renderLine width line) := by
  constructor
  · intro hshown
    have hne : line.display.toList ≠ [] := by simpa using hshown
    refine ⟨width - line.source.length + 2, by omega, ?_⟩
    rw [renderLine_eq, trimEnd_append_of_ne_nil _ hne hdisplay]
    simp [String.append_assoc]
  · intro hbare
    have hblanks : ∀ c ∈ List.replicate (width - line.source.length + 2) ' ', isBlank c = true :=
      fun c hc => List.eq_of_mem_replicate hc ▸ isBlank_space
    have htrimmed : Notepad.renderLine width line = String.ofList (trimEnd line.source.toList) := by
      rw [renderLine_eq, hbare, String.toList_empty, List.append_nil,
        trimEnd_append_of_isBlank _ hblanks]
    obtain ⟨blanks, hsource, hall, hlast⟩ := exists_blanks_trimEnd line.source.toList
    refine ⟨String.ofList blanks, ?_, by simpa using hall, by simpa [htrimmed] using hlast⟩
    rw [htrimmed, ← String.ofList_append, ← hsource, String.ofList_toList]

/-! ## Notepads -/

namespace Notepad
variable {limit : Nat}

theorem Coherent.results_of_ne_nil {pad : Notepad} (h : pad.Coherent limit)
    (hb : pad.buffer ≠ []) :
    pad.document.results = (runTextWithin limit pad.document.text .empty).1 := by
  obtain ⟨htext, hrun⟩ := h.run hb
  rw [htext]
  exact congrArg Prod.fst hrun

theorem Coherent.map_source_results {pad : Notepad} (h : pad.Coherent limit) :
    pad.document.results.map Line.source =
      if pad.buffer = [] then [] else lines pad.document.text := by
  split
  · next hb => rw [(h.blank hb).2.1, List.map_nil]
  · next hb =>
    rw [h.results_of_ne_nil hb]
    exact map_source_runLinesWithin _ _ _

/-- Each line of the document is part of a line of the buffer, and what is shown for it holds no
blanks. -/
theorem Coherent.line_fits {pad : Notepad} (h : pad.Coherent limit) {line : Line}
    (hline : line ∈ pad.document.results) :
    line.source.length ≤ pad.width ∧ ∀ c ∈ line.display.toList, isBlank c = false := by
  have hb : pad.buffer ≠ [] := by
    intro hb
    rw [(h.blank hb).2.1] at hline
    cases hline
  -- a line of the buffer may hold line feeds, so the lines of the document are parts of lines
  have hsource : line.source ∈ pad.document.results.map Line.source := List.mem_map_of_mem hline
  rw [h.map_source_results, if_neg hb, (h.run hb).1, lines_unlines hb] at hsource
  obtain ⟨entered, hentered, hpart⟩ := List.mem_flatMap.1 hsource
  rw [h.results_of_ne_nil hb] at hline
  exact ⟨(length_le_of_mem_lines hpart).trans (pad.isLongest_width.le entered hentered),
    isBlank_of_mem_displays (List.mem_map_of_mem hline)⟩

/-- After any sequence of actions, a notepad has a row for each line of its document, in order, and
none if its buffer has no lines. In all rows of lines for which something is shown, this begins at
the same column, two past the longest line of the buffer, and nothing of it is cut off; every other
row is the line without the blanks at its end. -/
theorem render_aligned (machine : Machine) (actions : List Action) :
    let pad := actions.foldl (act machine) empty
    (pad.buffer ≠ [] → pad.document.text = unlines pad.buffer) ∧
      pad.document.results.map Line.source =
        (if pad.buffer = [] then [] else lines pad.document.text) ∧
      List.Forall₂ (RowOf pad.width) pad.document.results pad.render ∧
      IsLongest pad.buffer pad.width := by
  intro pad
  have hpad : pad.Coherent machine.evaluationLimit := coherent_foldl_act actions coherent_empty
  refine ⟨fun hb => (hpad.run hb).1, hpad.map_source_results, ?_, pad.isLongest_width⟩
  rw [render, List.forall₂_map_right_iff, List.forall₂_same]
  intro line hline
  obtain ⟨hsource, hdisplay⟩ := hpad.line_fits hline
  exact rowOf_renderLine hsource hdisplay

/-- A line that is two lines of the document is as wide as both together. -/
example :
    ([Action.append "a: 1\n\u3000a + 1", .append "b "].foldl (act .usual) empty).render =
      ["a: 1         1", "\u3000a + 1       2", "b"] := by decide +kernel

end Notepad

end Scratchpad
