/-! Lines of a text. A text of `n` line feeds has `n + 1` lines, so joining the lines gives it back.
-/
namespace Scratchpad

def splitLines : List Char → List (List Char)
  | [] => [[]]
  | c :: cs => if c = '\n' then [] :: splitLines cs else (splitLines cs).modifyHead (c :: ·)

@[simp] theorem splitLines_ne_nil (cs : List Char) : splitLines cs ≠ [] := by
  induction cs with
  | nil => simp [splitLines]
  | cons c cs ih => rw [splitLines]; split <;> simp [ih]

theorem splitLines_append (a b : List Char) :
    splitLines (a ++ '\n' :: b) = splitLines a ++ splitLines b := by
  induction a with
  | nil => simp [splitLines]
  | cons c a ih =>
    rw [List.cons_append, splitLines, splitLines, ih]
    obtain ⟨line, rest, ha⟩ := List.exists_cons_of_ne_nil (splitLines_ne_nil a)
    split
    · rfl
    · rw [ha]
      rfl

theorem splitLines_eq_singleton {line : List Char} (h : '\n' ∉ line) :
    splitLines line = [line] := by
  induction line with
  | nil => rfl
  | cons c line ih =>
    rw [List.mem_cons, not_or] at h
    simp [splitLines, ih h.2, Ne.symm h.1]

def joinLines : List (List Char) → List Char
  | [] => []
  | [line] => line
  | line :: rest => line ++ '\n' :: joinLines rest

theorem joinLines_cons (line : List Char) {rest : List (List Char)} (h : rest ≠ []) :
    joinLines (line :: rest) = line ++ '\n' :: joinLines rest := by
  cases rest with
  | nil => exact absurd rfl h
  | cons next rest => rfl

theorem splitLines_joinLines {parts : List (List Char)} (h : parts ≠ []) :
    splitLines (joinLines parts) = parts.flatMap splitLines := by
  induction parts with
  | nil => exact absurd rfl h
  | cons part rest ih =>
    cases rest with
    | nil => simp [joinLines]
    | cons next rest =>
      rw [joinLines_cons part (List.cons_ne_nil _ _), splitLines_append,
        ih (List.cons_ne_nil _ _), ← List.flatMap_cons]

def lines (text : String) : List String := (splitLines text.toList).map String.ofList

def unlines (lines : List String) : String := String.ofList (joinLines (lines.map String.toList))

theorem lines_append (a b : String) : lines (a ++ "\n" ++ b) = lines a ++ lines b := by
  have htext : (a ++ "\n" ++ b).toList = a.toList ++ '\n' :: b.toList := by simp
  rw [lines, htext, splitLines_append, List.map_append]
  rfl

theorem lines_unlines {texts : List String} (h : texts ≠ []) :
    lines (unlines texts) = texts.flatMap lines := by
  have hparts : texts.map String.toList ≠ [] := by simpa using h
  rw [lines, unlines, String.toList_ofList, splitLines_joinLines hparts, List.flatMap_map,
    List.map_flatMap]
  rfl

/-- Carriage returns, and those in front of line feeds, made line feeds. -/
def unifyNewlines : List Char → List Char
  | '\r' :: '\n' :: cs => '\n' :: unifyNewlines cs
  | '\r' :: cs => '\n' :: unifyNewlines cs
  | c :: cs => c :: unifyNewlines cs
  | [] => []

end Scratchpad
