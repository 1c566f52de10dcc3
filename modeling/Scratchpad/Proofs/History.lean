import Mathlib.Data.List.DropRight
import Scratchpad.Document

/-! What a document owes to its past: the texts that were kept since the last reset, and nothing
else. Running a text after them is going on with one run over them all. -/
namespace Scratchpad

theorem runTextWithin_append (limit : Nat) (a b : String) (env : Environment) :
    runTextWithin limit (a ++ "\n" ++ b) env =
      let first := runTextWithin limit a env
      let second := runTextWithin limit b first.2
      (first.1 ++ second.1, second.2) := by
  rw [runTextWithin, lines_append, runLinesWithin_append]
  rfl

inductive Change where
  | update (text : String) (persist : Bool)
  | reset
  deriving DecidableEq

namespace Change

def kept? : Change → Option String
  | update text true => some text
  | update _ false | reset => none

/-- The texts that have been kept since the last reset, the oldest first. -/
def keptTexts (changes : List Change) : List String :=
  (changes.rtakeWhile (· ≠ reset)).filterMap kept?

/-- The environment in which the oldest of them started. -/
def origin (env : Environment) (changes : List Change) : Environment :=
  if reset ∈ changes then .empty else env

variable (env : Environment) (changes : List Change)

@[simp] theorem keptTexts_reset : keptTexts (changes ++ [reset]) = [] := by
  rw [keptTexts, List.rtakeWhile_concat_neg _ _ _ (by simp), List.filterMap_nil]

@[simp] theorem keptTexts_update (text : String) (persist : Bool) :
    keptTexts (changes ++ [update text persist]) =
      keptTexts changes ++ if persist then [text] else [] := by
  rw [keptTexts, List.rtakeWhile_concat_pos _ _ _ (by simp), List.filterMap_append, keptTexts]
  cases persist <;> rfl

@[simp] theorem origin_reset : origin env (changes ++ [reset]) = .empty := by simp [origin]

@[simp] theorem origin_update (text : String) (persist : Bool) :
    origin env (changes ++ [update text persist]) = origin env changes := by simp [origin]

end Change

namespace Document
open Change

def change (limit : Nat) (doc : Document) : Change → Document
  | .update text persist => doc.update limit text persist
  | .reset => new .empty

def changed (limit : Nat) (env : Environment) (changes : List Change) : Document :=
  changes.foldl (change limit) (new env)

variable (limit : Nat)

theorem changed_concat (env : Environment) (changes : List Change) (c : Change) :
    changed limit env (changes ++ [c]) = (changed limit env changes).change limit c := by
  rw [changed, List.foldl_append]
  rfl

theorem before_changed (env : Environment) (changes : List Change) :
    (changed limit env changes).before =
      (runLinesWithin limit ((keptTexts changes).flatMap lines) (origin env changes)).2 := by
  induction changes using List.reverseRecOn with
  | nil => rfl
  | append_singleton changes c ih =>
    rw [changed_concat]
    cases c with
    | reset =>
      rw [keptTexts_reset, origin_reset]
      rfl
    | update text persist =>
      rw [keptTexts_update, origin_update, change, update]
      cases persist with
      | false => simpa using ih
      | true => simp [ih, runTextWithin, runLinesWithin_append]

/-- What an update leads to depends on the past through the starting environment only. -/
theorem update_congr {doc other : Document} (h : doc.before = other.before) (text : String)
    (persist : Bool) : doc.update limit text persist = other.update limit text persist := by
  rw [update, update, h]

theorem before_foldl_congr {doc other : Document} (h : doc.before = other.before)
    (changes : List Change) :
    (changes.foldl (change limit) doc).before = (changes.foldl (change limit) other).before := by
  induction changes generalizing doc other with
  | nil => exact h
  | cons c changes ih =>
    apply ih
    cases c with
    | update text persist => rw [change, change, update_congr limit h]
    | reset => rfl

/-- The results of an update are the last ones of a single run, over all texts kept since the last
reset and then the updated one, and so is the environment behind them; that run starts where the
document started, or in the empty environment after a reset. Updates that are not kept change
nothing about any later one. -/
theorem update_changed :
    (∀ (a b : String) (env : Environment),
      runTextWithin limit (a ++ "\n" ++ b) env =
        let first := runTextWithin limit a env
        let second := runTextWithin limit b first.2
        (first.1 ++ second.1, second.2)) ∧
    (∀ (env : Environment) (changes : List Change) (text : String) (persist : Bool),
      let doc := (changed limit env changes).update limit text persist
      let run := runTextWithin limit (unlines (keptTexts changes ++ [text])) (origin env changes)
      doc.results = run.1.rtake (lines text).length ∧ doc.after = run.2) ∧
    ∀ (env : Environment) (front back : List Change) (unkept text : String) (persist : Bool),
      (changed limit env (front ++ .update unkept false :: back)).update limit text persist =
        (changed limit env (front ++ back)).update limit text persist := by
  refine ⟨runTextWithin_append limit, fun env changes text persist => ?_,
    fun env front back unkept text persist => ?_⟩
  · have hlines : lines (unlines (keptTexts changes ++ [text])) =
        (keptTexts changes).flatMap lines ++ lines text := by
      rw [lines_unlines (by simp)]
      simp
    -- the run has the kept lines in front, which are as many as are dropped
    have hlength :=
      length_runLinesWithin limit (lines text) (changed limit env changes).before
    dsimp only
    rw [runTextWithin, hlines, runLinesWithin_append, ← before_changed]
    refine ⟨?_, rfl⟩
    rw [List.rtake, List.length_append, hlength, Nat.add_sub_cancel, List.drop_left]
    rfl
  · have hbefore : ((changed limit env front).change limit (.update unkept false)).before =
        (changed limit env front).before := rfl
    apply update_congr
    rw [changed, changed, List.foldl_append, List.foldl_append, List.foldl_cons]
    exact before_foldl_congr limit hbefore back

end Document
end Scratchpad
