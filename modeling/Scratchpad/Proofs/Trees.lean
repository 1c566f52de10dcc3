import Scratchpad.Machine
import Scratchpad.Proofs.Limit

/-! The trees of expressions. There is one just if the expression is less high than the limit, it
does not tell the places of tokens, and its rows follow the expression node by node. -/
namespace Scratchpad

def Token.unplaced (t : Token) : Token := { t with position := .start }

namespace Expr

def unplaced : Expr → Expr
  | group e => group e.unplaced
  | unary op e => unary op.unplaced e.unplaced
  | binary a op b => binary a.unplaced op.unplaced b.unplaced
  | logical a op b => logical a.unplaced op.unplaced b.unplaced
  | assign name e => assign name e.unplaced
  | invalid t fault => invalid t.unplaced fault
  | e => e

theorem toTree_unplaced (limit : Nat) (e : Expr) : e.unplaced.toTree limit = e.toTree limit := by
  induction e generalizing limit with
  | nothing | literal | invalid => cases limit <;> rfl
  | group e ih | unary op e ih | assign name e ih =>
    cases limit with
    | zero => rfl
    | succ limit => simp only [unplaced, toTree, ih, Token.unplaced, Token.leaf]
  | binary a op b iha ihb | logical a op b iha ihb =>
    cases limit with
    | zero => rfl
    | succ limit => simp only [unplaced, toTree, iha, ihb, Token.unplaced, Token.leaf]

/-! ## Height -/

theorem toTree_eq_none_iff {limit : Nat} {e : Expr} : e.toTree limit = none ↔ limit ≤ e.height := by
  induction e generalizing limit with
  | nothing | literal | invalid => cases limit <;> simp [toTree, height]
  | group e ih | unary op e ih | assign name e ih =>
    cases limit with
    | zero => simp [toTree]
    | succ limit => rw [toTree, Option.map_eq_none_iff, ih, height, Nat.succ_le_succ_iff]
  | binary a op b iha ihb | logical a op b iha ihb =>
    cases limit with
    | zero => simp [toTree]
    | succ limit =>
      have hsplit : limit + 1 ≤ max a.height b.height + 1 ↔
          limit ≤ a.height ∨ limit ≤ b.height := by omega
      rw [height, hsplit, ← iha, ← ihb, toTree]
      cases a.toTree limit <;> cases b.toTree limit <;> simp

end Expr

/-- Statements have a tree if all of them have one. -/
theorem treeOf_eq_none_iff {limit : Nat} {es : List Expr} :
    treeOf limit es = none ↔ ∃ e ∈ es, limit ≤ e.height := by
  rw [treeOf, Option.map_eq_none_iff]
  induction es with
  | nil => simp
  | cons e es ih =>
    simp only [List.mem_cons, exists_eq_or_imp]
    rw [← ih, ← Expr.toTree_eq_none_iff, List.mapM_cons]
    cases e.toTree limit <;> cases es.mapM (Expr.toTree limit) <;> simp

theorem treeOf_map_unplaced (limit : Nat) (es : List Expr) :
    treeOf limit (es.map Expr.unplaced) = treeOf limit es := by
  have hsame : Expr.toTree limit ∘ Expr.unplaced = Expr.toTree limit :=
    funext fun e => e.toTree_unplaced limit
  rw [treeOf, treeOf, List.mapM_map, hsame]

/-! ## Rows -/

namespace Expr

def rows (depth : Nat) : Expr → List Row
  | nothing => [⟨depth, "none"⟩]
  | literal atom => [⟨depth, "literal\t" ++ atom.text⟩]
  | group inner => ⟨depth, "group"⟩ :: inner.rows (depth + 1)
  | unary op e => ⟨depth, "unary"⟩ :: ⟨depth + 1, op.lexeme⟩ :: e.rows (depth + 1)
  | binary a op b =>
    ⟨depth, "binary"⟩ :: a.rows (depth + 1) ++ ⟨depth + 1, op.lexeme⟩ :: b.rows (depth + 1)
  | logical a op b =>
    ⟨depth, "logical"⟩ :: a.rows (depth + 1) ++ ⟨depth + 1, op.lexeme⟩ :: b.rows (depth + 1)
  | assign name e => ⟨depth, "variable"⟩ :: ⟨depth + 1, name⟩ :: e.rows (depth + 1)
  | invalid t _ => [⟨depth, "invalid\t" ++ t.lexeme⟩]

theorem exists_succ_of_toTree {limit : Nat} {e : Expr} {t : Tree} (h : e.toTree limit = some t) :
    ∃ room, limit = room + 1 := by
  cases limit with
  | zero => simp [toTree] at h
  | succ room => exact ⟨room, rfl⟩

theorem loneText?_of_toTree {limit : Nat} {e : Expr} {t : Tree} (h : e.toTree limit = some t) :
    Tree.loneText? [t] = none := by
  obtain ⟨room, rfl⟩ := exists_succ_of_toTree h
  cases e with
  | nothing | literal | invalid => rw [← Option.some.inj h]; rfl
  | group | unary | assign =>
    obtain ⟨_, _, rfl⟩ := Option.map_eq_some_iff.1 h
    rfl
  | binary | logical =>
    obtain ⟨_, _, h⟩ := Option.bind_eq_some_iff.1 h
    obtain ⟨_, _, h⟩ := Option.bind_eq_some_iff.1 h
    rw [← Option.some.inj h]
    rfl

theorem rows_of_toTree {limit : Nat} {e : Expr} {t : Tree} (h : e.toTree limit = some t)
    (depth : Nat) : t.rows depth = e.rows depth := by
  obtain ⟨room, rfl⟩ := exists_succ_of_toTree h
  induction e generalizing room t depth with
  | nothing | invalid => rw [← Option.some.inj h]; rfl
  | literal atom => rw [← Option.some.inj h]; cases atom using Atom.leaf.fun_cases <;> rfl
  | group e ih =>
    obtain ⟨inner, hinner, rfl⟩ := Option.map_eq_some_iff.1 h
    obtain ⟨room, rfl⟩ := exists_succ_of_toTree hinner
    simp [Tree.rows, Tree.rowsOfAll, loneText?_of_toTree hinner, rows, ih _ _ hinner]
  | unary op e ih | assign name e ih =>
    obtain ⟨operand, hoperand, rfl⟩ := Option.map_eq_some_iff.1 h
    obtain ⟨room, rfl⟩ := exists_succ_of_toTree hoperand
    simp [Tree.rows, Tree.rowsOfAll, Tree.loneText?, Token.leaf, rows, ih _ _ hoperand]
  | binary a op b iha ihb | logical a op b iha ihb =>
    obtain ⟨left, hleft, hmore⟩ := Option.bind_eq_some_iff.1 h
    obtain ⟨right, hright, htree⟩ := Option.bind_eq_some_iff.1 hmore
    obtain ⟨room, rfl⟩ := exists_succ_of_toTree hleft
    rw [← Option.some.inj htree]
    simp [Tree.rows, Tree.rowsOfAll, Tree.loneText?, Token.leaf, rows, iha _ _ hleft,
      ihb _ _ hright]

end Expr

def outlineRows (statements : List Expr) : List Row :=
  ⟨0, "statements"⟩ :: statements.flatMap (Expr.rows 1)

theorem rowsOfAll_of_mapM {limit : Nat} {es : List Expr} {trees : List Tree}
    (h : es.mapM (Expr.toTree limit) = some trees) (depth : Nat) :
    Tree.rowsOfAll depth trees = es.flatMap (Expr.rows depth) ∧
      Tree.loneText? trees = none := by
  induction es generalizing trees with
  | nil => rw [← Option.some.inj h]; exact ⟨rfl, rfl⟩
  | cons e es ih =>
    rw [List.mapM_cons] at h
    obtain ⟨first, hfirst, hmore⟩ := Option.bind_eq_some_iff.1 h
    obtain ⟨more, hall, htrees⟩ := Option.bind_eq_some_iff.1 hmore
    rw [← Option.some.inj htrees, Tree.rowsOfAll, List.flatMap_cons, Expr.rows_of_toTree hfirst,
      (ih hall).1]
    refine ⟨rfl, ?_⟩
    cases more with
    | nil => exact Expr.loneText?_of_toTree hfirst
    | cons => cases first <;> rfl

theorem rows_of_treeOf {limit : Nat} {es : List Expr} {t : Tree} (h : treeOf limit es = some t) :
    t.rows 0 = outlineRows es := by
  obtain ⟨trees, htrees, rfl⟩ := Option.map_eq_some_iff.1 h
  obtain ⟨hrows, hlone⟩ := rowsOfAll_of_mapM htrees 1
  rw [Tree.rows, hlone, hrows]
  rfl

end Scratchpad
