import Scratchpad.Expr

/-! Environments: the values of names, in the order in which the names were first bound. -/
namespace Scratchpad

/-- Bind a name among bindings: in its place if it is there already, otherwise at the end. -/
def bindIn (name : String) (value : Expr) : List (String × Expr) → List (String × Expr)
  | [] => [(name, value)]
  | b :: rest => if b.1 = name then (name, value) :: rest else b :: bindIn name value rest

/-- A name keeps its place, and a new one comes last. -/
theorem map_fst_bindIn (name : String) (value : Expr) (bindings : List (String × Expr)) :
    (bindIn name value bindings).map Prod.fst =
      if name ∈ bindings.map Prod.fst then bindings.map Prod.fst
      else bindings.map Prod.fst ++ [name] := by
  induction bindings with
  | nil => rfl
  | cons b rest ih =>
    by_cases hb : b.1 = name
    · simp [bindIn, hb]
    · simp only [bindIn, if_neg hb, List.map_cons, ih, List.mem_cons, Ne.symm hb, false_or]
      split <;> rfl

theorem lookup_cons_eq (n : String) (v : Expr) (bindings : List (String × Expr)) (x : String) :
    ((n, v) :: bindings).lookup x = if x = n then some v else bindings.lookup x := by
  by_cases hx : x = n
  · subst hx; simp
  · rw [List.lookup_cons, beq_eq_false_iff_ne.2 hx, if_neg hx]

theorem lookup_bindIn (name : String) (value : Expr) (bindings : List (String × Expr))
    (x : String) :
    (bindIn name value bindings).lookup x = if x = name then some value else bindings.lookup x := by
  induction bindings with
  | nil => simp [bindIn, lookup_cons_eq]
  | cons b rest ih =>
    obtain ⟨n, v⟩ := b
    by_cases hb : n = name
    · subst hb
      simp only [bindIn, if_true, lookup_cons_eq]
      split <;> rfl
    · simp only [bindIn, if_neg hb, lookup_cons_eq, ih]
      by_cases hx : x = n
      · subst hx; simp [hb]
      · simp [hx]

theorem mem_bindIn {name : String} {value : Expr} {bindings : List (String × Expr)}
    {b : String × Expr} (h : b ∈ bindIn name value bindings) : b = (name, value) ∨ b ∈ bindings := by
  induction bindings with
  | nil => exact .inl (List.mem_singleton.1 h)
  | cons c rest ih =>
    rw [bindIn] at h
    split at h
    · rcases List.mem_cons.1 h with h | h
      · exact .inl h
      · exact .inr (List.mem_cons_of_mem c h)
    · rcases List.mem_cons.1 h with rfl | h
      · exact .inr List.mem_cons_self
      · exact (ih h).imp id (List.mem_cons_of_mem c)

structure Environment where
  bindings : List (String × Expr)
  nodup : (bindings.map Prod.fst).Nodup

namespace Environment

def empty : Environment := ⟨[], List.nodup_nil⟩

def names (env : Environment) : List String := env.bindings.map Prod.fst

def size (env : Environment) : Nat := env.bindings.length

def lookup (env : Environment) (name : String) : Option Expr := env.bindings.lookup name

def contains (env : Environment) (name : String) : Bool := (env.lookup name).isSome

def bind (env : Environment) (name : String) (value : Expr) : Environment where
  bindings := bindIn name value env.bindings
  nodup := by
    have h := env.nodup
    rw [map_fst_bindIn]
    split
    · exact h
    · next hn =>
      refine List.nodup_append.2 ⟨h, by simp, ?_⟩
      intro a ha b hb
      rw [List.mem_singleton.1 hb]
      exact fun hab => hn (hab ▸ ha)

theorem names_bind (env : Environment) (name : String) (value : Expr) :
    (env.bind name value).names = if name ∈ env.names then env.names else env.names ++ [name] :=
  map_fst_bindIn name value env.bindings

@[simp] theorem lookup_bind (env : Environment) (name : String) (value : Expr) (x : String) :
    (env.bind name value).lookup x = if x = name then some value else env.lookup x :=
  lookup_bindIn name value env.bindings x

@[simp] theorem lookup_empty (x : String) : empty.lookup x = none := rfl

@[simp] theorem contains_bind (env : Environment) (name : String) (value : Expr) (x : String) :
    (env.bind name value).contains x = (decide (x = name) || env.contains x) := by
  by_cases hx : x = name <;> simp [contains, hx]

theorem mem_bindings_of_lookup {env : Environment} {x : String} {v : Expr}
    (h : env.lookup x = some v) : (x, v) ∈ env.bindings := by
  rw [lookup, List.lookup_eq_some_iff] at h
  obtain ⟨front, back, hbindings, -⟩ := h
  simp [hbindings]

def ofList (bindings : List (String × Expr)) : Environment :=
  bindings.foldl (fun env b => env.bind b.1 b.2) empty

def erase (env : Environment) (name : String) : Environment where
  bindings := env.bindings.filter fun b => b.1 ≠ name
  nodup := env.nodup.sublist (List.filter_sublist.map Prod.fst)

theorem size_erase_lt {env : Environment} {name : String} {value : Expr}
    (h : env.lookup name = some value) : (env.erase name).size < env.size :=
  List.length_filter_lt_length_iff_exists.2 ⟨(name, value), mem_bindings_of_lookup h, by simp⟩

theorem lookup_erase (env : Environment) (name x : String) :
    (env.erase name).lookup x = if x = name then none else env.lookup x := by
  simp only [lookup, erase]
  induction env.bindings with
  | nil => simp
  | cons b rest ih =>
    obtain ⟨n, v⟩ := b
    by_cases hn : n = name
    · subst hn
      rw [List.filter_cons_of_neg (by simp), ih, lookup_cons_eq]
      split <;> rfl
    · rw [List.filter_cons_of_pos (by simpa using hn), lookup_cons_eq, lookup_cons_eq, ih]
      by_cases hx : x = n
      · subst hx; simp [hn]
      · simp [hx]

theorem ext {env other : Environment} (h : env.bindings = other.bindings) : env = other := by
  obtain ⟨bindings, nodup⟩ := env
  obtain ⟨bindings', nodup'⟩ := other
  obtain rfl : bindings = bindings' := h
  rfl

theorem erase_comm (env : Environment) (name other : String) :
    (env.erase name).erase other = (env.erase other).erase name := by
  apply ext
  simp only [erase, List.filter_filter, Bool.and_comm]

/-- What a name is bound to does not matter when the name is forgotten. -/
theorem erase_bind (env : Environment) (name : String) (value : Expr) :
    (env.bind name value).erase name = env.erase name := by
  apply ext
  simp only [erase, bind]
  induction env.bindings with
  | nil => simp [bindIn]
  | cons b rest ih =>
    by_cases hb : b.1 = name
    · simp [bindIn, hb]
    · simpa [bindIn, hb] using ih

end Environment
end Scratchpad
