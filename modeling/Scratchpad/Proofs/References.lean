import Scratchpad.Proofs.Naming

/-! References are followed to what they stand for. Names are looked up one after the other, and a
name that comes up again ends the search. So there are never more than one look-up for each binding
and a last one for a name without a binding. A number or a boolean that the references lead to is
found, however long the way is, and where they lead to none nothing is shown. -/
namespace Scratchpad

/-! ## Searching -/

namespace Environment

def without (env : Environment) : List String → Environment
  | [] => env
  | n :: names => (env.without names).erase n

theorem lookup_without (env : Environment) (names : List String) (x : String) :
    (env.without names).lookup x = if x ∈ names then none else env.lookup x := by
  induction names with
  | nil => rfl
  | cons n names ih =>
    rw [without, lookup_erase, ih]
    by_cases hx : x = n <;> simp [hx]

end Environment

namespace Expr

/-- The text for a value, found by looking up one name after the other. A name that has been looked
up already is not looked up again. Nothing is found if more look-ups are needed than are left. -/
def search (env : Environment) : Nat → List String → Expr → Option String
  | 0, seen, literal (.name n) => if n ∈ seen then some "" else none
  | lookups + 1, seen, literal (.name n) =>
    if n ∈ seen then some ""
    else search env lookups (n :: seen) ((literal (.name n)).eval env).1
  | _, _, literal atom => some atom.text
  | _, _, _ => some ""

theorem search_of_ne_name {v : Expr} (h : ∀ n, v ≠ literal (.name n)) (env other : Environment)
    (lookups : Nat) (seen : List String) :
    search env lookups seen v = some (v.display other) := by
  cases v with
  | literal atom =>
    cases atom with
    | name n => exact absurd rfl (h n)
    | boolean | number => rw [search, display] <;> simp
  | _ => rw [search, display] <;> simp

/-- As long as the bindings that have not been used are fewer than the look-ups that are left, the
search ends, with what is shown where the used ones are forgotten. -/
theorem search_eq_display {env : Environment} {lookups : Nat} {seen : List String}
    (h : (env.without seen).size < lookups) (v : Expr) :
    search env lookups seen v = some (v.display (env.without seen)) := by
  induction lookups generalizing seen v with
  | zero => exact absurd h (Nat.not_lt_zero _)
  | succ lookups ih =>
    by_cases hv : ∃ n, v = literal (.name n)
    · obtain ⟨n, rfl⟩ := hv
      have hlookup := env.lookup_without seen n
      by_cases hn : n ∈ seen
      · rw [if_pos hn] at hlookup
        rw [search, if_pos hn, display_of_lookup_eq_none hlookup]
      · rw [if_neg hn] at hlookup
        rw [search, if_neg hn, eval, Atom.resolve]
        cases hw : env.lookup n with
        | none =>
          rw [display_of_lookup_eq_none (hlookup.trans hw), Option.getD_none, search] <;> simp
        | some w =>
          -- The binding that has been used makes room for the next look-up.
          have hfewer := Environment.size_erase_lt (hlookup.trans hw)
          have hleft : (env.without (n :: seen)).size < lookups :=
            Nat.lt_of_lt_of_le hfewer (Nat.le_of_lt_succ h)
          rw [display_of_lookup_eq_some (hlookup.trans hw)]
          exact ih hleft w
    · exact search_of_ne_name (not_exists.1 hv) _ _ _ _

end Expr

/-! ## Where references lead -/

/-- One value leads to another if it is that value, or a name bound to a value that leads to it. -/
inductive Leads (env : Environment) : Expr → Expr → Prop where
  | refl {v : Expr} : Leads env v v
  | step {n : String} {v w : Expr} :
    env.lookup n = some v → Leads env v w → Leads env (.literal (.name n)) w

section
variable {env : Environment}

theorem Leads.of_erase {n : String} {v w : Expr} (h : Leads (env.erase n) v w) : Leads env v w := by
  induction h with
  | refl => exact .refl
  | @step m v w hm _ ih =>
    rw [Environment.lookup_erase] at hm
    split at hm
    · cases hm
    · exact .step hm ih

theorem leads_of_mem_trail {v : Expr} {x : String} (h : x ∈ v.trail env) :
    Leads env v (.literal (.name x)) := by
  fun_induction Expr.trail v env with
  | case1 env n w hw ih =>
    rcases List.mem_cons.1 h with rfl | h
    · exact .refl
    · exact .step hw (ih h).of_erase
  | case2 env n hn =>
    obtain rfl := List.mem_singleton.1 h
    exact .refl
  | case3 => cases h

/-- There is no way out of a circle: what leads back to a bound name does so wherever it leads. -/
theorem Leads.leads_back {n : String} {u v w : Expr} (hback : Leads env v (.literal (.name n)))
    (hn : env.lookup n = some u) (hcircle : Leads env u (.literal (.name n)))
    (h : Leads env v w) : Leads env w (.literal (.name n)) := by
  induction h with
  | refl => exact hback
  | @step m v w hm _ ih =>
    cases hback with
    | refl =>
      obtain rfl := Option.some.inj (hn.symm.trans hm)
      exact ih hcircle
    | step hm' hback =>
      obtain rfl := Option.some.inj (hm'.symm.trans hm)
      exact ih hback

/-- What a value shows is what is shown where the references from it end. -/
theorem Leads.display_eq {v w : Expr} (h : Leads env v w)
    (hend : ∀ n, w = .literal (.name n) → env.lookup n = none) :
    v.display env = w.display env := by
  induction h with
  | refl => rfl
  | @step n v w hn hvw ih =>
    have hopen : n ∉ v.trail env := by
      intro hmem
      have hcircle := leads_of_mem_trail hmem
      have hback : Leads env w (.literal (.name n)) := hcircle.leads_back hn hcircle hvw
      generalize hname : Expr.literal (.name n) = target at hback
      cases hback with
      | refl =>
        have hnone := hend n hname.symm
        simp [hn] at hnone
      | step hm =>
        have hnone := hend _ rfl
        simp [hm] at hnone
    rw [Expr.display_of_lookup_eq_some hn, Expr.display_erase, if_neg hopen, ih hend]

theorem display_eq_empty_or_leads (v : Expr) (env : Environment) :
    v.display env = "" ∨ ∃ atom : Atom, (∀ n, atom ≠ .name n) ∧ Leads env v (.literal atom) := by
  fun_induction Expr.display v env with
  | case1 env n w hw ih =>
    rcases ih with hempty | ⟨atom, hatom, hleads⟩
    · exact .inl hempty
    · exact .inr ⟨atom, hatom, .step hw hleads.of_erase⟩
  | case2 => exact .inl rfl
  | case3 env atom hatom => exact .inr ⟨atom, hatom, .refl⟩
  | case4 => exact .inl rfl

end

/-- A value is shown after at most one look-up more than there are bindings, whatever circles these
run in. It is shown as the boolean or the number that references from it lead to; nothing is shown
if they lead to a name without a binding or to what is no literal, or from name to name without an
end. -/
theorem display_follows_references (v : Expr) (env : Environment) :
    Expr.search env (env.size + 1) [] v = some (v.display env) ∧
      (∀ b, Leads env v (.literal (.boolean b)) →
        v.display env = if b then "true" else "false") ∧
      (∀ x, Leads env v (.literal (.number x)) → v.display env = x.text) ∧
      (∀ n, Leads env v (.literal (.name n)) → env.lookup n = none → v.display env = "") ∧
      (∀ w, Leads env v w → w.atom? = none → v.display env = "") ∧
      ((∀ w, Leads env v w → ∃ n, w = .literal (.name n)) → v.display env = "") := by
  have hfirst : (env.without []).size < env.size + 1 := Nat.lt_succ_self env.size
  refine ⟨Expr.search_eq_display hfirst v, fun b h => ?_, fun x h => ?_,
    fun n h hn => ?_, fun w h hw => ?_, fun h => ?_⟩
  · rw [h.display_eq (by simp)]
    cases b <;> rw [Expr.display] <;> simp [Atom.text]
  · rw [h.display_eq (by simp), Expr.display] <;> simp [Atom.text]
  · rw [h.display_eq (by simpa using hn), Expr.display_of_lookup_eq_none hn]
  · have hend : ∀ n, w = .literal (.name n) → env.lookup n = none := by
      rintro n rfl
      cases hw
    rw [h.display_eq hend]
    cases w with
    | literal atom => cases hw
    | _ => rw [Expr.display] <;> simp
  -- a text that is shown would stand at an end that is no name
  · rcases display_eq_empty_or_leads v env with hempty | ⟨atom, hatom, hleads⟩
    · exact hempty
    · obtain ⟨n, hn⟩ := h _ hleads
      cases hn
      exact absurd rfl (hatom n)

/-- Two references in a row, and two names that stand for each other. -/
def entwined : Environment :=
  .ofList [("a", .literal (.name "b")), ("b", .literal (.name "c")),
    ("c", .literal (.boolean true)), ("d", .literal (.name "e")), ("e", .literal (.name "d"))]

theorem display_follows_references_entwined :
    Leads entwined (.literal (.name "a")) (.literal (.boolean true)) ∧
      (Expr.literal (.name "a")).display entwined = "true" ∧
      (∀ w, Leads entwined (.literal (.name "d")) w → ∃ n, w = .literal (.name n)) ∧
      (Expr.literal (.name "d")).display entwined = "" := by
  have hchain : Leads entwined (.literal (.name "a")) (.literal (.boolean true)) :=
    .step (v := .literal (.name "b")) (by decide) (.step (v := .literal (.name "c")) (by decide)
      (.step (v := .literal (.boolean true)) (by decide) .refl))
  have hcircle {v w : Expr} (h : Leads entwined v w)
      (hv : v = .literal (.name "d") ∨ v = .literal (.name "e")) :
      ∃ n, w = .literal (.name n) := by
    induction h with
    | refl => exact hv.elim (fun hd => ⟨"d", hd⟩) fun he => ⟨"e", he⟩
    | @step n v w hn _ ih =>
      have hd : entwined.lookup "d" = some (.literal (.name "e")) := by decide
      have he : entwined.lookup "e" = some (.literal (.name "d")) := by decide
      apply ih
      rcases hv with hv | hv <;> cases hv
      · exact .inr (Option.some.inj (hn.symm.trans hd))
      · exact .inl (Option.some.inj (hn.symm.trans he))
  have hname : ∀ w, Leads entwined (.literal (.name "d")) w → ∃ n, w = .literal (.name n) :=
    fun w hw => hcircle hw (.inl rfl)
  exact ⟨hchain, (display_follows_references _ _).2.1 true hchain, hname,
    (display_follows_references _ _).2.2.2.2.2 hname⟩

end Scratchpad
