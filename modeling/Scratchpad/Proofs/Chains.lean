import Scratchpad.Proofs.LineStack
import Scratchpad.Proofs.Retyping
import Scratchpad.Proofs.Trees

/-! Long sums. A sum of ones nests as deep as it has additions, so for every stack there is a line
whose outline is too much for it, and asking for this outline ends the session. -/
namespace Scratchpad

def one : Atom := .number (.ofDecimal false (.ofNumeral ['1']))

/-! ## Lexemes -/

def additions (n : Nat) : List Char := (List.replicate n ['+', '1']).flatten

/-- A sum of ones with a given number of additions. -/
def sumText (n : Nat) : String := String.ofList ('1' :: additions n)

theorem lexemes_one_additions (n : Nat) :
    lexemes ('1' :: additions n) = ['1'] :: (List.replicate n [['+'], ['1']]).flatten := by
  induction n with
  | zero => rw [lexemes_cons_of_extent (by rfl)]; simp [additions]
  | succ n ih =>
    have hcons : additions (n + 1) = '+' :: '1' :: additions n := by
      simp [additions, List.replicate_succ]
    rw [hcons, lexemes_cons_of_extent (by rfl), lexemes_cons_of_extent (by rfl), ih,
      List.replicate_succ]
    rfl

/-! ## Reading -/

/-- Tokens of one line that spell a sum of ones with a given number of additions. -/
structure SumOf (n : Nat) (e : Expr) (ts : List Token) : Prop where
  spelled : Spelled e ts
  fits : Fits (.binary .sum) e
  nesting : e.nesting = 0
  height : e.height = n
  nonempty : ts ≠ []
  solid : ∀ t ∈ ts, t.kind ≠ .newline ∧ t.kind ≠ .endOfInput ∧ t.kind ≠ .blank

theorem sumOf_one {t : Token} (ht : t.kind = one.kind) : SumOf 0 (.literal one) [t] where
  spelled := .literal ht .none
  fits := .operand (.operand (.primary .literal))
  nesting := rfl
  height := rfl
  nonempty := List.cons_ne_nil _ _
  solid := by simp [ht, one, Atom.kind]

theorem SumOf.add {n : Nat} {e : Expr} {ts : List Token} (h : SumOf n e ts) {op t : Token}
    (hop : op.kind = .operator .plus) (ht : t.kind = one.kind) :
    SumOf (n + 1) (.binary e op (.literal one)) (ts ++ [op, t]) where
  spelled := .binary h.spelled (.literal ht .none)
  fits := .binary rfl ⟨.plus, by decide, hop⟩ h.fits (.operand (.primary .literal))
  nesting := by simp [Expr.nesting, h.nesting]
  height := by simp [Expr.height, h.height]
  nonempty := List.append_ne_nil_of_left_ne_nil h.nonempty _
  solid := List.forall_mem_append.2 ⟨h.solid, by simp [hop, ht, one, Atom.kind]⟩

theorem SumOf.exists_place {n : Nat} {e : Expr} {ts : List Token} (h : SumOf n e ts) (m : Nat)
    (p : Position) :
    ∃ e' ts' stop, SumOf (n + m) e' ts' ∧ stop.kind = .endOfInput ∧
      ts ++ place p (List.replicate m [['+'], ['1']]).flatten = ts' ++ [stop] := by
  induction m generalizing n e ts p with
  | zero => exact ⟨e, ts, _, h, rfl, rfl⟩
  | succ m ih =>
    have hplus : Kind.ofLexeme ['+'] = .operator .plus := by decide
    have hone : Kind.ofLexeme ['1'] = one.kind := by decide +kernel
    let op : Token := ⟨.ofLexeme ['+'], String.ofList ['+'], p⟩
    let t : Token := ⟨.ofLexeme ['1'], String.ofList ['1'], p.after ['+']⟩
    have hmore : SumOf (n + 1) (.binary e op (.literal one)) (ts ++ [op, t]) := h.add hplus hone
    obtain ⟨e', ts', stop, hsum, hstop, hplace⟩ := ih hmore ((p.after ['+']).after ['1'])
    refine ⟨e', ts', stop, ?_, hstop, ?_⟩
    · rwa [Nat.add_right_comm] at hsum
    · rw [← hplace, List.append_assoc]
      rfl

/-- A sum of ones is read as one statement, as high as it has additions. -/
theorem exists_parse_sumText (n : Nat) :
    ∃ e, parse (tokens (sumText n)) = ⟨[e], []⟩ ∧ e.height = n := by
  have hone : Kind.ofLexeme ['1'] = one.kind := by decide +kernel
  obtain ⟨e, ts, stop, hsum, hstop, hplace⟩ :=
    (sumOf_one (t := ⟨.ofLexeme ['1'], String.ofList ['1'], .start⟩) hone).exists_place n
      (Position.start.after ['1'])
  have hall : allTokens (sumText n) = ts ++ [stop] := by
    rw [allTokens, sumText, String.toList_ofList, lexemes_one_additions, ← hplace]
    rfl
  have htokens : tokens (sumText n) = ts ++ [stop] := by
    rw [tokens, hall, List.filter_eq_self]
    refine List.forall_mem_append.2 ⟨fun t ht => ?_, by simp [hstop]⟩
    simpa using (hsum.solid t ht).2.2
  have hfits : Fits .statement e :=
    .expression (.operand (.operand (.operand (.operand hsum.fits))))
  refine ⟨e, ?_, by rw [hsum.height, Nat.zero_add]⟩
  rw [htokens]
  refine parse_of_spelled hfits (hsum.nesting ▸ Nat.zero_le _) hsum.spelled hsum.nonempty
    (fun t ht => (hsum.solid t ht).1) (fun t ht => ?_) (by simp [Token.isEnd, hstop])
  simpa [Token.isEnd] using (hsum.solid t ht).2.1

/-! ## Sessions -/

theorem outline_sumText (machine : Machine) {n : Nat} (h : machine.treeLimit ≤ n) :
    machine.outline (parse (tokens (sumText n))).statements = none := by
  obtain ⟨e, he, hheight⟩ := exists_parse_sumText n
  have hnone : treeOf machine.treeLimit [e] = none :=
    treeOf_eq_none_iff.2 ⟨e, List.mem_singleton_self e, hheight ▸ h⟩
  rw [he, Machine.outline, hnone]
  rfl

namespace LineStack

theorem normalize_sumText (n : Nat) : Session.normalize (sumText n) = sumText n := by
  have hkept : ∀ c ∈ '1' :: additions n, (!Session.isStray c) = true := by
    intro c hc
    rcases List.mem_cons.1 hc with rfl | hc
    · decide
    · obtain ⟨addition, haddition, hc⟩ := List.mem_flatten.1 hc
      rw [List.eq_of_mem_replicate haddition] at hc
      rcases List.mem_pair.1 hc with rfl | rfl <;> decide
  rw [Session.normalize, sumText, String.toList_ofList, List.filter_eq_self.2 hkept]

theorem opens_sumText (n : Nat) : Command.opens (sumText n) = false := by
  have hone : isBlank '1' = false := by decide
  rw [Command.opens, sumText, String.toList_ofList, List.find?_cons_of_pos (by simp [hone])]
  decide

/-- On every machine there is a line that can be stored, behind which the word for the outline ends
a session. -/
theorem firstOverrun_sumText (machine : Machine) {n : Nat} (h : machine.treeLimit ≤ n)
    (inputs : List Input) :
    firstOverrun machine [] (.line (sumText n) :: .line "/ast" :: inputs) = some 1 := by
  have hword : Session.normalize "/ast" = "/ast" ∧ Command.opens "/ast" = true ∧
      Command.firstWord "/ast" = "/ast" ∧ Command.argument "/ast" = "" := by decide +kernel
  obtain ⟨hsame, hopens, hfirst, hargument⟩ := hword
  -- the sum itself is stored; it is only its outline that is too much
  have hstored : overruns machine [] (sumText n) = false := by
    simp [overruns, normalize_sumText, opens_sumText]
  have hnext : next [] (sumText n) = [sumText n] := by
    simp [next, normalize_sumText, opens_sumText]
  have hasked : overruns machine [sumText n] "/ast" = true := by
    simp [overruns, hsame, hopens, hfirst, hargument, outlined, outline_sumText machine h]
  simp [firstOverrun, hstored, hnext, hasked]

/-- A session that a long sum ends, where a stack of lines would go on to ask for another one. -/
theorem transcript_long_sum :
    let inputs : List Input := [.line (sumText 1200), .line "/ast", .line "2"]
    let session := Session.transcript .usual inputs
    let stack := LineStack.transcript .usual inputs
    session.failure = some .stack ∧ session.screens.length = 3 ∧ stack.length = 5 ∧
      session ≠ ⟨stack, none⟩ := by
  intro inputs session stack
  have hlimit : Machine.usual.treeLimit ≤ 1200 := by decide
  have hover : firstOverrun .usual [] inputs = some 1 := firstOverrun_sumText .usual hlimit _
  have hfollows : Follows stack (some 1) session := by
    rw [← hover]
    exact follows_run Notepad.coherent_empty _ inputs
  have hlength : stack.length = 5 := rfl
  generalize session = session at hfollows
  cases hfollows with
  | upTo hlast =>
    exact ⟨rfl, by simp [hlength], hlength, by simp⟩

end LineStack
end Scratchpad
