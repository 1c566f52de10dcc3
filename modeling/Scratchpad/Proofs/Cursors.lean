import Mathlib.Data.List.TakeWhile
import Scratchpad.Expr.Cursor
import Scratchpad.Proofs.Reading

/-! Cursors: what moving one on does, and where it then stands. -/
namespace Scratchpad

def withEnd (tokens : List Token) : List Token :=
  if tokens.getLast?.any Token.isEnd then tokens else tokens ++ [feed.ended tokens]

theorem feed_eq_withEnd (tokens : List Token) :
    (feed tokens).ahead ++ (feed tokens).stop :: (feed tokens).beyond = withEnd tokens := by
  have hsplit := List.takeWhile_append_dropWhile (p := fun t : Token => !t.isEnd) (l := tokens)
  rw [feed, withEnd]
  cases hd : tokens.dropWhile fun t => !t.isEnd with
  | nil =>
    have hlast : tokens.getLast?.any Token.isEnd = false := by
      rw [List.dropWhile_eq_nil_iff] at hd
      cases hl : tokens.getLast? with
      | none => rfl
      | some t => simpa using hd t (List.mem_of_getLast? hl)
    simp [hlast]
  | cons stop beyond =>
    rw [hd] at hsplit
    dsimp only
    split
    · exact hsplit
    · rw [← List.cons_append, ← List.append_assoc, hsplit]

theorem findIdx_withEnd (tokens : List Token) :
    (withEnd tokens).findIdx Token.isEnd = (feed tokens).ahead.length := by
  have hstop : (feed tokens).stop.isEnd = true := by simp [Token.isEnd, kind_stop_feed]
  have hahead : (feed tokens).ahead.findIdx Token.isEnd = (feed tokens).ahead.length :=
    List.findIdx_eq_length.2 fun t ht => isEnd_of_mem_ahead ht
  rw [← feed_eq_withEnd, List.findIdx_append, hahead, if_neg (Nat.lt_irrefl _), List.findIdx_cons,
    hstop]
  simp

namespace Cursor

def after (c : Cursor) (p : Parsed) : Cursor :=
  { c.moveTo p.rest with faults := c.faults ++ p.faults }

theorem moveTo_of_append {c : Cursor} {used rest : List Token} (h : c.feed.ahead = used ++ rest) :
    c.moveTo rest = { c with taken := c.taken ++ used, feed := { c.feed with ahead := rest } } := by
  have htaken : (used ++ rest).take ((used ++ rest).length - rest.length) = used := by simp
  rw [moveTo, h, htaken]

theorem moveTo_ahead (c : Cursor) : c.moveTo c.feed.ahead = c := by
  simp [moveTo]

theorem moveTo_moveTo {c : Cursor} {mid rest : List Token} (hmid : mid <:+ c.feed.ahead)
    (hrest : rest <:+ mid) : (c.moveTo mid).moveTo rest = c.moveTo rest := by
  obtain ⟨used, rfl⟩ := hrest
  obtain ⟨front, hfront⟩ := hmid
  have hmid := moveTo_of_append hfront.symm
  have hboth : c.feed.ahead = front ++ used ++ rest := by rw [List.append_assoc, hfront]
  have hrest := moveTo_of_append hboth
  have hthen : (c.moveTo (used ++ rest)).moveTo rest = _ := moveTo_of_append rfl
  rw [hrest, hthen, hmid, List.append_assoc]

theorem after_after {c : Cursor} {p q : Parsed} (hp : p.rest <:+ c.feed.ahead)
    (hq : q.rest <:+ p.rest) :
    (c.after p).after q = c.after ⟨q.value, p.faults ++ q.faults, q.rest⟩ := by
  have hmove := moveTo_moveTo hp hq
  simp only [moveTo, mk.injEq] at hmove
  simp [after, moveTo, hmove]

theorem after_moveTo {c : Cursor} {mid : List Token} {p : Parsed} (hmid : mid <:+ c.feed.ahead)
    (hp : p.rest <:+ mid) : (c.moveTo mid).after p = c.after p := by
  have hmove := moveTo_moveTo hmid hp
  rw [after, hmove]
  rfl

theorem position_le_moveTo (c : Cursor) (rest : List Token) :
    c.position ≤ (c.moveTo rest).position := by
  simp [position, moveTo]

theorem advance_of_cons {c : Cursor} {t : Token} {ts : List Token} (h : c.feed.ahead = t :: ts) :
    c.advance = c.moveTo ts := by
  rw [advance, h, List.tail_cons]

theorem current_of_cons {c : Cursor} {t : Token} {ts : List Token} (h : c.feed.ahead = t :: ts) :
    c.current = t := by
  simp [current, h]

theorem current_of_nil {c : Cursor} (h : c.feed.ahead = []) : c.current = c.feed.stop := by
  simp [current, h]

theorem ahead_eq {c : Cursor} (hstop : c.feed.stop.kind = .endOfInput)
    (h : c.current.kind ≠ .endOfInput) : c.feed.ahead = c.current :: c.feed.ahead.tail := by
  cases hahead : c.feed.ahead with
  | nil => exact absurd (current_of_nil hahead ▸ hstop) h
  | cons t ts => rw [current_of_cons hahead, List.tail_cons]

def skipNewline (c : Cursor) : Cursor := (c.accept (· = .newline)).2

def close (c : Cursor) : Cursor := c.expect (· = .closeParen) .expectedClosing

theorem skipNewline_eq {c : Cursor} (hstop : c.feed.stop.kind = .endOfInput) :
    c.skipNewline = c.moveTo (Scratchpad.skipNewline c.feed.ahead) := by
  rw [skipNewline, accept, check]
  cases h : c.feed.ahead with
  | nil => simp [current_of_nil h, hstop, Scratchpad.skipNewline, ← h, moveTo_ahead]
  | cons t ts =>
    rw [current_of_cons h, Scratchpad.skipNewline]
    by_cases hn : t.kind = .newline
    · simp [hn, advance_of_cons h]
    · simp [hn, ← h, moveTo_ahead]

theorem close_of_closeParen {c : Cursor} {t : Token} {ts : List Token}
    (h : c.feed.ahead = t :: ts) (ht : t.kind = .closeParen) : c.close = c.moveTo ts := by
  simp [close, expect, check, current_of_cons h, ht, advance_of_cons h]

theorem close_of_ne {c : Cursor} (h : c.current.kind ≠ .closeParen) :
    c.close = { c with faults := c.faults ++ [⟨.expectedClosing, some c.current⟩] } := by
  simp [close, expect, check, h]

theorem moveTo_after {c : Cursor} {p : Parsed} (hp : p.rest <:+ c.feed.ahead) {rest : List Token}
    (hrest : rest <:+ p.rest) : (c.after p).moveTo rest = c.after { p with rest := rest } := by
  have hthen : (c.after p).moveTo rest = (c.after p).after ⟨p.value, [], rest⟩ := by
    simp [after, moveTo]
  rw [hthen, after_after hp hrest, List.append_nil]

theorem skipNewline_after {c : Cursor} {p : Parsed} (hstop : c.feed.stop.kind = .endOfInput)
    (hp : p.rest <:+ c.feed.ahead) : (c.after p).skipNewline = c.after p.endLine := by
  rw [skipNewline_eq (c := c.after p) hstop]
  exact moveTo_after hp (skipNewline_suffix p.rest)

theorem close_after {c : Cursor} {p : Parsed} (hstop : c.feed.stop.kind = .endOfInput)
    (hp : p.rest <:+ c.feed.ahead) : (c.after p).close = c.after (p.close c.feed.stop) := by
  have hahead : (c.after p).feed.ahead = p.rest := rfl
  rw [Parsed.close]
  cases hr : p.rest with
  | nil =>
    have hcurrent : (c.after p).current = c.feed.stop := current_of_nil (hahead.trans hr)
    rw [close_of_ne (by simp [hcurrent, hstop]), hcurrent]
    simp [after, hr]
  | cons t ts =>
    have hcurrent : (c.after p).current = t := current_of_cons (hahead.trans hr)
    by_cases hc : t.kind = .closeParen
    · rw [close_of_closeParen (hahead.trans hr) hc, moveTo_after hp (hr ▸ List.suffix_cons t ts)]
      simp [hc, after]
    · rw [close_of_ne (by rwa [hcurrent]), hcurrent]
      simp [hc, after, hr]

theorem peek_one (c : Cursor) :
    c.peek 1 = c.upcoming[1]?.getD ((c.taken ++ c.upcoming).getLastD c.feed.stop) := by
  have hplace : ((c.position : Int) + 1).toNat = c.taken.length + 1 := by
    rw [position]
    omega
  rw [peek, if_neg (by omega), hplace, List.getElem?_append_right (by omega),
    Nat.add_sub_cancel_left]

theorem beginsAssignment_iff {c : Cursor} (hstop : c.feed.stop.kind = .endOfInput) :
    BeginsAssignment c.feed.ahead ↔
      (∃ name, c.current.kind = .identifier name) ∧ (c.peek 1).kind = .colon := by
  rcases h : c.feed.ahead with _ | ⟨t, _ | ⟨colon, ts⟩⟩
  · simp [BeginsAssignment, current_of_nil h, hstop]
  · have hpeek : c.peek 1 = c.feed.stop := by simp [peek_one, upcoming, h]
    simp [BeginsAssignment, hpeek, hstop]
  · have hpeek : c.peek 1 = colon := by simp [peek_one, upcoming, h]
    simp [BeginsAssignment, hpeek, current_of_cons h]

theorem readAll_eq (c : Cursor) :
    c.readAll =
      ((statements c.feed.stop c.feed.ahead).statements,
        c.after ⟨.nothing, (statements c.feed.stop c.feed.ahead).faults, []⟩) := rfl

theorem readAll_of_nil {c : Cursor} (h : c.feed.ahead = []) : c.readAll = ([], c) := by
  have hmove := moveTo_ahead c
  rw [h] at hmove
  simp [readAll_eq, h, after, hmove]

theorem readAll_of_newline {c : Cursor} (hstop : c.feed.stop.kind = .endOfInput)
    (h : c.current.kind = .newline) : c.readAll = c.advance.readAll := by
  have hahead := c.ahead_eq hstop (by simp [h])
  have hread : statements c.feed.stop c.feed.ahead = statements c.feed.stop c.feed.ahead.tail := by
    rw [hahead]
    exact statements_newline _ _ h
  rw [readAll_eq, readAll_eq, hread]
  exact congrArg _ (after_moveTo (List.tail_suffix _) List.nil_suffix).symm

theorem readAll_of_statement {c : Cursor} (hstop : c.feed.stop.kind = .endOfInput)
    (hn : c.current.kind ≠ .newline) (hend : c.current.kind ≠ .endOfInput) :
    let first := (statement c.feed.stop maxNesting).read c.feed.ahead
    let more := (c.after first).readAll
    c.readAll = (first.value :: more.1, more.2) := by
  intro first more
  have hfirst : first.rest <:+ c.feed.ahead := Reader.suffix _ _
  have hread : statements c.feed.stop c.feed.ahead =
      ⟨first.value :: (statements c.feed.stop first.rest).statements,
        first.faults ++ (statements c.feed.stop first.rest).faults⟩ := by
    rw [show first = (statement c.feed.stop maxNesting).read c.feed.ahead from rfl,
      c.ahead_eq hstop hend]
    exact statements_cons _ _ hn
  let last : Parsed := ⟨.nothing, (statements c.feed.stop first.rest).faults, []⟩
  have hlast : more.2 = c.after ⟨.nothing, first.faults ++ last.faults, []⟩ :=
    after_after (q := last) hfirst List.nil_suffix
  rw [readAll_eq, hread, hlast]
  rfl

end Cursor

end Scratchpad
