import Scratchpad.Expr.Parser

/-! A place in a list of tokens, for reading it step by step. The tokens behind the first end of
input can be looked at, but never reached. -/
namespace Scratchpad

/-- The tokens taken so far, those still ahead, and the faults found on the way. -/
structure Cursor where
  taken : List Token
  feed : Feed
  faults : List Diagnostic

namespace Cursor

def ofTokens (tokens : List Token) : Cursor := ⟨[], Scratchpad.feed tokens, []⟩

def position (c : Cursor) : Nat := c.taken.length

def upcoming (c : Cursor) : List Token := c.feed.ahead ++ c.feed.stop :: c.feed.beyond

def current (c : Cursor) : Token := c.feed.ahead.headD c.feed.stop

def atEnd (c : Cursor) : Bool := c.feed.ahead.isEmpty

/-- The token at a distance from the current one; past the last token, that one. Places in front of
the first token count back from the last. -/
def peek (c : Cursor) (offset : Int) : Token :=
  let all := c.taken ++ c.upcoming
  let place := c.position + offset
  let place := if place < 0 then place + all.length else place
  all[place.toNat]?.getD (all.getLastD c.feed.stop)

/-- The token taken last; before any is taken, the first one. -/
def previous (c : Cursor) : Token := c.taken.getLastD c.current

def moveTo (c : Cursor) (rest : List Token) : Cursor :=
  { c with
    taken := c.taken ++ c.feed.ahead.take (c.feed.ahead.length - rest.length)
    feed := { c.feed with ahead := rest } }

def advance (c : Cursor) : Cursor := c.moveTo c.feed.ahead.tail

def check (c : Cursor) (expected : Kind → Bool) : Bool := expected c.current.kind

def accept (c : Cursor) (expected : Kind → Bool) : Bool × Cursor :=
  if c.check expected then (true, c.advance) else (false, c)

def expect (c : Cursor) (expected : Kind → Bool) (fault : Fault) : Cursor :=
  if c.check expected then c.advance
  else { c with faults := c.faults ++ [⟨fault, some c.current⟩] }

def read (c : Cursor) (reader : Token → Reader) : Expr × Cursor :=
  let parsed := (reader c.feed.stop).read c.feed.ahead
  (parsed.value, { c.moveTo parsed.rest with faults := c.faults ++ parsed.faults })

def readAll (c : Cursor) : List Expr × Cursor :=
  let program := statements c.feed.stop c.feed.ahead
  (program.statements, { c.moveTo [] with faults := c.faults ++ program.faults })

end Cursor
end Scratchpad
