/-! Operators and their precedence. -/
namespace Scratchpad

/-- Remainder has two spellings, which are different operators with one meaning. -/
inductive Operator where
  | plus | minus | times | dividedBy | percent | mod
  | equal | less | lessEqual | greater | greaterEqual
  | and | or
  deriving DecidableEq

inductive Level where
  | disjunction | conjunction | equality | comparison | sum | product
  deriving DecidableEq

namespace Level

def all : List Level := [disjunction, conjunction, equality, comparison, sum, product]

/-- A level and the tighter ones. -/
def andTighter (level : Level) : List Level := all.dropWhile (· ≠ level)

end Level

namespace Operator

def level : Operator → Level
  | or => .disjunction
  | and => .conjunction
  | equal => .equality
  | less | lessEqual | greater | greaterEqual => .comparison
  | plus | minus => .sum
  | times | dividedBy | percent | mod => .product

end Operator
end Scratchpad
