import Scratchpad.Number.Text
import Scratchpad.Token.Lexer
import Scratchpad.Expr.Reader
import Scratchpad.Expr.Cursor
import Scratchpad.Document
import Scratchpad.Expr.Alike
import Scratchpad.Display
import Scratchpad.Machine
import Scratchpad.CommandLine
import Scratchpad.Command
import Scratchpad.Highlight
import Scratchpad.Session
import Scratchpad.Main
import Scratchpad.Proofs.Grammar
import Scratchpad.Proofs.Reading
import Scratchpad.Proofs.Acceptance
import Scratchpad.Proofs.RoundTrip
import Scratchpad.Proofs.Isolation
import Scratchpad.Proofs.Recovery
import Scratchpad.Proofs.Closure
import Scratchpad.Proofs.History
import Scratchpad.Proofs.Coherence
import Scratchpad.Proofs.Gist
import Scratchpad.Proofs.Nesting
import Scratchpad.Proofs.Words
import Scratchpad.Proofs.Naming
import Scratchpad.Proofs.LongestMatch
import Scratchpad.Proofs.Positions
import Scratchpad.Proofs.Independence
import Scratchpad.Proofs.Cuts
import Scratchpad.Proofs.Layout
import Scratchpad.Proofs.LineBreaks
import Scratchpad.Proofs.LineStack
import Scratchpad.Proofs.Chains
import Scratchpad.Proofs.Streams
import Scratchpad.Proofs.Strays
import Scratchpad.Proofs.Atomicity
import Scratchpad.Proofs.References
import Scratchpad.Proofs.DeepNesting
import Scratchpad.Proofs.Rows
import Scratchpad.Proofs.Printout
import Scratchpad.Proofs.Progress
import Scratchpad.Proofs.Accounting
import Scratchpad.Proofs.Parts
import Scratchpad.Proofs.Separation
import Scratchpad.Proofs.Quotients
import Scratchpad.Proofs.Retyping
import Scratchpad.Proofs.Dependence
import Scratchpad.Proofs.Strictness
import Scratchpad.Proofs.Stacking
import Scratchpad.Proofs.Spacing
import Scratchpad.Proofs.Parentheses
import Scratchpad.Proofs.Trees
import Scratchpad.Proofs.Outlines
import Scratchpad.Proofs.Pieces
import Scratchpad.Proofs.Slashes
import Scratchpad.Proofs.Listing
import Scratchpad.Proofs.Alignment
