import Scratchpad.Document
import Scratchpad.Machine

/-! The command line: a document from a file, an argument or the standard input, and what is printed
of it. -/
namespace Scratchpad
namespace CommandLine

inductive Refusal where
  | unknownFlag (flag : String)
  | unexpectedArgument (argument : String)
  | noInput
  | cannotRead (argument reason : String)
  deriving DecidableEq

namespace Refusal

def message : Refusal → String
  | unknownFlag flag => s!"Unknown flag: {flag}"
  | unexpectedArgument argument => s!"Unexpected argument: {argument}"
  | noInput => "No input provided on stdin"
  | cannotRead argument reason => s!"Cannot read {argument}: {reason}"

end Refusal

inductive Stop where
  | refused (refusal : Refusal)
  | failed (failure : Failure)
  deriving DecidableEq

structure Options where
  outline : Bool
  tokens : Bool
  environment : Bool
  source : Option String
  deriving DecidableEq

namespace Options

def none : Options := ⟨false, false, false, .none⟩

def add (options : Options) (argument : String) : Except Refusal Options :=
  if argument = "--ast" then .ok { options with outline := true }
  else if argument = "--tokens" then .ok { options with tokens := true }
  else if argument = "--env" then .ok { options with environment := true }
  else if ['-', '-'].isPrefixOf argument.toList then .error (.unknownFlag argument)
  else if options.source.isSome then .error (.unexpectedArgument argument)
  else .ok { options with source := some argument }

def ofArguments (arguments : List String) : Except Refusal Options := arguments.foldlM add none

end Options

/-! ## The text to run -/

def readsInput (argument : Option String) : Bool := argument = none ∨ argument = some "-"

/-- What a path leads to: a file with its text, one that cannot be read, one that is no text, or
nothing that is a file. A path can also be such that the question itself fails. -/
inductive Entry where
  | file (content : String)
  | unreadable (reason : String)
  | undecodable (reason : String)
  | noFile
  | inaccessible (reason : String)
  deriving DecidableEq

/-- A path without components that lead nowhere: empty ones and single dots. At its start two
slashes are not the same as one; more than two are. -/
def cleanPath (path : String) : String :=
  let components := (path.toList.splitOn '/').filter fun c => c ≠ [] ∧ c ≠ ['.']
  let slashes := (path.toList.takeWhile (· = '/')).length
  String.ofList (List.replicate (if slashes ≤ 2 then slashes else 1) '/' ++
    ['/'].intercalate components)

def source (argument : Option String) (input : String) (entry : String → Entry) :
    Except Stop String :=
  if readsInput argument then
    if input.isEmpty then .error (.refused .noInput) else .ok input
  else
    let argument := argument.getD ""
    match entry (cleanPath argument) with
    | .file content => .ok (String.ofList (unifyNewlines content.toList))
    | .unreadable reason => .error (.refused (.cannotRead argument reason))
    | .undecodable reason => .error (.failed (.encoding reason))
    | .noFile => .ok argument
    | .inaccessible reason => .error (.failed (.path reason))

def dropFinalNewline (text : List Char) : List Char :=
  if text.getLast? = some '\n' then text.dropLast else text

/-! ## What is printed -/

def tokenRow (line : String) : String := " ".intercalate ((tokens line).map Token.inspect)

def listLine (machine : Machine) (options : Options) (line : String) : Written :=
  .join [.ofOutputs (if options.tokens then [.line (tokenRow line)] else []),
    if options.outline then machine.outlineText line else .ofOutputs []]

def evaluateText (limit : Nat) (options : Options) (text : String) : List Output :=
  let document := (Document.new .empty).update limit text false
  document.faults.map .diagnostic ++ document.displays.map .line ++
    if options.environment then document.after.listing.map .line else []

def present (machine : Machine) (options : Options) (text : String) : Written :=
  let text := String.ofList (dropFinalNewline text.toList)
  if options.tokens || options.outline then .join ((lines text).map (listLine machine options))
  else .ofOutputs (evaluateText machine.evaluationLimit options text)

/-- Follow a command line. The standard input is looked at only if no argument gives the text. -/
def run (machine : Machine) (arguments : List String) (input : String) (entry : String → Entry) :
    Except Stop Written := do
  let options ← (Options.ofArguments arguments).mapError .refused
  let text ← source options.source input entry
  pure (present machine options text)

end CommandLine
end Scratchpad
