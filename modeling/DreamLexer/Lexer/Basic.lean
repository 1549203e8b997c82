import DreamLexer.Lexer.Scanner

/-!
# The lexer

A lexer hands out the tokens of a unit one at a time. It scans only when all tokens found so far are
handed out, tells about an error once, when it meets it, and then stays failed. `lexUnit` takes all
tokens at once.
-/

namespace DreamLexer

/-- A lexer between two calls. -/
structure Lexer where
  options : Options
  scanner : Scanner
  /-- The tokens found and not handed out yet. -/
  queue : List Token
  /-- How the scan ended, once it did. -/
  ending : Option Ending
  /-- The diagnostics told so far. -/
  told : Diagnostics
deriving DecidableEq

/-- The error a scan ended with. -/
def Ending.error? : Ending → Option LexError
  | .finished => none
  | .failed e => some e

/-- Tells about the error of a scan that failed. -/
def Ending.tell (ending : Ending) (told : Diagnostics) : Diagnostics :=
  match ending with
  | .finished => told
  | .failed e => told.report e.text e.position

namespace Lexer

/-- A lexer at the start of a unit. -/
def start (o : Options) (unit text : String) (told : Diagnostics) : Lexer :=
  ⟨o, .start unit text.toList, [], none, told⟩

/-- The position of the next character to be read. -/
def position (l : Lexer) : Position := l.scanner.cursor.point

/-- The number of blocks open by indentation. -/
def depth (l : Lexer) : Nat := l.scanner.layout.depth

/-- Scans until there is a token to hand out or the scan ends. -/
def refill (l : Lexer) : Lexer :=
  if l.queue.isEmpty && l.ending.isNone then
    match _h : l.scanner.step l.options with
    | .placed tokens next => refill { l with scanner := next, queue := tokens }
    | .ended tokens ending last =>
      { l with
        scanner := last, queue := tokens, ending := some ending, told := ending.tell l.told }
  else l
termination_by l.scanner.cursor.rest.length
decreasing_by exact Scanner.length_rest_lt_of_step _h

/-- The next token, none at the end of the text, or the error, which every later call repeats. -/
def nextToken (l : Lexer) : Except LexError (Option Token) × Lexer :=
  match l.ending with
  | some (.failed e) => (.error e, l)
  | _ =>
    let filled := l.refill
    match filled.queue, filled.ending with
    | token :: queue, _ => (.ok (some token), { filled with queue := queue })
    | [], some (.failed e) => (.error e, filled)
    | [], _ => (.ok none, filled)

/-- The next item of the lexer as a sequence, which ends with the text or behind the error. -/
def next (l : Lexer) : Option (Except LexError Token) × Lexer :=
  match l.ending with
  | some (.failed _) => (none, l)
  | _ =>
    match l.nextToken with
    | (.ok (some token), after) => (some (.ok token), after)
    | (.ok none, after) => (none, after)
    | (.error e, after) => (some (.error e), after)

/-- All items that are left: the tokens and, if the lexer fails on the way, the error. -/
def drain (l : Lexer) : List Token × Option LexError × Lexer :=
  match l.ending with
  | some (.failed _) => ([], none, l)
  | some .finished => (l.queue, none, { l with queue := [] })
  | none =>
    let run := l.scanner.run l.options
    (l.queue ++ run.tokens, run.ending.error?,
      { l with
        scanner := run.last, queue := [], ending := some run.ending
        told := run.ending.tell l.told })

end Lexer

/-- The tokens of a unit, or the error that ended it, and all that was told. -/
def lexUnit (o : Options) (unit text : String) (told : Diagnostics) :
    Except LexError (List Token) × Diagnostics :=
  match (Lexer.start o unit text told).drain with
  | (_, some e, after) => (.error e, after.told)
  | (tokens, none, after) => (.ok tokens, after.told)

end DreamLexer
