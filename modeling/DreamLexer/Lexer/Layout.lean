import DreamLexer.Lexer.Lexeme

/-!
# Layout

The layout turns lexemes into tokens. The tabs before a line's first lexeme are the depth of the
line; block markers lead from the depth of the line before to it. New lines leave the depth alone.
-/

namespace DreamLexer

/-- What the layout knows between two lexemes. -/
structure Layout where
  /-- The tabs at the start of the line, until its first lexeme settles the depth. -/
  indent : Option Nat
  /-- The blocks open by indentation. -/
  depth : Nat
  /-- Whether the last token was a new line. -/
  afterNewline : Bool
deriving DecidableEq

namespace Layout

/-- The layout at the start of a unit. -/
def start : Layout := ⟨some 0, 0, false⟩

/-- Whether the line's depth is still open. -/
def inIndentation (l : Layout) : Bool := l.indent.isSome

/-- Counts tabs, which matter in the indentation only. -/
def passTabs (l : Layout) (tabs : Nat) : Layout := { l with indent := l.indent.map (· + tabs) }

/-- The markers that lead from one depth to another. -/
def markers (depth target : Nat) : List Token :=
  List.replicate (target - depth) Token.indentBegin ++
    List.replicate (depth - target) Token.indentEnd

/-- The layout after it handed out tokens that are no new lines. -/
def afterTokens (l : Layout) (tokens : List Token) : Layout :=
  { l with afterNewline := l.afterNewline && tokens.isEmpty }

/-- Hands out a new line. -/
def newline (o : Options) (l : Layout) : List Token × Layout :=
  if o.collapseNewlines && l.afterNewline then ([], l)
  else ([.newline], { l with afterNewline := true })

/-- Settles the depth of the line, if that is still open. -/
def settle (l : Layout) : List Token × Layout :=
  match l.indent with
  | none => ([], l)
  | some tabs => (markers l.depth tabs, { l with indent := none, depth := tabs })

/-- Hands out the tokens of a lexeme. A comment that is not handed out settles the depth too. -/
def place (o : Options) (l : Layout) (lexeme : Lexeme) (span : Span) : List Token × Layout :=
  match lexeme with
  | .lineBreak => newline o { l with indent := some 0 }
  | .separator => newline o l
  | _ =>
    let (marks, settled) := l.settle
    let tokens := marks ++ (lexeme.token? o span).toList
    (tokens, settled.afterTokens tokens)

/-- Hands out the tokens at the end of the text: the markers that close the open blocks. -/
def finish (o : Options) (l : Layout) : List Token × Layout :=
  if o.closeBlocksAtEof then
    (markers l.depth 0, { l with depth := 0 }.afterTokens (markers l.depth 0))
  else ([], l)

end Layout

end DreamLexer
