/-!
# Kinds of tokens

The kinds, their names, and the two tables of fixed spellings: reserved words and punctuation.
-/

namespace DreamLexer

/-- A reserved word. -/
inductive Keyword where
  | asWord
  | constWord
  | delWord
  | forWord
  | ifWord
  | inWord
  | newWord
  | procWord
  | returnWord
  | setWord
  | tmpWord
  | varWord
  | verbWord
deriving DecidableEq

/-- What a token is. A block is opened and closed by the indentation or by a literal brace, and a
new line starts at a line break or a literal semicolon. -/
inductive TokenKind where
  | blockBegin
  | blockEnd
  | comma
  | comment
  | dot
  | equal
  | exclamation
  | ident
  | newline
  | parenLeft
  | parenRight
  | shiftLeft
  | slash
  | doubleQuoted
  | singleQuoted
  | keyword (word : Keyword)
deriving DecidableEq

/-- The reserved words as they are spelled. -/
def Keyword.table : List (String × Keyword) :=
  [("as", .asWord), ("const", .constWord), ("del", .delWord), ("for", .forWord), ("if", .ifWord),
   ("in", .inWord), ("new", .newWord), ("proc", .procWord), ("return", .returnWord),
   ("set", .setWord), ("tmp", .tmpWord), ("var", .varWord), ("verb", .verbWord)]

/-- The reserved word with this spelling. -/
def Keyword.ofSpelling? (spelling : String) : Option Keyword := Keyword.table.lookup spelling

/-- The name a reserved word has as a kind of token. -/
def Keyword.name : Keyword → String
  | .asWord => "KEYWORD_AS"
  | .constWord => "KEYWORD_CONST"
  | .delWord => "KEYWORD_DEL"
  | .forWord => "KEYWORD_FOR"
  | .ifWord => "KEYWORD_IF"
  | .inWord => "KEYWORD_IN"
  | .newWord => "KEYWORD_NEW"
  | .procWord => "KEYWORD_PROC"
  | .returnWord => "KEYWORD_RETURN"
  | .setWord => "KEYWORD_SET"
  | .tmpWord => "KEYWORD_TMP"
  | .varWord => "KEYWORD_VAR"
  | .verbWord => "KEYWORD_VERB"

namespace TokenKind

/-- The punctuation in the order in which it is tried. A spelling stands before every other one it
starts with, so the first that fits is the longest. -/
def punctuation : List (List Char × TokenKind) :=
  [(['<', '<'], .shiftLeft), (['\x7b'], .blockBegin), (['\x7d'], .blockEnd), ([','], .comma),
   (['.'], .dot), (['='], .equal), (['!'], .exclamation), ([';'], .newline), (['('], .parenLeft),
   ([')'], .parenRight), (['/'], .slash)]

/-- The name of the kind. -/
def name : TokenKind → String
  | .blockBegin => "BLOCK_BEGIN"
  | .blockEnd => "BLOCK_END"
  | .comma => "COMMA"
  | .comment => "COMMENT"
  | .dot => "DOT"
  | .equal => "EQUAL"
  | .exclamation => "EXCLAMATION"
  | .ident => "IDENT"
  | .newline => "NEWLINE"
  | .parenLeft => "PAREN_L"
  | .parenRight => "PAREN_R"
  | .shiftLeft => "SHIFT_L"
  | .slash => "SLASH"
  | .doubleQuoted => "STRING_DQ"
  | .singleQuoted => "STRING_SQ"
  | .keyword word => word.name

/-- The kind that a reserved word with this spelling has. -/
def ofReserved? (spelling : String) : Option TokenKind :=
  (Keyword.ofSpelling? spelling).map .keyword

/-- Whether the kind is that of a reserved word. -/
def isKeyword : TokenKind → Bool
  | .keyword _ => true
  | _ => false

/-- Whether the kind opens or closes a block. -/
def isBlock : TokenKind → Bool
  | .blockBegin | .blockEnd => true
  | _ => false

end TokenKind

end DreamLexer
