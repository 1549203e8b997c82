/-!
# Lexer options

What the lexer hands out can be thinned, but what it accepts does not depend on the options.
-/

namespace DreamLexer

/-- The choices a caller has. -/
structure Options where
  /-- Hand out comments. A comment that is not handed out still settles its line's depth. -/
  emitComments : Bool
  /-- Drop a new line that follows a new line. -/
  collapseNewlines : Bool
  /-- Give reserved words a kind of their own. -/
  keywords : Bool
  /-- Columns a tab takes up. -/
  tabWidth : UInt32
  /-- Close the blocks that are open where the text ends. -/
  closeBlocksAtEof : Bool
deriving DecidableEq

namespace Options

/-- The choices made when there are none. -/
def standard : Options where
  emitComments := true
  collapseNewlines := false
  keywords := false
  tabWidth := 8
  closeBlocksAtEof := true

/-- The widest tab. -/
def maxTabWidth : UInt32 := 64

/-- Whether a width is one that a tab can have. -/
def isTabWidth (width : UInt32) : Bool := 1 ≤ width && width ≤ maxTabWidth

/-- The width the lexer counts with: the chosen one, moved into the range from 1 to 64, so that a
tab always leaves the first column. -/
def effectiveTabWidth (o : Options) : UInt32 :=
  if o.tabWidth < 1 then 1 else if maxTabWidth < o.tabWidth then maxTabWidth else o.tabWidth

end Options

end DreamLexer
