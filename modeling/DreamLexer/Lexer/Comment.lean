/-!
# Comments

A line comment reaches up to the line feed. A block comment may hold block comments: inside one, an
opener is looked for before a closer, and the comment ends at the closer of its own opener.
-/

namespace DreamLexer.Comment

/-- Reads on in a block comment. `nested` counts the comments open inside it, and `before` holds
what was read, the last character first. Gives the interior and the text behind the closer, or
nothing if the comment is not closed. -/
def interiorFrom (nested : Nat) (before : List Char) : List Char → Option (List Char × List Char)
  | [] => none
  | '/' :: '*' :: rest => interiorFrom (nested + 1) ('*' :: '/' :: before) rest
  | '*' :: '/' :: rest =>
    match nested with
    | 0 => some (before.reverse, rest)
    | outer + 1 => interiorFrom outer ('/' :: '*' :: before) rest
  | c :: rest => interiorFrom nested (c :: before) rest

/-- Reads a block comment behind its opener. -/
def interior? (text : List Char) : Option (List Char × List Char) := interiorFrom 0 [] text

/-- The rest of a line, without its line feed. -/
def lineRest (text : List Char) : List Char := text.takeWhile (· != '\n')

theorem interiorFrom_append {nested : Nat} {before text interior rest : List Char}
    (h : interiorFrom nested before text = some (interior, rest)) :
    before.reverse ++ text = interior ++ '*' :: '/' :: rest := by
  fun_induction interiorFrom nested before text with
  | case1 => simp at h
  | case2 nested before rest' ih => simpa using ih h
  | case3 before rest' =>
    obtain ⟨rfl, rfl⟩ := by simpa using h
    rfl
  | case4 before rest' outer ih => simpa using ih h
  | case5 nested before c rest' _ _ ih => simpa using ih h

/-- The interior, the closer and the text behind it make up the text. -/
theorem interior?_append {text interior rest : List Char}
    (h : interior? text = some (interior, rest)) : text = interior ++ '*' :: '/' :: rest := by
  simpa using interiorFrom_append h

end DreamLexer.Comment
