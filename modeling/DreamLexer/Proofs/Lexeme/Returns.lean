import DreamLexer.Lexer.Linemarker
import DreamLexer.Proofs.Text.Returns

/-!
# Reading text with carriage returns

A text with a carriage return before every line feed is read as the text without them. A line
comment takes one in, comments and literals keep those inside, and a linemarker may end with one:
`read_alike` and `parse?_return`.
-/

namespace DreamLexer

open Text

namespace Comment

/-- Comments nest in the same way, and keep the carriage returns. -/
theorem interiorFrom_withReturns (nested : Nat) (before text : List Char) :
    interiorFrom nested (withReturns before.reverse).reverse (withReturns text) =
      (interiorFrom nested before text).map (Prod.map withReturns withReturns) := by
  have grown (before : List Char) {c : Char} (newline : c ≠ '\n') :
      (withReturns (c :: before).reverse).reverse = c :: (withReturns before.reverse).reverse := by
    rw [List.reverse_cons, withReturns_append, withReturns_cons [] newline, List.reverse_append]
    rfl
  fun_induction interiorFrom nested before text with
  | case1 nested before => rfl
  | case2 nested before rest ih =>
    rw [grown _ (by decide), grown _ (by decide)] at ih
    exact ih
  | case3 before rest =>
    rw [withReturns_cons _ (by decide), withReturns_cons _ (by decide), interiorFrom,
      List.reverse_reverse]
    rfl
  | case4 before rest outer ih =>
    rw [grown _ (by decide), grown _ (by decide)] at ih
    exact ih
  | case5 nested before c rest no_opener no_closer ih =>
    by_cases newline : c = '\n'
    · subst newline
      rw [List.reverse_cons, withReturns_append, List.reverse_append] at ih
      rw [withReturns_newline, interiorFrom.eq_5 _ _ _ _ (by simp) (by simp),
        interiorFrom.eq_5 _ _ _ _ (by simp) (by simp)]
      exact ih
    · rw [grown _ newline] at ih
      rw [withReturns_cons rest newline, interiorFrom.eq_5, ih]
      · intro behind slash starts
        obtain ⟨others, same, -⟩ := of_withReturns_eq_cons starts (by decide)
        exact no_opener others slash same
      · intro behind star starts
        obtain ⟨others, same, -⟩ := of_withReturns_eq_cons starts (by decide)
        exact no_closer others star same

theorem interior?_withReturns (text : List Char) :
    interior? (withReturns text) = (interior? text).map (Prod.map withReturns withReturns) :=
  interiorFrom_withReturns 0 [] text

end Comment

/-- The pieces that stand for a piece when line feeds come with carriage returns. A backslash then
escapes the carriage return. -/
def LiteralPiece.withReturn : LiteralPiece → List LiteralPiece
  | .plain c => if c = '\n' then [.plain '\r', .plain '\n'] else [.plain c]
  | .escaped c => if c = '\n' then [.escaped '\r', .plain '\n'] else [.escaped c]

namespace Literal

theorem raw_withReturn (pieces : List LiteralPiece) :
    raw (pieces.flatMap LiteralPiece.withReturn) = withReturns (raw pieces) := by
  induction pieces with
  | nil => rfl
  | cons p pieces ih =>
    have here : raw p.withReturn = withReturns p.raw := by
      cases p with
      | plain c =>
        by_cases newline : c = '\n' <;>
          simp [LiteralPiece.withReturn, LiteralPiece.raw, newline, withReturns, withReturn]
      | escaped c =>
        by_cases newline : c = '\n' <;>
          simp [LiteralPiece.withReturn, LiteralPiece.raw, newline, withReturns, withReturn]
    rw [List.flatMap_cons, raw, List.flatMap_append, ← raw, ← raw, here, ih, ← withReturns_append]
    rfl

/-- What a literal stands for differs in carriage returns only. -/
theorem dropReturns_value (pieces : List LiteralPiece) :
    dropReturns (value (pieces.flatMap LiteralPiece.withReturn)) = dropReturns (value pieces) := by
  induction pieces with
  | nil => rfl
  | cons p pieces ih =>
    have here : dropReturns (value p.withReturn) = dropReturns [p.value] := by
      cases p with
      | plain c =>
        by_cases newline : c = '\n' <;>
          simp [LiteralPiece.withReturn, LiteralPiece.value, newline, value, dropReturns]
      | escaped c =>
        by_cases newline : c = '\n' <;>
          simp [LiteralPiece.withReturn, LiteralPiece.value, newline, value, dropReturns]
    rw [List.flatMap_cons, value, List.map_append, dropReturns_append, ← value, ← value, here, ih,
      ← dropReturns_append]
    rfl

section

variable (quote : Quote) (before : List LiteralPiece) (rest : List Char)

theorem bodyFrom_quote : bodyFrom quote before (quote.char :: rest) = some (before.reverse, rest) := by
  rw [bodyFrom.eq_def]
  exact if_pos rfl

theorem bodyFrom_backslash : bodyFrom quote before ['\\'] = none := by
  rw [bodyFrom.eq_def]
  exact if_neg quote.char_ne_backslash.symm

theorem bodyFrom_escaped (c : Char) :
    bodyFrom quote before ('\\' :: c :: rest) = bodyFrom quote (.escaped c :: before) rest := by
  rw [bodyFrom.eq_def]
  exact if_neg quote.char_ne_backslash.symm

theorem bodyFrom_plain {c : Char} (fits : (LiteralPiece.plain c).FitsIn quote) :
    bodyFrom quote before (c :: rest) = bodyFrom quote (.plain c :: before) rest := by
  rw [bodyFrom.eq_def]
  simp only [if_neg fits.1, if_neg fits.2]

end

/-- A literal ends at the same quote. -/
theorem bodyFrom_withReturns (quote : Quote) (before : List LiteralPiece) (text : List Char) :
    bodyFrom quote (before.reverse.flatMap LiteralPiece.withReturn).reverse (withReturns text) =
      (bodyFrom quote before text).map
        (Prod.map (List.flatMap LiteralPiece.withReturn) withReturns) := by
  have grown (before : List LiteralPiece) (p : LiteralPiece) :
      ((p :: before).reverse.flatMap LiteralPiece.withReturn).reverse =
        p.withReturn.reverse ++ (before.reverse.flatMap LiteralPiece.withReturn).reverse := by
    rw [List.reverse_cons, List.flatMap_append, List.flatMap_singleton, List.reverse_append]
  have newline_fits : (LiteralPiece.plain '\n').FitsIn quote := by
    cases quote <;> exact ⟨by decide, by decide⟩
  have return_fits : (LiteralPiece.plain '\r').FitsIn quote := by
    cases quote <;> exact ⟨by decide, by decide⟩
  fun_induction bodyFrom quote before text with
  | case1 before => rfl
  | case2 before rest =>
    rw [withReturns_cons rest newline_fits.1.symm, bodyFrom_quote, List.reverse_reverse]
    rfl
  | case3 before closes =>
    rw [withReturns_cons [] (by decide), withReturns_nil, bodyFrom_backslash]
    rfl
  | case4 before escaped rest closes ih =>
    rw [grown] at ih
    rw [withReturns_cons _ (by decide)]
    by_cases newline : escaped = '\n'
    · subst newline
      rw [withReturns_newline, bodyFrom_escaped, bodyFrom_plain _ _ _ newline_fits]
      exact ih
    · rw [LiteralPiece.withReturn, if_neg newline] at ih
      rw [withReturns_cons rest newline, bodyFrom_escaped]
      exact ih
  | case5 before c rest closes escapes ih =>
    rw [grown] at ih
    by_cases newline : c = '\n'
    · subst newline
      rw [withReturns_newline, bodyFrom_plain _ _ _ return_fits, bodyFrom_plain _ _ _ newline_fits]
      exact ih
    · rw [LiteralPiece.withReturn, if_neg newline] at ih
      rw [withReturns_cons rest newline, bodyFrom_plain _ _ _ ⟨closes, escapes⟩]
      exact ih

theorem body?_withReturns (quote : Quote) (text : List Char) :
    body? quote (withReturns text) =
      (body? quote text).map (Prod.map (List.flatMap LiteralPiece.withReturn) withReturns) :=
  bodyFrom_withReturns quote [] text

end Literal

namespace Linemarker

variable {text line : List Char}

section

variable {p : Char → Bool} (stops : p '\r' = false) (text : List Char)
include stops

theorem takeWhile_return : (text ++ ['\r']).takeWhile p = text.takeWhile p := by
  induction text with
  | nil => simp [stops]
  | cons c text ih =>
    cases inside : p c with
    | true => simp [inside, ih]
    | false => simp [inside]

theorem dropWhile_return : (text ++ ['\r']).dropWhile p = text.dropWhile p ++ ['\r'] := by
  induction text with
  | nil => simp [stops]
  | cons c text ih =>
    cases inside : p c with
    | true => simp [inside, ih]
    | false => simp [inside]

end

theorem leadingDigits_return (text : List Char) :
    leadingDigits (text ++ ['\r']) = leadingDigits text := takeWhile_return (by decide) text

theorem behindDigits_return (text : List Char) :
    behindDigits (text ++ ['\r']) = behindDigits text ++ ['\r'] := dropWhile_return (by decide) text

/-- What stands behind a stretch that came to an end does not prolong it. -/
theorem takeWhile_dropWhile_append {p : Char → Bool} (other : List Char)
    (ended : text.dropWhile p ≠ []) :
    (text ++ other).takeWhile p = text.takeWhile p ∧
      (text ++ other).dropWhile p = text.dropWhile p ++ other := by
  induction text with
  | nil => exact absurd rfl ended
  | cons c text ih =>
    cases inside : p c with
    | true =>
      rw [List.dropWhile_cons_of_pos inside] at ended
      simp [inside, ih ended]
    | false => simp [inside]

/-- A carriage return may stand behind the flags. -/
theorem flags?_return (clean : '\r' ∉ text) : flags? (text ++ ['\r']) = flags? text := by
  have gap_return : isGap '\r' = false := by decide
  have filled_return {word : List Char} (filled : ¬ (word = [] ∨ word = ['\r'])) :
      ¬ (word ++ ['\r'] = [] ∨ word ++ ['\r'] = ['\r']) := by
    simpa using (not_or.1 filled).1
  fun_induction flags? text with
  | case1 =>
    rw [List.nil_append, flags?]
    simp [isGap]
  | case2 c rest gap word empty =>
    have word_clean : '\r' ∉ word := not_mem_dropWhile (List.not_mem_of_not_mem_cons clean) isGap
    have nothing : word = [] := by
      refine empty.resolve_right fun last => word_clean ?_
      rw [last]
      exact List.mem_singleton_self _
    rw [List.cons_append, flags?, if_pos gap, dropWhile_return gap_return]
    exact if_pos (.inr (congrArg (· ++ ['\r']) nothing))
  | case3 c rest gap word filled unread =>
    simp only [word] at filled unread
    rw [List.cons_append, flags?, if_pos gap, dropWhile_return gap_return]
    simp only [if_neg (filled_return filled), leadingDigits_return, unread]
  | case4 c rest gap word filled flag read ih =>
    have word_clean : '\r' ∉ word := not_mem_dropWhile (List.not_mem_of_not_mem_cons clean) isGap
    have behind := ih (not_mem_dropWhile word_clean Char.isDigit)
    simp only [word] at filled read behind
    rw [List.cons_append, flags?, if_pos gap, dropWhile_return gap_return]
    simp only [if_neg (filled_return filled), leadingDigits_return, behindDigits_return, read, behind,
      word]
  | case5 c rest gap last => simp [last] at clean
  | case6 c rest gap other =>
    have filled : ¬ (c = '\r' ∧ rest ++ ['\r'] = []) := by simp
    rw [List.cons_append, flags?, if_neg gap, if_neg filled]

/-- A carriage return behind the unit and its flags changes neither. -/
theorem unitAndFlags?_return (clean : '\r' ∉ text) :
    unitAndFlags? (text ++ ['\r']) = unitAndFlags? text := by
  have gap_return : isGap '\r' = false := by decide
  unfold unitAndFlags?
  rw [dropWhile_return gap_return]
  cases text with
  | nil => simp [isGap]
  | cons c tail =>
    cases left : (c :: tail).dropWhile isGap with
    | nil => simp [quote]
    | cons opening named =>
      have named_clean : '\r' ∉ named :=
        List.not_mem_of_not_mem_cons (left ▸ not_mem_dropWhile clean isGap)
      simp only [List.cons_append]
      by_cases opens : isGap c ∧ opening = quote
      · rw [if_pos opens, if_pos opens]
        cases closing : named.dropWhile (· != quote) with
        | nil =>
          have open_end : (named ++ ['\r']).dropWhile (· != quote) = [] := by
            rw [List.dropWhile_append, closing]
            rfl
          rw [open_end]
          cases named.takeWhile (· != quote) <;> cases (named ++ ['\r']).takeWhile (· != quote) <;> rfl
        | cons closer behind =>
          have behind_clean : '\r' ∉ behind :=
            List.not_mem_of_not_mem_cons (closing ▸ not_mem_dropWhile named_clean (· != quote))
          obtain ⟨name, left'⟩ := takeWhile_dropWhile_append ['\r'] (closing ▸ List.cons_ne_nil _ _)
          rw [name, left', closing, List.cons_append]
          cases named.takeWhile (· != quote) with
          | nil => rfl
          | cons first name => simp only [flags?_return behind_clean]
      · rw [if_neg opens, if_neg opens]

/-- A carriage return at the end of its line does not change a linemarker. -/
theorem parse?_return (clean : '\r' ∉ line) : parse? (line ++ ['\r']) = parse? line := by
  cases line with
  | nil => rfl
  | cons hash text =>
    have text_clean : '\r' ∉ text := List.not_mem_of_not_mem_cons clean
    have behind_clean : '\r' ∉ behindDigits (text.dropWhile isGap) :=
      not_mem_dropWhile (not_mem_dropWhile text_clean isGap) Char.isDigit
    have gap_return : isGap '\r' = false := by decide
    simp only [List.cons_append, parse?, dropWhile_return gap_return, leadingDigits_return,
      behindDigits_return, unitAndFlags?_return behind_clean]

end Linemarker

namespace Lexeme

/-- A lexeme and the one that is read in its place when line feeds come with carriage returns. -/
inductive WithReturns : Lexeme → Lexeme → Prop where
  | separator : WithReturns .separator .separator
  | comment {text text' : List Char} (same : dropReturns text = dropReturns text') :
      WithReturns (.comment text) (.comment text')
  | word {text : List Char} (clean : '\r' ∉ text) : WithReturns (.word text) (.word text)
  | literal {quote : Quote} {text text' : List Char} (same : dropReturns text = dropReturns text') :
      WithReturns (.literal quote text) (.literal quote text')
  | punctuation (kind : TokenKind) : WithReturns (.punctuation kind) (.punctuation kind)

/-- What is read of a text without carriage returns and of one with them. -/
inductive ReadAlike : Except Fault Reading → Except Fault Reading → Prop where
  | error (fault : Fault) : ReadAlike (.error fault) (.error fault)
  | whole {lexeme lexeme' : Lexeme} (raw rest : List Char) (same : lexeme.WithReturns lexeme') :
      ReadAlike (.ok ⟨lexeme, raw, rest⟩) (.ok ⟨lexeme', withReturns raw, withReturns rest⟩)
  /-- The carriage return at the end of a line comment is a part of it. -/
  | line {lexeme lexeme' : Lexeme} (raw behind : List Char) (same : lexeme.WithReturns lexeme') :
      ReadAlike (.ok ⟨lexeme, raw, '\n' :: behind⟩)
        (.ok ⟨lexeme', raw ++ ['\r'], '\n' :: withReturns behind⟩)

variable {c : Char} {rest : List Char}

theorem readLiteral_alike (quote : Quote) (rest : List Char) :
    ReadAlike (readLiteral quote rest) (readLiteral quote (withReturns rest)) := by
  unfold readLiteral
  rw [Literal.body?_withReturns]
  cases Literal.body? quote rest with
  | none => exact .error _
  | some found =>
    obtain ⟨pieces, behind⟩ := found
    have raw : [quote.char] ++ Literal.raw (pieces.flatMap LiteralPiece.withReturn) ++ [quote.char] =
        withReturns ([quote.char] ++ Literal.raw pieces ++ [quote.char]) := by
      have quoted : withReturns [quote.char] = [quote.char] := by cases quote <;> rfl
      rw [Literal.raw_withReturn, withReturns_append, withReturns_append, quoted]
    simp only [Option.map_some, Prod.map_apply, raw]
    exact .whole _ _ (.literal (Literal.dropReturns_value pieces).symm)

/-- What is read within a line is read in the same way. -/
theorem ReadAlike.of_line {lexeme lexeme' : Lexeme} {raw : List Char} (rest : List Char)
    (inside : '\n' ∉ raw) (same : lexeme.WithReturns lexeme') :
    ReadAlike (.ok ⟨lexeme, raw, rest⟩) (.ok ⟨lexeme', raw, withReturns rest⟩) := by
  have alike := ReadAlike.whole raw rest same
  rwa [withReturns_of_not_mem inside] at alike

theorem readPunctuation_alike (rest : List Char) (newline : c ≠ '\n') :
    ReadAlike (readPunctuation c rest) (readPunctuation c (withReturns rest)) := by
  have whole : c :: withReturns rest = withReturns (c :: rest) := (withReturns_cons rest newline).symm
  have table : TokenKind.punctuation.find? (fun entry => entry.1.isPrefixOf (withReturns (c :: rest))) =
      TokenKind.punctuation.find? (fun entry => entry.1.isPrefixOf (c :: rest)) := by
    rw [← List.head?_filter, ← List.head?_filter]
    congr 1
    apply List.filter_congr
    intro entry member
    obtain ⟨no_newline, no_return⟩ := punctuation_line entry member
    exact isPrefixOf_withReturns no_newline no_return (c :: rest)
  unfold readPunctuation
  rw [whole, table]
  cases found : TokenKind.punctuation.find? (fun entry => entry.1.isPrefixOf (c :: rest)) with
  | none => exact .error _
  | some entry =>
    obtain ⟨spelling, kind⟩ := entry
    have no_newline : '\n' ∉ spelling := (punctuation_line _ (List.mem_of_find?_eq_some found)).1
    have starts := List.find?_some found
    obtain ⟨behind, split⟩ := List.isPrefixOf_iff_prefix.1 starts
    have same : (ofPunctuation kind).WithReturns (ofPunctuation kind) := by
      unfold ofPunctuation
      by_cases separates : kind = .newline
      · rw [if_pos separates]
        exact .separator
      · rw [if_neg separates]
        exact .punctuation kind
    simp only
    rw [← split, withReturns_append, withReturns_of_not_mem no_newline, List.drop_left,
      List.drop_left]
    exact .of_line behind no_newline same

theorem readToken_alike (rest : List Char) (newline : c ≠ '\n') :
    ReadAlike (readToken c rest) (readToken c (withReturns rest)) := by
  unfold readToken
  cases Quote.ofChar? c with
  | some quote => exact readLiteral_alike quote rest
  | none =>
    cases part : isWordPart c with
    | false => exact readPunctuation_alike rest newline
    | true =>
      obtain ⟨taken, left⟩ :=
        takeWhile_dropWhile_withReturns (p := isWordPart) (by decide) (by decide) rest
      have parts : ∀ d ∈ c :: rest.takeWhile isWordPart, isWordPart d :=
        List.forall_mem_cons.2 ⟨part, List.all_eq_true.1 List.all_takeWhile⟩
      simp only [taken, left, if_true]
      refine .of_line _ ?_ (.word ?_)
      · exact fun member => absurd (parts '\n' member) (by decide)
      · exact fun member => absurd (parts '\r' member) (by decide)

theorem readBlock_alike (rest : List Char) :
    ReadAlike (read '/' ('*' :: rest)) (read '/' ('*' :: withReturns rest)) := by
  have opens (text : List Char) :
      read '/' ('*' :: text) = (readComment? '*' text).getD (readToken '/' ('*' :: text)) := rfl
  rw [opens, opens, readComment?, readComment?, if_pos rfl, if_pos rfl, Comment.interior?_withReturns]
  cases Comment.interior? rest with
  | none => exact .error .openComment
  | some found =>
    obtain ⟨interior, behind⟩ := found
    have raw : ['/', '*'] ++ withReturns interior ++ ['*', '/'] =
        withReturns (['/', '*'] ++ interior ++ ['*', '/']) := by
      rw [withReturns_append, withReturns_append]
      rfl
    simp only [Option.map_some, Prod.map_apply, Option.getD_some, raw]
    exact .whole _ behind (.comment (dropReturns_withReturns interior).symm)

/-- A line comment takes in the carriage return at the end of its line. -/
theorem readLine_alike (rest : List Char) :
    ReadAlike (read '/' ('/' :: rest)) (read '/' ('/' :: withReturns rest)) := by
  have comment {line behind : List Char} (inside : '\n' ∉ line) (next : NextIs (· = '\n') behind) :
      read '/' ('/' :: (line ++ behind)) = .ok ⟨.comment line, ['/', '/'] ++ line, behind⟩ :=
    read_complete rfl (.inl ⟨rfl, inside, next⟩)
  obtain ⟨line, inside, rfl | ⟨behind, rfl⟩⟩ := exists_line rest
  · have alone := comment inside nextIs_nil
    rw [List.append_nil] at alone
    rw [withReturns_of_not_mem inside, alone]
    exact .of_line [] (by simpa using inside) (.comment rfl)
  · have inside' : '\n' ∉ line ++ ['\r'] := by simpa using inside
    rw [withReturns_append, withReturns_of_not_mem inside, withReturns_newline,
      comment inside (nextIs_cons.2 rfl), List.append_cons line, comment inside' (nextIs_cons.2 rfl)]
    refine .line (['/', '/'] ++ line) behind (.comment ?_)
    rw [dropReturns_append]
    exact (List.append_nil _).symm

/-- A text is read alike with and without carriage returns, unless it starts with a line feed. -/
theorem read_alike (rest : List Char) (newline : c ≠ '\n') :
    ReadAlike (read c rest) (read c (withReturns rest)) := by
  by_cases space : c = ' '
  · subst space
    exact .error .spaceInIndentation
  by_cases opens : c = '/' ∧ ∃ d behind, rest = d :: behind ∧ (d = '*' ∨ d = '/')
  · obtain ⟨rfl, d, behind, rfl, rfl | rfl⟩ := opens
    · exact readBlock_alike behind
    · exact readLine_alike behind
  · have slash : c = '/' → NextIs (fun d => d ≠ '/' ∧ d ≠ '*') rest := by
      intro same d head
      obtain ⟨behind, here⟩ := List.head?_eq_some_iff.1 head
      constructor
      · exact fun slash => opens ⟨same, d, behind, here, .inr slash⟩
      · exact fun star => opens ⟨same, d, behind, here, .inl star⟩
    rw [read_eq_readToken newline space slash,
      read_eq_readToken newline space fun same => (slash same).withReturns ⟨by decide, by decide⟩]
    exact readToken_alike rest newline

end Lexeme

end DreamLexer
