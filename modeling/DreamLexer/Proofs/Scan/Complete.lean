import DreamLexer.Proofs.Lexeme.Unread
import DreamLexer.Proofs.Protocol
import DreamLexer.Proofs.Scan.Simulation
import DreamLexer.Proofs.Scan.Seam

/-!
# Errors in complete lines

A fault that is found where it starts is found without a look beyond the end of its line. So a scan
that is stuck in a complete line stays stuck there, whatever text follows (`Stuck.append`), and the
same tokens are pulled and then the same error (`FailsBehind`): `error_final`.
-/

namespace DreamLexer

namespace Lexeme

variable {c : Char} {rest : List Char}

/-- The first character of a text stays the first one. -/
theorem NextIs.append {q : Char → Prop} (next : NextIs q (c :: rest)) (more : List Char) :
    NextIs q (c :: rest ++ more) := by
  rw [List.cons_append, nextIs_cons]
  exact nextIs_cons.1 next

/-- A character that nothing starts with is not read. -/
theorem read_of_unspelled (newline : c ≠ '\n') (space : c ≠ ' ')
    (quoted : ∀ quote : Quote, c ≠ quote.char) (part : isWordPart c = false)
    (unspelled : ∀ spelling kind, (spelling, kind) ∈ TokenKind.punctuation →
      ¬ spelling <+: c :: rest) : read c rest = .error (.character c) := by
  have plain : Quote.ofChar? c = none := by
    cases quote : Quote.ofChar? c with
    | none => rfl
    | some quote => exact absurd (ofChar?_char quote).symm (quoted _)
  have slash : c ≠ '/' := by
    intro same
    subst same
    exact unspelled ['/'] .slash (by decide) (List.prefix_append ['/'] rest)
  have nothing : (TokenKind.punctuation.find? fun entry =>
      entry.1.isPrefixOf (c :: rest)) = none := by
    rw [List.find?_eq_none]
    intro entry member starts
    exact unspelled entry.1 entry.2 member (List.isPrefixOf_iff_prefix.1 starts)
  rw [read_eq_readToken newline space fun same => absurd same slash, readToken, plain]
  simp only [part, Bool.false_eq_true, if_false]
  rw [readPunctuation]
  simp only [nothing]

/-- What no text within a line starts with, no text that goes on behind the line starts with. -/
theorem unspelled_append {text spelling : List Char} {kind : TokenKind} (complete : '\n' ∈ text)
    (member : (spelling, kind) ∈ TokenKind.punctuation) (unspelled : ¬ spelling <+: text)
    (more : List Char) : ¬ spelling <+: text ++ more := by
  intro starts
  rcases List.prefix_or_prefix_of_prefix starts (List.prefix_append text more) with short | long
  · exact unspelled short
  · exact (punctuation_line _ member).1 (long.subset complete)

/-- A fault that does not lie in the text's end is met whatever follows a complete line. -/
theorem read_append_of_error {fault : Fault} (unread : read c rest = .error fault)
    (early : fault.readsToEnd = false) (complete : '\n' ∈ c :: rest) (more : List Char) :
    read c (rest ++ more) = .error fault := by
  cases unread_of_read unread with
  | space same =>
    subst same
    rfl
  | comment opens stays_open => simp [Fault.readsToEnd] at early
  | literal opens stays_open => simp [Fault.readsToEnd] at early
  | character newline space quoted part unspelled =>
    apply read_of_unspelled newline space quoted part
    intro spelling kind member
    exact unspelled_append complete member (unspelled spelling kind member) more

end Lexeme

/-- A line that ends does not depend on what follows. -/
theorem Cursor.line_append {text : List Char} (complete : '\n' ∈ text) (point : Position)
    (more : List Char) : Cursor.line ⟨text ++ more, point⟩ = Cursor.line ⟨text, point⟩ := by
  have inside : '\n' ∉ Cursor.line ⟨text, point⟩ := Cursor.newline_not_mem_line _
  have ends : text.dropWhile (· != '\n') ≠ [] := by
    intro nothing
    have all : text.takeWhile (· != '\n') ++ text.dropWhile (· != '\n') = text :=
      List.takeWhile_append_dropWhile
    rw [nothing, List.append_nil] at all
    apply inside
    rw [Cursor.line, all]
    exact complete
  obtain ⟨d, behind, left⟩ := List.exists_cons_of_ne_nil ends
  have stops : Lexeme.NextIs (· = '\n') (text.dropWhile (· != '\n') ++ more) := by
    have newline := Lexeme.nextIs_dropWhile (· != '\n') text
    rw [left, Lexeme.nextIs_cons] at newline
    rw [left, List.cons_append, Lexeme.nextIs_cons]
    simpa using newline
  have whole : Cursor.line ⟨text, point⟩ ++ (text.dropWhile (· != '\n') ++ more) = text ++ more := by
    rw [← List.append_assoc, Cursor.line, List.takeWhile_append_dropWhile]
  rw [← whole]
  exact (Cursor.line_of_nextIs point inside stops).1

variable {o : Options} {s : Scanner}

namespace Scanner

/-- Whether a directive stands here is told by the first character. -/
theorem atDirective_before {c : Char} {rest : List Char} (here : s.cursor.rest = c :: rest)
    (more : List Char) :
    (s.before (s.cursor.rest ++ more)).cursor.atDirective = s.cursor.atDirective := by
  rw [Cursor.atDirective, Cursor.atDirective, here]
  simp [before]

/-- A scan that is stuck in a complete line is stuck there whatever follows. -/
theorem Stuck.append {fault : Fault} (stuck : s.Stuck fault) (early : fault.readsToEnd = false)
    (complete : '\n' ∈ s.cursor.rest) (more : List Char) :
    (s.before (s.cursor.rest ++ more)).Stuck fault := by
  obtain ⟨c, rest, here⟩ := List.exists_cons_of_ne_nil (List.ne_nil_of_mem complete)
  have same := atDirective_before here more
  cases stuck with
  | directive stands unparsed =>
    have line : (s.before (s.cursor.rest ++ more)).cursor.line = s.cursor.line :=
      Cursor.line_append complete s.cursor.point more
    rw [← line]
    apply Stuck.directive
    · rw [same]
      exact stands
    · rw [line]
      exact unparsed
  | @lexeme d others fault ready there unread =>
    obtain ⟨rfl, rfl⟩ : c = d ∧ rest = others := by simpa [here] using there
    rw [here] at complete
    have there : (s.before (s.cursor.rest ++ more)).cursor.rest = c :: (rest ++ more) := by
      rw [before, here, List.cons_append]
    have solid := ready.solid
    rw [here] at solid
    refine .lexeme ⟨same.trans ready.clear, ?_⟩ there
      (Lexeme.read_append_of_error unread early complete more)
    rw [there]
    exact solid.append more

/-- An error that is found where it starts does not depend on the text behind it. -/
theorem errorOf_before {fault : Fault} (early : fault.readsToEnd = false) (text : List Char) :
    (s.before text).errorOf o fault = s.errorOf o fault := by
  have other : fault ≠ .openString := by
    intro same
    simp [same, Fault.readsToEnd] at early
  simp only [errorOf, Fault.error, if_neg other, before]

/-- Behind complete lines in which a run fails, more text changes neither what the run hands out nor
how it fails. -/
theorem run_append_of_failed {unit : String} {first : List Char} {e : LexError}
    (complete : first.getLast? = some '\n')
    (failed : ((Scanner.start unit first).run o).ending = .failed e)
    (early : ∀ fault : Fault, fault.kind = e.kind → fault.readsToEnd = false)
    (second : List Char) :
    ((Scanner.start unit (first ++ second)).run o).tokens =
        ((Scanner.start unit first).run o).tokens ∧
      ((Scanner.start unit (first ++ second)).run o).ending = .failed e := by
  have counted (text : List Char) : (Scanner.start unit text).cursor.point.Counted := Nat.le_refl 1
  obtain ⟨stop, fault, moves, stuck, rfl⟩ := run_failed (counted first) failed
  have soon : fault.readsToEnd = false := early fault rfl
  have whole : first = Piece.text _ ++ stop.cursor.rest := moves.rest_eq
  obtain ⟨c, rest, here⟩ : ∃ c rest, stop.cursor.rest = c :: rest := by
    cases stuck with
    | directive stands unparsed =>
      obtain ⟨-, rest, sign⟩ := Cursor.atDirective_iff.1 stands
      exact ⟨'#', rest, sign⟩
    | lexeme ready here unread => exact ⟨_, _, here⟩
  have newline : '\n' ∈ stop.cursor.rest := by
    rw [whole, List.getLast?_append, here] at complete
    rw [here]
    exact List.mem_of_getLast? (by simpa using complete)
  obtain ⟨filled, moves', -, -, same⟩ : ∃ filled,
      Moves o ((Scanner.start unit first).before
        (Piece.text _ ++ (stop.cursor.rest ++ second))) filled
        (stop.before (stop.cursor.rest ++ second)) ∧ _ :=
    moves.before (.inr (.inr (by simp [here, Lexeme.nextIs_cons])))
  rw [← List.append_assoc, ← whole] at moves'
  have stuck' := stuck.append soon newline second
  obtain ⟨nothing, fails⟩ := run_of_stuck (o := o) stuck
  obtain ⟨nothing', fails'⟩ := run_of_stuck (o := o) stuck'
  rw [moves.run_eq (counted first), nothing]
  have run := moves'.run_eq (counted (first ++ second))
  rw [show (Scanner.start unit first).before (first ++ second) =
    .start unit (first ++ second) from rfl] at run
  rw [run, nothing', fails', errorOf_before soon]
  exact ⟨congrArg (· ++ []) same, rfl⟩

end Scanner

/-- A unit in which the tokens are `tokens` and then the error is `e`: in whatever way tokens are
pulled, the answers are these tokens in order and then this error, which is told when it is met and
not again. -/
structure FailsBehind (o : Options) (unit : String) (told : Diagnostics) (tokens : List Token)
    (e : LexError) (text : String) : Prop where
  answers : ∀ requests,
    ((Lexer.start o unit text told).askAll requests).1 = Lexer.answersTo (.failed e) tokens requests
  reports : ∀ requests, ((Lexer.start o unit text told).askAll requests).2.told =
    if requests.length ≤ tokens.length then told else told.report e.text e.position
  drained : (Lexer.start o unit text told).drain.1 = tokens ∧
    (Lexer.start o unit text told).drain.2.1 = some e
  lexed : lexUnit o unit text told = (.error e, told.report e.text e.position)

/-- A unit whose run fails fails behind the tokens of the run. -/
theorem failsBehind_of_run {unit text : String} {told : Diagnostics} {e : LexError}
    (failed : ((Scanner.start unit text.toList).run o).ending = .failed e) :
    FailsBehind o unit told ((Scanner.start unit text.toList).run o).tokens e text := by
  have awaits := Lexer.awaits_start o unit text told
  refine ⟨?_, ?_, ?_, ?_⟩
  · intro requests
    rw [Lexer.answers_askAll awaits, failed]
  · intro requests
    have reached := Lexer.after_askAll awaits requests
    split at reached
    next inside => rw [if_pos inside, reached.told]
    next behind =>
      rw [if_neg behind, reached, Lexer.closed, failed]
      rfl
  · rw [(Lexer.askAll_next awaits).2, failed]
    exact ⟨rfl, rfl⟩
  · rw [lexUnit_eq, failed]

/-- Errors are final once their line is complete. Let a text that ends with a line feed not lex, for
a space in the indentation, a malformed directive or a character that nothing starts with. Then,
whatever text is put behind it, in whatever way tokens are pulled, the answers are the tokens that
were found before the error, and then the same error, about which the same is told. -/
theorem error_final {unit first : String} {told : Diagnostics} {e : LexError}
    (complete : first.toList.getLast? = some '\n')
    (failed : (lexUnit o unit first told).1 = .error e)
    (kind : e.kind = .badIndentation ∨ e.kind = .malformedDirective ∨
      e.kind = .unexpectedCharacter) :
    ∃ tokens, FailsBehind o unit told tokens e first ∧
      ∀ second, FailsBehind o unit told tokens e (first ++ second) := by
  have ending : ((Scanner.start unit first.toList).run o).ending = .failed e :=
    ending_of_lexUnit failed
  have early : ∀ fault : Fault, fault.kind = e.kind → fault.readsToEnd = false := by
    intro fault same
    rw [← same] at kind
    cases fault <;> simp_all [Fault.kind, Fault.readsToEnd]
  refine ⟨_, failsBehind_of_run ending, ?_⟩
  intro second
  obtain ⟨same, ending'⟩ := Scanner.run_append_of_failed complete ending early second.toList
  rw [← String.toList_append] at same ending'
  rw [← same]
  exact failsBehind_of_run ending'

/-- A line that ends behind the first half of an operator, and a text that starts with the second:
the two tokens and the block between them are answered, then the error, then nothing. -/
theorem error_final_of_half_operator :
    ∃ e tokens, "a\n\tb <\n".toList.getLast? = some '\n' ∧
      (lexUnit .standard "a.dm" "a\n\tb <\n" .empty).1 = .error e ∧
      e = ⟨.unexpectedCharacter, "Unexpected character '<'.", ⟨"a.dm", 2, 11⟩⟩ ∧
      tokens = [⟨.ident, some "a", some ⟨⟨"a.dm", 1, 1⟩, ⟨"a.dm", 1, 2⟩⟩⟩, .newline, .indentBegin,
        ⟨.ident, some "b", some ⟨⟨"a.dm", 2, 9⟩, ⟨"a.dm", 2, 10⟩⟩⟩] ∧
      FailsBehind .standard "a.dm" .empty tokens e ("a\n\tb <\n" ++ "<c") ∧
      ((Lexer.start .standard "a.dm" ("a\n\tb <\n" ++ "<c") .empty).askAll
          [.next, .nextToken, .next, .next, .next, .next, .nextToken]).1 =
        tokens.map (some ∘ .ok) ++ [some (.error e), none, some (.error e)] := by
  have lexed : (lexUnit .standard "a.dm" "a\n\tb <\n" .empty).1 =
      .error ⟨.unexpectedCharacter, "Unexpected character '<'.", ⟨"a.dm", 2, 11⟩⟩ := by
    decide +kernel
  have complete : "a\n\tb <\n".toList.getLast? = some '\n' := by decide
  obtain ⟨tokens, alone, followed⟩ := error_final complete lexed (.inr (.inr rfl))
  have found : tokens = [⟨.ident, some "a", some ⟨⟨"a.dm", 1, 1⟩, ⟨"a.dm", 1, 2⟩⟩⟩, .newline,
      .indentBegin, ⟨.ident, some "b", some ⟨⟨"a.dm", 2, 9⟩, ⟨"a.dm", 2, 10⟩⟩⟩] := by
    rw [← alone.drained.1]
    decide +kernel
  refine ⟨_, tokens, complete, lexed, rfl, found, followed "<c", ?_⟩
  rw [(followed "<c").answers, found]
  rfl

end DreamLexer
