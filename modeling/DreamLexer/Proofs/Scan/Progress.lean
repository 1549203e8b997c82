import DreamLexer.Proofs.Scan.Directive

/-!
# Progress

Every step of a scan that goes on leaves less text, so a lexer runs at most one step for each
character and one for the end, in whatever way it is asked: `Lexer.stepsFor_le`. The block markers
that a line calls for are paid for by the tabs before it: `Layout.owed` is what has been paid for
and not handed out yet, and `Moves.length_tokens_le` keeps the account. `progress` is both together.
-/

namespace DreamLexer

variable {o : Options} {s t : Scanner} {p : Piece} {pieces : List Piece} {text : String}

section Offset

/-- The raw offset at which a scanner of a text stands, in bytes. -/
def Scanner.offset (text : String) (s : Scanner) : String.Pos.Raw :=
  ⟨text.utf8ByteSize - (String.ofList s.cursor.rest).utf8ByteSize⟩

/-- Behind the characters that were passed the offset is their size, which cuts none in two. -/
theorem Scanner.offset_of_append {passed : List Char}
    (whole : text.toList = passed ++ s.cursor.rest) :
    s.offset text = (String.ofList passed).rawEndPos ∧ (s.offset text).IsValid text := by
  have parts : text = String.ofList passed ++ String.ofList s.cursor.rest := by
    rw [← String.ofList_append, ← whole, String.ofList_toList]
  have size := congrArg String.utf8ByteSize parts
  rw [String.utf8ByteSize_append] at size
  have behind : s.offset text = (String.ofList passed).rawEndPos := by
    rw [String.Pos.Raw.ext_iff]
    show text.utf8ByteSize - (String.ofList s.cursor.rest).utf8ByteSize = _
    rw [size, Nat.add_sub_cancel]
    rfl
  exact ⟨behind, String.Pos.Raw.isValid_iff_exists_append.2 ⟨_, _, parts, behind⟩⟩

theorem Scanner.offset_of_rest_nil (done : s.cursor.rest = []) :
    s.offset text = text.rawEndPos := by
  rw [String.Pos.Raw.ext_iff]
  show text.utf8ByteSize - (String.ofList s.cursor.rest).utf8ByteSize = _
  rw [done]
  rfl

/-- Text that is passed takes the scanner on, if there is any. -/
theorem Scanner.offset_le_of_append {passed more : List Char}
    (whole : text.toList = passed ++ s.cursor.rest)
    (split : s.cursor.rest = more ++ t.cursor.rest) :
    s.offset text ≤ t.offset text ∧ (more ≠ [] → s.offset text < t.offset text) ∧
      t.offset text ≤ text.rawEndPos ∧ (t.offset text).IsValid text := by
  have further : text.toList = (passed ++ more) ++ t.cursor.rest := by
    rw [whole, split, List.append_assoc]
  obtain ⟨before, -⟩ := offset_of_append whole
  obtain ⟨behind, valid⟩ := offset_of_append further
  rw [String.ofList_append] at behind
  have sizes : (t.offset text).byteIdx =
      (s.offset text).byteIdx + (String.ofList more).utf8ByteSize := by
    rw [behind, before]
    exact String.utf8ByteSize_append
  rw [String.Pos.Raw.le_iff, String.Pos.Raw.lt_iff, sizes]
  refine ⟨Nat.le_add_right _ _, ?_, valid.le_rawEndPos, valid⟩
  intro filled
  have size : (String.ofList more).utf8ByteSize ≠ 0 := by
    rw [Ne, String.utf8ByteSize_eq_zero_iff, String.ofList_eq_empty_iff]
    exact filled
  omega

end Offset

section Account

/-- What the tabs have paid for and was not handed out yet: an end for every open block, and for
every tab of the indentation a begin and an end. -/
def Layout.owed (l : Layout) : Nat := l.depth + 2 * l.indent.getD 0

/-- The markers of a line are paid for by its tabs. -/
theorem Layout.length_settle_le (l : Layout) : l.settle.1.length + l.settle.2.owed ≤ l.owed := by
  obtain ⟨indent, depth, afterNewline⟩ := l
  cases indent with
  | none => simp [settle]
  | some tabs =>
    simp only [settle, markers, owed, List.length_append, List.length_replicate, Option.getD_some,
      Option.getD_none]
    omega

theorem Layout.length_newline_le (o : Options) (l : Layout) :
    (l.newline o).1.length + (l.newline o).2.owed ≤ l.owed + 1 := by
  obtain ⟨handed, indent, depth⟩ := l.newline_spec o
  rw [owed, indent, depth]
  rcases handed with nothing | one
  · rw [nothing]
    exact Nat.le_trans (Nat.le_of_eq (Nat.zero_add _)) (Nat.le_succ _)
  · rw [one]
    exact Nat.le_of_eq (Nat.add_comm 1 _)

/-- Passing a piece hands out what was paid for, and at most two tokens for each of its
characters. -/
theorem Move.length_tokens_le (move : Move o s p t) :
    (s.layout.read o p).1.length + t.layout.owed ≤ s.layout.owed + 2 * p.raw.length := by
  cases move with
  | marker stands parsed => simp [Layout.read]
  | @blanks s clear =>
    have tabs := List.count_le_length (l := s.cursor.rest.takeWhile
      (Scanner.isPassed s.layout.inIndentation)) (a := '\t')
    simp only [Layout.read, Scanner.passBlanks, Layout.passTabs, Layout.owed, Piece.raw,
      List.length_nil]
    cases s.layout.indent with
    | none =>
      simp only [Option.map_none, Option.getD_none]
      omega
    | some tabs =>
      simp only [Option.map_some, Option.getD_some]
      omega
  | @lexeme rest raw point l lexeme span spelled covers =>
    have taken : 1 ≤ raw.length := List.length_pos_iff.2 spelled.ne_nil
    simp only [Layout.read, Piece.raw]
    by_cases settles : lexeme.settles
    · have paid := l.length_settle_le
      have own : (lexeme.token? o span).toList.length ≤ 1 := by
        cases lexeme.token? o span <;> simp
      rw [Layout.place_of_settles settles, List.length_append]
      show _ + l.settle.2.owed ≤ _
      omega
    · have one :
          (l.place o lexeme span).1.length + (l.place o lexeme span).2.owed ≤ l.owed + 1 := by
        cases lexeme with
        | lineBreak =>
          have line := Layout.length_newline_le o { l with indent := some 0 }
          simp only [Layout.owed, Option.getD_some] at line ⊢
          simp only [Layout.place]
          omega
        | separator => exact Layout.length_newline_le o l
        | _ => simp [Lexeme.settles] at settles
      omega

theorem Moves.length_tokens_le (moves : Moves o s pieces t) :
    (s.layout.tokens o pieces).length + t.layout.owed ≤
      s.layout.owed + 2 * (Piece.text pieces).length := by
  induction moves with
  | refl => simp
  | head move _ ih =>
    have here := move.length_tokens_le
    rw [Layout.tokens_cons, ← move.layout_eq, Piece.text_cons, List.length_append,
      List.length_append]
    omega

/-- The end of the text closes no more blocks than are open. -/
theorem Layout.length_finish_le (o : Options) (l : Layout) : (l.finish o).1.length ≤ l.owed := by
  unfold finish owed
  split
  · simp [markers]
  · simp

/-- A unit has at most two tokens for each character. -/
theorem length_tokens_le {unit : String} {told : Diagnostics} {tokens : List Token}
    (h : (lexUnit o unit text told).1 = .ok tokens) : tokens.length ≤ 2 * text.length := by
  obtain ⟨stop, moves, -, rfl⟩ := moves_of_lexUnit h
  have account := moves.length_tokens_le
  have closed := stop.layout.length_finish_le o
  have fresh : (Scanner.start unit text.toList).layout.owed = 0 := rfl
  have whole : (Piece.text (unitPieces o unit text)).length = text.length := by
    rw [text_unitPieces h, String.length_toList]
  rw [fresh, whole, Nat.zero_add] at account
  rw [List.length_append]
  have start : (Scanner.start unit text.toList).layout = Layout.start := rfl
  rw [start] at account
  omega

end Account

namespace Lexer

/-- The scan steps that a lexer runs until there is a token to hand out or the scan ends. -/
def steps (l : Lexer) : Nat :=
  if l.queue.isEmpty && l.ending.isNone then
    match _h : l.scanner.step l.options with
    | .placed tokens next => steps { l with scanner := next, queue := tokens } + 1
    | .ended _ _ _ => 1
  else 0
termination_by l.scanner.cursor.rest.length
decreasing_by exact Scanner.length_rest_lt_of_step _h

/-- The scan steps that a lexer runs for requests made one after the other. -/
def stepsFor (l : Lexer) : List Request → Nat
  | [] => 0
  | request :: requests => l.steps + stepsFor (l.ask request).2 requests

/-- The scan steps that are left: one for each character and one for the end. -/
def stepsLeft (l : Lexer) : Nat :=
  if l.ending.isNone then l.scanner.cursor.rest.length + 1 else 0

variable {l : Lexer}

theorem steps_of_placed {tokens : List Token} {next : Scanner}
    (needed : l.queue.isEmpty && l.ending.isNone)
    (placed : l.scanner.step l.options = .placed tokens next) :
    l.steps = steps { l with scanner := next, queue := tokens } + 1 := by
  rw [steps, if_pos needed]
  split
  next h' =>
    obtain ⟨rfl, rfl⟩ := by simpa using placed.symm.trans h'
    rfl
  next h' => simp [placed] at h'

theorem steps_of_ended {tokens : List Token} {ending : Ending} {last : Scanner}
    (needed : l.queue.isEmpty && l.ending.isNone)
    (ended : l.scanner.step l.options = .ended tokens ending last) : l.steps = 1 := by
  rw [steps, if_pos needed]
  split
  next h' => simp [ended] at h'
  next => rfl

/-- The steps that are run are no longer left. -/
theorem steps_le (l : Lexer) : l.steps + l.refill.stepsLeft ≤ l.stepsLeft := by
  fun_induction refill l with
  | case1 l needed tokens next placed ih =>
    have running : l.ending.isNone := (Bool.and_eq_true _ _ ▸ needed).2
    have less := Scanner.length_rest_lt_of_step placed
    have behind : stepsLeft { l with scanner := next, queue := tokens } =
        next.cursor.rest.length + 1 := if_pos running
    have before : l.stepsLeft = l.scanner.cursor.rest.length + 1 := if_pos running
    rw [steps_of_placed needed placed]
    omega
  | case2 l needed tokens ending last ended =>
    have running : l.ending.isNone := (Bool.and_eq_true _ _ ▸ needed).2
    have before : l.stepsLeft = l.scanner.cursor.rest.length + 1 := if_pos running
    rw [steps_of_ended needed ended, before]
    show 1 + 0 ≤ _
    omega
  | case3 l full =>
    have none_run : l.steps = 0 := by rw [steps, if_neg full]
    omega

/-- A request leaves the steps that are left when there is a token to hand out. -/
theorem stepsLeft_ask (l : Lexer) (request : Request) :
    (l.ask request).2.stepsLeft = l.refill.stepsLeft := by
  by_cases failed : ∃ e, l.ending = some (.failed e)
  · obtain ⟨e, failed⟩ := failed
    have full : l.refill = l := by
      rw [refill, if_neg]
      simp [failed]
    rw [(ask_of_failed failed).2, full]
  · have same : l.ask request = l.ask .nextToken := by
      cases request with
      | nextToken => rfl
      | next => exact ask_next (not_exists.1 failed)
    rw [same, ask, nextToken_of_not_failed (not_exists.1 failed)]
    cases l.refill.queue with
    | cons token queue => rfl
    | nil => rcases l.refill.ending with _ | _ | e <;> rfl

/-- In whatever way a lexer is asked, it runs no more steps than are left. -/
theorem stepsFor_le (l : Lexer) (requests : List Request) : l.stepsFor requests ≤ l.stepsLeft := by
  induction requests generalizing l with
  | nil => exact Nat.zero_le _
  | cons request requests ih =>
    have first := l.steps_le
    have others := ih (l.ask request).2
    rw [stepsLeft_ask] at others
    rw [stepsFor]
    omega

end Lexer

namespace Scanner

/-- A step never leads back. -/
theorem step_offset {unit : String} (reached : (Scanner.start unit text.toList).Reached o s) :
    match s.step o with
    | .placed _ next =>
      s.offset text < next.offset text ∧ next.offset text ≤ text.rawEndPos ∧
        (next.offset text).IsValid text
    | .ended _ .finished last => last.offset text = text.rawEndPos
    | .ended _ (.failed _) last =>
      s.offset text ≤ last.offset text ∧ last.offset text ≤ text.rawEndPos ∧
        (last.offset text).IsValid text := by
  obtain ⟨read, moves, -⟩ := reached.moves
  have whole : text.toList = Piece.text read ++ s.cursor.rest := moves.rest_eq
  have spec := step_spec o s
  cases step : s.step o with
  | placed tokens next =>
    rw [step] at spec
    have less := length_rest_lt_of_step step
    cases spec with
    | placed passed =>
      obtain ⟨-, further, bound, valid⟩ := offset_le_of_append whole passed.rest_eq
      refine ⟨further ?_, bound, valid⟩
      intro nothing
      have same := congrArg List.length passed.rest_eq
      rw [nothing, List.nil_append] at same
      omega
  | ended tokens ending last =>
    rw [step] at spec
    cases spec with
    | @ended stop _ _ _ passed _ ends =>
      cases ending with
      | finished =>
        obtain ⟨done, -, rfl⟩ := ends.finished_inv
        exact offset_of_rest_nil done
      | failed e =>
        obtain ⟨more, further⟩ : ∃ more, stop.cursor.rest = more ++ last.cursor.rest := by
          rcases ends.cursor_eq with here | atEnd
          · exact ⟨[], by rw [here]; rfl⟩
          · exact ⟨stop.cursor.rest, by rw [atEnd]; exact (List.append_nil _).symm⟩
        have split : s.cursor.rest = (Piece.text (s.stepPieces o) ++ more) ++ last.cursor.rest := by
          rw [passed.rest_eq, further, List.append_assoc]
        obtain ⟨not_back, -, bound, valid⟩ := offset_le_of_append whole split
        exact ⟨not_back, bound, valid⟩

end Scanner

/-- Progress and linear output. From every scanner that a scan of a unit reaches, a step fails, or
comes to the end of the text, or takes the raw offset strictly on; it never leads back or behind the
end of the text, and cuts no character in two. In whatever way a lexer of the unit is asked, it runs
at most one scan step for each character and one more. If the unit lexes, it has at most two tokens
for each character. -/
theorem progress (o : Options) (unit text : String) (told : Diagnostics) :
    (∀ s, (Scanner.start unit text.toList).Reached o s →
      match s.step o with
      | .placed _ next =>
        s.offset text < next.offset text ∧ next.offset text ≤ text.rawEndPos ∧
          (next.offset text).IsValid text
      | .ended _ .finished last => last.offset text = text.rawEndPos
      | .ended _ (.failed _) last =>
        s.offset text ≤ last.offset text ∧ last.offset text ≤ text.rawEndPos ∧
          (last.offset text).IsValid text) ∧
    (∀ requests, (Lexer.start o unit text told).stepsFor requests ≤ text.length + 1) ∧
    ∀ tokens, (lexUnit o unit text told).1 = .ok tokens → tokens.length ≤ 2 * text.length := by
  refine ⟨fun s reached => Scanner.step_offset reached, ?_, fun tokens => length_tokens_le⟩
  intro requests
  have bound := (Lexer.start o unit text told).stepsFor_le requests
  have left : (Lexer.start o unit text told).stepsLeft = text.toList.length + 1 := rfl
  rw [left, String.length_toList] at bound
  exact bound

/-- Five tokens for three characters: two blocks are opened, and closed behind the word. -/
theorem progress_of_indented_word :
    (lexUnit .standard "a.dm" "\t\ta" .empty).1 =
      .ok [.indentBegin, .indentBegin,
        ⟨.ident, some "a", some ⟨⟨"a.dm", 1, 17⟩, ⟨"a.dm", 1, 18⟩⟩⟩, .indentEnd, .indentEnd] ∧
    5 ≤ 2 * "\t\ta".length ∧
    (Lexer.start .standard "a.dm" "\t\ta" .empty).stepsFor (List.replicate 6 .next) ≤ 4 ∧
    (Scanner.start "a.dm" "\t\ta".toList).offset "\t\ta" < "\t\ta".rawEndPos := by
  obtain ⟨steps, requests, tokens⟩ := progress .standard "a.dm" "\t\ta" .empty
  have lexed : (lexUnit .standard "a.dm" "\t\ta" .empty).1 =
      .ok [.indentBegin, .indentBegin,
        ⟨.ident, some "a", some ⟨⟨"a.dm", 1, 17⟩, ⟨"a.dm", 1, 18⟩⟩⟩, .indentEnd, .indentEnd] := by
    decide +kernel
  refine ⟨lexed, tokens _ lexed, requests (List.replicate 6 .next), ?_⟩
  have placed : (Scanner.start "a.dm" "\t\ta".toList).step .standard =
      .placed [.indentBegin, .indentBegin,
        ⟨.ident, some "a", some ⟨⟨"a.dm", 1, 17⟩, ⟨"a.dm", 1, 18⟩⟩⟩]
        ⟨⟨[], ⟨"a.dm", 1, 18⟩⟩, ⟨none, 2, false⟩⟩ := by decide +kernel
  have first := steps _ .start
  rw [placed] at first
  exact String.Pos.Raw.lt_of_lt_of_le first.1 first.2.1

end DreamLexer
