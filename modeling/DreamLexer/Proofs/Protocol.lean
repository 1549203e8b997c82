import DreamLexer.Proofs.Pull

/-!
# The pull protocol

In whatever way a lexer is asked, it hands out the tokens of the run in order and then tells how the
run ended. `Lexer.Awaits` says what is still to come and `Lexer.closed` what is left behind the end;
`ask_spec` says what one request makes of them. Many requests get the answers of `answersTo`
(`answers_askAll`), and `after_askAll` says what they leave. `pull_protocol` is the protocol from the
start of a unit on.
-/

namespace DreamLexer

/-- A step that fails hands out nothing. -/
theorem Scanner.tokens_of_failed {o : Options} {s last : Scanner} {tokens : List Token}
    {e : LexError} (h : s.step o = .ended tokens (.failed e) last) : tokens = [] := by
  have spec := step_spec o s
  rw [h] at spec
  cases spec with
  | ended moves silent ends =>
    generalize same : Step.ended tokens (.failed e) last = step at ends
    cases ends with
    | finished done => simp [finish] at same
    | directive stands unparsed =>
      cases same
      rfl
    | unread here unread =>
      cases same
      rfl

namespace Lexer

/-- What is still to come: the tokens not handed out yet, how the scan ends and where. -/
def coming (l : Lexer) : Run :=
  match l.ending with
  | none =>
    { l.scanner.run l.options with tokens := l.queue ++ (l.scanner.run l.options).tokens }
  | some ending => ⟨l.queue, ending, l.scanner⟩

/-- The lexer has not failed, `run` is still to come and nothing but `told` was told. -/
structure Awaits (o : Options) (told : Diagnostics) (run : Run) (l : Lexer) : Prop where
  options : l.options = o
  coming : l.coming = run
  told : l.told = told
  not_failed : ∀ e, l.ending ≠ some (.failed e)

/-- The lexer that has handed out everything, and told about the error if there was one. -/
def closed (o : Options) (told : Diagnostics) (run : Run) : Lexer :=
  ⟨o, run.last, [], some run.ending, run.ending.tell told⟩

variable {o : Options} {told : Diagnostics} {run : Run} {l : Lexer}

theorem awaits_start (o : Options) (unit text : String) (told : Diagnostics) :
    (Lexer.start o unit text told).Awaits o told ((Scanner.start unit text.toList).run o) where
  options := rfl
  coming := rfl
  told := rfl
  not_failed e := by simp [Lexer.start]

/-- Scanning for tokens finds one, and changes nothing about what is to come, or closes the lexer. -/
theorem refill_spec (h : l.Awaits o told run) :
    (∃ token queue, l.refill.queue = token :: queue ∧ l.refill.Awaits o told run) ∨
      run.tokens = [] ∧ l.refill = closed o told run := by
  fun_induction refill l with
  | case1 l needed tokens next placed ih =>
    -- What a step hands out moves from the run ahead into the queue, so the same is still to come.
    apply ih
    obtain ⟨rfl, rfl, rfl, not_failed⟩ := h
    simp only [Bool.and_eq_true, List.isEmpty_iff, Option.isNone_iff_eq_none] at needed
    refine ⟨rfl, ?_, rfl, not_failed⟩
    simp [coming, needed.1, needed.2, Scanner.run_eq l.options l.scanner, placed]
  | case2 l needed tokens ending last ended =>
    obtain ⟨rfl, rfl, rfl, not_failed⟩ := h
    simp only [Bool.and_eq_true, List.isEmpty_iff, Option.isNone_iff_eq_none] at needed
    have whole : l.coming = ⟨tokens, ending, last⟩ := by
      simp [coming, needed.1, needed.2, Scanner.run_eq l.options l.scanner, ended]
    rw [whole]
    cases tokens with
    | nil => exact .inr ⟨rfl, rfl⟩
    | cons token tokens =>
      refine .inl ⟨token, tokens, rfl, rfl, rfl, ?_, ?_⟩
      · cases ending with
        | finished => rfl
        | failed e => simpa using Scanner.tokens_of_failed ended
      · rintro e ⟨⟩
        simpa using Scanner.tokens_of_failed ended
  | case3 l full =>
    cases queued : l.queue with
    | cons token queue => exact .inl ⟨token, queue, rfl, h⟩
    | nil =>
      obtain ⟨rfl, rfl, rfl, not_failed⟩ := h
      rcases ended : l.ending with _ | _ | e
      · simp [queued, ended] at full
      · have whole : l.coming = ⟨[], .finished, l.scanner⟩ := by simp [coming, ended, queued]
        rw [whole]
        refine .inr ⟨rfl, ?_⟩
        obtain ⟨o, scanner, queue, ending, told⟩ := l
        simp_all [closed, Ending.tell]
      · exact absurd ended (not_failed e)

/-- A request is answered by the next token, or behind the last one by the end. -/
theorem ask_spec (h : l.Awaits o told run) (request : Request) :
    match run.tokens with
    | token :: tokens =>
      (l.ask request).1 = some (.ok token) ∧
        (l.ask request).2.Awaits o told { run with tokens := tokens }
    | [] =>
      (l.ask request).1 = run.ending.error?.map .error ∧ (l.ask request).2 = closed o told run := by
  have same : l.ask request = l.ask .nextToken := by
    cases request with
    | nextToken => rfl
    | next => exact ask_next h.not_failed
  rw [same, ask, nextToken_of_not_failed h.not_failed]
  rcases refill_spec h with ⟨token, queue, queued, filled⟩ | ⟨none_left, filled⟩
  · obtain ⟨options, coming, told, not_failed⟩ := filled
    rw [queued]
    rcases ended : l.refill.ending with _ | _ | e
    · obtain rfl : _ = run := by simpa only [Lexer.coming, ended, queued] using coming
      exact ⟨rfl, options, by simp [Lexer.coming, ended], told, not_failed⟩
    · obtain rfl : _ = run := by simpa only [Lexer.coming, ended, queued] using coming
      exact ⟨rfl, options, by simp [Lexer.coming, ended], told, not_failed⟩
    · exact absurd ended (not_failed e)
  · rw [none_left, filled]
    cases ended : run.ending with
    | finished => simp [closed, ended, Ending.error?]
    | failed e => simp [closed, ended, Ending.error?]

/-- Behind the end only the error is repeated, to those who ask for the next token. -/
theorem ask_closed (o : Options) (told : Diagnostics) (run : Run) (request : Request) :
    (closed o told run).ask request =
      (if request = .nextToken then run.ending.error?.map .error else none, closed o told run) := by
  cases ended : run.ending with
  | finished => cases request <;> simp [ask, next, nextToken, refill, closed, ended, Ending.error?]
  | failed e => cases request <;> simp [ask, next, nextToken, closed, ended, Ending.error?]

theorem askAll_cons (l : Lexer) (request : Request) (requests : List Request) :
    l.askAll (request :: requests) =
      ((l.ask request).1 :: ((l.ask request).2.askAll requests).1,
        ((l.ask request).2.askAll requests).2) := rfl

/-- A closed lexer stays closed, and answers every request as it answers that one alone. -/
theorem askAll_closed (o : Options) (told : Diagnostics) (run : Run) (requests : List Request) :
    (closed o told run).askAll requests =
      (requests.map fun request =>
        if request = .nextToken then run.ending.error?.map .error else none,
        closed o told run) := by
  induction requests with
  | nil => rfl
  | cons request requests ih => rw [askAll_cons, ask_closed, ih, List.map_cons]

/-- The answers where `tokens` are still to come, and then `ending`. Every request takes the next
token, and the first one behind them meets the end. Of those behind it the requests for the next
token meet it again, if it is an error. -/
def answersTo (ending : Ending) :
    List Token → List Request → List (Option (Except LexError Token))
  | _, [] => []
  | token :: tokens, _ :: requests => some (.ok token) :: answersTo ending tokens requests
  | [], _ :: later =>
    ending.error?.map .error ::
      later.map fun request => if request = .nextToken then ending.error?.map .error else none

/-- Requests are answered by what is to come. -/
theorem answers_askAll (h : l.Awaits o told run) (requests : List Request) :
    (l.askAll requests).1 = answersTo run.ending run.tokens requests := by
  induction requests generalizing l run with
  | nil => simp [askAll, answersTo]
  | cons request requests ih =>
    have asked := ask_spec h request
    obtain ⟨tokens, ending, last⟩ := run
    cases tokens with
    | cons token tokens => rw [askAll_cons, asked.1, ih asked.2, answersTo]
    | nil => rw [askAll_cons, asked.1, asked.2, askAll_closed, answersTo]

/-- After some requests the tokens they took are gone, and after more the lexer is closed. -/
theorem after_askAll (h : l.Awaits o told run) (requests : List Request) :
    if requests.length ≤ run.tokens.length then
      (l.askAll requests).2.Awaits o told { run with tokens := run.tokens.drop requests.length }
    else (l.askAll requests).2 = closed o told run := by
  induction requests generalizing l run with
  | nil => simpa [askAll] using h
  | cons request requests ih =>
    have asked := ask_spec h request
    obtain ⟨tokens, ending, last⟩ := run
    cases tokens with
    | cons token tokens => simpa [askAll_cons, closed] using ih asked.2
    | nil => simp [askAll_cons, asked.2, askAll_closed]

/-- Requests hand out the first tokens of what is to come, as many as there are requests. -/
theorem handedOut_askAll (h : l.Awaits o told run) (requests : List Request) :
    handedOut (l.askAll requests).1 = run.tokens.take requests.length := by
  rw [answers_askAll h]
  generalize run.tokens = tokens
  fun_induction answersTo run.ending tokens requests with
  | case1 tokens => simp [handedOut]
  | case2 token tokens request requests ih =>
    rw [List.length_cons, List.take_succ_cons, ← ih]
    rfl
  | case3 request later =>
    have silent : answered (run.ending.error?.map .error) = none := by
      cases run.ending <;> rfl
    rw [handedOut, List.filterMap_cons_none silent, List.filterMap_map, List.take_nil,
      List.filterMap_eq_nil_iff]
    intro request' _
    rw [Function.comp_apply]
    split
    next => exact silent
    next => rfl

/-- An error in the answers is the one that the run ends with. -/
theorem error_of_mem_askAll (h : l.Awaits o told run) {requests : List Request} {e : LexError}
    (answer : some (.error e) ∈ (l.askAll requests).1) : run.ending = .failed e := by
  have fails (same : (some (.error e) : Option (Except LexError Token)) =
      run.ending.error?.map .error) : run.ending = .failed e := by
    cases ended : run.ending with
    | finished => simp [ended, Ending.error?] at same
    | failed e' =>
      obtain rfl : e = e' := by simpa [ended, Ending.error?] using same
      rfl
  rw [answers_askAll h] at answer
  generalize run.tokens = tokens at answer
  fun_induction answersTo run.ending tokens requests with
  | case1 tokens => cases answer
  | case2 token tokens request requests ih =>
    rcases List.mem_cons.1 answer with same | later
    · simp at same
    · exact ih later
  | case3 request later =>
    rcases List.mem_cons.1 answer with same | behind
    · exact fails same
    · obtain ⟨request', -, same⟩ := List.mem_map.1 behind
      split at same
      next => exact fails same.symm
      next => cases same

/-- Draining a lexer is asking it for items until it ends. -/
theorem askAll_next (h : l.Awaits o told run) :
    l.askAll (List.replicate (run.tokens.length + 1) .next) =
        (run.tokens.map (some ∘ .ok) ++ [run.ending.error?.map .error], closed o told run) ∧
      l.drain = (run.tokens, run.ending.error?, closed o told run) := by
  constructor
  · have answers : answersTo run.ending run.tokens (List.replicate (run.tokens.length + 1) .next) =
        run.tokens.map (some ∘ .ok) ++ [run.ending.error?.map .error] := by
      induction run.tokens with
      | nil => rfl
      | cons token tokens ih =>
        rw [List.length_cons, List.replicate_succ, answersTo, ih]
        rfl
    have after := after_askAll h (List.replicate (run.tokens.length + 1) .next)
    rw [List.length_replicate, if_neg (Nat.not_succ_le_self _)] at after
    exact Prod.ext ((answers_askAll h _).trans answers) after
  · obtain ⟨rfl, rfl, rfl, not_failed⟩ := h
    rcases ended : l.ending with _ | _ | e
    · simp [drain, coming, ended, closed]
    · simp [drain, coming, ended, closed, Ending.error?, Ending.tell]
    · exact absurd ended (not_failed e)

/-- The pull protocol. Let a scan of a unit run to its end. Whatever was asked before, and in
whatever way a request is made, as many requests as there are tokens are answered by the tokens in
order, and nothing is told. Behind the last token a run that came to the end of the text answers
nothing, ever, and tells nothing. A run that failed answers the next request with the error, which
is told then and never again; from there on the error is the answer to every request for the next
token, the sequence has ended, and the lexer stays as it is. Taking all items at once is asking for
the next item until there is none, or an error. Lexing the whole unit gives all the tokens or the
error. -/
theorem pull_protocol (o : Options) (unit text : String) (told : Diagnostics) :
    let run := (Scanner.start unit text.toList).run o
    (∀ before request,
      let l := ((Lexer.start o unit text told).askAll before).2
      match run.tokens[before.length]?, run.ending with
      | some token, _ =>
        (l.ask request).1 = some (.ok token) ∧ l.told = told ∧ (l.ask request).2.told = told
      | none, .finished =>
        (l.ask request).1 = none ∧ l.told = told ∧ (l.ask request).2.told = told
      | none, .failed e =>
        if before.length = run.tokens.length then
          (l.ask request).1 = some (.error e) ∧ l.told = told ∧
            (l.ask request).2.told = told.report e.text e.position
        else
          (l.ask request).1 = (if request = .nextToken then some (.error e) else none) ∧
            l.told = told.report e.text e.position ∧ (l.ask request).2 = l) ∧
    (∃ after,
      (Lexer.start o unit text told).askAll (List.replicate (run.tokens.length + 1) .next) =
          (run.tokens.map (some ∘ .ok) ++ [run.ending.error?.map .error], after) ∧
        (Lexer.start o unit text told).drain = (run.tokens, run.ending.error?, after)) ∧
    lexUnit o unit text told =
      match run.ending with
      | .finished => (.ok run.tokens, told)
      | .failed e => (.error e, told.report e.text e.position) := by
  intro run
  refine ⟨?_, ⟨_, askAll_next (awaits_start o unit text told)⟩, lexUnit_eq o unit text told⟩
  intro before request l
  have reached : if before.length ≤ run.tokens.length then
      l.Awaits o told { run with tokens := run.tokens.drop before.length }
      else l = closed o told run := after_askAll (awaits_start o unit text told) before
  rcases Nat.lt_trichotomy before.length run.tokens.length with inside | last | behind
  · rw [if_pos (Nat.le_of_lt inside)] at reached
    have asked := ask_spec reached request
    rw [List.drop_eq_getElem_cons inside] at asked
    rw [List.getElem?_eq_getElem inside]
    exact ⟨asked.1, reached.told, asked.2.told⟩
  · rw [if_pos (Nat.le_of_eq last)] at reached
    have asked := ask_spec reached request
    rw [List.drop_of_length_le (Nat.le_of_eq last.symm)] at asked
    rw [List.getElem?_eq_none (Nat.le_of_eq last.symm)]
    obtain ⟨answer, after⟩ := asked
    rw [answer, after]
    cases ended : run.ending with
    | finished => exact ⟨rfl, reached.told, rfl⟩
    | failed e =>
      dsimp only
      rw [if_pos last]
      exact ⟨rfl, reached.told, rfl⟩
  · rw [if_neg (Nat.not_le_of_lt behind)] at reached
    rw [List.getElem?_eq_none (Nat.le_of_lt behind), reached, ask_closed]
    cases ended : run.ending with
    | finished => simp [closed, ended, Ending.tell, Ending.error?]
    | failed e => simp [closed, ended, Ending.tell, Ending.error?, Nat.ne_of_gt behind]

end Lexer

end DreamLexer
