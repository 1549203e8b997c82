import DreamLexer.Proofs.Layout.Handed

/-!
# Pulling tokens

A caller may ask a lexer for its next token in two ways, in any order. What a lexer has handed out
and still has queued together balance to its depth, whatever was asked: `depth_askAll`.
-/

namespace DreamLexer

/-- The two ways to ask for a token. -/
inductive Request where
  | nextToken
  | next
deriving DecidableEq

namespace Lexer

/-- The answer to a request: a token, the error, or nothing. -/
def ask (l : Lexer) : Request → Option (Except LexError Token) × Lexer
  | .next => l.next
  | .nextToken =>
    match l.nextToken with
    | (.ok (some token), after) => (some (.ok token), after)
    | (.ok none, after) => (none, after)
    | (.error e, after) => (some (.error e), after)

/-- The answers to requests made one after the other. -/
def askAll (l : Lexer) : List Request → List (Option (Except LexError Token)) × Lexer
  | [] => ([], l)
  | request :: requests =>
    let (answer, after) := l.ask request
    let (answers, last) := after.askAll requests
    (answer :: answers, last)

/-- The token in an answer. -/
def answered : Option (Except LexError Token) → Option Token
  | some (.ok token) => some token
  | _ => none

/-- The tokens handed out in answers. -/
def handedOut (answers : List (Option (Except LexError Token))) : List Token :=
  answers.filterMap answered

variable {l : Lexer}

/-- A failed lexer hands out nothing and stays as it is. -/
theorem ask_of_failed {request : Request} {e : LexError} (h : l.ending = some (.failed e)) :
    answered (l.ask request).1 = none ∧ (l.ask request).2 = l := by
  cases request with
  | nextToken => simp [ask, nextToken, h, answered]
  | next => simp [ask, next, h, answered]

theorem nextToken_of_not_failed (h : ∀ e, l.ending ≠ some (.failed e)) :
    l.nextToken =
      match l.refill.queue, l.refill.ending with
      | token :: queue, _ => (.ok (some token), { l.refill with queue := queue })
      | [], some (.failed e) => (.error e, l.refill)
      | [], _ => (.ok none, l.refill) := by
  unfold nextToken
  split
  next e failed => exact absurd failed (h e)
  next => rfl

/-- The two ways to ask differ in what they do behind an error only. -/
theorem ask_next (h : ∀ e, l.ending ≠ some (.failed e)) : l.ask .next = l.ask .nextToken := by
  show l.next = _
  unfold next
  split
  next failed => exact absurd failed (h _)
  next => rfl

/-- A lexer that has not failed scans for tokens if it has none, and hands out the first one. -/
theorem ask_of_not_failed (l : Lexer) (request : Request)
    (h : ∀ e, l.ending ≠ some (.failed e)) :
    (answered (l.ask request).1).toList ++ (l.ask request).2.queue = l.refill.queue ∧
      (l.ask request).2.scanner = l.refill.scanner := by
  have same : l.ask request = l.ask .nextToken := by
    cases request with
    | nextToken => rfl
    | next => exact ask_next h
  rw [same, ask, nextToken_of_not_failed h]
  cases queue : l.refill.queue with
  | cons token queue => exact ⟨rfl, rfl⟩
  | nil =>
    rcases ending : l.refill.ending with _ | _ | e
    · exact ⟨queue, rfl⟩
    · exact ⟨queue, rfl⟩
    · exact ⟨queue, rfl⟩

end Lexer

namespace Scanner

variable {o : Options} {s next last : Scanner} {tokens : List Token}

/-- A step keeps the depth in balance with the tokens that it hands out. -/
theorem depth_of_placed (h : s.step o = .placed tokens next) :
    (next.layout.depth : Int) = s.layout.depth + balance tokens := by
  have spec := step_spec o s
  rw [h] at spec
  cases spec with
  | placed moves =>
    rw [moves.layout_eq]
    exact (s.layout.after_spec (s.stepPieces o)).1

theorem depth_of_ended {ending : Ending} (h : s.step o = .ended tokens ending last) :
    (last.layout.depth : Int) = s.layout.depth + balance tokens := by
  have spec := step_spec o s
  rw [h] at spec
  cases spec with
  | @ended stop last tokens ending moves silent ends =>
    have reached := (s.layout.after_spec (o := o) (s.stepPieces o)).1
    rw [silent, ← moves.layout_eq] at reached
    rcases ends.layout_eq with finished | failed
    · have tokens_eq := congrArg Prod.fst finished
      have layout_eq := congrArg Prod.snd finished
      dsimp only at tokens_eq layout_eq
      rw [tokens_eq, layout_eq, (stop.layout.finish_spec o).1, reached]
      simp
    · have tokens_eq := congrArg Prod.fst failed
      have layout_eq := congrArg Prod.snd failed
      dsimp only at tokens_eq layout_eq
      rw [tokens_eq, layout_eq, reached]

end Scanner

namespace Lexer

/-- Scanning for tokens leaves the depth less what is queued as it was. -/
theorem depth_refill (l : Lexer) :
    (l.refill.depth : Int) - balance l.refill.queue = l.depth - balance l.queue := by
  fun_induction refill l with
  | case1 l needed tokens next placed ih =>
    rw [ih]
    simp only [Bool.and_eq_true, List.isEmpty_iff] at needed
    have reached := Scanner.depth_of_placed placed
    simp only [depth] at reached ⊢
    rw [needed.1, balance_nil]
    omega
  | case2 l needed tokens ending last ended =>
    simp only [Bool.and_eq_true, List.isEmpty_iff] at needed
    have reached := Scanner.depth_of_ended ended
    simp only [depth] at reached ⊢
    rw [needed.1, balance_nil]
    omega
  | case3 l full => rfl

/-- A request leaves the depth less what is queued changed by what it hands out. -/
theorem depth_ask (l : Lexer) (request : Request) :
    ((l.ask request).2.depth : Int) - balance (l.ask request).2.queue =
      l.depth - balance l.queue + balance (answered (l.ask request).1).toList := by
  by_cases failed : ∃ e, l.ending = some (.failed e)
  · -- Behind an error the two ways to ask differ, but neither moves the lexer.
    obtain ⟨e, failed⟩ := failed
    obtain ⟨nothing, same⟩ : answered (l.ask request).1 = none ∧ (l.ask request).2 = l :=
      ask_of_failed failed
    rw [nothing, same]
    simp
  · have ⟨queue, scanner⟩ := l.ask_of_not_failed request (not_exists.1 failed)
    have refilled := l.depth_refill
    rw [← queue, balance_append] at refilled
    simp only [depth, ← scanner] at refilled ⊢
    omega

theorem depth_askAll_sub (l : Lexer) (requests : List Request) :
    ((l.askAll requests).2.depth : Int) - balance (l.askAll requests).2.queue =
      l.depth - balance l.queue + balance (handedOut (l.askAll requests).1) := by
  induction requests generalizing l with
  | nil => simp [askAll, handedOut]
  | cons request requests ih =>
    have one := l.depth_ask request
    have others := ih (l.ask request).2
    have handed : handedOut (l.askAll (request :: requests)).1 =
        (answered (l.ask request).1).toList ++ handedOut ((l.ask request).2.askAll requests).1 := by
      cases answer : answered (l.ask request).1 with
      | none => simp [askAll, handedOut, answer]
      | some token => simp [askAll, handedOut, answer]
    rw [handed, balance_append]
    simp only [askAll]
    omega

/-- From the start of a unit on, the depth is the balance of what was handed out and is queued. -/
theorem depth_askAll (o : Options) (unit text : String) (told : Diagnostics)
    (requests : List Request) :
    ((((Lexer.start o unit text told).askAll requests).2.depth : Nat) : Int) =
      balance (handedOut ((Lexer.start o unit text told).askAll requests).1 ++
        ((Lexer.start o unit text told).askAll requests).2.queue) := by
  have h := (Lexer.start o unit text told).depth_askAll_sub requests
  have fresh : (Lexer.start o unit text told).depth = 0 := rfl
  have empty : (Lexer.start o unit text told).queue = [] := rfl
  rw [fresh, empty, balance_nil] at h
  rw [balance_append]
  omega

end Lexer

end DreamLexer
