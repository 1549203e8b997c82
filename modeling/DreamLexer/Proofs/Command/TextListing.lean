import DreamLexer.Command.Listing
import DreamLexer.Proofs.Token.Display

/-!
# The text listing is read back

A token's line shows its kind, its payload and where it starts. The place ends at the last tab, so
it is told from the token behind it also if the name of its unit has tabs, colons or digits in it
(`tokenLine_eq_iff`), and lines without line feeds are told from one another in a text
(`joinLines_inj`). Hence two listings are the same just if what they show of their tokens is:
`text_listing_unambiguous`.
-/

namespace DreamLexer

/-- What a listing shows of a token: its kind, its payload and where it starts. -/
structure Shown where
  kind : TokenKind
  payload : Option String
  start : Option Position
deriving DecidableEq

/-- What a listing shows of the token. -/
def Token.shown (t : Token) : Shown := ⟨t.kind, t.payload, t.span.map Span.start⟩

/-- The token does not start in a unit whose name goes over several lines. -/
def Token.OnOneLine (t : Token) : Prop :=
  ∀ start ∈ t.span.map Span.start, '\n' ∉ start.unit.toList

namespace Shown

/-- The place in front of the tab. -/
def place (s : Shown) : String :=
  match s.start with
  | some start => start.display
  | none => "-"

/-- The kind and the payload behind the tab. -/
def text (s : Shown) : String := (Token.mk s.kind s.payload none).display

variable {s s' : Shown}

theorem start_of_place (same : s.place = s'.place) : s.start = s'.start := by
  have no_dash (p : Position) : p.display ≠ "-" := by
    intro same
    have colon : ':' ∈ p.display.toList := by simp [Position.toList_display]
    rw [same] at colon
    exact absurd colon (by decide)
  obtain ⟨kind, payload, start⟩ := s
  obtain ⟨kind', payload', start'⟩ := s'
  cases start with
  | none =>
    cases start' with
    | none => rfl
    | some p => exact absurd same.symm (no_dash p)
  | some p =>
    cases start' with
    | none => exact absurd same (no_dash p)
    | some q => exact congrArg some (Position.display_inj same)

theorem eq_of_place_text (place : s.place = s'.place) (text : s.text = s'.text) : s = s' := by
  have start := start_of_place place
  obtain ⟨kind, payload⟩ := Token.display_inj text
  obtain ⟨_, _, _⟩ := s
  simp_all

end Shown

namespace Command

variable {t u : Token} {lines others : List String}

theorem tokenLine_eq (t : Token) : tokenLine t = t.shown.place ++ "\t" ++ t.shown.text := by
  unfold tokenLine Token.shown Shown.place
  cases t.span <;> rfl

/-- The line of a token is made of what it shows, and tells it. -/
theorem tokenLine_eq_iff : tokenLine t = tokenLine u ↔ t.shown = u.shown := by
  constructor
  · intro same
    have no_tab (s : Shown) : '\t' ∉ s.text.toList := Token.not_mem_display (.inl rfl)
    have whole : t.shown.place.toList ++ '\t' :: t.shown.text.toList =
        u.shown.place.toList ++ '\t' :: u.shown.text.toList := by
      simpa [tokenLine_eq] using congrArg String.toList same
    obtain ⟨place, text⟩ := Text.append_last_mark_inj (no_tab _) (no_tab _) whole
    exact Shown.eq_of_place_text (String.toList_inj.1 place) (String.toList_inj.1 text)
  · intro same
    rw [tokenLine_eq, tokenLine_eq, same]

theorem not_mem_tokenLine (one : t.OnOneLine) : '\n' ∉ (tokenLine t).toList := by
  have place : '\n' ∉ t.shown.place.toList := by
    unfold Shown.place
    split
    next start starts => exact Position.not_mem_display (one start starts) (by decide) (by decide)
    next => decide
  have text : '\n' ∉ t.shown.text.toList := Token.not_mem_display (.inr rfl)
  have tab : '\n' ∉ "\t".toList := by decide
  simp only [tokenLine_eq, String.toList_append, List.mem_append, not_or]
  exact ⟨⟨place, tab⟩, text⟩

theorem toList_joinLines_cons (line : String) (lines : List String) :
    (joinLines (line :: lines)).toList = line.toList ++ '\n' :: (joinLines lines).toList := by
  simp [joinLines, String.join_cons]

/-- Lines without line feeds are told from the text they make up. -/
theorem joinLines_inj (single : ∀ line ∈ lines, '\n' ∉ line.toList)
    (single' : ∀ line ∈ others, '\n' ∉ line.toList) (same : joinLines lines = joinLines others) :
    lines = others := by
  induction lines generalizing others with
  | nil =>
    cases others with
    | nil => rfl
    | cons other others =>
      have empty := congrArg String.toList same
      rw [toList_joinLines_cons] at empty
      simp [joinLines] at empty
  | cons line lines ih =>
    cases others with
    | nil =>
      have empty := congrArg String.toList same
      rw [toList_joinLines_cons] at empty
      simp [joinLines] at empty
    | cons other others =>
      obtain ⟨no_feed, later⟩ := List.forall_mem_cons.1 single
      obtain ⟨no_feed', later'⟩ := List.forall_mem_cons.1 single'
      have whole := congrArg String.toList same
      rw [toList_joinLines_cons, toList_joinLines_cons] at whole
      obtain ⟨here, behind⟩ := Text.append_mark_inj no_feed no_feed' whole
      rw [String.toList_inj.1 here, ih later later' (String.toList_inj.1 behind)]

/-- Two lists of tokens have the same lines just if they show the same. -/
theorem map_tokenLine_eq_iff {tokens tokens' : List Token} :
    tokens.map tokenLine = tokens'.map tokenLine ↔
      tokens.map Token.shown = tokens'.map Token.shown := by
  induction tokens generalizing tokens' with
  | nil => cases tokens' <;> simp
  | cons t tokens ih =>
    cases tokens' with
    | nil => simp
    | cons u tokens' =>
      rw [List.map_cons, List.map_cons, List.map_cons, List.map_cons, List.cons.injEq,
        List.cons.injEq, tokenLine_eq_iff, ih]

theorem not_mem_lines {tokens : List Token} (one : ∀ t ∈ tokens, t.OnOneLine) :
    ∀ line ∈ tokens.map tokenLine, '\n' ∉ line.toList := by
  intro line member
  obtain ⟨t, listed, rfl⟩ := List.mem_map.1 member
  exact not_mem_tokenLine (one t listed)

/-- The text listing has a line for every token, and lists two lists of tokens alike just if they
have the same kinds, payloads and starts, one by one. -/
theorem text_listing_unambiguous (unit unit' : String) (tokens tokens' : List Token)
    (pretty pretty' : Bool) (one : ∀ t ∈ tokens, t.OnOneLine) (one' : ∀ t ∈ tokens', t.OnOneLine) :
    (UnitTokens.mk unit tokens).lines.length = tokens.length ∧
      (∀ line ∈ (UnitTokens.mk unit tokens).lines, '\n' ∉ line.toList) ∧
      ((UnitTokens.mk unit tokens).lines = (UnitTokens.mk unit' tokens').lines ↔
        tokens.map Token.shown = tokens'.map Token.shown) ∧
      (listing .text pretty [⟨unit, tokens⟩] = listing .text pretty' [⟨unit', tokens'⟩] ↔
        tokens.map Token.shown = tokens'.map Token.shown) := by
  have listing_eq (pretty : Bool) (u : UnitTokens) :
      listing .text pretty [u] = joinLines u.lines := by
    simp [listing]
  refine ⟨List.length_map tokenLine, not_mem_lines one, map_tokenLine_eq_iff, ?_⟩
  rw [listing_eq, listing_eq]
  constructor
  · intro same
    exact map_tokenLine_eq_iff.1 (joinLines_inj (not_mem_lines one) (not_mem_lines one') same)
  · intro same
    exact congrArg joinLines (map_tokenLine_eq_iff.2 same)

/-- The name of a unit can be that of a place with a token behind it. -/
theorem text_listing_unambiguous_of_misleading_unit :
    listing .text false
        [⟨"a", [⟨.comma, none, some ⟨⟨"b:1:1\tDOT", 1, 1⟩, ⟨"b", 1, 2⟩⟩⟩]⟩] ≠
      listing .text false [⟨"a", [⟨.dot, none, some ⟨⟨"b", 1, 1⟩, ⟨"b", 1, 2⟩⟩⟩]⟩] :=
  fun same =>
    absurd
      ((text_listing_unambiguous "a" "a"
        [⟨.comma, none, some ⟨⟨"b:1:1\tDOT", 1, 1⟩, ⟨"b", 1, 2⟩⟩⟩]
        [⟨.dot, none, some ⟨⟨"b", 1, 1⟩, ⟨"b", 1, 2⟩⟩⟩] false false
        (by simp [Token.OnOneLine]) (by simp [Token.OnOneLine])).2.2.2.1 same)
      (by decide)

end Command

end DreamLexer
