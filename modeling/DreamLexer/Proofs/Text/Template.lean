import DreamLexer.Diagnostic.Catalogue

/-!
# Filled templates

A template with one place is the text before the place, the argument and the text behind it,
whatever stands in the argument: `format_singleton`.
-/

namespace DreamLexer

namespace Text

variable {mark : Char} {tail replacement text rest : List Char}

/-- Text without the first character of the pattern is left as it is. -/
theorem replaceAll_append (absent : mark ∉ text) :
    replaceAll (mark :: tail) replacement (text ++ rest) =
      text ++ replaceAll (mark :: tail) replacement rest := by
  induction text with
  | nil => rfl
  | cons c text ih =>
    obtain ⟨other, absent⟩ := not_or.1 (mt List.mem_cons.2 absent)
    have unlike : (mark :: tail).isPrefixOf (c :: (text ++ rest)) = false := by
      simp [List.isPrefixOf, other]
    rw [List.cons_append, replaceAll, unlike, if_neg Bool.false_ne_true, ih absent,
      List.cons_append]

theorem replaceAll_of_not_mem (absent : mark ∉ text) :
    replaceAll (mark :: tail) replacement text = text := by
  have whole : replaceAll (mark :: tail) replacement (text ++ []) =
      text ++ replaceAll (mark :: tail) replacement [] := replaceAll_append absent
  simpa [replaceAll] using whole

theorem replaceAll_pattern :
    replaceAll (mark :: tail) replacement (mark :: tail ++ rest) =
      replacement ++ replaceAll (mark :: tail) replacement rest := by
  have starts : (mark :: tail).isPrefixOf (mark :: (tail ++ rest)) :=
    List.isPrefixOf_iff_prefix.2 (List.prefix_append (mark :: tail) rest)
  rw [List.cons_append, replaceAll, if_pos starts]
  simp

theorem placeholder_zero : placeholder 0 = ['\x7b', '0', '\x7d'] := by decide

/-- Filling in one argument puts it between what stands before its place and behind it. -/
theorem fill_singleton {before behind : List Char} (argument : List Char)
    (absent : '\x7b' ∉ before) (absent' : '\x7b' ∉ behind) :
    fill (before ++ (placeholder 0 ++ behind)) [argument] = before ++ argument ++ behind := by
  rw [fill, fillFrom, fillFrom, placeholder_zero, replaceAll_append absent, replaceAll_pattern,
    replaceAll_of_not_mem absent', List.append_assoc]

end Text

namespace Message

/-- A message without arguments is its template. -/
theorem format_nil (message : Message) : message.format [] = message.template :=
  String.ofList_toList

/-- A message with one place says what stands before it, the argument and what stands behind it. -/
theorem format_singleton {message : Message} {before behind : String} (argument : String)
    (template : message.template.toList =
      before.toList ++ (Text.placeholder 0 ++ behind.toList))
    (absent : '\x7b' ∉ before.toList) (absent' : '\x7b' ∉ behind.toList) :
    message.format [argument] = before ++ argument ++ behind := by
  rw [format, template, List.map_singleton, Text.fill_singleton _ absent absent']
  simp [String.ofList_append, String.ofList_toList, String.append_assoc]

theorem format_malformedDirective (line : String) :
    malformedDirective.format [line] = "Malformed preprocessor directive '" ++ line ++ "'." :=
  format_singleton line (by decide) (by decide) (by decide)

theorem format_unexpectedCharacter (c : String) :
    unexpectedCharacter.format [c] = "Unexpected character '" ++ c ++ "'." :=
  format_singleton c (by decide) (by decide) (by decide)

theorem format_unitHasNoTokens (unit : String) :
    unitHasNoTokens.format [unit] = "Unit '" ++ unit ++ "' produced no tokens." :=
  format_singleton unit (by decide) (by decide) (by decide)

end Message

end DreamLexer
