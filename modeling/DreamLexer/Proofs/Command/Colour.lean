import DreamLexer.Proofs.Command.Directory
import DreamLexer.Proofs.Command.Failure
import DreamLexer.Proofs.Scan.Quotation
import DreamLexer.Proofs.Token.Display
import Mathlib.Data.List.Basic

/-!
# Colour

Colour is put around parts of lines and changes nothing else. `uncoloured` deletes the sequences
that switch colours, and `Uncolours` says of two texts that this makes the first one the second,
whatever stands behind. The two forms of every line are such texts, so a run on a terminal leaves
behind what it does elsewhere, but for these sequences: `run_uncoloured`.
-/

namespace DreamLexer.Command

/-- The character that every sequence starts with. -/
def escape : Char := '\x1b'

/-- All colours. -/
def Colour.all : List Colour := [.red, .yellow, .cyan, .bold, .reset]

/-- The sequence that a text starts with. -/
def sequence? (text : List Char) : Option (List Char) :=
  (Colour.all.map (·.code.toList)).find? (·.isPrefixOf text)

/-- The text without the sequences in it. -/
def withoutSequences : List Char → List Char
  | [] => []
  | c :: rest =>
    match sequence? (c :: rest) with
    | some sequence => withoutSequences (rest.drop (sequence.length - 1))
    | none => c :: withoutSequences rest
termination_by text => text.length
decreasing_by
  · simp only [List.length_drop, List.length_cons]; omega
  · simp

/-- The line without the sequences in it. -/
def uncoloured (line : String) : String := String.ofList (withoutSequences line.toList)

/-- The first text without its sequences is the second one, whatever stands behind. -/
def Uncolours (painted plain : String) : Prop :=
  ∀ rest, withoutSequences (painted.toList ++ rest) = plain.toList ++ withoutSequences rest

/-- No file that can be read has the character of the sequences in its path or its text. -/
def Disk.Unescaped (disk : Disk) : Prop :=
  ∀ path text, disk.text? path = some text → escape ∉ path.toList ∧ escape ∉ text.toList

section Sequences

theorem Colour.head?_code (colour : Colour) : colour.code.toList.head? = some escape := by
  cases colour <;> rfl

theorem withoutSequences_cons {c : Char} (rest : List Char) (other : c ≠ escape) :
    withoutSequences (c :: rest) = c :: withoutSequences rest := by
  have none_starts : sequence? (c :: rest) = none := by
    rw [sequence?, List.find?_eq_none]
    intro code member starts
    obtain ⟨colour, -, rfl⟩ := List.mem_map.1 member
    obtain ⟨behind, whole⟩ := List.isPrefixOf_iff_prefix.1 starts
    have head : (colour.code.toList ++ behind).head? = some c := by rw [whole]; rfl
    rw [List.head?_append, colour.head?_code, Option.some_or] at head
    exact other (Option.some.inj head).symm
  rw [withoutSequences, none_starts]

theorem withoutSequences_append {text : List Char} (absent : escape ∉ text) (rest : List Char) :
    withoutSequences (text ++ rest) = text ++ withoutSequences rest := by
  induction text with
  | nil => rfl
  | cons c text ih =>
    obtain ⟨other, absent⟩ := not_or.1 (mt List.mem_cons.2 absent)
    rw [List.cons_append, withoutSequences_cons _ (Ne.symm other), ih absent, List.cons_append]

theorem withoutSequences_code (colour : Colour) (rest : List Char) :
    withoutSequences (colour.code.toList ++ rest) = withoutSequences rest := by
  cases colour <;> simp [withoutSequences, sequence?, Colour.all, Colour.code, List.isPrefixOf]

theorem withoutSequences_codes (colours : List Colour) (rest : List Char) :
    withoutSequences ((String.join (colours.map Colour.code)).toList ++ rest) =
      withoutSequences rest := by
  induction colours with
  | nil => rfl
  | cons colour colours ih =>
    rw [List.map_cons, String.join_cons, String.toList_append, List.append_assoc,
      withoutSequences_code, ih]

end Sequences

namespace Uncolours

variable {painted plain painted' plain' text : String} {colours : List Colour}

theorem of_not_mem (absent : escape ∉ text.toList) : Uncolours text text :=
  withoutSequences_append absent

theorem append (first : Uncolours painted plain) (second : Uncolours painted' plain') :
    Uncolours (painted ++ painted') (plain ++ plain') := by
  intro rest
  rw [String.toList_append, List.append_assoc, first, second, String.toList_append,
    List.append_assoc]

theorem paint (absent : escape ∉ text.toList) :
    Uncolours (paint true colours text) (paint false colours text) := by
  intro rest
  simp only [Command.paint, if_true, Bool.false_eq_true, if_false]
  rw [String.toList_append, String.toList_append, List.append_assoc, List.append_assoc,
    withoutSequences_codes, withoutSequences_append absent, withoutSequences_code]

theorem uncoloured_eq (h : Uncolours painted plain) : uncoloured painted = plain := by
  have whole := h []
  rw [List.append_nil, withoutSequences, List.append_nil] at whole
  rw [uncoloured, whole, String.ofList_toList]

end Uncolours

section Lines

variable {text : String} {position : Position}

theorem escape_not_mem_toString (n : Nat) : escape ∉ (toString n).toList :=
  fun member => absurd (Text.isDigit_of_mem_toString member) (by decide)

theorem escape_not_mem_display (named : escape ∉ position.unit.toList) :
    escape ∉ position.display.toList :=
  Position.not_mem_display named (by decide) (by decide)

theorem lexErrorLine_uncolours (absent : escape ∉ text.toList)
    (named : escape ∉ position.unit.toList) :
    Uncolours (lexErrorLine true text position) (lexErrorLine false text position) :=
  ((((Uncolours.paint (by decide)).append (.of_not_mem (by decide))).append
    (.paint (escape_not_mem_display named))).append (.of_not_mem (by decide))).append
      (.of_not_mem absent)

theorem diagnosticLine_uncolours {d : Diagnostic} (absent : escape ∉ d.text.toList)
    (named : ∀ p, d.position = some p → escape ∉ p.unit.toList) :
    Uncolours (diagnosticLine true d) (diagnosticLine false d) := by
  unfold diagnosticLine
  refine ((Uncolours.append (.append ?position ?severity) ?code).append
    (.of_not_mem (by decide))).append (.of_not_mem absent)
  case position =>
    cases placed : d.position with
    | none => exact .of_not_mem (by decide)
    | some p =>
      exact (Uncolours.paint (escape_not_mem_display (named p placed))).append
        (.of_not_mem (by decide))
  case severity => cases d.severity <;> exact .paint (by decide)
  case code =>
    cases d.code with
    | none => exact .of_not_mem (by decide)
    | some code =>
      have unescaped : escape ∉ ("DM" ++ toString code).toList := by
        rw [String.toList_append, List.mem_append, not_or]
        exact ⟨by decide, escape_not_mem_toString code⟩
      exact (Uncolours.of_not_mem (by decide)).append (.paint unescaped)

theorem errorLine_uncolours (absent : escape ∉ text.toList) :
    Uncolours (errorLine true text) (errorLine false text) :=
  ((Uncolours.paint (by decide)).append (.of_not_mem (by decide))).append (.of_not_mem absent)

theorem summaryLine_uncolours (errors : Nat) :
    Uncolours (summaryLine true errors) (summaryLine false errors) := by
  refine .paint ?_
  rw [String.toList_append, String.toList_append, List.mem_append, List.mem_append, not_or, not_or]
  refine ⟨⟨by decide, escape_not_mem_toString errors⟩, ?_⟩
  split <;> decide

end Lines

/-- Whether a file can be read. -/
def Disk.reads (disk : Disk) (path : String) : Bool := (disk.text? path).isSome

section Files

variable {lexed : String → Except LexError (List Token)} {o : Options} {disk : Disk}
  {path text : String} {paths : List String}

theorem template_unescaped (kind : ErrorKind) : escape ∉ kind.message.template.toList := by
  cases kind <;> decide

/-- The lines about a file say the same with colours and without. -/
theorem remarks_uncoloured (same : lexed path = (lexUnit o path text .empty).1)
    (named : escape ∉ path.toList) (absent : escape ∉ text.toList) :
    (remarks lexed path true).map uncoloured = remarks lexed path false := by
  unfold remarks
  cases result : lexed path with
  | error e =>
    have failed : (lexUnit o path text .empty).1 = .error e := same.symm.trans result
    obtain ⟨quoted, placed⟩ := not_mem_error template_unescaped named absent failed
    exact congrArg (· :: []) (lexErrorLine_uncolours quoted placed).uncoloured_eq
  | ok tokens =>
    cases tokens with
    | cons t tokens => rfl
    | nil =>
      have said : escape ∉ (Message.unitHasNoTokens.format [path]).toList := by
        intro member
        rcases Message.mem_format member with inside | ⟨argument, quoted, inside⟩
        · exact absurd inside (by decide)
        · rw [List.mem_singleton.1 quoted] at inside
          exact named inside
      have line : Uncolours (diagnosticLine true (.ofMessage .unitHasNoTokens [path] none))
          (diagnosticLine false (.ofMessage .unitHasNoTokens [path] none)) :=
        diagnosticLine_uncolours said (by rintro p ⟨⟩)
      exact congrArg (· :: []) line.uncoloured_eq

theorem remarks_of_reads (unescaped : disk.Unescaped) (read : disk.reads path) :
    (remarks (lexedTo o disk.contents) path true).map uncoloured =
      remarks (lexedTo o disk.contents) path false := by
  have found := disk.text?_eq_contents (Option.isSome_iff_ne_none.1 read)
  obtain ⟨named, absent⟩ := unescaped path (disk.contents path) found
  exact remarks_uncoloured rfl named absent

/-- A run over files shows those in front of the first one that cannot be read, whatever colours it
uses. -/
theorem lexFiles_shows (disk : Disk) (o : Options) (reporter : Reporter) (paths : List String) :
    ∃ last, lexFiles disk o ⟨[], reporter⟩ paths = (last, (paths.dropWhile disk.reads).head?) ∧
      last.Shows (lexedTo o disk.contents) reporter (paths.takeWhile disk.reads) := by
  have texts : ∀ path ∈ paths.takeWhile disk.reads, ∃ text, disk.text? path = some text ∧
      lexedTo o disk.contents path = (lexUnit o path text .empty).1 := by
    intro path member
    have read : (disk.text? path).isSome := List.all_eq_true.1 List.all_takeWhile path member
    exact ⟨disk.contents path, disk.text?_eq_contents (Option.isSome_iff_ne_none.1 read), rfl⟩
  obtain ⟨last, passed, shows⟩ :=
    (Progress.Shows.start (lexedTo o disk.contents) reporter).lexFiles texts
  refine ⟨last, ?_, shows⟩
  have split := lexFiles_append passed (paths.dropWhile disk.reads)
  rw [List.takeWhile_append_dropWhile] at split
  rw [split]
  cases rest : paths.dropWhile disk.reads with
  | nil => rfl
  | cons path others =>
    have unread : disk.text? path = none := by
      have stops := List.head?_dropWhile_not disk.reads paths
      rw [rest] at stops
      simpa [Disk.reads] using stops
    rw [lexFiles, unread]
    rfl

end Files

section Runs

variable {invocation : Invocation} {disk : Disk} {found : Inputs}

theorem closing_uncoloured {painted plain : Reporter} (coloured : painted.coloured = true)
    (colourless : plain.coloured = false) (errors : painted.errors = plain.errors) :
    painted.closing.map uncoloured = plain.closing := by
  rw [Reporter.closing_eq, Reporter.closing_eq, errors, coloured, colourless, closingLines,
    closingLines]
  by_cases clean : plain.errors = 0
  · rw [if_pos clean, if_pos clean]
    rfl
  · have empty : uncoloured "" = "" := (Uncolours.of_not_mem (by decide)).uncoloured_eq
    rw [if_neg clean, if_neg clean]
    simp only [List.map_cons, List.map_nil, empty, (summaryLine_uncolours _).uncoloured_eq]

/-- Two reporters that differ in their colours alone lead to the same but for the sequences. -/
theorem lexInputs_uncoloured (unescaped : disk.Unescaped) :
    lexInputs invocation ⟨false, 0, []⟩ disk found =
      { lexInputs invocation ⟨true, 0, []⟩ disk found with
        reports := (lexInputs invocation ⟨true, 0, []⟩ disk found).reports.map uncoloured } := by
  unfold lexInputs
  cases empty : found.files.isEmpty with
  | true =>
    have line : uncoloured (errorLine true "No input files found.") =
        errorLine false "No input files found." :=
      (errorLine_uncolours (by decide)).uncoloured_eq
    simp only [if_true]
    exact congrArg (fun line => (⟨1, "", [line], none⟩ : Outcome)) line.symm
  | false =>
    obtain ⟨painted, passed, shows⟩ := lexFiles_shows disk found.options ⟨true, 0, []⟩ found.files
    obtain ⟨plain, passed', shows'⟩ := lexFiles_shows disk found.options ⟨false, 0, []⟩ found.files
    have units : plain.units = painted.units := shows'.units.trans shows.units.symm
    have errors : plain.reporter.errors = painted.reporter.errors :=
      shows'.errors.trans shows.errors.symm
    have lines : plain.reporter.lines = painted.reporter.lines.map uncoloured := by
      rw [shows'.lines, shows.lines, List.nil_append, List.nil_append, List.map_flatMap]
      refine List.flatMap_congr fun path member => ?_
      exact (remarks_of_reads unescaped (List.all_eq_true.1 List.all_takeWhile path member)).symm
    have closing := closing_uncoloured shows.coloured shows'.coloured errors.symm
    simp only [passed, passed', Bool.false_eq_true, if_false]
    cases (found.files.dropWhile disk.reads).head? with
    | some path => simp only [lines]
    | none => simp only [units, errors, lines, ← closing, List.map_append]

/-- Nothing that can be read in a directory has the character if nothing in the directory has it. -/
theorem Directory.unescaped_disk {directory : Directory}
    (paths : ∀ file ∈ directory.files, escape ∉ file.1.toList)
    (texts : ∀ file ∈ directory.files, ∀ text, String.fromUTF8? file.2 = some text →
      escape ∉ text.toList) : directory.disk.Unescaped := by
  intro path text read
  obtain ⟨shows, file, held, decoded⟩ := shows_of_text? read
  refine ⟨fun member => ?_, texts file held text decoded⟩
  obtain ⟨named, held, inside⟩ := shows escape member (by decide) (by decide)
  exact paths named held inside

/-- On a terminal a run exits, writes and fails as it does elsewhere, and it reports the same but
for the sequences that switch colours. If colours are declined it does not matter where it runs. -/
theorem run_uncoloured (invocation : Invocation) {disk : Disk} (unescaped : disk.Unescaped) :
    (invocation.has .noColor = false →
      (run invocation true disk).exitCode = (run invocation false disk).exitCode ∧
      (run invocation true disk).stdout = (run invocation false disk).stdout ∧
      (run invocation true disk).failure = (run invocation false disk).failure ∧
      (run invocation true disk).reports.map uncoloured = (run invocation false disk).reports) ∧
    (invocation.has .noColor = true →
      run invocation true disk = run invocation false disk) := by
  constructor
  · intro wanted
    have painted : Reporter.start (!invocation.has .noColor) true = ⟨true, 0, []⟩ := by
      rw [wanted]
      rfl
    have plain : Reporter.start (!invocation.has .noColor) false = ⟨false, 0, []⟩ := by
      rw [wanted]
      rfl
    unfold run
    rw [painted, plain]
    cases inputs invocation disk with
    | error failure => exact ⟨rfl, rfl, rfl, rfl⟩
    | ok found =>
      simp only [lexInputs_uncoloured unescaped, and_self]
  · intro declined
    have same : Reporter.start (!invocation.has .noColor) true =
        Reporter.start (!invocation.has .noColor) false := by
      rw [declined]
      rfl
    unfold run
    rw [same]

/-- A file that does not lex and, behind two dots, one without tokens. -/
theorem run_uncoloured_of_error_and_warning :
    ∃ (invocation : Invocation) (directory : Directory),
      Invocation.parse? ["a.dm", "src/../src/b.dm"] = some invocation ∧
      directory.files = [("a.dm", " x".toUTF8), ("src/b.dm", "".toUTF8)] ∧
      directory.disk.Unescaped ∧ invocation.has .noColor = false ∧
      (run invocation true directory.disk).reports =
        ["\x1b[1m\x1b[31mLex error\x1b[0m at \x1b[36ma.dm:1:1\x1b[0m: " ++
            "Spaces are not allowed for indentation. Please use tabs.",
          "\x1b[1m\x1b[33mwarning\x1b[0m \x1b[36mDM2001\x1b[0m: " ++
            "Unit 'src/../src/b.dm' produced no tokens.",
          "", "\x1b[31mFound 1 error.\x1b[0m"] ∧
      (run invocation true directory.disk).reports.map uncoloured =
        (run invocation false directory.disk).reports := by
  have accepted : Invocation.parse? ["a.dm", "src/../src/b.dm"] =
      some ⟨["a.dm", "src/../src/b.dm"], [], none, .text, none⟩ := by decide +kernel
  have decoded : String.fromUTF8? " x".toUTF8 = some " x" := by decide +kernel
  have decoded' : String.fromUTF8? "".toUTF8 = some "" := by decide +kernel
  have unescaped :
      (Directory.mk [("a.dm", " x".toUTF8), ("src/b.dm", "".toUTF8)]).disk.Unescaped := by
    apply Directory.unescaped_disk
    · decide
    · rintro file member text read
      rcases List.mem_pair.1 member with rfl | rfl
      · obtain rfl := Option.some.inj (decoded.symm.trans read)
        decide
      · obtain rfl := Option.some.inj (decoded'.symm.trans read)
        decide
  refine ⟨_, _, accepted, rfl, unescaped, rfl, ?_,
    ((run_uncoloured _ unescaped).1 rfl).2.2.2⟩
  decide +kernel

end Runs

end DreamLexer.Command
