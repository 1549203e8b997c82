import DreamLexer.Main
import DreamLexer.Proofs.Layout.Indentation
import DreamLexer.Proofs.Layout.Thinning
import DreamLexer.Proofs.Scan.Coverage
import DreamLexer.Proofs.Scan.Document
import DreamLexer.Proofs.Protocol
import DreamLexer.Proofs.Scan.Course
import DreamLexer.Proofs.Scan.Seam
import DreamLexer.Proofs.Scan.Append
import DreamLexer.Proofs.Scan.Place
import DreamLexer.Proofs.Lexeme.Unread
import DreamLexer.Proofs.Scan.Failure
import DreamLexer.Proofs.Scan.Parallel
import DreamLexer.Proofs.Scan.Marked
import DreamLexer.Proofs.Scan.Abreast
import DreamLexer.Proofs.Text.Returns
import DreamLexer.Proofs.Lexeme.Returns
import DreamLexer.Proofs.Scan.Returns
import DreamLexer.Proofs.Command.Run
import DreamLexer.Proofs.Scan.Complete
import DreamLexer.Proofs.Scan.Directive
import DreamLexer.Proofs.Lexeme.Linemarker
import DreamLexer.Proofs.Command.Failure
import DreamLexer.Proofs.Scan.Span
import DreamLexer.Proofs.Scan.Progress
import DreamLexer.Proofs.Scan.Numbering
import DreamLexer.Proofs.Command.Arguments
import DreamLexer.Proofs.Command.Inputs
import DreamLexer.Proofs.Command.Colour
import DreamLexer.Proofs.Command.TextListing
import DreamLexer.Proofs.Command.JsonListing
import DreamLexer.Proofs.Project.Written
import DreamLexer.Proofs.Project.Components
import DreamLexer.Proofs.Text.Substitution
import DreamLexer.Proofs.Lexeme.Nesting
import DreamLexer.Proofs.Scan.Enclosed
