import SectionLexer.Main
import SectionLexer.Proofs.Reading
import SectionLexer.Reader
import SectionLexer.Proofs.Document.Lines
import SectionLexer.Proofs.Document.Nesting
import SectionLexer.Proofs.Relocation
import SectionLexer.Proofs.Document.Trees
import SectionLexer.Proofs.Document.RoundTrip
import SectionLexer.Proofs.Balance
import SectionLexer.Proofs.Depth
import SectionLexer.Proofs.Cut
import SectionLexer.Proofs.Segments
import SectionLexer.Proofs.Placement
import SectionLexer.Proofs.Landmarks
import SectionLexer.Proofs.Content
import SectionLexer.Proofs.Isolation
import SectionLexer.Proofs.TrailingNewlines
import SectionLexer.Proofs.Lookahead
import SectionLexer.Proofs.Reporting
import SectionLexer.Proofs.Order
import SectionLexer.Proofs.Positions
import SectionLexer.Proofs.Spans
import SectionLexer.Proofs.Indentation.Marks
import SectionLexer.Proofs.Indentation.Faults
import SectionLexer.Proofs.Resumption
import SectionLexer.Proofs.Entries
import SectionLexer.Proofs.Reached
import SectionLexer.Proofs.PlainArguments
import SectionLexer.Proofs.QuotedTexts
import SectionLexer.Proofs.ArgumentLists
import SectionLexer.Proofs.BlankLines
import SectionLexer.Proofs.LiteralEnds
import SectionLexer.Proofs.Completion
import SectionLexer.Proofs.TreeAlignment
import SectionLexer.Proofs.Cursor
import SectionLexer.Proofs.DiagnosticLines
import SectionLexer.Proofs.Registrations
import SectionLexer.Proofs.Settings.DistinctKeys
import SectionLexer.Proofs.Settings.Layering
import SectionLexer.Proofs.Settings.BuiltIn
import SectionLexer.Proofs.Settings.Conversions
