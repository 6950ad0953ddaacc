import JavaFront.Editor
import JavaFront.Grammar
import JavaFront.Main
import JavaFront.Proofs.Parser.Conservation
import JavaFront.Proofs.Parser.Fidelity
import JavaFront.Proofs.Parser.Transparency
import JavaFront.Proofs.Grammar.Recovery
import JavaFront.Proofs.Parser.Reports
import JavaFront.Proofs.Parser.Records
import JavaFront.Proofs.Parser.Diagnoses
import JavaFront.Proofs.Parser.Comparison
import JavaFront.Proofs.Parser.Abandonment
import JavaFront.Proofs.Token.Layout
import JavaFront.Proofs.Tree.Bare
import JavaFront.Proofs.Parser.Independence
import JavaFront.Proofs.Grammar.Plain
import JavaFront.Proofs.Parser.Pairing
import JavaFront.Proofs.Parser.Plain
import JavaFront.Proofs.Parser.Replay
import JavaFront.Proofs.Diagnostic.Register
import JavaFront.Proofs.Editor.Session
import JavaFront.Proofs.Batch.Schedule
import JavaFront.Proofs.Parser.Repetition
import JavaFront.Proofs.Listing.JsonLayout
import JavaFront.Proofs.Parser.Nesting
import JavaFront.Proofs.Parser.Brackets
import JavaFront.Proofs.Listing.Units
import JavaFront.Proofs.Parser.Trials
import JavaFront.Proofs.Parser.Termination
import JavaFront.Proofs.Parser.Progress
import JavaFront.Proofs.Parser.Bodies
import JavaFront.Proofs.Parser.Documentation
import JavaFront.Proofs.Parser.Foresight
import JavaFront.Proofs.Parser.Precedence
import JavaFront.Proofs.Parser.TypeForms
import JavaFront.Proofs.Parser.Resynchronisation
import JavaFront.Proofs.Token.Numerals
import JavaFront.Proofs.Parser.Operators
import JavaFront.Proofs.Parser.Explaining
import JavaFront.Proofs.Token.Quotes
import JavaFront.Proofs.Token.Composition
import JavaFront.Proofs.Token.Separation
import JavaFront.Proofs.Parser.Variadic
import JavaFront.Proofs.Source.LineIndex
import JavaFront.Proofs.Token.Characters
import JavaFront.Proofs.Editor.Positions
import JavaFront.Proofs.Files.Paths
import JavaFront.Proofs.Files.Following
import JavaFront.Proofs.Batch.Selection
import JavaFront.Proofs.Batch.LinkedRoots
import JavaFront.Proofs.Diagnostic.Excerpts
import JavaFront.Proofs.Listing.Terminators
import JavaFront.Proofs.Token.Filing
import JavaFront.Proofs.Parser.Failures
