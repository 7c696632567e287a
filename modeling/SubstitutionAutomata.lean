import SubstitutionAutomata.Board.Basic
import SubstitutionAutomata.Board.File
import SubstitutionAutomata.Board.Layout
import SubstitutionAutomata.Command.Compare
import SubstitutionAutomata.Command.Grammar
import SubstitutionAutomata.Command.Inspect
import SubstitutionAutomata.Command.Invocation
import SubstitutionAutomata.Command.Life
import SubstitutionAutomata.Command.Machine
import SubstitutionAutomata.Command.Path
import SubstitutionAutomata.Command.Script
import SubstitutionAutomata.Command.Session
import SubstitutionAutomata.Command.Store
import SubstitutionAutomata.Command.System
import SubstitutionAutomata.Engine.Basic
import SubstitutionAutomata.Engine.Life
import SubstitutionAutomata.Engine.Machine
import SubstitutionAutomata.Inspection.Json
import SubstitutionAutomata.Inspection.Listing
import SubstitutionAutomata.Inspection.Record
import SubstitutionAutomata.Inspection.Time
import SubstitutionAutomata.Life.CellByCell
import SubstitutionAutomata.Life.Neighborhood
import SubstitutionAutomata.Life.Pattern
import SubstitutionAutomata.Life.Reference
import SubstitutionAutomata.Life.Rule
import SubstitutionAutomata.Life.Window
import SubstitutionAutomata.Machine.Clause
import SubstitutionAutomata.Machine.Configuration
import SubstitutionAutomata.Machine.Definition
import SubstitutionAutomata.Machine.Pattern
import SubstitutionAutomata.Machine.Preset
import SubstitutionAutomata.Machine.Tape
import SubstitutionAutomata.Machine.Transition
import SubstitutionAutomata.Main
import SubstitutionAutomata.Pattern.Alternation
import SubstitutionAutomata.Pattern.Clause
import SubstitutionAutomata.Proofs.Board.File
import SubstitutionAutomata.Proofs.Board.Layout
import SubstitutionAutomata.Proofs.Board.Rows
import SubstitutionAutomata.Proofs.Command.Arguments
import SubstitutionAutomata.Proofs.Command.Board
import SubstitutionAutomata.Proofs.Command.Life
import SubstitutionAutomata.Proofs.Command.Machine
import SubstitutionAutomata.Proofs.Command.Outcome
import SubstitutionAutomata.Proofs.Engine.Break
import SubstitutionAutomata.Proofs.Engine.Compose
import SubstitutionAutomata.Proofs.Engine.Fixpoint
import SubstitutionAutomata.Proofs.Engine.Run
import SubstitutionAutomata.Proofs.Inspection.Listing
import SubstitutionAutomata.Proofs.Life.Agreement
import SubstitutionAutomata.Proofs.Life.Border
import SubstitutionAutomata.Proofs.Life.CellByCell
import SubstitutionAutomata.Proofs.Life.Changing
import SubstitutionAutomata.Proofs.Life.Clause
import SubstitutionAutomata.Proofs.Life.Compile
import SubstitutionAutomata.Proofs.Life.Enumeration
import SubstitutionAutomata.Proofs.Life.Equivalence
import SubstitutionAutomata.Proofs.Life.Flips
import SubstitutionAutomata.Proofs.Life.Generation
import SubstitutionAutomata.Proofs.Life.Notation
import SubstitutionAutomata.Proofs.Life.Pattern
import SubstitutionAutomata.Proofs.Life.Spelling
import SubstitutionAutomata.Proofs.Life.Window
import SubstitutionAutomata.Proofs.Machine.Captures
import SubstitutionAutomata.Proofs.Machine.Clause
import SubstitutionAutomata.Proofs.Machine.Compile
import SubstitutionAutomata.Proofs.Machine.Decode
import SubstitutionAutomata.Proofs.Machine.Definition
import SubstitutionAutomata.Proofs.Machine.Duplicate
import SubstitutionAutomata.Proofs.Machine.Halting
import SubstitutionAutomata.Proofs.Machine.HeadRecord
import SubstitutionAutomata.Proofs.Machine.Inert
import SubstitutionAutomata.Proofs.Machine.Leftmost
import SubstitutionAutomata.Proofs.Machine.LockStep
import SubstitutionAutomata.Proofs.Machine.Move
import SubstitutionAutomata.Proofs.Machine.Order
import SubstitutionAutomata.Proofs.Machine.Pattern
import SubstitutionAutomata.Proofs.Machine.Record
import SubstitutionAutomata.Proofs.Machine.RoundTrip
import SubstitutionAutomata.Proofs.Machine.Run
import SubstitutionAutomata.Proofs.Machine.Scan
import SubstitutionAutomata.Proofs.Machine.Source
import SubstitutionAutomata.Proofs.Machine.Start
import SubstitutionAutomata.Proofs.Machine.TimesTable
import SubstitutionAutomata.Proofs.Machine.Transition
import SubstitutionAutomata.Proofs.Pattern.Alternation
import SubstitutionAutomata.Proofs.Pattern.Template
import SubstitutionAutomata.Proofs.Regex.Matching
import SubstitutionAutomata.Proofs.Regex.Names
import SubstitutionAutomata.Proofs.Regex.Pass
import SubstitutionAutomata.Proofs.Regex.Piece
import SubstitutionAutomata.Proofs.Regex.Reading
import SubstitutionAutomata.Proofs.Regex.Solid
import SubstitutionAutomata.Proofs.Regex.Splice
import SubstitutionAutomata.Proofs.Regex.Template
import SubstitutionAutomata.Proofs.Render.Braille
import SubstitutionAutomata.Proofs.Text.Lines
import SubstitutionAutomata.Proofs.Text.Rows
import SubstitutionAutomata.Regex.Basic
import SubstitutionAutomata.Regex.Match
import SubstitutionAutomata.Regex.Parser
import SubstitutionAutomata.Regex.Printer
import SubstitutionAutomata.Regex.Substitution
import SubstitutionAutomata.Regex.Template
import SubstitutionAutomata.Regex.Token
import SubstitutionAutomata.Render.Gif
import SubstitutionAutomata.Render.Glyph
import SubstitutionAutomata.Render.Image
import SubstitutionAutomata.Text.Blank
import SubstitutionAutomata.Text.Digit
import SubstitutionAutomata.Text.Lines
import SubstitutionAutomata.Text.Numeral
import SubstitutionAutomata.Text.Printable
import SubstitutionAutomata.Text.Quoted
import SubstitutionAutomata.Text.Ranges
import SubstitutionAutomata.Text.Upper
import SubstitutionAutomata.Text.Utf8
import SubstitutionAutomata.Text.Word
