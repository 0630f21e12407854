import DrillPost.Text.Pieces
import DrillPost.Text.Utf8
import DrillPost.Number.Style
import DrillPost.Excellon.Action
import DrillPost.Conversion.Run
import DrillPost.Files.Disk
import DrillPost.Conversion.File
import DrillPost.Json.Reader
import DrillPost.Json.Printer
import DrillPost.Toml.Reader
import DrillPost.Settings.Store
import DrillPost.Console.Run
import DrillPost.Main
import DrillPost.Proofs.Text.Separation
import DrillPost.Proofs.Text.Decoding
import DrillPost.Proofs.Text.Blanking
import DrillPost.Proofs.Text.Closed
import DrillPost.Proofs.Text.Runs
import DrillPost.Proofs.Text.Trimming
import DrillPost.Proofs.Text.Letters
import DrillPost.Proofs.Number.Digits
import DrillPost.Proofs.Number.Value
import DrillPost.Proofs.Number.Rounding
import DrillPost.Proofs.Number.Shortest
import DrillPost.Proofs.Number.Nearest
import DrillPost.Proofs.Number.Length
import DrillPost.Proofs.Number.Short
import DrillPost.Proofs.Number.Lowest
import DrillPost.Proofs.Number.Places
import DrillPost.Proofs.Files.Disk
import DrillPost.Proofs.Json.Numerals
import DrillPost.Proofs.Json.Written
import DrillPost.Proofs.Settings.Validation
import DrillPost.Proofs.Settings.Store
import DrillPost.Proofs.Excellon.Action
import DrillPost.Proofs.Excellon.Integer
import DrillPost.Proofs.Excellon.Field
import DrillPost.Proofs.Excellon.Grammar
import DrillPost.Proofs.Gcode.Words
import DrillPost.Proofs.Gcode.Number
import DrillPost.Proofs.Gcode.Reading
import DrillPost.Proofs.Gcode.Numbering
import DrillPost.Proofs.Gcode.Comments
import DrillPost.Proofs.Gcode.Diagnostics
import DrillPost.Proofs.Gcode.Modes
import DrillPost.Proofs.Gcode.Coordinates
import DrillPost.Proofs.Gcode.Grammar
import DrillPost.Proofs.Gcode.Erasure
import DrillPost.Proofs.Gcode.Places
import DrillPost.Proofs.Gcode.Fidelity
import DrillPost.Proofs.Conversion.History
import DrillPost.Proofs.Conversion.Joined
import DrillPost.Proofs.Conversion.LineByLine
import DrillPost.Proofs.Conversion.State
import DrillPost.Proofs.Conversion.Warnings
import DrillPost.Proofs.Conversion.Reading
import DrillPost.Proofs.Conversion.Holes
import DrillPost.Proofs.Conversion.Cycles
import DrillPost.Proofs.Conversion.Modes
import DrillPost.Proofs.Conversion.Heights
import DrillPost.Proofs.Conversion.WellFormed
import DrillPost.Proofs.Conversion.Numbering
import DrillPost.Proofs.Conversion.Comments
import DrillPost.Proofs.Conversion.Diagnostics
import DrillPost.Proofs.Conversion.Blanking
import DrillPost.Proofs.Conversion.Counts
import DrillPost.Proofs.Conversion.Streams
import DrillPost.Proofs.Conversion.Files
import DrillPost.Proofs.Conversion.Interruption
import DrillPost.Proofs.Conversion.Parts
import DrillPost.Proofs.Conversion.Layout
import DrillPost.Proofs.Conversion.Strictness
import DrillPost.Proofs.Conversion.Independence
import DrillPost.Proofs.Conversion.Rules
import DrillPost.Proofs.Console.Run
import DrillPost.Proofs.Files.Directories
import DrillPost.Proofs.Files.Growth
import DrillPost.Proofs.Files.Trees
import DrillPost.Proofs.Json.Documents
import DrillPost.Proofs.Settings.Documents
import DrillPost.Proofs.Settings.Saving
import DrillPost.Proofs.Conversion.LetterCase
import DrillPost.Proofs.Settings.Intact
import DrillPost.Proofs.Toml.Sections
import DrillPost.Proofs.Settings.Overlays
import DrillPost.Proofs.Settings.Partial
import DrillPost.Proofs.Pattern.Reading
import DrillPost.Proofs.Log.Directives
import DrillPost.Proofs.Log.Filters
