import AuroraMigration.Main
import AuroraMigration.Proofs.Lookahead
import AuroraMigration.Proofs.Trace
import AuroraMigration.Proofs.Regions
import AuroraMigration.Proofs.Lexeme
import AuroraMigration.Proofs.Thinning
import AuroraMigration.Proofs.Lines
import AuroraMigration.Proofs.Fragment
import AuroraMigration.Proofs.Pieces
import AuroraMigration.Proofs.Recognition
import AuroraMigration.Proofs.Splitting
import AuroraMigration.Proofs.Closed
import AuroraMigration.Proofs.Index
import AuroraMigration.Proofs.TableName
import AuroraMigration.Proofs.Clauses
import AuroraMigration.Proofs.AlterTable
import AuroraMigration.Proofs.Adaptation
import AuroraMigration.Proofs.ClauseFilter
import AuroraMigration.Proofs.Script
import AuroraMigration.Proofs.Transactions
import AuroraMigration.Proofs.Preservation
import AuroraMigration.Proofs.Keywords
import AuroraMigration.Proofs.OpenEnd
import AuroraMigration.Proofs.SplitAgain
import AuroraMigration.Proofs.Retransform
import AuroraMigration.Proofs.Concatenation
import AuroraMigration.Proofs.QuotedText
import AuroraMigration.Proofs.Accounting
import AuroraMigration.Proofs.ClauseOrder
import AuroraMigration.Proofs.UnsupportedEntries
import AuroraMigration.Proofs.Markers
import AuroraMigration.Proofs.MarkerPlaces
import AuroraMigration.Proofs.Files
import AuroraMigration.Proofs.SecondPass
import AuroraMigration.Proofs.Outline
import AuroraMigration.Proofs.YamlScalar
import AuroraMigration.Proofs.YamlFold
import AuroraMigration.Proofs.YamlMapping
import AuroraMigration.Proofs.ConfigFile
import AuroraMigration.Proofs.Terminator
import AuroraMigration.Proofs.LastToken
import AuroraMigration.Proofs.QuotedName
import AuroraMigration.Proofs.Calendar
import AuroraMigration.Proofs.Timestamp
import AuroraMigration.Proofs.Printing
import AuroraMigration.Proofs.CommandLine
import AuroraMigration.Proofs.ScriptPath
import AuroraMigration.Proofs.Pattern
import AuroraMigration.Proofs.SchemaReport
import AuroraMigration.Proofs.Places
import AuroraMigration.Proofs.TokenPlaces
import AuroraMigration.Proofs.CommaParts
import AuroraMigration.Proofs.Counters
