import Coffer.Builder.Change
import Coffer.Builder.Definition
import Coffer.Main
import Coffer.Proofs.CompositeIndex
import Coffer.Proofs.Lookup
import Coffer.Proofs.RowByRow
import Coffer.Proofs.Snapshot
import Coffer.Proofs.UpdateInOrder
import Coffer.Proofs.Lexing
import Coffer.Proofs.Numeral
import Coffer.Proofs.Rounding
import Coffer.Proofs.Reading
import Coffer.Proofs.Readable
import Coffer.Proofs.ExpressionReading
import Coffer.Proofs.Spacing
import Coffer.Proofs.ReadableStatement
import Coffer.Proofs.SelectReading
import Coffer.Proofs.ChangeReading
import Coffer.Proofs.DefinitionReading
import Coffer.Proofs.StatementReading
import Coffer.Proofs.Finding
import Coffer.Proofs.FoundExpression
import Coffer.Proofs.FoundQuery
import Coffer.Proofs.FoundStatement
import Coffer.Proofs.Denial
import Coffer.Proofs.Transaction
import Coffer.Proofs.Defaults
import Coffer.Proofs.Kept
import Coffer.Proofs.KeptStore
import Coffer.Proofs.Reloading
import Coffer.Proofs.Legible
import Coffer.Proofs.Planned
import Coffer.Proofs.Bounding
import Coffer.Proofs.TableChange
import Coffer.Proofs.Numbering
import Coffer.Proofs.FreshNumber
import Coffer.Proofs.ResultLabels
import Coffer.Proofs.WrittenCall
import Coffer.Proofs.AggregateCalls
import Coffer.Proofs.Admission
import Coffer.Proofs.KnownRoles
import Coffer.Proofs.TokenEnds
import Coffer.Proofs.FilledText
import Coffer.Proofs.FilledReading
import Coffer.Proofs.Replacement
import Coffer.Proofs.FilledExpression
import Coffer.Proofs.FilledStatement
import Coffer.Proofs.BoundValues
import Coffer.Proofs.PlaceholderNumbers
import Coffer.Proofs.BuiltCondition
import Coffer.Proofs.BuiltQuery
import Coffer.Proofs.BuiltStatement
import Coffer.Proofs.AlteredTable
import Coffer.Proofs.QueryAnswer
import Coffer.Proofs.JoinedRows
import Coffer.Proofs.ExpandedCondition
import Coffer.Proofs.ExactSum
import Coffer.Proofs.SortOrder
import Coffer.Proofs.PatternPieces
import Coffer.Proofs.TokensTaken
import Coffer.Proofs.TokenSources
import Coffer.Proofs.EnclosedExpression
import Coffer.Proofs.SelectedRows
import Coffer.Proofs.LastNumber
import Coffer.Proofs.SelfAssignment
import Coffer.Proofs.KeyComparison
import Coffer.Proofs.CoercedNumber
import Coffer.Proofs.WrittenName
import Coffer.Proofs.GivingWay
import Coffer.Proofs.ReadPositions
import Coffer.Proofs.LineTokens
import Coffer.Proofs.ScriptItems
