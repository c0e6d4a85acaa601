import FilterClause.Clause.Loop
import FilterClause.Command.Output
import FilterClause.FieldMap.Pairs
import FilterClause.Json.Reader
import FilterClause.Main
import FilterClause.Program
import FilterClause.Proofs.Anchoring
import FilterClause.Proofs.BoundedOutput
import FilterClause.Proofs.Concatenation
import FilterClause.Proofs.ConditionRuns
import FilterClause.Proofs.DateTexts
import FilterClause.Proofs.DeclaredVariables
import FilterClause.Proofs.ExitCodes
import FilterClause.Proofs.GroupedTokens
import FilterClause.Proofs.JoinerWords
import FilterClause.Proofs.LeftToRight
import FilterClause.Proofs.Literals
import FilterClause.Proofs.LoggedRecords
import FilterClause.Proofs.LoopQuery
import FilterClause.Proofs.LoopText
import FilterClause.Proofs.NumberedNames
import FilterClause.Proofs.Obstacles
import FilterClause.Proofs.OperatorRuns
import FilterClause.Proofs.RoundTrip
import FilterClause.Proofs.SeparatedConditions
import FilterClause.Proofs.SettingPrecedence
