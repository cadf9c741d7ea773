import ParamSweep.Dict.Lemmas
import ParamSweep.Group
import ParamSweep.KeyPolicy.Json
import ParamSweep.Label.Varied
import ParamSweep.Param.Tagged
import ParamSweep.Proofs.Marks
import ParamSweep.Proofs.SelectorText
import ParamSweep.Search.Report
import ParamSweep.Selector.Json
import ParamSweep.Sweep
import ParamSweep.Proofs.Combinations
import ParamSweep.Proofs.TokenText
import ParamSweep.Proofs.ExpansionRecord
import ParamSweep.Proofs.PlainTokens
import ParamSweep.Proofs.Faults
import ParamSweep.Proofs.SelectorTokens
import ParamSweep.Proofs.GroupNumbering
import ParamSweep.Proofs.SourceRoundTrip
import ParamSweep.Proofs.KeyRenaming
import ParamSweep.Proofs.StrictKeys
import ParamSweep.Proofs.GroupingModes
import ParamSweep.Proofs.JoinedTokens
import ParamSweep.Proofs.Brackets
import ParamSweep.Proofs.OptionTexts
import ParamSweep.Proofs.ValueTexts
import ParamSweep.Proofs.DeclaredOptions
import ParamSweep.Proofs.LabelTexts
import ParamSweep.Proofs.LabelRoundTrip
import ParamSweep.Proofs.VariedLabels
import ParamSweep.Proofs.DeclarationScope
import ParamSweep.Proofs.TokenIndependence
import ParamSweep.Proofs.PartitionLevels
import ParamSweep.Proofs.PartitionMerge
import ParamSweep.Proofs.PartitionDefaults
import ParamSweep.Proofs.ScoreRecording
import ParamSweep.Proofs.StrictGate
import ParamSweep.Proofs.AxisOrder
import ParamSweep.Proofs.CarriedOptions
import ParamSweep.Proofs.SweepRepeats
import ParamSweep.Proofs.CombinationPositions
import ParamSweep.Proofs.GridProjection
import ParamSweep.Proofs.SlicedSweeps
import ParamSweep.Proofs.BracketOutline
import ParamSweep.Proofs.CastStability
import ParamSweep.Proofs.OptionPieces
import ParamSweep.Proofs.BracketKinds
import ParamSweep.Proofs.OptionRoundTrip
import ParamSweep.Proofs.SelectorRoundTrip
import ParamSweep.Proofs.TokenGrammar
import ParamSweep.Proofs.SelectedPositions
import ParamSweep.Proofs.LineWrapping
import ParamSweep.Proofs.SweepLabels
import ParamSweep.Proofs.OptionOrder
import ParamSweep.Proofs.RankOrder
import ParamSweep.Proofs.DimensionGroups
import ParamSweep.Proofs.FlagLabels
import ParamSweep.Proofs.CompletedLabels
import ParamSweep.Proofs.JsonRoundTrip
import ParamSweep.Proofs.SegmentCalls
