import CandleHistory.Main
import CandleHistory.Json.Reader
import CandleHistory.Proofs.Completeness
import CandleHistory.Proofs.AllOrNothing
import CandleHistory.Proofs.Retries
import CandleHistory.Proofs.Cancellation
import CandleHistory.Proofs.FailingChunks
import CandleHistory.Proofs.Replies
import CandleHistory.Proofs.Invariance
import CandleHistory.Proofs.Pacing
import CandleHistory.Proofs.AcceptedDates
import CandleHistory.Proofs.Served
import CandleHistory.Proofs.Unannounced
import CandleHistory.Proofs.ServedSeries
import CandleHistory.Proofs.PrintableCandles
import CandleHistory.Proofs.ExitStatus
import CandleHistory.Proofs.PlannedCalls
import CandleHistory.Proofs.Truncation
import CandleHistory.Proofs.RepeatedRequests
import CandleHistory.Proofs.MonthBars
import CandleHistory.Proofs.SideBySide
import CandleHistory.Proofs.PageOrder
import CandleHistory.Proofs.Sessions
import CandleHistory.Proofs.UpperCase
import CandleHistory.Proofs.Validation
import CandleHistory.Proofs.BarCounts
import CandleHistory.Proofs.RunningRecords
import CandleHistory.Proofs.SpacingLaw
import CandleHistory.Proofs.FailingSinks
import CandleHistory.Proofs.Midnights
import CandleHistory.Proofs.DecimalText
import CandleHistory.Proofs.RowOutcomes
import CandleHistory.Proofs.WrittenRows
import CandleHistory.Proofs.DateGrammar
import CandleHistory.Proofs.DoubleGrid
import CandleHistory.Proofs.ReadBackInterval
import CandleHistory.Proofs.ScientificValues
import CandleHistory.Proofs.ShortestDigits
import CandleHistory.Proofs.NearestDecimal
import CandleHistory.Proofs.DoubleNumerals
import CandleHistory.Proofs.EventDocuments
import CandleHistory.Proofs.ModerateAmounts
import CandleHistory.Proofs.CivilDates
import CandleHistory.Proofs.PrintedTimes
import CandleHistory.Proofs.FixedNumerals
import CandleHistory.Proofs.LinesAndWords
import CandleHistory.Proofs.TableText
import CandleHistory.Proofs.JsonGrammar
import CandleHistory.Proofs.JsonScanning
import CandleHistory.Proofs.JsonDocuments
import CandleHistory.Proofs.EventLines
import CandleHistory.Proofs.OrderedAmounts
import CandleHistory.Proofs.MillisRoundTrip
import CandleHistory.Proofs.EndpointInUse
