import Lugha.CommandLine
import Lugha.Eval
import Lugha.Json.Reader
import Lugha.Main
import Lugha.Parser.Program
import Lugha.Program.Outline
import Lugha.Proofs.CallDepth
import Lugha.Proofs.Composition
import Lugha.Proofs.Data
import Lugha.Proofs.Limits
import Lugha.Proofs.Reporting
import Lugha.Proofs.Soundness
import Lugha.Report.Json
import Lugha.Value.Inspect
import Lugha.Proofs.Layout
import Lugha.Proofs.Scanning
import Lugha.Proofs.Signals
import Lugha.Proofs.Abreast
import Lugha.Proofs.Uniformity
import Lugha.Proofs.Printing
import Lugha.Proofs.Completeness
import Lugha.Proofs.Concatenation
import Lugha.Proofs.Places
import Lugha.Proofs.Conversation
import Lugha.Proofs.Bookkeeping
import Lugha.Proofs.Hoisting
import Lugha.Proofs.Reformatting
import Lugha.Proofs.Termination
import Lugha.Proofs.ScopeNames
import Lugha.Proofs.Parentheses
import Lugha.Proofs.Recovery
import Lugha.Proofs.Brackets
import Lugha.Proofs.JsonText
import Lugha.Proofs.ReportText
import Lugha.Proofs.Coordinates
import Lugha.Proofs.Tiling
import Lugha.Proofs.TokenOrder
import Lugha.Proofs.Located
import Lugha.Proofs.LocatedParser
import Lugha.Proofs.ByteOrder
import Lugha.Proofs.SharedScopes
import Lugha.Proofs.LoopStates
import Lugha.Proofs.ScopeDepth
import Lugha.Proofs.IndexedParser
import Lugha.Proofs.ParserProgress
import Lugha.Proofs.Lexemes
import Lugha.Proofs.Confinement
import Lugha.Proofs.Lines
import Lugha.Proofs.ErrorPlaces
import Lugha.Proofs.ByteLexer
import Lugha.Proofs.ByteReading
import Lugha.Proofs.Quotations
import Lugha.Proofs.ConditionalDepth
import Lugha.Proofs.Rejections
import Lugha.Proofs.ErrorHistory
import Lugha.Proofs.LineStarts
import Lugha.Proofs.LineGroups
import Lugha.Proofs.ErrorBudget
import Lugha.Proofs.ErrorExcess
