import CodeQuality.Retrieval.Assistant
import CodeQuality.Demonstration
import CodeQuality.Main
import CodeQuality.Proofs.Analysis.Ignored
import CodeQuality.Proofs.Analysis.LanguageOrder
import CodeQuality.Proofs.Retrieval.Searching
import CodeQuality.Proofs.Jobs.Lifecycle
import CodeQuality.Proofs.Archive.Simultaneous
import CodeQuality.Proofs.Survey.Dangers
import CodeQuality.Proofs.Symbols.Agreement
import CodeQuality.Proofs.Dependencies
import CodeQuality.Proofs.Symbols.Naming
import CodeQuality.Proofs.Text.Chunks
import CodeQuality.Proofs.Script.Functions
import CodeQuality.Proofs.Survey.Repetition
import CodeQuality.Proofs.Survey.Notes
import CodeQuality.Proofs.Script.WorkList
import CodeQuality.Proofs.Symbols.Brackets
import CodeQuality.Proofs.Dashboard
import CodeQuality.Proofs.LanguageModel.Recovery
import CodeQuality.Proofs.Report.Acceptance
import CodeQuality.Proofs.LanguageModel.Advice
import CodeQuality.Proofs.Report.Table
import CodeQuality.Proofs.Script.Constructs
