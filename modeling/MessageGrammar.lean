import MessageGrammar.Span
import MessageGrammar.Text.Blank
import MessageGrammar.Text.Lowercase
import MessageGrammar.Text.Quoted
import MessageGrammar.Decimal.Layout
import MessageGrammar.Decimal.Literal
import MessageGrammar.Json
import MessageGrammar.Token.Lexer
import MessageGrammar.Enumeration
import MessageGrammar.Grammar.Derivation
import MessageGrammar.Grammar.Builtin
import MessageGrammar.Grammar.Printer
import MessageGrammar.Outcome
import MessageGrammar.Notation.Compilation
import MessageGrammar.Message
import MessageGrammar.Config.Settings
import MessageGrammar.CommandLine.Report
import MessageGrammar.Main
import MessageGrammar.Proofs.Unrolling
import MessageGrammar.Proofs.Positions
import MessageGrammar.Proofs.Iteration
import MessageGrammar.Proofs.AbsolutePositions
import MessageGrammar.Proofs.Equivalence
import MessageGrammar.Proofs.RepetitionCounts
import MessageGrammar.Proofs.Selection
import MessageGrammar.Proofs.Derivability
import MessageGrammar.Proofs.Coverage
import MessageGrammar.Proofs.RepetitionRanges
import MessageGrammar.Proofs.NotationRules
import MessageGrammar.Proofs.Replies
import MessageGrammar.Proofs.NotationSoundness
import MessageGrammar.Proofs.NotationReading
import MessageGrammar.Proofs.Recognition
import MessageGrammar.Proofs.WrittenGrammars
import MessageGrammar.Proofs.WellFormedGrammars
import MessageGrammar.Proofs.Scanning
import MessageGrammar.Proofs.PrintedNotation
import MessageGrammar.Proofs.Lexemes
import MessageGrammar.Proofs.Factorization
import MessageGrammar.Proofs.Passages
import MessageGrammar.Proofs.LongerMessages
import MessageGrammar.Proofs.KeptTokens
import MessageGrammar.Proofs.Kinds
import MessageGrammar.Proofs.SearchBounds
import MessageGrammar.Proofs.Tags
import MessageGrammar.Proofs.OutcomesByPart
import MessageGrammar.Proofs.Alternations
import MessageGrammar.Proofs.Demographics
import MessageGrammar.Proofs.Provenance
import MessageGrammar.Proofs.Agreement
import MessageGrammar.Proofs.Sieves
import MessageGrammar.Proofs.DiagnosticPositions
import MessageGrammar.Proofs.SeparatedTexts
import MessageGrammar.Proofs.Rejections
import MessageGrammar.Proofs.Offenders
import MessageGrammar.Proofs.BegunTexts
import MessageGrammar.Proofs.ConfiguredGrammars
import MessageGrammar.Proofs.JsonTexts
