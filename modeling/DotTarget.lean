import DotTarget.Json.Decode
import DotTarget.Main
import DotTarget.Proofs.Document.EditSplice
import DotTarget.Proofs.Lexical.EnclosingOpener
import DotTarget.Proofs.Lexical.PostfixChain
import DotTarget.Proofs.Lexical.ScanCaps
import DotTarget.Proofs.Lexical.ScanSafety
import DotTarget.Proofs.Session.CacheHistory
import DotTarget.Proofs.Session.HistoryIndependence
import DotTarget.Proofs.Session.ResolveFrame
import DotTarget.Proofs.Session.Strategies
import DotTarget.Proofs.Session.TypedWord
import DotTarget.Proofs.Session.ValidTargets
import DotTarget.Proofs.Tree.OutermostNode
import DotTarget.Proofs.Lexical.AtomGrammar
import DotTarget.Proofs.Lexical.AtomStart
import DotTarget.Proofs.Lexical.LiteralOpacity
import DotTarget.Proofs.Lexical.KeywordLiteral
import DotTarget.Proofs.Lexical.StepCases
import DotTarget.Proofs.Lexical.MemberReceiver
import DotTarget.Proofs.Lexical.CommentReading
import DotTarget.Proofs.Lexical.CutRows
import DotTarget.Proofs.Lexical.ByteLookBehind
import DotTarget.Proofs.Lexical.SteadyMatcher
import DotTarget.Proofs.Lexical.MatcherRuns
import DotTarget.Proofs.Lexical.SearchJournal
import DotTarget.Proofs.Lexical.GroupCloser
import DotTarget.Proofs.Lexical.AcceptedPairs
import DotTarget.Proofs.Completion.TriggerSearch
import DotTarget.Proofs.Completion.TypedNames
import DotTarget.Proofs.Completion.AliasSearch
import DotTarget.Proofs.Completion.AliasNames
import DotTarget.Proofs.Cli.CursorNotation
import DotTarget.Proofs.Tree.DumpRows
