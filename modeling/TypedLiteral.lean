import TypedLiteral.Extraction
import TypedLiteral.Proofs.Balance
import TypedLiteral.Proofs.TokenSequence
import TypedLiteral.Proofs.Division
import TypedLiteral.Proofs.InOrder
import TypedLiteral.Proofs.CollectionType
import TypedLiteral.Proofs.CollectionGrammar
import TypedLiteral.Proofs.ValueIdentity
import TypedLiteral.Proofs.SetEquality
import TypedLiteral.Proofs.Nesting
import TypedLiteral.Proofs.Numerals
import TypedLiteral.Proofs.SequenceGrammar
import TypedLiteral.Proofs.SequenceSteps
import TypedLiteral.Proofs.SequenceReading
import TypedLiteral.Proofs.SequenceFaults
import TypedLiteral.Proofs.UnboundedSequence
import TypedLiteral.Proofs.SequenceStates
import TypedLiteral.Proofs.RoundTrip
import TypedLiteral.Proofs.BreadthFirst
import TypedLiteral.Proofs.Segments
import TypedLiteral.Proofs.TokenModes
import TypedLiteral.Proofs.BracketFailure
import TypedLiteral.Proofs.Conformance
import TypedLiteral.Proofs.CollectionForms
import TypedLiteral.Proofs.LimitOrder
import TypedLiteral.Proofs.Fragments
import TypedLiteral.Proofs.DecimalText
import TypedLiteral.Proofs.Rounding
import TypedLiteral.Proofs.DoubleText
import TypedLiteral.Proofs.ScalarRoundTrip
import TypedLiteral.Proofs.SingleElement
import TypedLiteral.Proofs.StreamSteps
import TypedLiteral.Proofs.Likeness
import TypedLiteral.Proofs.RegexLanguage
import TypedLiteral.Proofs.RegexReading
import TypedLiteral.Proofs.RenderedPattern
import TypedLiteral.Proofs.SequencePattern
import TypedLiteral.Proofs.NestingLimit
import TypedLiteral.Proofs.OuterBrackets
import TypedLiteral.Proofs.ScalarPattern
import TypedLiteral.Proofs.ExtractedOrder
import TypedLiteral.Proofs.ScalarExtraction
import TypedLiteral.Proofs.SequenceExtraction
import TypedLiteral.Proofs.TypeNames
import TypedLiteral.Proofs.InnermostType
import TypedLiteral.Proofs.DeclarationReach
import TypedLiteral.Proofs.DisplayedTypes
import TypedLiteral.Proofs.NearestDouble
import TypedLiteral.Proofs.ShortestDouble
import TypedLiteral.Proofs.FiniteDoubles
