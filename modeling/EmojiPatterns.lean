import EmojiPatterns.Pattern
import EmojiPatterns.SequenceData
import EmojiPatterns.Proofs.LoopOrder
import EmojiPatterns.Proofs.Places
import EmojiPatterns.Proofs.FragmentWords
import EmojiPatterns.Proofs.Steps
import EmojiPatterns.Proofs.OrderedMatching
import EmojiPatterns.Proofs.Language
import EmojiPatterns.Proofs.Agreement
import EmojiPatterns.Proofs.ClassMembers
import EmojiPatterns.Proofs.Listings
import EmojiPatterns.Proofs.Lockstep
import EmojiPatterns.Proofs.MemberSearch
import EmojiPatterns.Proofs.Splicing
import EmojiPatterns.Proofs.Iteration
import EmojiPatterns.Proofs.Grammar
import EmojiPatterns.Proofs.Spelling
import EmojiPatterns.Proofs.Stages
import EmojiPatterns.Proofs.Completeness
import EmojiPatterns.Proofs.Soundness
import EmojiPatterns.Proofs.Composition
import EmojiPatterns.Proofs.StackedSigns
import EmojiPatterns.Proofs.Unrolling
import EmojiPatterns.Proofs.CanonicalClasses
import EmojiPatterns.Proofs.RangeSplices
import EmojiPatterns.Proofs.ClassHistories
import EmojiPatterns.Proofs.TableHistories
import EmojiPatterns.Proofs.Faults
import EmojiPatterns.Proofs.EscapeScan
import EmojiPatterns.Proofs.TokenReferences
import EmojiPatterns.Proofs.PropertyRejections
import EmojiPatterns.Proofs.ErrorSpans
import EmojiPatterns.Proofs.Descent
import EmojiPatterns.Proofs.DescentReaders
import EmojiPatterns.Proofs.DescentAtoms
import EmojiPatterns.Proofs.DescentAgrees
import EmojiPatterns.Proofs.NamedSets
import EmojiPatterns.Proofs.TextLines
import EmojiPatterns.Proofs.CodePointFields
import EmojiPatterns.Proofs.LineRuns
import EmojiPatterns.Proofs.SoundLines
import EmojiPatterns.Proofs.LineArrangement
import EmojiPatterns.Proofs.WrittenNumerals
import EmojiPatterns.Proofs.WrittenData
import EmojiPatterns.Proofs.Boundaries
import EmojiPatterns.Proofs.MemberEnds
import EmojiPatterns.Proofs.GroupedAnchors
import EmojiPatterns.Proofs.Locality
import EmojiPatterns.Proofs.HexNumerals
import EmojiPatterns.Proofs.QuotedCharacters
import EmojiPatterns.Proofs.LiteralSearch
import EmojiPatterns.Proofs.ClassUnions
import EmojiPatterns.Proofs.CodePointNotation
import EmojiPatterns.Proofs.SingleCharacters
import EmojiPatterns.Proofs.LeafEnds
import EmojiPatterns.Proofs.SequenceOrder
import EmojiPatterns.Proofs.CanonicalSets
import EmojiPatterns.Proofs.VersionHeaders
import EmojiPatterns.Proofs.LoopRounds
import EmojiPatterns.Proofs.StackParts
import EmojiPatterns.Proofs.LineFormats
