import IntervalRules.Binary64.Word
import IntervalRules.Command.Output
import IntervalRules.Main
import IntervalRules.Session
import IntervalRules.Token.Reader
import IntervalRules.Proofs.Grammar
import IntervalRules.Proofs.Items
import IntervalRules.Proofs.ViablePrefix
import IntervalRules.Proofs.Phrases
import IntervalRules.Proofs.Stops
import IntervalRules.Proofs.Acceptance
import IntervalRules.Proofs.Faults
import IntervalRules.Proofs.Splitting
import IntervalRules.Proofs.DigitRuns
import IntervalRules.Proofs.NumberGrammar
import IntervalRules.Proofs.NumberForm
import IntervalRules.Proofs.DecimalReading
import IntervalRules.Proofs.NumberScan
import IntervalRules.Proofs.NumberToken
import IntervalRules.Proofs.PlainText
import IntervalRules.Proofs.Spelling
import IntervalRules.Proofs.Display
import IntervalRules.Proofs.Trivia
import IntervalRules.Proofs.Lexemes
import IntervalRules.Proofs.ErrorSpans
import IntervalRules.Proofs.Cover
import IntervalRules.Proofs.Relocation
import IntervalRules.Proofs.ParseRelocation
import IntervalRules.Proofs.Reading
import IntervalRules.Proofs.Joining
import IntervalRules.Proofs.InsertedTrivia
import IntervalRules.Proofs.DigitFolds
import IntervalRules.Proofs.IntegerSpellings
import IntervalRules.Proofs.Verdicts
import IntervalRules.Proofs.Commands
import IntervalRules.Proofs.FaultyRules
import IntervalRules.Proofs.Lineage
import IntervalRules.Proofs.Trimming
import IntervalRules.Proofs.RangeRules
import IntervalRules.Proofs.InputLines
import IntervalRules.Proofs.JsonText
import IntervalRules.Proofs.ExitStatus
import IntervalRules.Proofs.Slices
import IntervalRules.Proofs.Positions
import IntervalRules.Proofs.RoundingError
import IntervalRules.Proofs.PowersOfTen
import IntervalRules.Proofs.NumberValue
import IntervalRules.Proofs.NumberText
import IntervalRules.Proofs.StepUnits
import IntervalRules.Proofs.StepParameters
import IntervalRules.Proofs.CountedPlaces
import IntervalRules.Proofs.StepMultiples
import IntervalRules.Proofs.WrittenClauses
import IntervalRules.Proofs.BoundRules
import IntervalRules.Proofs.Placeholders
import IntervalRules.Proofs.WrittenSpecs
import IntervalRules.Proofs.KeptMessages
import IntervalRules.Proofs.Numerals
import IntervalRules.Proofs.Carets
import IntervalRules.Proofs.JsonReading
import IntervalRules.Proofs.CheckOutputs
import IntervalRules.Proofs.Patterns
import IntervalRules.Proofs.EmailAddresses
import IntervalRules.Proofs.UrlPattern
import IntervalRules.Proofs.UrlBlanks
import IntervalRules.Proofs.TrailingTrivia
import IntervalRules.Proofs.FedValues
import IntervalRules.Proofs.SuccessiveDays
import IntervalRules.Proofs.WrittenDays
import IntervalRules.Proofs.RestOfText
import IntervalRules.Proofs.ValuesOfText
import IntervalRules.Proofs.NumberEnds
