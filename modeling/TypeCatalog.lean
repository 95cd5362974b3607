import TypeCatalog.Text.Lower
import TypeCatalog.Text.Word
import TypeCatalog.Text.Escape
import TypeCatalog.Number.Decimal
import TypeCatalog.Definition.Basic
import TypeCatalog.Source.Cursor
import TypeCatalog.Source.Demand
import TypeCatalog.Source.Parse
import TypeCatalog.Json.Read
import TypeCatalog.Json.Write
import TypeCatalog.Predefined
import TypeCatalog.Normal.Normalize
import TypeCatalog.Yaml.Scalar
import TypeCatalog.Yaml.Write
import TypeCatalog.Yaml.Read
import TypeCatalog.Library
import TypeCatalog.Command.Run
import TypeCatalog.Main
import TypeCatalog.Proofs.Attempts
import TypeCatalog.Proofs.SourceVerdicts
import TypeCatalog.Proofs.SourceWellFormed
import TypeCatalog.Proofs.SourceCompleteness
import TypeCatalog.Proofs.RegistryLookup
import TypeCatalog.Proofs.RegistryRebuild
import TypeCatalog.Proofs.NameLetters
import TypeCatalog.Proofs.RegistryPrecedence
import TypeCatalog.Proofs.CatalogueFeedback
import TypeCatalog.Proofs.JsonRoundTrip
import TypeCatalog.Proofs.Sorting
import TypeCatalog.Proofs.ItemNumbers
import TypeCatalog.Proofs.SourceLocality
import TypeCatalog.Proofs.NormalizationLimits
import TypeCatalog.Proofs.SourceFrames
import TypeCatalog.Proofs.SourceComposition
import TypeCatalog.Proofs.ObjectFields
import TypeCatalog.Proofs.DraftRoundTrip
import TypeCatalog.Proofs.TypeForms
import TypeCatalog.Proofs.TableScope
import TypeCatalog.Proofs.SchemaKeywords
import TypeCatalog.Proofs.ConfigurationSafety
import TypeCatalog.Proofs.DataParts
import TypeCatalog.Proofs.NumberedItems
import TypeCatalog.Proofs.Skeletons
import TypeCatalog.Proofs.SpanOrder
import TypeCatalog.Proofs.ReservedSentence
import TypeCatalog.Proofs.DocumentedSplit
import TypeCatalog.Proofs.WrittenParts
import TypeCatalog.Proofs.RecordContents
import TypeCatalog.Proofs.RecordValidity
import TypeCatalog.Proofs.Lookups
import TypeCatalog.Proofs.SchemaRepositories
import TypeCatalog.Proofs.FileWrites
import TypeCatalog.Proofs.DocumentWrites
import TypeCatalog.Proofs.MarkedData
import TypeCatalog.Proofs.DistinctKeys
import TypeCatalog.Proofs.SharedParts
import TypeCatalog.Proofs.CommandOutcome
import TypeCatalog.Proofs.RegistryContents
import TypeCatalog.Proofs.NameHyphens
import TypeCatalog.Proofs.NameWords
import TypeCatalog.Proofs.EntryNames
import TypeCatalog.Proofs.NumberedNames
import TypeCatalog.Proofs.SkippedRuns
import TypeCatalog.Proofs.CursorTurns
import TypeCatalog.Proofs.EncodingRefusals
import TypeCatalog.Proofs.PredefinedRecords
