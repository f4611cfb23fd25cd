import EnumForge.Main
import EnumForge.Proofs.DeclarationOrder
import EnumForge.Proofs.Acceptance
import EnumForge.Proofs.DeclaredConstants
import EnumForge.Proofs.LookupTables
import EnumForge.Proofs.Lines
import EnumForge.Proofs.Reading
import EnumForge.Proofs.LiteralReading
import EnumForge.Proofs.Rendering
import EnumForge.Proofs.EnumeratorList
import EnumForge.Proofs.SourceReading
import EnumForge.Proofs.SourceTables
import EnumForge.Proofs.NameSearch
import EnumForge.Proofs.OutputPaths
import EnumForge.Proofs.FileCollisions
import EnumForge.Proofs.BareNames
import EnumForge.Proofs.Places
import EnumForge.Proofs.Staging
import EnumForge.Proofs.Publishing
import EnumForge.Proofs.PublishedBatch
import EnumForge.Proofs.BatchReports
import EnumForge.Proofs.Obstacles
import EnumForge.Proofs.CommandAgreement
import EnumForge.Proofs.FailureLines
import EnumForge.Proofs.FileDependence
import EnumForge.Proofs.EntryOrder
import EnumForge.Proofs.LexicalForm
import EnumForge.Proofs.RoundTrip
import EnumForge.Proofs.DerivedNames
import EnumForge.Proofs.DeclaredTypes
import EnumForge.Proofs.NameHiding
import EnumForge.Proofs.StorageTypes
import EnumForge.Proofs.Refusal
import EnumForge.Proofs.Literals
import EnumForge.Proofs.GuardSpelling
import EnumForge.Proofs.PublishedPair
import EnumForge.Proofs.TemporaryFiles
import EnumForge.Proofs.CallerCode
import EnumForge.Proofs.WholeDocuments
import EnumForge.Proofs.ScopeSpellings
import EnumForge.Proofs.IncludeLines
import EnumForge.Proofs.CodePointOrder
import EnumForge.Proofs.Composition
