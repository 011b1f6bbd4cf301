import ReportFlow.Catalog
import ReportFlow.Command.FileTree
import ReportFlow.Main
import ReportFlow.Store.Memory
import ReportFlow.Proofs.Sequencing
import ReportFlow.Proofs.Placement
import ReportFlow.Proofs.CanonicalForm
import ReportFlow.Proofs.ReopenedGraph
import ReportFlow.Proofs.RoundTrip
import ReportFlow.Proofs.Convergence
import ReportFlow.Proofs.UneditedSave
import ReportFlow.Proofs.CycleSearch
import ReportFlow.Proofs.StructuralVerdict
import ReportFlow.Proofs.NewReports
import ReportFlow.Proofs.RecordVerdicts
import ReportFlow.Proofs.KeyedEntries
import ReportFlow.Proofs.JsonNesting
import ReportFlow.Proofs.JsonText
import ReportFlow.Proofs.CodecLaws
import ReportFlow.Proofs.RecordLaws
import ReportFlow.Proofs.DefinitionCodec
import ReportFlow.Proofs.FlowCodec
import ReportFlow.Proofs.ObtainedReports
import ReportFlow.Proofs.WrittenDefinitions
import ReportFlow.Proofs.FileNames
import ReportFlow.Proofs.DirectoryCalls
import ReportFlow.Proofs.DirectoryMirror
import ReportFlow.Proofs.Reload
import ReportFlow.Proofs.DurableDeletion
import ReportFlow.Proofs.StoreReload
import ReportFlow.Proofs.ImportedRecords
import ReportFlow.Proofs.BundleReload
import ReportFlow.Proofs.TwinStores
import ReportFlow.Proofs.LibraryCommands
import ReportFlow.Proofs.ByteOrder
import ReportFlow.Proofs.StoreHistories
import ReportFlow.Proofs.EditingHistories
import ReportFlow.Proofs.BrokenLinks
import ReportFlow.Proofs.CanvasIntegrity
import ReportFlow.Proofs.LayoutGrid
import ReportFlow.Proofs.CompileHints
import ReportFlow.Proofs.Separation
import ReportFlow.Proofs.ForeignFiles
import ReportFlow.Proofs.FileConfinement
import ReportFlow.Proofs.CanvasConversion
import ReportFlow.Proofs.FlowChanges
import ReportFlow.Proofs.LiteralSearch
import ReportFlow.Proofs.Captions
import ReportFlow.Proofs.LibraryCounts
import ReportFlow.Proofs.EdgeNames
import ReportFlow.Proofs.ReadableValues
import ReportFlow.Proofs.ImportedEntity
import ReportFlow.Proofs.SearchWork
import ReportFlow.Proofs.RowCaps
import ReportFlow.Proofs.MintedIds
