import UpgradeSafety.Comparison.Document
import UpgradeSafety.Comparison.Report
import UpgradeSafety.Compilation.Document
import UpgradeSafety.Compilation.SourceLocations
import UpgradeSafety.Extraction.StorageLayout
import UpgradeSafety.Manifest.Session
import UpgradeSafety.Proofs.TypeId.CanonicalTrees
import UpgradeSafety.Proofs.TypeId.ArrayLengths
import UpgradeSafety.Proofs.Extraction.Runs
import UpgradeSafety.Proofs.Tables
import UpgradeSafety.Proofs.Extraction.Annotations
import UpgradeSafety.Proofs.Extraction.Registered
import UpgradeSafety.Proofs.Extraction.Sized
import UpgradeSafety.Proofs.Extraction.Layouts
import UpgradeSafety.Proofs.Comparison.Accepted
import UpgradeSafety.Proofs.Comparison.Kinds
import UpgradeSafety.Proofs.Upgrades.Footprints
import UpgradeSafety.Proofs.Upgrades.Places
import UpgradeSafety.Proofs.Upgrades.Widths
import UpgradeSafety.Proofs.Extraction.Walks
import UpgradeSafety.Proofs.Extraction.Origins
import UpgradeSafety.Proofs.Comparison.References
import UpgradeSafety.Proofs.Comparison.Plain
import UpgradeSafety.Proofs.Comparison.Paths
import UpgradeSafety.Proofs.Comparison.Memory
import UpgradeSafety.Proofs.Comparison.Cycles
import UpgradeSafety.Proofs.Comparison.EditScripts
import UpgradeSafety.Proofs.Comparison.Silence
import UpgradeSafety.Proofs.Comparison.Unchanged
import UpgradeSafety.Proofs.Upgrades.Composition
import UpgradeSafety.Proofs.Upgrades.Appending
import UpgradeSafety.Proofs.TypeId.Renderings
import UpgradeSafety.Proofs.TypeId.Collisions
import UpgradeSafety.Proofs.Compilation.Renumbering
import UpgradeSafety.Proofs.Extraction.SideBySide
import UpgradeSafety.Proofs.Extraction.Renumbered
import UpgradeSafety.Proofs.TypeId.Pieces
import UpgradeSafety.Proofs.Compilation.Additions
import UpgradeSafety.Proofs.Extraction.Extended
import UpgradeSafety.Proofs.Upgrades.Unrelated
import UpgradeSafety.Proofs.Comparison.Leniency
import UpgradeSafety.Proofs.Extraction.Complete
import UpgradeSafety.Proofs.Extraction.Apart
import UpgradeSafety.Proofs.Packing.Placing
import UpgradeSafety.Proofs.Compilation.Occurrences
import UpgradeSafety.Proofs.Compilation.AppendedVariables
import UpgradeSafety.Proofs.Extraction.Depth
import UpgradeSafety.Proofs.Extraction.Refuelled
import UpgradeSafety.Proofs.Extraction.SizeRules
import UpgradeSafety.Proofs.Extraction.Prefixes
import UpgradeSafety.Proofs.Upgrades.GainedVariables
import UpgradeSafety.Proofs.Json.ReadBack
import UpgradeSafety.Proofs.Upgrades.ForgottenMembers
import UpgradeSafety.Proofs.Json.RoundTrips
import UpgradeSafety.Proofs.Manifest.Documents
import UpgradeSafety.Proofs.Manifest.SessionRuns
import UpgradeSafety.Proofs.Manifest.WrittenManifests
import UpgradeSafety.Proofs.Manifest.SupportedVersions
import UpgradeSafety.Proofs.Compilation.WrittenBack
import UpgradeSafety.Proofs.Compilation.Indexed
import UpgradeSafety.Proofs.Compilation.SourceLines
import UpgradeSafety.Proofs.Manifest.Plans
import UpgradeSafety.Proofs.Manifest.Tasks
import UpgradeSafety.Proofs.Manifest.Interleavings
import UpgradeSafety.Proofs.Manifest.SerialUpdates
import UpgradeSafety.Proofs.Manifest.CarriedOut
import UpgradeSafety.Proofs.Manifest.KeptLocks
import UpgradeSafety.Proofs.EditScript.Alignments
import UpgradeSafety.Proofs.Comparison.EnumMembers
import UpgradeSafety.Proofs.Packing.Arrays
import UpgradeSafety.Proofs.Packing.Nesting
import UpgradeSafety.Proofs.Packing.FirstFit
import UpgradeSafety.Proofs.Packing.LastSlot
import UpgradeSafety.Proofs.Packing.Machine
import UpgradeSafety.Proofs.Extraction.Faultless
import UpgradeSafety.Proofs.Extraction.Mirrored
import UpgradeSafety.Proofs.Extraction.SizingCycles
import UpgradeSafety.Proofs.Extraction.Endings
import UpgradeSafety.Proofs.Extraction.SelfContaining
import UpgradeSafety.Proofs.TypeId.LookAhead
import UpgradeSafety.Proofs.TypeId.Bytes
import UpgradeSafety.Proofs.Extraction.Unremembered
import UpgradeSafety.Proofs.Extraction.LeftoverOrders
import UpgradeSafety.Proofs.Manifest.Addresses
