import SetecWizard.Library.Run
import SetecWizard.Library.Extent
import SetecWizard.Library.Ascending
import SetecWizard.Library.LittleEndian
import SetecWizard.Library.Footprint
import SetecWizard.Library.BlockChaining
import SetecWizard.Core.MbrPartitionTable
import SetecWizard.Mbr.Mutators
import SetecWizard.Core.GptPartitionTable
import SetecWizard.Core.PartitionTable
import SetecWizard.Mbr.Layout
import SetecWizard.Mbr.Chain
import SetecWizard.Mbr.Termination
import SetecWizard.Mbr.Parsing
import SetecWizard.Mbr.Indices
import SetecWizard.Mbr.Containment
import SetecWizard.Format.Integers
import SetecWizard.Format.Slots
import SetecWizard.Mbr.Placement
import SetecWizard.Gpt.Mutators
import SetecWizard.Gpt.Layout
import SetecWizard.Format.Sector
import SetecWizard.Gpt.EntryArray
import SetecWizard.Gpt.Header
import SetecWizard.Gpt.Placement
import SetecWizard.Gpt.RoundTrip
import SetecWizard.Gpt.Accesses
import SetecWizard.Core.RawDiskHandle
import SetecWizard.Core.PartitionOperations
import SetecWizard.Core.OperationQueue
import SetecWizard.Queue.Machine
import SetecWizard.Queue.Ledger
import SetecWizard.Queue.Runs
import SetecWizard.Queue.Applied
import SetecWizard.Queue.Undo
import SetecWizard.Operations.Transfer
import SetecWizard.Operations.Detection
import SetecWizard.Operations.Execution
import SetecWizard.Operations.QueueRun
import SetecWizard.Operations.GptWrite
import SetecWizard.Operations.Rereading
import SetecWizard.Operations.MbrRewrite
import SetecWizard.Operations.GptRewrite
import SetecWizard.Operations.Inversion
import SetecWizard.Operations.MbrEdits
import SetecWizard.Core.EncryptedVault
import SetecWizard.Vault.Ciphers
import SetecWizard.Vault.RoundTrip
import SetecWizard.Core.VaultMounts
import SetecWizard.Vault.Mounts
import SetecWizard.Vault.Writes
import SetecWizard.Operations.CreateUndo
import SetecWizard.Operations.Overlay
import SetecWizard.Operations.ResizeUndo
import SetecWizard.Operations.FlagsUndo
import SetecWizard.Boot.Verification
import SetecWizard.Vault.KeyFile
import SetecWizard.Vault.PasswordChange
import SetecWizard.Vault.ChangeFailure
import SetecWizard.Core.DiskCloner
import SetecWizard.Library.Copying
import SetecWizard.Imaging.Sectors
import SetecWizard.Imaging.RawClone
import SetecWizard.Imaging.SmartClone
import SetecWizard.Core.VirtualDisk
import SetecWizard.Imaging.DiskCopy
import SetecWizard.Core.ImageCreator
import SetecWizard.Core.ImageRestorer
import SetecWizard.Imaging.SpwCreate
import SetecWizard.Imaging.SpwRestore
import SetecWizard.Imaging.SpwRoundTrip
import SetecWizard.Imaging.SpwSafety
import SetecWizard.Core.FormatEngine
import SetecWizard.Core.FormatFat32
import SetecWizard.Imaging.Verify
import SetecWizard.Filesystem.Fat32
import SetecWizard.Core.SecureErase
import SetecWizard.Maintenance.Erasure
import SetecWizard.Core.BootRepair
import SetecWizard.Format.Crc32
import SetecWizard.Repair.Headers
import SetecWizard.Repair.Gpt
import SetecWizard.Repair.Faultless
import SetecWizard.Repair.Frame
import SetecWizard.Repair.Rebuilt
import SetecWizard.Repair.Auto
import SetecWizard.Repair.Outcome
import SetecWizard.Repair.FixedPoint
import SetecWizard.Core.FileRecovery
import SetecWizard.Recovery.RunList
import SetecWizard.Recovery.MftScan
import SetecWizard.Recovery.NtfsFile
import SetecWizard.Recovery.NtfsRecovery
import SetecWizard.Recovery.Holes
import SetecWizard.Core.Fido2Manager
import SetecWizard.Security.Channel
import SetecWizard.Core.DownloadManager
import SetecWizard.Net.Resume
import SetecWizard.Core.SdCardAnalyzer
import SetecWizard.Maintenance.CardProbes
import SetecWizard.Maintenance.CardRestore
import SetecWizard.Maintenance.Counterfeit
import SetecWizard.Core.Decompressor
import SetecWizard.Imaging.Truncation
import SetecWizard.Core.DecompressZip
import SetecWizard.Imaging.ZipPaths
import SetecWizard.Imaging.ZipData
import SetecWizard.Imaging.ZipArchive
import SetecWizard.Core.IsoFlasher
import SetecWizard.Imaging.Flashing
import SetecWizard.Imaging.FlashComplete
import SetecWizard.Core.PartitionScan
import SetecWizard.Recovery.WholeReads
import SetecWizard.Recovery.TableWrite
import SetecWizard.Operations.LogicalWrite
import SetecWizard.Mbr.Activation
import SetecWizard.Mbr.Admission
import SetecWizard.Mbr.Addressing
import SetecWizard.Gpt.Allocation
import SetecWizard.Vault.Codec
import SetecWizard.Vault.Geometry
import SetecWizard.Imaging.RawRestore
import SetecWizard.Security.Reassembly
import SetecWizard.Filesystem.FormatWrites
import SetecWizard.Core.Checksums
import SetecWizard.Imaging.Progress
import SetecWizard.Maintenance.WritePass
import SetecWizard.Maintenance.Coverage
import SetecWizard.Recovery.AttributeWalk
import SetecWizard.Recovery.ResidentFile
import SetecWizard.Filesystem.WriteAt
import SetecWizard.Filesystem.FormatRuns
import SetecWizard.Filesystem.Fat32Extents
import SetecWizard.Filesystem.FatTables
import SetecWizard.Recovery.ScanCoverage
import SetecWizard.Recovery.ByteReaders
import SetecWizard.Recovery.Overlaps
import SetecWizard.Recovery.SuperblockSizes
import SetecWizard.Repair.BootSector
import SetecWizard.Core.FatRecovery
import SetecWizard.Recovery.FatFile
import SetecWizard.Core.ExtRecovery
import SetecWizard.Recovery.ExtFile
import SetecWizard.Core.FileCarving
import SetecWizard.Recovery.CarvingScan
import SetecWizard.Recovery.CarvedFile
import SetecWizard.Recovery.ExtSafety
import SetecWizard.Maintenance.SurfaceReads
import SetecWizard.Core.SurfaceScan
import SetecWizard.Diagnostics.BadSectors
import SetecWizard.Imaging.IsoDirectory
import SetecWizard.Imaging.IsoLookup
import SetecWizard.Net.LifeCycle
import SetecWizard.Library.Framing
import SetecWizard.Security.Fragmentation
import SetecWizard.Core.FilesystemProbe
import SetecWizard.Core.FilesystemDetector
import SetecWizard.Recovery.FatClassification
import SetecWizard.Filesystem.DetectorSafety
import SetecWizard.Recovery.FatSlots
import SetecWizard.Library.Cbor
import SetecWizard.Security.GetInfo
import SetecWizard.Mbr.Geometries
import SetecWizard.Filesystem.SparseSuper
import SetecWizard.Filesystem.Zeroing
import SetecWizard.Core.SmartReader
import SetecWizard.Diagnostics.Health
import SetecWizard.Library.Gaps
import SetecWizard.Core.DiskMapWidget
import SetecWizard.Diagnostics.FreeSpace
import SetecWizard.Library.Growing
import SetecWizard.Core.SrcCipher
import SetecWizard.Security.SourceCipher
import SetecWizard.Recovery.CarvedReads
import SetecWizard.Security.PinBlock
import SetecWizard.Security.Responses
import SetecWizard.Imaging.LzmaHistory
import SetecWizard.Imaging.LzmaCoding
import SetecWizard.Imaging.XzStreamRuns
import SetecWizard.Imaging.XzIndex
