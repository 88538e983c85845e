import SetecWizard.Core.FilesystemProbe

/-! FilesystemDetector: what a volume holds, by the magic numbers at their offsets. The probes are
asked one after the other, the most specific ones first.
-/
namespace SetecWizard.Core.FilesystemDetector
open SetecWizard.Library Traced FormatEngine

variable (readFunc : DiskReadCallback)

section Windows

def detectNtfs : Detector := probeAt readFunc 0 512 512 fun data => do
  if !(← memEqual data 3 "NTFS    " 8) then return none
  if (← le16At data 510) ≠ 0xAA55 then return none
  let bytesPerSector ← le16At data 0x0B
  let sectorsPerCluster ← byteAt data 0x0D
  let _totalSectors ← le64At data 0x28
  let _mftCluster ← le64At data 0x30
  let blockSize ←
    if 0 < bytesPerSector ∧ 0 < sectorsPerCluster then mulInt bytesPerSector.toNat sectorsPerCluster.toNat
    else pure 0
  let serial ← le64At data 0x48
  return some {
    type := .ntfs
    description := "NTFS"
    blockSize := blockSize
    uuid := if serial ≠ 0 then formatSerial (serial >>> 32).toUInt32 else [] }

def detectExfat : Detector := probeAt readFunc 0 512 512 fun data => do
  if !(← memEqual data 3 "EXFAT   " 8) then return none
  let bytesPerSectorShift ← byteAt data 0x6C
  let sectorsPerClusterShift ← byteAt data 0x6D
  let blockSize ←
    if 9 ≤ bytesPerSectorShift ∧ bytesPerSectorShift ≤ 12 then do
      let bytesPerSector ← shiftLeft 1 bytesPerSectorShift.toUInt32
      let sectorsPerCluster ← shiftLeft 1 sectorsPerClusterShift.toUInt32
      mulUInt32 bytesPerSector sectorsPerCluster
    else pure 0
  let serial ← le32At data 0x64
  return some {
    type := .exFat
    description := "exFAT"
    blockSize := blockSize
    uuid := if serial ≠ 0 then formatSerial serial else [] }

def detectReFs : Detector := probeAt readFunc 0 512 512 fun data => do
  if ← memEqual data 3 "ReFS" 4 then return some { type := .reFs,description := "ReFS" }
  return none

end Windows

section Fat

/-- The parameter block of a FAT volume, as far as the type depends on it. -/
structure FatLayout where
  bytesPerSector : UInt16
  sectorsPerCluster : UInt8
  reservedSectors : UInt16
  numFats : UInt8
  rootEntryCount : UInt16
  fatSize : UInt32
  totalSectors : UInt32

namespace FatLayout

variable (layout : FatLayout)

def rootDirSectors : UInt32 :=
  (layout.rootEntryCount.toUInt32 * 32 + (layout.bytesPerSector.toUInt32 - 1)) / layout.bytesPerSector.toUInt32

def dataStartSector : UInt32 :=
  layout.reservedSectors.toUInt32 + layout.numFats.toUInt32 * layout.fatSize + layout.rootDirSectors

def totalClusters : UInt32 := (layout.totalSectors - layout.dataStartSector) / layout.sectorsPerCluster.toUInt32

end FatLayout

def fatType (totalClusters : UInt32) : FilesystemType × String :=
  if totalClusters < 4085 then (.fat12,"FAT12")
  else if totalClusters < 65525 then (.fat16,"FAT16")
  else (.fat32,"FAT32")

/-- "NO NAME" is a label that was not chosen. -/
def fatLabel (label : List UInt8) : List UInt8 := if label = asciiBytes "NO NAME" then [] else label

/-- The part behind the checks of single fields. The larger parameter block of FAT32 comes before
its label and serial number. -/
def reportFat (data : List UInt8) (isFat32Bpb : Bool) (layout : FatLayout) : Detector := do
  if layout.totalSectors = 0 then return none
  if layout.totalSectors ≤ layout.dataStartSector then return none
  let blockSize ← mulInt layout.bytesPerSector.toNat layout.sectorsPerCluster.toNat
  let label ← extractString data (if isFat32Bpb then 0x47 else 0x2B) 11
  let serial ← le32At data (if isFat32Bpb then 0x43 else 0x27)
  return some {
    type := (fatType layout.totalClusters).1
    description := (fatType layout.totalClusters).2
    blockSize := blockSize
    label := fatLabel label
    uuid := if serial ≠ 0 then formatSerial serial else [] }

def detectFat : Detector := probeAt readFunc 0 512 512 fun data => do
  if (← le16At data 510) ≠ 0xAA55 then return none
  let jump ← byteAt data 0
  if jump ≠ 0xEB ∧ jump ≠ 0xE9 then return none
  let bytesPerSector ← le16At data 0x0B
  let sectorsPerCluster ← byteAt data 0x0D
  let reservedSectors ← le16At data 0x0E
  let numFats ← byteAt data 0x10
  let rootEntryCount ← le16At data 0x11
  let totalSectors16 ← le16At data 0x13
  let mediaType ← byteAt data 0x15
  let fatSize16 ← le16At data 0x16
  let totalSectors32 ← le32At data 0x20
  if bytesPerSector = 0 ∨ !isPowerOf2 bytesPerSector.toUInt32 then return none
  if bytesPerSector < 128 ∨ 4096 < bytesPerSector then return none
  if sectorsPerCluster = 0 ∨ !isPowerOf2 sectorsPerCluster.toUInt32 then return none
  if reservedSectors = 0 then return none
  if numFats = 0 ∨ 4 < numFats then return none
  if mediaType ≠ 0xF0 ∧ mediaType < 0xF8 then return none
  let fatSize ← if fatSize16 = 0 then le32At data 0x24 else pure fatSize16.toUInt32
  let totalSectors := if totalSectors16 ≠ 0 then totalSectors16.toUInt32 else totalSectors32
  reportFat data (fatSize16 == 0)
    ⟨bytesPerSector,sectorsPerCluster,reservedSectors,numFats,rootEntryCount,fatSize,totalSectors⟩

end Fat

section Linux

def EXT_SUPER_MAGIC : UInt16 := 0xEF53
def XFS_MAGIC : UInt32 := 0x58465342
def REISERFS_MAGIC_OFFSET : UInt64 := 0x10034

def detectExt : Detector := probeAt readFunc 1024 1024 1024 fun data => do
  if (← le16At data 0x38) ≠ EXT_SUPER_MAGIC then return none
  let compatFeatures ← le32At data 0x5C
  let incompatFeatures ← le32At data 0x60
  let _roCompatFeatures ← le32At data 0x64
  -- extents, 64 bit or flexible block groups; else a journal
  let (type,description) : FilesystemType × String :=
    if incompatFeatures &&& 0x0040 ≠ 0 ∨ incompatFeatures &&& 0x0080 ≠ 0 ∨ incompatFeatures &&& 0x0200 ≠ 0 then
      (.ext4,"ext4")
    else if compatFeatures &&& 0x0004 ≠ 0 then (.ext3,"ext3")
    else (.ext2,"ext2")
  let logBlockSize ← le32At data 0x18
  let blockSize ← if logBlockSize < 10 then shiftLeft 1024 logBlockSize else pure 0
  let label ← extractString data 0x78 16
  let uuid ← uuidAt data 0x68
  return some { type := type,description := description,blockSize := blockSize,label := label,uuid := uuid }

def detectBtrfs : Detector := probeAt readFunc 0x10000 0x1000 0x100 fun data => do
  if !(← memEqual data 0x40 "_BHRfS_M" 8) then return none
  let sectorSize ← le32At data 0x80
  let _nodeSize ← le32At data 0x84
  let label ← if 0x12B + 256 < data.length then extractString data 0x12B 256 else pure []
  let uuid ← if 0x20 + 16 < data.length then uuidAt data 0x20 else pure []
  return some { type := .btrfs,description := "Btrfs",blockSize := sectorSize,label := label,uuid := uuid }

def detectXfs : Detector := probeAt readFunc 0 512 512 fun data => do
  if (← be32At data 0) ≠ XFS_MAGIC then return none
  let blockSize ← be32At data 4
  let label ← extractString data 0x6C 12
  let uuid ← uuidAt data 0x20
  return some { type := .xfs,description := "XFS",blockSize := blockSize,label := label,uuid := uuid }

def detectReiserFs : Detector := do
  let data := safeRead readFunc REISERFS_MAGIC_OFFSET 64
  let found ← if 12 ≤ data.length then memEqualAny data 0 [("ReIsErFs",8),("ReIsEr2Fs",9),("ReIsEr3Fs",9)]
    else pure false
  if found then
    let sb := safeRead readFunc 0x10000 0x100
    let blockSize ← if 0x30 ≤ sb.length then le16At sb 0x2C else pure 0
    return some { type := .reiserFs,description := "ReiserFS",blockSize := blockSize.toUInt32 }
  probeAt readFunc (0x2000 + 0x34) 12 8 fun data => do
    if ← memEqual data 0 "ReIsErFs" 8 then return some { type := .reiserFs,description := "ReiserFS 3.5" }
    return none

def detectJfs : Detector := probeAt readFunc 0x8000 512 512 fun data => do
  if !(← memEqual data 0 "JFS1" 4) then return none
  let blockSize ← le32At data 0x18
  let label ← extractString data 0x96 16
  let uuid ← uuidAt data 0x80
  return some { type := .jfs,description := "JFS",blockSize := blockSize,label := label,uuid := uuid }

/-- The text "version" at one of some positions. -/
def searchVersion (data : List UInt8) : List Nat → Probe Bool
  | [] => pure false
  | i :: rest => do
    if ← memEqual data i "version" 7 then return true
    searchVersion data rest

def detectZfs : Detector := do
  let data := safeRead readFunc 0x20000 1024
  let magic ← if 8 ≤ data.length then le64At data 0 else pure 0
  if magic = 0x00BAB10C then return some { type := .zfs,description := "ZFS" }
  probeAt readFunc 0x4000 0x4000 16 fun nvData => do
    if ← searchVersion nvData (List.range (nvData.length + 1 - 8)) then
      return some { type := .zfs,description := "ZFS" }
    return none

def swapPages : List UInt32 := [4096,8192,16384,65536]

def swapAt (volumeSize : UInt64) : List UInt32 → Detector
  | [] => pure none
  | pageSize :: rest => do
    let data := safeRead readFunc (pageSize - 10).toUInt64 10
    let tried := ¬ (volumeSize < pageSize.toUInt64 ∧ 0 < volumeSize) ∧ 10 ≤ data.length
    let found ← if tried then memEqualAny data 0 [("SWAPSPACE2",10),("SWAP-SPACE",10)] else pure false
    if found then
      let header := safeRead readFunc 0 4096
      let uuid ← if 0x41C ≤ header.length then uuidAt header 0x40C else pure []
      let label ← if 0x42C ≤ header.length then extractString header 0x41C 16 else pure []
      return some { type := .swapLinux,description := "Linux Swap",blockSize := pageSize,uuid := uuid,label := label }
    swapAt volumeSize rest

def detectLinuxSwap (volumeSize : UInt64) : Detector := swapAt readFunc volumeSize swapPages

end Linux

section Apple

def HFS_PLUS_MAGIC : UInt16 := 0x482B
def HFSX_MAGIC : UInt16 := 0x4858
def APFS_MAGIC : UInt32 := 0x4253584E

def detectHfsPlus : Detector := probeAt readFunc 1024 512 512 fun data => do
  let magic ← be16At data 0
  if magic = HFS_PLUS_MAGIC then
    return some { type := .hfsPlus,description := "HFS+",blockSize := ← be32At data 0x28 }
  if magic = HFSX_MAGIC then
    return some { type := .hfsPlus,description := "HFSX (case-sensitive HFS+)",blockSize := ← be32At data 0x28 }
  if (← be16At data 0) = 0x4244 then return some { type := .hfs,description := "HFS (Classic)" }
  return none

def detectApfs : Detector := probeAt readFunc 0 4096 64 fun data => do
  if (← le32At data 32) ≠ APFS_MAGIC then return none
  return some { type := .apfs,description := "APFS",blockSize := ← le32At data 36 }

end Apple

section Optical

def detectIso9660 : Detector := probeAt readFunc 0x8000 2048 2048 fun data => do
  if !(← memEqual data 1 "CD001" 5) then return none
  let label ← extractString data 40 32
  return some { type := .iso9660,description := "ISO 9660",blockSize := 2048,label := label }

/-- One of the two magics of UDF in a sector. -/
def nsrAt (offset : UInt64) : Probe Bool :=
  let nsr := safeRead readFunc offset 2048
  if 6 ≤ nsr.length then memEqualAny nsr 1 [("NSR02",5),("NSR03",5)] else pure false

def detectUdf : Detector := probeAt readFunc 0x8000 2048 6 fun bea => do
  if !(← memEqual bea 1 "BEA01" 5) then return none
  if ← nsrAt readFunc 0x8800 then return some { type := .udf,description := "UDF",blockSize := 2048 }
  if ← nsrAt readFunc 0x9000 then return some { type := .udf,description := "UDF",blockSize := 2048 }
  return none

end Optical

section Compressed

def detectSquashFs : Detector := probeAt readFunc 0 512 96 fun data => do
  if (← le32At data 0) = 0x73717368 then
    return some { type := .squashFs,description := "SquashFS",blockSize := ← le32At data 12 }
  if (← be32At data 0) = 0x73717368 then
    return some { type := .squashFs,description := "SquashFS (big-endian)",blockSize := ← be32At data 12 }
  return none

def detectCramFs : Detector := probeAt readFunc 0 512 64 fun data => do
  let magic ← le32At data 0
  if magic = 0x28CD3D45 ∨ magic = 0x453DCD28 then
    return some { type := .cramFs,description := "CramFS",blockSize := 4096,label := ← extractString data 16 16 }
  return none

def detectRomFs : Detector := probeAt readFunc 0 512 32 fun data => do
  if !(← memEqual data 0 "-rom1fs-" 8) then return none
  return some { type := .romFs,description := "RomFS",label := ← extractString data 16 32 }

end Compressed

section Legacy

def UFS_MAGIC : UInt32 := 0x00011954
def BEOS_SUPER_MAGIC : UInt32 := 0x42465331

def detectHpfs : Detector := probeAt readFunc 8192 512 512 fun super => do
  if (← le32At super 0) ≠ 0xF995E849 then return none
  let spare := safeRead readFunc 8704 512
  let spareMagic ← if 4 ≤ spare.length then le32At spare 0 else pure 0xF9911849
  if spareMagic ≠ 0xF9911849 then return none
  return some { type := .hpfs,description := "HPFS (OS/2)" }

def detectMinix : Detector := probeAt readFunc 1024 512 32 fun data => do
  let magic ← le16At data 0x10
  if magic = 0x137F ∨ magic = 0x138F then
    return some { type := .minix,description := "MINIX v1",blockSize := 1024 }
  if magic = 0x2468 ∨ magic = 0x2478 then
    return some { type := .minix,description := "MINIX v2",blockSize := 1024 }
  if magic = 0x4D5A then
    return some { type := .minix,description := "MINIX v3",blockSize := (← le16At data 0x18).toUInt32 }
  return none

/-- The magic of UFS, in either byte order, in a superblock. -/
def ufsAt (offset : UInt64) (description : String) : Detector := probeAt readFunc offset 0x600 0x560 fun data => do
  let magic ← le32At data 0x55C
  if magic = UFS_MAGIC ∨ magic = 0x54190100 then return some { type := .ufs,description := description }
  return none

def detectUfs : Detector := firstSome [ufsAt readFunc 8192 "UFS1",ufsAt readFunc 65536 "UFS2"]

def detectBfs : Detector := probeAt readFunc 512 512 512 fun data => do
  if (← le32At data 0) = BEOS_SUPER_MAGIC then
    let blockSize ← le32At data 4
    let label ← extractString data 0x20 32
    return some { type := .bfsBeOs,description := "BFS (BeOS/Haiku)",blockSize := blockSize,label := label }
  if (← be32At data 0) = BEOS_SUPER_MAGIC then
    return some { type := .bfsBeOs,description := "BFS (BeOS, big-endian)",blockSize := ← be32At data 4 }
  return none

def detectQnx4 : Detector := probeAt readFunc 0 512 512 fun data => do
  if (← byteAt data 4) ≠ 0x2F then return none
  if (← byteAt data 0) &&& 0x01 = 0 then return none
  return some { type := .qnx4,description := "QNX4" }

end Legacy

section Flash

/-- The ASCII characters of a name in UTF-16, of at most so many units. -/
def utf16Label (data : List UInt8) (ends : UInt16 → Bool) : Nat → Nat → Probe (List UInt8)
  | _,0 => pure []
  | off,left + 1 => do
    let ch ← le16At data off
    if ends ch then return []
    let rest ← utf16Label data ends (off + 2) left
    return if ch < 128 then ch.toUInt8 :: rest else rest

def detectF2fs : Detector := probeAt readFunc 0x400 128 128 fun data => do
  if (← le32At data 0) ≠ 0xF2F52010 then return none
  let _majorVer ← le16At data 4
  let _minorVer ← le16At data 6
  let logBlocksize ← le32At data 38
  let blockSize ← if 10 ≤ logBlocksize ∧ logBlocksize ≤ 16 then shiftLeft 1 logBlocksize else pure 0
  let labelData := safeRead readFunc (0x400 + 0x2A0) 512
  let label ← if 64 ≤ labelData.length then utf16Label labelData (· = 0) 0 32 else pure []
  let uuid ← if 0x70 ≤ data.length then uuidAt data 0x60 else pure []
  return some { type := .f2fs,description := "F2FS (Flash-Friendly File System)",blockSize := blockSize,label := label,uuid := uuid }

def detectJffs2 : Detector := probeAt readFunc 0 12 12 fun data => do
  let magic ← le16At data 0
  if magic ≠ 0x1985 ∧ magic ≠ 0x8519 then return none
  let nodeBase := (← le16At data 2) &&& 0x00FF
  if nodeBase ∉ [0x01,0x02,0x03,0x06,0xE0] then return none
  return some { type := .jffs2,description := "JFFS2 (Journalling Flash File System v2)" }

def detectNilfs2 : Detector := probeAt readFunc 0x400 128 128 fun data => do
  if (← le16At data 6) ≠ 0x3434 then return none
  let logBlock ← le32At data 0x0E
  let blockSize ← if 10 ≤ logBlock ∧ logBlock ≤ 16 then shiftLeft 1 logBlock else pure 0
  return some { type := .nilfs2,description := "NILFS2",blockSize := blockSize }

end Flash

section Consoles

def detectFatx : Detector := probeAt readFunc 0 0x200 0x200 fun data => do
  if !(← memEqual data 0 "FATX" 4) then return none
  let spc ← le32At data 0x08
  if !isPowerOf2 spc ∨ 0x80 < spc then return none
  let blockSize ← mulUInt32 spc 512
  let label ← utf16Label data (fun ch => ch = 0 ∨ ch = 0xFFFF) 0x10 32
  return some { type := .fatx,description := "FATX (Xbox)",blockSize := blockSize,label := label }

def detectStfs : Detector := probeAt readFunc 0 8 4 fun data => do
  -- "CON ", "LIVE" and "PIRS"
  if (← be32At data 0) ∉ [0x434F4E20,0x4C495645,0x50495253] then return none
  return some { type := .stfs,description := "STFS (Xbox 360 Package)" }

def gdfxAt (off : UInt64) : Detector := probeAt readFunc off 32 20 fun data => do
  if ← memEqual data 0 "MICROSOFT*XBOX*MEDIA" 20 then return some { type := .gdfx,description := "GDFX (Xbox Game Disc)" }
  return none

def detectGdfx : Detector := firstSome ([0x10000,0x18310000,0xFDA0000,0x2090000].map (gdfxAt readFunc))

def detectPs2mc : Detector := probeAt readFunc 0 128 40 fun data => do
  if !(← memEqual data 0 "Sony PS2 Memory Card Format " 28) then return none
  let blockSize ←
    if 0x2C ≤ data.length then do
      let pageSize ← le16At data 0x28
      let pagesPerCluster ← le16At data 0x2A
      if 0 < pageSize ∧ 0 < pagesPerCluster then mulInt pageSize.toNat pagesPerCluster.toNat else pure 0
    else pure 0
  return some { type := .ps2mc,description := "PS2 Memory Card",blockSize := blockSize }

end Consoles

section Images

def detectVhdx : Detector := probeAt readFunc 0 16 8 fun data => do
  if ← memEqual data 0 "vhdxfile" 8 then return some { type := .vhdx,description := "VHDX (Hyper-V Virtual Hard Disk)" }
  return none

def detectVmdk : Detector := probeAt readFunc 0 64 4 fun data => do
  if (← le32At data 0) = 0x564D444B then return some { type := .vmdk,description := "VMDK (VMware Virtual Disk)" }
  let descriptor ← if 21 ≤ data.length then memEqual data 0 "# Disk DescriptorFile" 21 else pure false
  if descriptor then return some { type := .vmdk,description := "VMDK (VMware Virtual Disk)" }
  return none

def detectQcow2 : Detector := probeAt readFunc 0 16 8 fun data => do
  if (← be32At data 0) ≠ 0x514649FB then return none
  let version ← be32At data 4
  if version ≠ 2 ∧ version ≠ 3 then return none
  return some { type := .qcow2,description := if version = 3 then "QCOW2 v3 (QEMU)" else "QCOW2 (QEMU)" }

def detectVdi : Detector := probeAt readFunc 0 0x50 0x48 fun data => do
  if (← le32At data 0x40) ≠ 0xBEDA107F then return none
  if !(← memEqual data 0 "\x7F\x10\xDA\xBE" 4) then
    let _ ← memEqual data 0x40 "\x7F\x10\xDA\xBE" 4
  return some { type := .vdi,description := "VDI (VirtualBox Disk Image)" }

def vhdFooter (volumeSize : UInt64) : Detector :=
  if volumeSize < 512 then pure none
  else probeAt readFunc (volumeSize - 512) 512 8 fun footer => do
    if ← memEqual footer 0 "conectix" 8 then return some { type := .vhd,description := "VHD (Virtual Hard Disk)" }
    return none

def detectVhd (volumeSize : UInt64) : Detector := probeAt readFunc 0 512 512 fun data => do
  if ← memEqual data 0 "conectix" 8 then return some { type := .vhd,description := "VHD (Virtual Hard Disk)" }
  vhdFooter readFunc volumeSize

def detectRvz : Detector := probeAt readFunc 0 8 4 fun data => do
  let magic ← le32At data 0
  if magic = 0x015A5652 then return some { type := .rvz,description := "RVZ (Dolphin Wii Disc Image)" }
  if magic = 0x01414957 then return some { type := .rvz,description := "WIA (Dolphin Wii Disc Image)" }
  return none

def nrgFooter (offset : UInt64) (size : UInt32) (magic description : String) : Detector :=
  probeAt readFunc offset size 4 fun footer => do
    if ← memEqual footer 0 magic 4 then return some { type := .nrg,description := description }
    return none

def detectNrg (volumeSize : UInt64) : Detector :=
  if volumeSize < 12 then pure none
  else firstSome [nrgFooter readFunc (volumeSize - 12) 12 "NER5" "NRG v2 (Nero Disc Image)",
    nrgFooter readFunc (volumeSize - 8) 8 "NERO" "NRG v1 (Nero Disc Image)"]

def detectWbfs : Detector := probeAt readFunc 0 16 4 fun data => do
  if ← memEqual data 0 "WBFS" 4 then return some { type := .wbfs,description := "WBFS (Wii Backup File System)" }
  return none

end Images

section Detection

variable (volumeSize : UInt64)

def probes : List Detector :=
  [detectNtfs readFunc,detectExfat readFunc,detectBtrfs readFunc,detectXfs readFunc,detectApfs readFunc,
    detectReFs readFunc,detectExt readFunc,detectHfsPlus readFunc,detectReiserFs readFunc,detectJfs readFunc,
    detectZfs readFunc,detectIso9660 readFunc,detectUdf readFunc,detectSquashFs readFunc,detectCramFs readFunc,
    detectRomFs readFunc,detectHpfs readFunc,detectMinix readFunc,detectUfs readFunc,detectBfs readFunc,
    detectQnx4 readFunc,detectLinuxSwap readFunc volumeSize,
    detectF2fs readFunc,detectJffs2 readFunc,detectNilfs2 readFunc,
    detectFatx readFunc,detectStfs readFunc,detectGdfx readFunc,detectPs2mc readFunc,
    detectVhdx readFunc,detectVmdk readFunc,detectQcow2 readFunc,detectVdi readFunc,detectVhd readFunc volumeSize,
    detectRvz readFunc,detectNrg readFunc volumeSize,detectWbfs readFunc,
    detectFat readFunc]

def detect : Probe FilesystemDetection := do
  match ← firstSome (probes readFunc volumeSize) with
  | some detection => return detection
  | none => return { type := .unknown,description := "Unknown or unformatted" }

end Detection

end SetecWizard.Core.FilesystemDetector
