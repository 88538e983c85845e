import SetecWizard.Core.RawDiskHandle
import SetecWizard.Core.GptPartitionTable

/-! Repair of the MBR and of a copy of the GPT from the other one, and the automatic
repair. A run keeps the disk and the accesses it has asked for; the header is copied as a
structure of 92 bytes, and what lies behind it in memory is part of the environment.
-/
namespace SetecWizard.Core
open SetecWizard.Library

structure BootRepairReport where
  mbrRepaired : Bool := false
  gptRepaired : Bool := false
  bootSectorRepaired : Bool := false
  bcdRepaired : Bool := false
  bootloaderRepaired : Bool := false
  details : String := ""

/-- The disk, the memory behind the two buffers that may be read past their end, and the
files of the mounted volumes with the repairs that work on them. -/
structure RepairEnv where
  device : Win32 := .working
  mode : DiskAccessMode := .readWrite
  behindHeader : Bytes 420 := .zero 420
  behindEntries : List UInt8 := []
  fileExists : UInt16 → String → Bool := fun _ _ => true
  repairBcd : UInt16 → Result Unit := fun _ => .ok ()
  repairBootloader : UInt16 → UInt16 → Result Unit := fun _ _ => .ok ()

/-- What a run does with sectors: the requests it makes of the disk, for a write with the
number of sectors it reaches, and the differences it computes positions from. -/
inductive RepairAccess where
  | read (lba count : UInt64)
  | write (lba count : UInt64) (reached : Nat)
  | difference (minuend subtrahend : UInt64)
deriving DecidableEq

structure RepairState where
  disk : Disk
  accesses : List RepairAccess := []

def GPT_HEADER_LBA : UInt64 := 1

namespace RepairState

/-- The number of sectors of a disk that a write puts bytes into. -/
def reached (env : RepairEnv) (sectorSize : UInt32) (disk : Disk) (lba count : UInt64) : Nat :=
  let byteOffset := lba * sectorSize.toUInt64
  let totalBytes := count * sectorSize.toUInt64
  if env.mode ≠ .readWrite ∨ MAXDWORD < totalBytes then 0
  else
    let moved := (env.device.writeFile byteOffset.toNat totalBytes.toNat).2
    (RawDiskHandle.available disk byteOffset.toNat totalBytes.toNat moved + sectorSize.toNat - 1) / sectorSize.toNat

variable (env : RepairEnv) (sectorSize : UInt32) (s : RepairState)

def note (access : RepairAccess) : RepairState := { s with accesses := s.accesses ++ [access] }

def readSectors (lba count : UInt64) : Result (List UInt8) × RepairState :=
  (RawDiskHandle.readSectors env.device s.disk lba count sectorSize,s.note (.read lba count))

def writeSectors (lba : UInt64) (data : List UInt8) (count : UInt64) : Mutation RepairState :=
  let outcome := RawDiskHandle.writeSectors env.device s.disk env.mode lba data count sectorSize
  (outcome.1,{ s.note (.write lba count (reached env sectorSize s.disk lba count)) with disk := outcome.2 })

def subtract (minuend subtrahend : UInt64) : UInt64 × RepairState :=
  (minuend - subtrahend,s.note (.difference minuend subtrahend))

end RepairState

namespace BootRepair

def bootCode : List UInt8 :=
  [0x33,0xC0,0x8E,0xD0,0xBC,0x00,0x7C,0x8E,0xC0,0x8E,0xD8,0xBE,0x00,0x7C,0xBF,0x00,
    0x06,0xB9,0x00,0x02,0xFC,0xF3,0xA4,0xEA,0x1C,0x06,0x00,0x00,0xB8,0x01,0x02,0xBB,
    0x00,0x7C,0xBA,0x80,0x00,0x8A,0x74,0x01,0x8B,0x4C,0x02,0xCD,0x13,0xEA,0x00,0x7C,
    0x00,0x00,0xBE,0xBE,0x07,0xB3,0x04,0x80,0x3C,0x80,0x74,0x0E,0x80,0x3C,0x00,0x75,
    0x1C,0x83,0xC6,0x10,0xFE,0xCB,0x75,0xEF,0xCD,0x18,0x8B,0x14,0x8B,0x4C,0x02,0x8B,
    0xEE,0x83,0xC6,0x10,0xFE,0xCB,0x74,0x1A,0x80,0x3C,0x00,0x74,0xF4,0xBE,0x8B,0x06,
    0xAC,0x3C,0x00,0x74,0x0B,0x56,0xBB,0x07,0x00,0xB4,0x0E,0xCD,0x10,0x5E,0xEB,0xF0,
    0xEB,0xFE,0xBF,0x05,0x00,0xBB,0x00,0x7C,0xB8,0x01,0x02,0x57,0xCD,0x13,0x5F,0x73,
    0x0C,0x33,0xC0,0xCD,0x13,0x4F,0x75,0xED,0xBE,0xA3,0x06,0xEB,0xD3,0xBE,0xC2,0x06,
    0xBF,0xFE,0x7D,0x81,0x3D,0x55,0xAA,0x75,0x07,0x8B,0xF5,0xEA,0x00,0x7C,0x00,0x00,
    0x49,0x6E,0x76,0x61,0x6C,0x69,0x64,0x20,0x70,0x61,0x72,0x74,0x69,0x74,0x69,0x6F,
    0x6E,0x20,0x74,0x61,0x62,0x6C,0x65,0x00,0x45,0x72,0x72,0x6F,0x72,0x20,0x6C,0x6F,
    0x61,0x64,0x69,0x6E,0x67,0x20,0x6F,0x70,0x65,0x72,0x61,0x74,0x69,0x6E,0x67,0x20,
    0x73,0x79,0x73,0x74,0x65,0x6D,0x00,0x4D,0x69,0x73,0x73,0x69,0x6E,0x67,0x20,0x6F,
    0x70,0x65,0x72,0x61,0x74,0x69,0x6E,0x67,0x20,0x73,0x79,0x73,0x74,0x65,0x6D,0x00]

def getStandardMbrBootCode : List UInt8 := bootCode ++ List.replicate (446 - bootCode.length) 0x00

def validateMbr (sector : List UInt8) : Bool :=
  decide (512 ≤ sector.length) && decide (readLE16 sector 510 = MBR_SIGNATURE) &&
    (List.range 4).all (fun i =>
      sector.getD (446 + i * 16) 0 == 0x00 || sector.getD (446 + i * 16) 0 == 0x80)

def validateGptHeader (headerSector : List UInt8) : Bool :=
  let headerSize := readLE32 headerSector 12
  decide (GPT_HEADER_SIZE.toNat ≤ headerSector.length) &&
    decide (readLE64 headerSector 0 = GPT_HEADER_SIGNATURE) &&
    decide (0x00010000 ≤ readLE32 headerSector 8) &&
    decide (92 ≤ headerSize ∧ headerSize ≤ 512) &&
    decide (crc32 (GptPartitionTable.crcInput headerSector headerSize) = readLE32 headerSector 16)

def partitionEntryLba (hdr : List UInt8) : UInt64 := readLE64 hdr 72

def firstUsableLba (hdr : List UInt8) : UInt64 := readLE64 hdr 40

def lastUsableLba (hdr : List UInt8) : UInt64 := readLE64 hdr 48

/-- The bytes of the entry array; the product of two 32-bit fields does not overflow. -/
def entryBytes (hdr : List UInt8) : UInt64 := (readLE32 hdr 80).toUInt64 * (readLE32 hdr 84).toUInt64

def entrySectors (sectorSize : UInt32) (hdr : List UInt8) : UInt64 :=
  (entryBytes hdr + sectorSize.toUInt64 - 1) / sectorSize.toUInt64

variable (env : RepairEnv) (sectorSize : UInt32)

/-- The structure with its new position. Its CRC is taken over `headerSize` bytes from its
start on, however long it is itself. -/
def moveHeader (hdr : List UInt8) (myLba alternateLba entryLba : UInt64) : List UInt8 :=
  let hdr := writeLE64 hdr 24 myLba
  let hdr := writeLE64 hdr 32 alternateLba
  let hdr := writeLE64 hdr 72 entryLba
  let hdr := writeLE32 hdr 16 0
  writeLE32 hdr 16 (crc32 ((hdr ++ env.behindHeader.data).take (readLE32 hdr 12).toNat))

def headerSector (hdr : List UInt8) : List UInt8 := splice (List.replicate sectorSize.toNat 0) 0 hdr

def failed {α : Type} (msg : String) : Result α := .error (.fromCode .bootRepairFailed msg)

def repairMbr (s : RepairState) : Mutation RepairState :=
  match RawDiskHandle.getGeometry env.device s.disk with
  | .error e => (.error e,s)
  | .ok _ =>
    match s.readSectors env sectorSize 0 1 with
    | (.error e,s) => (.error e,s)
    | (.ok mbrSector,s) =>
      if mbrSector.length < 512 then
        (.error (.fromCode .mbrRepairFailed "MBR sector read returned < 512 bytes"),s)
      else
        let mbrSector := splice mbrSector 0 (getStandardMbrBootCode.take 440)
        let mbrSector := splice mbrSector 510 [0x55,0xAA]
        match s.writeSectors env sectorSize 0 mbrSector 1 with
        | (.error e,s) =>
          (.error (.fromWin32 .mbrRepairFailed e.win32Error "Failed to write repaired MBR"),s)
        | (.ok _,s) => (.ok (),s)

def rebuildPrimary (backupHeaderLba : UInt64) (s : RepairState) : Mutation RepairState :=
  match s.readSectors env sectorSize backupHeaderLba 1 with
  | (.error _,s) => (failed "Cannot read backup GPT header",s)
  | (.ok backupHeader,s) =>
    if validateGptHeader backupHeader = false then (failed "Backup GPT header is invalid/corrupt",s)
    else
      let hdr := backupHeader.take 92
      let backupEntrySectors := entrySectors sectorSize hdr
      let (backupEntryLba,s) := s.subtract backupHeaderLba backupEntrySectors
      match s.readSectors env sectorSize backupEntryLba backupEntrySectors with
      | (.error _,s) => (failed "Cannot read backup GPT entries",s)
      | (.ok entryData,s) =>
        let hdr := moveHeader env hdr GPT_HEADER_LBA backupHeaderLba 2
        match s.writeSectors env sectorSize GPT_HEADER_LBA (headerSector sectorSize hdr) 1 with
        | (.error _,s) => (failed "Failed to write primary GPT header",s)
        | (.ok _,s) =>
          match s.writeSectors env sectorSize 2 (entryData ++ env.behindEntries) backupEntrySectors with
          | (.error _,s) => (failed "Failed to write primary GPT entries",s)
          | (.ok _,s) => (.ok (),s)

def rebuildBackup (backupHeaderLba : UInt64) (s : RepairState) : Mutation RepairState :=
  match s.readSectors env sectorSize GPT_HEADER_LBA 1 with
  | (.error _,s) => (failed "Cannot read primary GPT header",s)
  | (.ok primaryHeader,s) =>
    if validateGptHeader primaryHeader = false then (failed "Primary GPT header is invalid/corrupt",s)
    else
      let hdr := primaryHeader.take 92
      let sectors := entrySectors sectorSize hdr
      match s.readSectors env sectorSize (partitionEntryLba hdr) sectors with
      | (.error _,s) => (failed "Cannot read primary GPT entries",s)
      | (.ok entryData,s) =>
        let (backupEntryLba,s) := s.subtract backupHeaderLba sectors
        let hdr := moveHeader env hdr backupHeaderLba GPT_HEADER_LBA backupEntryLba
        match s.writeSectors env sectorSize backupEntryLba (entryData ++ env.behindEntries) sectors with
        | (.error _,s) => (failed "Failed to write backup GPT entries",s)
        | (.ok _,s) =>
          match s.writeSectors env sectorSize backupHeaderLba (headerSector sectorSize hdr) 1 with
          | (.error _,s) => (failed "Failed to write backup GPT header",s)
          | (.ok _,s) => (.ok (),s)

def repairGpt (rebuildPrimaryFromBackup : Bool) (s : RepairState) : Mutation RepairState :=
  match RawDiskHandle.getGeometry env.device s.disk with
  | .error e => (.error e,s)
  | .ok totalBytes =>
    let totalSectors := totalBytes / sectorSize.toUInt64
    if totalSectors < 34 then (failed "Disk too small for GPT",s)
    else
      let (backupHeaderLba,s) := s.subtract totalSectors 1
      if rebuildPrimaryFromBackup then rebuildPrimary env sectorSize backupHeaderLba s
      else rebuildBackup env sectorSize backupHeaderLba s

/-- "NTFS    " -/
def ntfsOemId : List UInt8 := [0x4E,0x54,0x46,0x53,0x20,0x20,0x20,0x20]

/-- Only a sector that says NTFS itself is looked for at the end of its partition. A backup is
taken for one by its signature and either that name or the jump it starts with. -/
def repairBootSector (partitionStartLba partitionSectorCount : UInt64) (s : RepairState) : Mutation RepairState :=
  match RawDiskHandle.getGeometry env.device s.disk with
  | .error e => (.error e,s)
  | .ok _ =>
    if partitionSectorCount < 2 then (failed "Partition too small for boot sector repair",s)
    else
      match s.readSectors env sectorSize partitionStartLba 1 with
      | (.error e,s) => (.error e,s)
      | (.ok currentBoot,s) =>
        let isNtfs := 11 ≤ currentBoot.length ∧ slice currentBoot 3 8 = ntfsOemId
        let backupLba :=
          if isNtfs then partitionStartLba + partitionSectorCount - 1 else partitionStartLba + 6
        match s.readSectors env sectorSize backupLba 1 with
        | (.error _,s) => (failed "Cannot read backup boot sector",s)
        | (.ok backupBoot,s) =>
          if backupBoot.length < 512 then (failed "Backup boot sector too small",s)
          else if readLE16 backupBoot 510 ≠ 0xAA55 then (failed "Backup boot sector has no AA55 signature",s)
          else
            let backupIsNtfs := slice backupBoot 3 8 = ntfsOemId
            let backupIsFat := backupBoot.getD 0 0 = 0xEB ∨ backupBoot.getD 0 0 = 0xE9
            if ¬ backupIsNtfs ∧ ¬ backupIsFat then
              if ¬ isNtfs ∧ backupLba ≠ partitionStartLba + 6 then
                match s.readSectors env sectorSize (partitionStartLba + 6) 1 with
                | (.error _,s) => (failed "Cannot locate valid backup boot sector",s)
                | (.ok backup2,s) =>
                  match s.writeSectors env sectorSize partitionStartLba backup2 1 with
                  | (.error _,s) => (failed "Failed to write restored boot sector",s)
                  | (.ok _,s) => (.ok (),s)
              else (failed "Backup boot sector does not contain valid NTFS or FAT code",s)
            else
              match s.writeSectors env sectorSize partitionStartLba backupBoot 1 with
              | (.error _,s) => (failed "Failed to write restored boot sector",s)
              | (.ok _,s) => (.ok (),s)

/-- The protective entry of a GPT disk is looked for in the sector as it was read. -/
def isGpt (mbr : List UInt8) : Bool :=
  (List.range 4).any (fun i => mbr.getD (446 + i * 16 + 4) 0 == MbrTypes.GPT_Protective)

/-- What becomes of a repair in the report. -/
def failureLine (what : String) (outcome : Result Unit) : String :=
  match outcome with
  | .ok _ => ""
  | .error e => what ++ " failed: " ++ e.message ++ "\n"

def succeeded (outcome : Result Unit) : Bool :=
  match outcome with
  | .ok _ => true
  | .error _ => false

def checkMbr (mbr : List UInt8) (report : BootRepairReport) (s : RepairState) : BootRepairReport × RepairState :=
  if validateMbr mbr = false then
    let (outcome,s) := repairMbr env sectorSize s
    ({ report with
        mbrRepaired := succeeded outcome
        details := report.details ++ "MBR is damaged; repairing boot code.\n" ++ failureLine "MBR repair" outcome },s)
  else ({ report with details := report.details ++ "MBR is valid.\n" },s)

def headerValid (lba : UInt64) (s : RepairState) : Bool × RepairState :=
  match s.readSectors env sectorSize lba 1 with
  | (.error _,s) => (false,s)
  | (.ok header,s) => (validateGptHeader header,s)

def checkGpt (totalBytes : UInt64) (report : BootRepairReport) (s : RepairState) :
    BootRepairReport × RepairState :=
  let (primaryValid,s) := headerValid env sectorSize GPT_HEADER_LBA s
  let totalSectors := totalBytes / sectorSize.toUInt64
  let (backupLba,s) := s.subtract totalSectors 1
  let (backupValid,s) := headerValid env sectorSize backupLba s
  match primaryValid,backupValid with
  | false,true =>
    let (outcome,s) := repairGpt env sectorSize true s
    ({ report with
        gptRepaired := succeeded outcome
        details := report.details ++ "Primary GPT header is damaged; rebuilding from backup.\n"
          ++ failureLine "GPT primary rebuild" outcome },s)
  | true,false =>
    let (outcome,s) := repairGpt env sectorSize false s
    ({ report with
        gptRepaired := succeeded outcome
        details := report.details ++ "Backup GPT header is damaged; rebuilding from primary.\n"
          ++ failureLine "GPT backup rebuild" outcome },s)
  | false,false =>
    ({ report with details := report.details ++ "Both GPT headers are damaged; cannot repair.\n" },s)
  | true,true => ({ report with details := report.details ++ "GPT headers are valid.\n" },s)

def checkDisk (totalBytes : UInt64) (report : BootRepairReport) (s : RepairState) :
    BootRepairReport × RepairState :=
  match s.readSectors env sectorSize 0 1 with
  | (.error _,s) => (report,s)
  | (.ok mbr,s) =>
    let (report,s) := checkMbr env sectorSize mbr report s
    if isGpt mbr then checkGpt env sectorSize totalBytes report s else (report,s)

def checkBcd (espVolumeLetter : UInt16) (report : BootRepairReport) : BootRepairReport :=
  if espVolumeLetter = 0 then report
  else if env.fileExists espVolumeLetter ":\\EFI\\Microsoft\\Boot\\BCD" then
    { report with details := report.details ++ "BCD store exists.\n" }
  else
    let outcome := env.repairBcd espVolumeLetter
    { report with
      bcdRepaired := succeeded outcome
      details := report.details ++ "BCD store not found; attempting repair.\n" ++ failureLine "BCD repair" outcome }

def checkBootloader (espVolumeLetter windowsVolumeLetter : UInt16) (report : BootRepairReport) : BootRepairReport :=
  if espVolumeLetter = 0 ∨ windowsVolumeLetter = 0 then report
  else if env.fileExists espVolumeLetter ":\\EFI\\Microsoft\\Boot\\bootmgfw.efi" then
    { report with details := report.details ++ "Bootloader files present.\n" }
  else
    let outcome := env.repairBootloader espVolumeLetter windowsVolumeLetter
    { report with
      bootloaderRepaired := succeeded outcome
      details := report.details ++ "bootmgfw.efi not found on ESP; repairing.\n"
        ++ failureLine "Bootloader repair" outcome }

def autoRepair (espVolumeLetter windowsVolumeLetter : UInt16) (s : RepairState) :
    Result BootRepairReport × RepairState :=
  match RawDiskHandle.getGeometry env.device s.disk with
  | .error e => (.error e,s)
  | .ok totalBytes =>
    let (report,s) := checkDisk env sectorSize totalBytes {} s
    (.ok (checkBootloader env espVolumeLetter windowsVolumeLetter (checkBcd env espVolumeLetter report)),s)

end BootRepair
end SetecWizard.Core
