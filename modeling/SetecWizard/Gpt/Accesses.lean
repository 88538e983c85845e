import SetecWizard.Core.GptPartitionTable
import SetecWizard.Library.Footprint

/-! The bytes the GPT parser and the CRC check touch. Both follow lengths found on
the disk: the size of the header, and the product of the two words that describe
the entry array.
-/
namespace SetecWizard.Core
open SetecWizard.Library

namespace GptPartitionTable

def read32At (buffer : List UInt8) (off : Nat) : Footprint ErrorInfo UInt32 :=
  .access buffer.length off 4 (readLE32 buffer off)

def read64At (buffer : List UInt8) (off : Nat) : Footprint ErrorInfo UInt64 :=
  .access buffer.length off 8 (readLE64 buffer off)

def guidAt (buffer : List UInt8) (off : Nat) : Footprint ErrorInfo Guid :=
  .access buffer.length off 16 (guidFromBytes buffer off)

def headerCrc (headerData : List UInt8) (headerSize : UInt32) : Footprint ErrorInfo UInt32 := do
  let headerCopy ← .access headerData.length 0 headerSize.toNat (headerData.take headerSize.toNat)
  let headerCopy ← .access headerSize.toNat 16 4 (writeLE32 headerCopy 16 0)
  .access headerSize.toNat 0 headerSize.toNat (crc32 headerCopy)

def entriesCrc (entryData : List UInt8) (entryArrayBytes : UInt32) : Footprint ErrorInfo UInt32 :=
  .access entryData.length 0 entryArrayBytes.toNat (crc32 (entryData.take entryArrayBytes.toNat))

/-- The ranges the loop of `parseEntries` reads of an entry, of the name at most these. -/
def entryAccesses (entryData : List UInt8) (entrySize i : Nat) : List Access :=
  let entry := i * entrySize
  ⟨entryData.length,entry,16⟩ ::
    if (guidFromBytes entryData entry).isZero then []
    else [⟨entryData.length,entry + 16,16⟩,⟨entryData.length,entry + 32,8⟩,⟨entryData.length,entry + 40,8⟩,
      ⟨entryData.length,entry + 48,8⟩,⟨entryData.length,entry + 56,72⟩]

def parseEntriesAccesses (self : GptPartitionTable) (entryData : List UInt8) :
    Footprint ErrorInfo GptPartitionTable :=
  let complete (i : Nat) : Bool :=
    i * self.entrySize.toNat + GPT_ENTRY_SIZE.toNat ≤ entryData.length
  ⟨((List.range self.entryCount.toNat).takeWhile complete).flatMap
      (entryAccesses entryData self.entrySize.toNat),
    .ok (self.parseEntries entryData)⟩

def protectiveCopy (self : GptPartitionTable) (sector0 : List UInt8) : Footprint ErrorInfo (Bytes 512) :=
  if 512 ≤ sector0.length then .access sector0.length 0 512 (.copy sector0 0 512)
  else pure self.protectiveMbr

def parseAccesses (self : GptPartitionTable) (readFunc : DiskReadCallback) :
    Footprint ErrorInfo GptPartitionTable := do
  let sector0 ← .lift (readFunc 0 self.sectorSize)
  let protectiveMbr ← self.protectiveCopy sector0
  let headerData ← .lift (readFunc self.sectorSize.toUInt64 self.sectorSize)
  .lift (refuse (headerData.length < GPT_HEADER_SIZE.toNat) .partitionTableCorrupt "GPT header too small")
  let signature ← read64At headerData 0
  .lift (refuse (signature ≠ GPT_HEADER_SIGNATURE) .partitionTableCorrupt
    "Invalid GPT header signature (expected 'EFI PART')")
  let revision ← read32At headerData 8
  let headerSize ← read32At headerData 12
  let _headerCrc ← read32At headerData 16
  let _myLba ← read64At headerData 24
  let alternateLba ← read64At headerData 32
  let firstUsableLba ← read64At headerData 40
  let lastUsableLba ← read64At headerData 48
  let diskGuid ← guidAt headerData 56
  let entryLba ← read64At headerData 72
  let entryCount ← read32At headerData 80
  let entrySize ← read32At headerData 84
  let _entryCrc ← read32At headerData 88
  -- a mismatch is only logged, here and below
  let _computedCrc ← headerCrc headerData headerSize
  .lift (refuse (entrySize < GPT_ENTRY_SIZE) .partitionTableCorrupt
    "GPT entry size too small (minimum 128 bytes)")
  .lift (refuse (1024 < entryCount) .partitionTableCorrupt "GPT entry count unreasonably large")
  let entryData ← .lift (readFunc (entryLba * self.sectorSize.toUInt64) (entryCount * entrySize))
  let _computedEntryCrc ← entriesCrc entryData (entryCount * entrySize)
  parseEntriesAccesses { self with
    protectiveMbr := protectiveMbr
    revision := revision
    alternateLba := alternateLba
    firstUsableLba := firstUsableLba
    lastUsableLba := lastUsableLba
    diskGuid := diskGuid
    entryCount := entryCount
    entrySize := entrySize } entryData

def parseBackupAccesses (self : GptPartitionTable) (readFunc : DiskReadCallback) :
    Footprint ErrorInfo GptPartitionTable := do
  let alternateLba :=
    if self.alternateLba = 0 then self.diskSizeBytes / self.sectorSize.toUInt64 - 1
    else self.alternateLba
  let headerData ← .lift (readFunc (alternateLba * self.sectorSize.toUInt64) self.sectorSize)
  .lift (refuse (headerData.length < GPT_HEADER_SIZE.toNat) .partitionTableCorrupt
    "Backup GPT header too small")
  let signature ← read64At headerData 0
  .lift (refuse (signature ≠ GPT_HEADER_SIGNATURE) .partitionTableCorrupt
    "Invalid backup GPT header signature")
  let entryLba ← read64At headerData 72
  let entryCount ← read32At headerData 80
  let entrySize ← read32At headerData 84
  let entryData ← .lift (readFunc (entryLba * self.sectorSize.toUInt64) (entryCount * entrySize))
  parseEntriesAccesses { self with
    alternateLba := alternateLba
    entryCount := entryCount
    entrySize := entrySize } entryData

def validateCrcsAccesses (self : GptPartitionTable) (readFunc : DiskReadCallback) :
    Footprint ErrorInfo Unit := do
  let headerData ← .lift (readFunc self.sectorSize.toUInt64 self.sectorSize)
  let headerSize ← read32At headerData 12
  let storedHeaderCrc ← read32At headerData 16
  let computedHeaderCrc ← headerCrc headerData headerSize
  .lift (refuse (computedHeaderCrc ≠ storedHeaderCrc) .partitionTableCorrupt
    ("GPT header CRC32 mismatch: stored=0x" ++ hex storedHeaderCrc ++ " computed=0x"
      ++ hex computedHeaderCrc))
  let entryLba ← read64At headerData 72
  let entryCount ← read32At headerData 80
  let entrySize ← read32At headerData 84
  let storedEntryCrc ← read32At headerData 88
  let entryData ← .lift (readFunc (entryLba * self.sectorSize.toUInt64) (entryCount * entrySize))
  let computedEntryCrc ← entriesCrc entryData (entryCount * entrySize)
  .lift (refuse (computedEntryCrc ≠ storedEntryCrc) .partitionTableCorrupt
    "GPT partition entry array CRC32 mismatch")

theorem protectiveCopy_result (self : GptPartitionTable) (sector0 : List UInt8) :
    (self.protectiveCopy sector0).result =
      .ok (if 512 ≤ sector0.length then .copy sector0 0 512 else self.protectiveMbr) := by
  unfold protectiveCopy
  split <;> rfl

theorem protectiveCopy_safe (self : GptPartitionTable) (sector0 : List UInt8) :
    (self.protectiveCopy sector0).Safe := by
  unfold protectiveCopy
  split
  next whole => exact (Footprint.safe_access _ _ _ _).mpr whole
  next short => exact (Footprint.safe_pure _).mpr trivial

theorem parseAccesses_result (self : GptPartitionTable) (readFunc : DiskReadCallback) :
    (self.parseAccesses readFunc).result = self.parse readFunc := by
  simp only [parseAccesses,parse,Footprint.result_bind,Footprint.result_lift,protectiveCopy_result]
  rfl

theorem parseBackupAccesses_result (self : GptPartitionTable) (readFunc : DiskReadCallback) :
    (self.parseBackupAccesses readFunc).result = self.parseBackup readFunc := by
  simp only [parseBackupAccesses,parseBackup,Footprint.result_bind,Footprint.result_lift]
  rfl

theorem validateCrcsAccesses_result (self : GptPartitionTable) (readFunc : DiskReadCallback) :
    (self.validateCrcsAccesses readFunc).result = self.validateCrcs readFunc := by
  simp only [validateCrcsAccesses,validateCrcs,Footprint.result_bind,Footprint.result_lift]
  rfl

theorem headerCrc_result (headerData : List UInt8) (headerSize : UInt32) :
    (headerCrc headerData headerSize).result = .ok (crc32 (crcInput headerData headerSize)) := rfl

theorem parseEntriesAccesses_safe (self : GptPartitionTable) (entryData : List UInt8) :
    (self.parseEntriesAccesses entryData).Safe := by
  intro a member
  obtain ⟨i,complete,touched⟩ := List.mem_flatMap.mp member
  have fits : i * self.entrySize.toNat + 128 ≤ entryData.length :=
    of_decide_eq_true (List.all_eq_true.mp List.all_takeWhile i complete)
  simp only [entryAccesses] at touched
  split at touched <;> simp only [List.mem_cons,List.not_mem_nil,or_false] at touched
  · simp only [touched,Access.Inside]
    omega
  · rcases touched with rfl | rfl | rfl | rfl | rfl | rfl <;>
    · simp only [Access.Inside]
      omega

/-- The size the header gives covers its CRC field and is covered by its sector. -/
def HeaderFits (headerData : List UInt8) : Prop :=
  20 ≤ (readLE32 headerData 12).toNat ∧ (readLE32 headerData 12).toNat ≤ headerData.length

def EntriesFit (sectorSize : UInt32) (readFunc : DiskReadCallback) (headerData : List UInt8) : Prop :=
  let entryArrayBytes := readLE32 headerData 80 * readLE32 headerData 84
  ∀ entryData, readFunc (readLE64 headerData 72 * sectorSize.toUInt64) entryArrayBytes = .ok entryData →
    entryArrayBytes.toNat ≤ entryData.length

/-- What `parse` follows off the disk stays within what it was given. -/
def ParseFits (sectorSize : UInt32) (readFunc : DiskReadCallback) : Prop :=
  ∀ sector0 headerData, readFunc 0 sectorSize = .ok sector0 →
    readFunc sectorSize.toUInt64 sectorSize = .ok headerData →
    92 ≤ headerData.length → readLE64 headerData 0 = GPT_HEADER_SIGNATURE →
    HeaderFits headerData ∧
      (GPT_ENTRY_SIZE ≤ readLE32 headerData 84 → readLE32 headerData 80 ≤ 1024 →
        EntriesFit sectorSize readFunc headerData)

/-- The same for `validateCrcs`, which asks neither for a whole header nor for a signature. -/
def CrcsFit (sectorSize : UInt32) (readFunc : DiskReadCallback) : Prop :=
  ∀ headerData, readFunc sectorSize.toUInt64 sectorSize = .ok headerData →
    HeaderFits headerData ∧
      (crc32 (crcInput headerData (readLE32 headerData 12)) = readLE32 headerData 16 →
        92 ≤ headerData.length ∧ EntriesFit sectorSize readFunc headerData)

theorem headerCrc_safe (headerData : List UInt8) :
    (headerCrc headerData (readLE32 headerData 12)).Safe ↔ HeaderFits headerData := by
  simp only [headerCrc,Footprint.safe_bind,Footprint.safe_access,Footprint.result_access,Except.ok.injEq,
    forall_eq',HeaderFits]
  omega

theorem refuse_leads {condition : Prop} [Decidable condition] {code : ErrorCode} {msg : String}
    {rest : Prop} : (∀ a, refuse condition code msg = .ok a → rest) ↔ (¬ condition → rest) := by
  unfold refuse
  split <;> simp_all

theorem parse_safe_iff (self : GptPartitionTable) (readFunc : DiskReadCallback) :
    (self.parseAccesses readFunc).Safe ↔ ParseFits self.sectorSize readFunc := by
  simp only [parseAccesses,read32At,read64At,guidAt,entriesCrc,Footprint.safe_bind,Footprint.safe_lift,
    Footprint.result_lift,Footprint.safe_access,Footprint.result_access,Except.ok.injEq,forall_eq',
    refuse_leads,headerCrc_safe,headerCrc_result,protectiveCopy_safe,protectiveCopy_result,
    parseEntriesAccesses_safe,true_and,and_true,Nat.zero_add,not_not,UInt32.not_lt,Nat.not_lt,ParseFits,
    EntriesFit]
  constructor
  · intro safe sector0 headerData first header whole signed
    exact (safe sector0 first headerData header whole).2 signed |>.2.2.2.2.2.2.2.2.2.2.2.2
  · intro fits sector0 first headerData header whole
    have whole : 92 ≤ headerData.length := whole
    refine ⟨by omega,fun signed => ?_⟩
    have both := fits sector0 headerData first header whole signed
    refine ⟨?_,?_,?_,?_,?_,?_,?_,?_,?_,?_,?_,?_,both⟩ <;> omega

theorem parseBackup_safe (self : GptPartitionTable) (readFunc : DiskReadCallback) :
    (self.parseBackupAccesses readFunc).Safe := by
  simp only [parseBackupAccesses,read32At,read64At,Footprint.safe_bind,Footprint.safe_lift,
    Footprint.result_lift,Footprint.safe_access,Footprint.result_access,Except.ok.injEq,forall_eq',
    refuse_leads,parseEntriesAccesses_safe,implies_true,true_and,and_true,Nat.zero_add,Nat.not_lt]
  intro headerData header whole
  have whole : 92 ≤ headerData.length := whole
  refine ⟨by omega,fun _ => ⟨?_,?_,?_⟩⟩ <;> omega

theorem validateCrcs_safe_iff (self : GptPartitionTable) (readFunc : DiskReadCallback) :
    (self.validateCrcsAccesses readFunc).Safe ↔ CrcsFit self.sectorSize readFunc := by
  simp only [validateCrcsAccesses,read32At,read64At,entriesCrc,Footprint.safe_bind,Footprint.safe_lift,
    Footprint.result_lift,Footprint.safe_access,Footprint.result_access,Except.ok.injEq,forall_eq',
    refuse_leads,headerCrc_safe,headerCrc_result,true_and,and_true,implies_true,Nat.zero_add,not_not,CrcsFit,
    EntriesFit]
  constructor
  · intro safe headerData header
    obtain ⟨_,_,fits,rest⟩ := safe headerData header
    refine ⟨fits,fun sealed => ?_⟩
    obtain ⟨_,_,_,whole,entries⟩ := rest sealed
    exact ⟨whole,entries⟩
  · intro all headerData header
    obtain ⟨fits,rest⟩ := all headerData header
    have enough : 20 ≤ headerData.length := Nat.le_trans fits.1 fits.2
    refine ⟨by omega,enough,fits,fun sealed => ?_⟩
    obtain ⟨whole,entries⟩ := rest sealed
    refine ⟨?_,?_,?_,whole,entries⟩ <;> omega

/-- Which disks the parsers and the CRC check read within bounds. -/
theorem accesses_safe_iff (self : GptPartitionTable) (readFunc : DiskReadCallback) :
    ((self.parseAccesses readFunc).Safe ↔ ParseFits self.sectorSize readFunc) ∧
    (self.parseBackupAccesses readFunc).Safe ∧
    ((self.validateCrcsAccesses readFunc).Safe ↔ CrcsFit self.sectorSize readFunc) :=
  ⟨self.parse_safe_iff readFunc,self.parseBackup_safe readFunc,self.validateCrcs_safe_iff readFunc⟩

/-- A header sector that claims a size of one byte more than a sector. -/
def longHeader : List UInt8 :=
  [0x45,0x46,0x49,0x20,0x50,0x41,0x52,0x54,0,0,1,0,1,2,0,0] ++ List.replicate 496 0

theorem length_longHeader : longHeader.length = 512 := by
  rw [longHeader,List.length_append,List.length_replicate]
  rfl

def longHeaders : DiskReadCallback := fun _ size => .ok (longHeader.take size.toNat)

/-- The copy of the header runs past the end of its sector. -/
theorem long_header_overread :
    ¬ ∀ (self : GptPartitionTable) (readFunc : DiskReadCallback),
      (∀ offset size data, readFunc offset size = .ok data → data.length ≤ size.toNat) →
        (self.parseAccesses readFunc).Safe ∧ (self.parseBackupAccesses readFunc).Safe ∧
          (self.validateCrcsAccesses readFunc).Safe := by
  intro always
  have short (offset : UInt64) (size : UInt32) (data : List UInt8)
      (read : longHeaders offset size = .ok data) : data.length ≤ size.toNat := by
    cases read
    exact List.length_take_le _ _
  have safe := (parse_safe_iff {} longHeaders).mp (always {} longHeaders short).1
  have sector (offset : UInt64) : longHeaders offset 512 = .ok longHeader :=
    congrArg Except.ok (List.take_of_length_le (Nat.le_of_eq length_longHeader))
  have fits := (safe longHeader longHeader (sector 0) (sector 512) (by rw [length_longHeader]; decide) (by decide)).1
  exact absurd fits.2 (by rw [length_longHeader]; decide)

end GptPartitionTable
end SetecWizard.Core
