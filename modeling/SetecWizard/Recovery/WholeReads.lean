import SetecWizard.Core.PartitionScan
import SetecWizard.Operations.GptRewrite

/-! Reads that are not cut to the size asked for. An MBR and its chain are parsed from the
first bytes of their sectors alone, so that the table is the same either way; of a GPT
this holds up to the header, and the entry array may be read with bytes behind it.
-/
namespace SetecWizard.Core
open SetecWizard.Library

/-- The reads that return no more than was asked for. -/
def cutReads (readFunc : DiskReadCallback) : DiskReadCallback :=
  fun off n => (readFunc off n).map (·.take n.toNat)

theorem cutReads_ok {readFunc : DiskReadCallback} {off : UInt64} {n : UInt32} {data : List UInt8}
    (read : readFunc off n = .ok data) : cutReads readFunc off n = .ok (data.take n.toNat) := by
  rw [cutReads,read]
  rfl

theorem cutReads_error {readFunc : DiskReadCallback} {off : UInt64} {n : UInt32} {e : ErrorInfo}
    (failed : readFunc off n = .error e) : cutReads readFunc off n = .error e := by
  rw [cutReads,failed]
  rfl

section Sector

variable {data : List UInt8}

theorem take_sector (data : List UInt8) : data.take MBR_SIZE.toNat = slice data 0 512 := rfl

theorem length_cut_sector (data : List UInt8) :
    (data.take MBR_SIZE.toNat).length < MBR_SIZE.toNat ↔ data.length < MBR_SIZE.toNat := by
  rw [List.length_take]
  omega

theorem signature_cut (data : List UInt8) :
    readLE16 (data.take MBR_SIZE.toNat) 510 = readLE16 data 510 := by
  rw [take_sector,readLE16_slice _ _ _ _ (by decide),Nat.zero_add]

theorem slotBytes_cut (data : List UInt8) {i : Nat} (bound : i < 4) :
    slotBytes (data.take MBR_SIZE.toNat) i = slotBytes data i := by
  have base : MBR_PARTITION_ENTRY_OFFSET = 446 := rfl
  have size : MBR_PARTITION_ENTRY_SIZE = 16 := rfl
  rw [take_sector]
  unfold slotBytes
  rw [base,size,slice_slice _ _ _ _ _ (by omega),Nat.zero_add]

theorem primaryEntries_cut (sectorSize : UInt32) (data : List UInt8) :
    (occupiedSlots (data.take MBR_SIZE.toNat)).map (primaryEntry sectorSize (data.take MBR_SIZE.toNat)) =
      (occupiedSlots data).map (primaryEntry sectorSize data) := by
  rw [occupiedSlots_congr (fun i bound => slotBytes_cut data bound)]
  refine List.map_congr_left (fun i member => ?_)
  have bound := List.mem_range.mp (List.mem_filter.mp member).1
  rw [primaryEntry_eq,primaryEntry_eq,slotBytes_cut data bound]

theorem ebrPass_cut (sectorSize : UInt32) (readFunc : DiskReadCallback) (extStart extSize : UInt64) (w : EbrWalk) :
    ebrPass sectorSize (cutReads readFunc) extStart extSize w = ebrPass sectorSize readFunc extStart extSize w := by
  have base : MBR_PARTITION_ENTRY_OFFSET = 446 := rfl
  have size : MBR_PARTITION_ENTRY_SIZE = 16 := rfl
  unfold ebrPass
  cases read : readFunc (w.currentEbrLba * sectorSize.toUInt64) MBR_SIZE with
  | error e => rw [cutReads_error read]
  | ok data =>
    have byte (i : Nat) (inside : i < 512) : (data.take MBR_SIZE.toNat).getD i 0 = data.getD i 0 := by
      rw [take_sector,getD_slice _ _ _ _ inside,Nat.zero_add]
    have word (i : Nat) (inside : i + 4 ≤ 512) :
        readLE32 (data.take MBR_SIZE.toNat) i = readLE32 data i := by
      rw [take_sector,readLE32_slice _ _ _ _ inside,Nat.zero_add]
    have chs (i : Nat) (inside : i + 3 ≤ 512) :
        decodeCHS (data.take MBR_SIZE.toNat) i = decodeCHS data i := by
      rw [take_sector,decodeCHS_slice _ _ _ _ inside,Nat.zero_add]
    rw [cutReads_ok read]
    simp (disch := decide) only [length_cut_sector,signature_cut,pushLogical,base,size,byte,word,chs]

theorem ebrLoop_cut (sectorSize : UInt32) (readFunc : DiskReadCallback) (extStart extSize : UInt64) (fuel : Nat)
    (w : EbrWalk) : ebrLoop sectorSize (cutReads readFunc) extStart extSize fuel w =
      ebrLoop sectorSize readFunc extStart extSize fuel w := by
  induction fuel generalizing w with
  | zero => rfl
  | succ fuel ih =>
    rw [ebrLoop,ebrLoop,ebrPass_cut]
    simp only [ih]

end Sector

theorem MbrPartitionTable.parse_cut (fuel : Nat) (self : MbrPartitionTable) (readFunc : DiskReadCallback) :
    self.parse fuel (cutReads readFunc) = self.parse fuel readFunc := by
  unfold parse
  cases read : readFunc 0 MBR_SIZE with
  | error e => rw [cutReads_error read]
  | ok raw =>
    rw [cutReads_ok read]
    simp only [length_cut_sector,signature_cut,primaryEntries_cut,walkExtendedChain,ebrLoop_cut]
    by_cases short : raw.length < MBR_SIZE.toNat
    · simp only [if_pos short]
    · have bytes : MBR_SIZE.toNat = 512 := rfl
      have boot : Bytes.copy (raw.take MBR_SIZE.toNat) 0 446 = Bytes.copy raw 0 446 := by
        refine Bytes.copy_of_slice _ (by rw [List.length_take]; omega) ?_
        rw [take_sector,slice_slice _ _ _ _ _ (by decide),Bytes.copy_data _ _ _ (by omega)]
      have word : readLE32 (raw.take MBR_SIZE.toNat) 440 = readLE32 raw 440 := by
        rw [take_sector,readLE32_slice _ _ _ _ (by decide),Nat.zero_add]
      have half : readLE16 (raw.take MBR_SIZE.toNat) 444 = readLE16 raw 444 := by
        rw [take_sector,readLE16_slice _ _ _ _ (by decide),Nat.zero_add]
      rw [boot,word,half]

section Detection

variable {readFunc : DiskReadCallback} {sectorSize : UInt32} {diskSizeBytes : UInt64} {fuel : Nat}

def Exact (readFunc : DiskReadCallback) (sectorSize : UInt32) : Prop :=
  ∀ off data, readFunc off sectorSize = .ok data → data.length ≤ sectorSize.toNat

theorem Exact.cut (exact : Exact readFunc sectorSize) (off : UInt64) :
    cutReads readFunc off sectorSize = readFunc off sectorSize := by
  cases read : readFunc off sectorSize with
  | error e => exact cutReads_error read
  | ok data => rw [cutReads_ok read,List.take_of_length_le (exact off data read)]

/-- Only the entries of a GPT depend on what is read behind its array. -/
theorem GptPartitionTable.parse_cut (exact : Exact readFunc sectorSize) :
    (∃ t, parse { diskSizeBytes,sectorSize } (cutReads readFunc) = .ok t) ↔
      ∃ t, parse { diskSizeBytes,sectorSize } readFunc = .ok t := by
  rw [parse_reads,parse_reads]
  simp only [exact.cut]
  constructor
  · rintro ⟨sector0,headerData,entryData,first,header,readable,entries⟩
    cases read : readFunc (readLE64 headerData 72 * sectorSize.toUInt64)
        (readLE32 headerData 80 * readLE32 headerData 84) with
    | error e =>
      rw [cutReads_error read] at entries
      cases entries
    | ok data => exact ⟨sector0,headerData,data,first,header,readable,read⟩
  · rintro ⟨sector0,headerData,entryData,first,header,readable,entries⟩
    exact ⟨sector0,headerData,_,first,header,readable,cutReads_ok entries⟩

/-- What one way of reading takes for an MBR another takes for the same, when the two
agree on sector 0, on the MBR and on whether there is a GPT. -/
theorem PartitionTable.parse_mbr_of {other : DiskReadCallback} {t : MbrPartitionTable}
    (first : other 0 sectorSize = readFunc 0 sectorSize)
    (mbr : MbrPartitionTable.parse fuel { diskSizeBytes,sectorSize } other =
      MbrPartitionTable.parse fuel { diskSizeBytes,sectorSize } readFunc)
    (gpt : (∃ g, GptPartitionTable.parse { diskSizeBytes,sectorSize } other = .ok g) →
      ∃ g, GptPartitionTable.parse { diskSizeBytes,sectorSize } readFunc = .ok g)
    (parsed : parse fuel readFunc diskSizeBytes sectorSize = some (.ok (.mbr t))) :
    parse fuel other diskSizeBytes sectorSize = some (.ok (.mbr t)) := by
  obtain ⟨sector0,read,long,kind⟩ := parse_detected parsed
  cases kind with
  | mbr _ noMap signed table backing =>
    refine parse_of_mbr (first.trans read) long noMap signed (mbr.trans table) (fun protective => ?_)
    obtain ⟨e,failed⟩ := backing protective
    cases outcome : GptPartitionTable.parse { diskSizeBytes,sectorSize } other with
    | error e => exact ⟨e,rfl⟩
    | ok g =>
      obtain ⟨g',found⟩ := gpt ⟨g,outcome⟩
      rw [failed] at found
      cases found

theorem PartitionTable.parse_cut_mbr (exact : Exact readFunc sectorSize) {t : MbrPartitionTable} :
    parse fuel (cutReads readFunc) diskSizeBytes sectorSize = some (.ok (.mbr t)) ↔
      parse fuel readFunc diskSizeBytes sectorSize = some (.ok (.mbr t)) := by
  have first := exact.cut 0
  have mbr := MbrPartitionTable.parse_cut fuel { diskSizeBytes,sectorSize } readFunc
  have gpt := @GptPartitionTable.parse_cut readFunc sectorSize diskSizeBytes exact
  exact ⟨parse_mbr_of first.symm mbr.symm gpt.mpr,parse_mbr_of first mbr gpt.mp⟩

theorem PartitionTable.parse_of_gpt {sector0 : List UInt8} {t : MbrPartitionTable} {g : GptPartitionTable}
    (read : readFunc 0 sectorSize = .ok sector0) (long : 512 ≤ sector0.length)
    (noMap : readBE16 sector0 0 ≠ APM_DDM_SIGNATURE) (signed : readLE16 sector0 510 = MBR_SIGNATURE)
    (table : MbrPartitionTable.parse fuel { diskSizeBytes,sectorSize } readFunc = some (.ok t))
    (protective : t.hasGptProtective = true)
    (backing : GptPartitionTable.parse { diskSizeBytes,sectorSize } readFunc = .ok g) :
    parse fuel readFunc diskSizeBytes sectorSize = some (.ok (.gpt g)) := by
  unfold parse
  simp only [read,if_neg (Nat.not_lt.mpr long),if_neg noMap,signed,ne_eq,not_true,if_false,table,protective,
    if_true,backing]

end Detection

namespace PartitionRecovery

variable {os : Win32} {disk : Disk} {sectorSize : UInt32}

/-- Rounding up twice is rounding up once. -/
theorem count_aligned (positive : 0 < sectorSize.toNat) (n : UInt32) :
    (n + sectorSize - 1) / sectorSize * sectorSize / sectorSize = (n + sectorSize - 1) / sectorSize := by
  have below := sectors_below n sectorSize
  generalize (n + sectorSize - 1) / sectorSize = count at below ⊢
  apply UInt32.toNat_inj.mp
  rw [UInt32.toNat_div,UInt32.toNat_mul,Nat.mod_eq_of_lt below,Nat.mul_div_cancel _ positive]

theorem readFunc_cut (positive : 0 < sectorSize.toNat) :
    OperationUtils.readFunc os disk sectorSize = cutReads (readFunc os disk sectorSize) := by
  funext off n
  simp only [OperationUtils.readFunc,cutReads,readFunc,count_aligned positive]

theorem readFunc_full (full : os.ReadsInFull) (disk : Disk) (sectorSize : UInt32) :
    readFunc os disk sectorSize = readFunc .working disk sectorSize := by
  funext off n
  unfold readFunc RawDiskHandle.readSectors
  simp only [full _ _,Win32.working]

theorem readFunc_counted (disk : Disk) (positive : 0 < sectorSize.toNat) (off : UInt64) (n : UInt32) :
    readFunc .working disk sectorSize off n = .ok (window disk.byte
      (off / sectorSize.toUInt64 * sectorSize.toUInt64).toNat
      (disk.reach (off / sectorSize.toUInt64 * sectorSize.toUInt64).toNat
        (((n + sectorSize - 1) / sectorSize).toNat * sectorSize.toNat))) := by
  simp only [readFunc,count_aligned positive,readSectors_counted disk _ _ (sectors_below n sectorSize)]

theorem readFunc_exact (disk : Disk) (positive : 0 < sectorSize.toNat) (moderate : sectorSize.toNat ≤ 2 ^ 31) :
    Exact (readFunc .working disk sectorSize) sectorSize := by
  intro off data read
  have one : (1 : UInt32).toNat = 1 := rfl
  have single : ((sectorSize + sectorSize - 1) / sectorSize).toNat = 1 := by
    rw [UInt32.toNat_div,UInt32.toNat_sub,UInt32.toNat_add,one]
    exact Nat.div_eq_of_lt_le (by omega) (by omega)
  rw [readFunc_counted disk positive,single,Nat.one_mul] at read
  cases read
  rw [length_window]
  exact Nat.min_le_left _ _

def parsedTable (fuel : Nat) (os : Win32) (disk : Disk) (sectorSize : UInt32) : Option (Result PartitionTable) :=
  PartitionTable.parse fuel (readFunc os disk sectorSize) disk.totalBytes sectorSize

variable {fuel : Nat}

theorem tableOf_mbr (positive : 0 < sectorSize.toNat) (moderate : sectorSize.toNat ≤ 2 ^ 31)
    {t : MbrPartitionTable} : parsedTable fuel .working disk sectorSize = some (.ok (.mbr t)) ↔
      OperationUtils.readPartitionTable fuel .working disk sectorSize = some (.ok (.mbr t)) := by
  rw [readPartitionTable_working,readFunc_cut positive,parsedTable]
  exact (PartitionTable.parse_cut_mbr (readFunc_exact disk positive moderate)).symm

theorem tableOf_gpt (positive : 0 < sectorSize.toNat) (moderate : sectorSize.toNat ≤ 2 ^ 31)
    {g : GptPartitionTable} (found : parsedTable fuel .working disk sectorSize = some (.ok (.gpt g))) :
    Legible disk sectorSize ∧ GptPartitionTable.parse { diskSizeBytes := disk.totalBytes,sectorSize }
      (readFunc .working disk sectorSize) = .ok g := by
  obtain ⟨sector0,read,long,kind⟩ := PartitionTable.parse_detected found
  cases kind with
  | gpt t _ noMap signed table protective backing =>
    refine ⟨?_,backing⟩
    have cut := (readFunc_exact disk positive moderate).cut 0
    rw [← readFunc_cut positive,read] at cut
    obtain ⟨wide,_,room⟩ := sector_bounds disk cut long
    obtain ⟨_,signature,map⟩ := OperationUtils.readFunc_first cut long
    exact ⟨wide,moderate,room,signature ▸ signed,map ▸ noMap⟩

end PartitionRecovery
end SetecWizard.Core
