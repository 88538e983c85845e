import SetecWizard.Gpt.Layout
import SetecWizard.Mbr.Parsing
import SetecWizard.Operations.Transfer

/-! Which kind of table a disk is taken to hold. A table is an MBR when sector 0 has the
signature and is no Apple map, and either nothing in it is protective or the GPT it
protects cannot be parsed.
-/
namespace SetecWizard.Core
open SetecWizard.Library

namespace PartitionTable

variable {fuel : Nat} {readFunc : DiskReadCallback} {diskSizeBytes : UInt64} {sectorSize : UInt32}

/-- What a sector 0 is taken for. -/
inductive Detected (fuel : Nat) (readFunc : DiskReadCallback) (diskSizeBytes : UInt64)
    (sectorSize : UInt32) (sector0 : List UInt8) : PartitionTable → Prop
  | apm (t : ApmPartitionTable) (map : readBE16 sector0 0 = APM_DDM_SIGNATURE)
      (parsed : ApmPartitionTable.parse { diskSizeBytes,sectorSize } readFunc = .ok t) :
      Detected fuel readFunc diskSizeBytes sectorSize sector0 (.apm t)
  | mbr (t : MbrPartitionTable) (noMap : readBE16 sector0 0 ≠ APM_DDM_SIGNATURE)
      (signed : readLE16 sector0 510 = MBR_SIGNATURE)
      (parsed : MbrPartitionTable.parse fuel { diskSizeBytes,sectorSize } readFunc = some (.ok t))
      (backing : t.hasGptProtective = true →
        ∃ e, GptPartitionTable.parse { diskSizeBytes,sectorSize } readFunc = .error e) :
      Detected fuel readFunc diskSizeBytes sectorSize sector0 (.mbr t)
  | gpt (t : MbrPartitionTable) (backing : GptPartitionTable)
      (noMap : readBE16 sector0 0 ≠ APM_DDM_SIGNATURE) (signed : readLE16 sector0 510 = MBR_SIGNATURE)
      (parsed : MbrPartitionTable.parse fuel { diskSizeBytes,sectorSize } readFunc = some (.ok t))
      (protective : t.hasGptProtective = true)
      (read : GptPartitionTable.parse { diskSizeBytes,sectorSize } readFunc = .ok backing) :
      Detected fuel readFunc diskSizeBytes sectorSize sector0 (.gpt backing)

theorem parse_detected {table : PartitionTable}
    (parsed : parse fuel readFunc diskSizeBytes sectorSize = some (.ok table)) :
    ∃ sector0, readFunc 0 sectorSize = .ok sector0 ∧ 512 ≤ sector0.length ∧
      Detected fuel readFunc diskSizeBytes sectorSize sector0 table := by
  unfold parse at parsed
  split at parsed
  next => simp at parsed
  next sector0 read =>
    split at parsed
    next => simp at parsed
    next long =>
      refine ⟨sector0,read,Nat.le_of_not_lt long,?_⟩
      split at parsed
      next map =>
        cases apple : ApmPartitionTable.parse { diskSizeBytes,sectorSize } readFunc with
        | error e => simp [apple,Except.map] at parsed
        | ok t =>
          simp only [apple,Except.map,Option.some.injEq,Except.ok.injEq] at parsed
          subst parsed
          exact .apm t map apple
      next noMap =>
        split at parsed
        next => simp at parsed
        next signed =>
          rw [not_not] at signed
          split at parsed
          next => simp at parsed
          next => simp at parsed
          next t found =>
            split at parsed
            next protective =>
              split at parsed
              next e failed =>
                simp only [Option.some.injEq,Except.ok.injEq] at parsed
                subst parsed
                exact .mbr t noMap signed found (fun _ => ⟨e,failed⟩)
              next backing read =>
                simp only [Option.some.injEq,Except.ok.injEq] at parsed
                subst parsed
                exact .gpt t backing noMap signed found protective read
            next plain =>
              simp only [Option.some.injEq,Except.ok.injEq] at parsed
              subst parsed
              exact .mbr t noMap signed found (fun protective => absurd protective plain)

theorem parse_of_mbr {sector0 : List UInt8} {t : MbrPartitionTable} (read : readFunc 0 sectorSize = .ok sector0)
    (long : 512 ≤ sector0.length) (noMap : readBE16 sector0 0 ≠ APM_DDM_SIGNATURE)
    (signed : readLE16 sector0 510 = MBR_SIGNATURE)
    (parsed : MbrPartitionTable.parse fuel { diskSizeBytes,sectorSize } readFunc = some (.ok t))
    (backing : t.hasGptProtective = true →
      ∃ e, GptPartitionTable.parse { diskSizeBytes,sectorSize } readFunc = .error e) :
    parse fuel readFunc diskSizeBytes sectorSize = some (.ok (.mbr t)) := by
  unfold parse
  simp only [read,if_neg (Nat.not_lt.mpr long),if_neg noMap,signed,ne_eq,not_true,if_false,parsed]
  split
  next protective =>
    obtain ⟨e,failed⟩ := backing protective
    rw [failed]
  next => rfl

theorem parse_gpt {t : GptPartitionTable}
    (parsed : parse fuel readFunc diskSizeBytes sectorSize = some (.ok (.gpt t))) :
    GptPartitionTable.parse { diskSizeBytes,sectorSize } readFunc = .ok t := by
  obtain ⟨_,_,_,kind⟩ := parse_detected parsed
  cases kind with
  | gpt _ _ _ _ _ _ read => exact read

end PartitionTable

namespace OperationUtils

variable {fuel : Nat} {os : Win32} {disk : Disk} {sectorSize : UInt32}

theorem readPartitionTable_ok {table : PartitionTable}
    (read : readPartitionTable fuel os disk sectorSize = some (.ok table)) :
    PartitionTable.parse fuel (readFunc os disk sectorSize) disk.totalBytes sectorSize = some (.ok table) := by
  unfold readPartitionTable at read
  split at read
  next => simp at read
  next =>
    split at read
    next => simp at read
    next diskSizeBytes size =>
      have total : diskSizeBytes = disk.totalBytes := by
        unfold RawDiskHandle.getGeometry checked at size
        cases failing : os.diskGeometry with
        | none =>
          simp only [failing,Except.map,Except.ok.injEq] at size
          exact size.symm
        | some e =>
          rw [failing] at size
          cases size
      rw [← total]
      exact read

end OperationUtils

namespace GptPartitionTable

theorem parseEntries_slotted (t : GptPartitionTable) (data : List UInt8) : (t.parseEntries data).Slotted := by
  constructor
  · simp only [parseEntries,List.map_map]
    refine List.Nodup.map (fun a b same => Int.ofNat_inj.mp same) (List.Nodup.filter _ ?_)
    exact List.nodup_range.sublist (List.takeWhile_sublist _)
  · intro e member
    simp only [parseEntries] at member ⊢
    obtain ⟨i,used,rfl⟩ := List.mem_map.mp member
    have inside := (List.takeWhile_sublist _).subset (List.mem_filter.mp used).1
    have bound := List.mem_range.mp inside
    simp only [entryAt]
    omega

/-- A header the parser does not turn down. -/
structure Readable (headerData : List UInt8) : Prop where
  long : GPT_HEADER_SIZE.toNat ≤ headerData.length
  signed : readLE64 headerData 0 = GPT_HEADER_SIGNATURE
  wide : GPT_ENTRY_SIZE ≤ readLE32 headerData 84
  few : readLE32 headerData 80 ≤ 1024

theorem parse_reads {self : GptPartitionTable} {readFunc : DiskReadCallback} :
    (∃ t, self.parse readFunc = .ok t) ↔
      ∃ sector0 headerData entryData, readFunc 0 self.sectorSize = .ok sector0 ∧
        readFunc self.sectorSize.toUInt64 self.sectorSize = .ok headerData ∧ Readable headerData ∧
        readFunc (readLE64 headerData 72 * self.sectorSize.toUInt64)
          (readLE32 headerData 80 * readLE32 headerData 84) = .ok entryData := by
  unfold parse
  constructor
  · rintro ⟨t,parsed⟩
    obtain ⟨sector0,first,parsed⟩ := bind_ok.mp parsed
    obtain ⟨headerData,header,parsed⟩ := bind_ok.mp parsed
    obtain ⟨_,long,parsed⟩ := bind_ok.mp parsed
    obtain ⟨_,signed,parsed⟩ := bind_ok.mp parsed
    obtain ⟨_,wide,parsed⟩ := bind_ok.mp parsed
    obtain ⟨_,few,parsed⟩ := bind_ok.mp parsed
    obtain ⟨entryData,entries,_⟩ := bind_ok.mp parsed
    exact ⟨sector0,headerData,entryData,first,header,
      ⟨Nat.le_of_not_lt (refuse_ok.mp long),not_not.mp (refuse_ok.mp signed),
        UInt32.not_lt.mp (refuse_ok.mp wide),UInt32.not_lt.mp (refuse_ok.mp few)⟩,entries⟩
  · rintro ⟨sector0,headerData,entryData,first,header,⟨long,signed,wide,few⟩,entries⟩
    refine ⟨_,bind_ok.mpr ⟨sector0,first,bind_ok.mpr ⟨headerData,header,bind_ok.mpr
      ⟨(),refuse_ok.mpr (Nat.not_lt.mpr long),bind_ok.mpr ⟨(),refuse_ok.mpr (not_not.mpr signed),bind_ok.mpr
        ⟨(),refuse_ok.mpr (UInt32.not_lt.mpr wide),bind_ok.mpr ⟨(),refuse_ok.mpr (UInt32.not_lt.mpr few),
          bind_ok.mpr ⟨entryData,entries,rfl⟩⟩⟩⟩⟩⟩⟩⟩

theorem parse_shape {self t : GptPartitionTable} {readFunc : DiskReadCallback}
    (parsed : self.parse readFunc = .ok t) :
    t.Slotted ∧ t.diskSizeBytes = self.diskSizeBytes ∧ t.sectorSize = self.sectorSize := by
  unfold parse at parsed
  obtain ⟨sector0,_,parsed⟩ := bind_ok.mp parsed
  obtain ⟨headerData,_,parsed⟩ := bind_ok.mp parsed
  obtain ⟨_,_,parsed⟩ := bind_ok.mp parsed
  obtain ⟨_,_,parsed⟩ := bind_ok.mp parsed
  obtain ⟨_,_,parsed⟩ := bind_ok.mp parsed
  obtain ⟨_,_,parsed⟩ := bind_ok.mp parsed
  obtain ⟨entryData,_,parsed⟩ := bind_ok.mp parsed
  cases parsed
  exact ⟨parseEntries_slotted _ _,rfl,rfl⟩

theorem Readable.first_byte {headerData : List UInt8} (header : Readable headerData) :
    headerData.getD 0 0 ≠ 0 := by
  intro zero
  have number := congrArg UInt64.toNat header.signed
  rw [readLE64_toNat,ofLE_slice_succ,zero] at number
  have signature : GPT_HEADER_SIGNATURE.toNat = 0x5452415020494645 := rfl
  have none : (0 : UInt8).toNat = 0 := rfl
  omega

end GptPartitionTable

/-- No GPT is read from the disk, whatever becomes of the reads. -/
def NoGpt (disk : Disk) (sectorSize : UInt32) : Prop :=
  ∀ os t, GptPartitionTable.parse { diskSizeBytes := disk.totalBytes,sectorSize }
    (OperationUtils.readFunc os disk sectorSize) ≠ .ok t

/-- A change of the disk makes no GPT as long as it wipes the header from its first byte on
or leaves its sector alone. -/
theorem NoGpt.kept {disk disk' : Disk} {sectorSize : UInt32} (positive : 0 < sectorSize.toNat)
    (size : disk'.totalBytes = disk.totalBytes)
    (header : disk'.byte sectorSize.toNat = 0 ∨
      ∀ i, sectorSize.toNat ≤ i → i < sectorSize.toNat + sectorSize.toNat → disk'.byte i = disk.byte i)
    (none : NoGpt disk sectorSize) : NoGpt disk' sectorSize := by
  intro os t parsed
  rw [size] at parsed
  obtain ⟨sector0,headerData,entryData,first,second,readable,entries⟩ :=
    GptPartitionTable.parse_reads.mp ⟨t,parsed⟩
  have start : (sectorSize.toUInt64 / sectorSize.toUInt64 * sectorSize.toUInt64).toNat = sectorSize.toNat := by
    rw [UInt64.toNat_mul,UInt64.toNat_div,UInt32.toNat_toUInt64,Nat.div_self positive,Nat.one_mul,
      Nat.mod_eq_of_lt (by have := sectorSize.toNat_lt; omega)]
  rcases header with wiped | kept
  · obtain ⟨m,_,same⟩ := readFunc_ok second
    simp only [start] at same
    have byte := readable.first_byte
    have long := readable.long
    have size : GPT_HEADER_SIZE.toNat = 92 := rfl
    rw [same,length_window] at long
    rw [same,getD_window _ _ _ _ (by omega),Nat.add_zero,wiped] at byte
    exact byte rfl
  · obtain ⟨sector0',first',_⟩ := readFunc_other size.symm first
    obtain ⟨headerData',second',same⟩ := readFunc_other size.symm second
    obtain ⟨entryData',entries',_⟩ := readFunc_other size.symm entries
    have sameHeader : headerData' = headerData := same (fun i low high => by
      simp only [start] at low high
      exact (kept i low high).symm)
    subst sameHeader
    obtain ⟨backing,again⟩ := GptPartitionTable.parse_reads.mpr
      ⟨sector0',headerData',entryData',first',second',readable,entries'⟩
    exact none os backing again
end SetecWizard.Core
