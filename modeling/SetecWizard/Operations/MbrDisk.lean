import SetecWizard.Format.Slots
import SetecWizard.Operations.Detection

/-! An MBR on a disk: what a successful read says about the first bytes of the disk, and
what stands there once a table has been written.
-/
namespace SetecWizard.Core
open SetecWizard.Library

theorem readBE16_window (store : Nat → UInt8) (n m : Nat) (long : 2 ≤ n) (other : 2 ≤ m) :
    readBE16 (window store 0 n) 0 = readBE16 (window store 0 m) 0 := by
  simp only [readBE16]
  rw [getD_window _ _ _ _ (by omega),getD_window _ _ _ _ (by omega),getD_window _ _ _ _ (by omega),
    getD_window _ _ _ _ (by omega)]

theorem readBE16_slice (p : List UInt8) (off n i : Nat) (inside : i + 2 ≤ n) :
    readBE16 (slice p off n) i = readBE16 p (off + i) := by
  simp only [readBE16]
  rw [getD_slice _ _ _ _ (by omega),getD_slice _ _ _ _ (by omega),Nat.add_assoc]

namespace MbrPartitionTable

theorem readBE16_mbrSector (t : MbrPartitionTable) : readBE16 t.mbrSector 0 = readBE16 t.bootCode.data 0 := by
  have boot := t.mbrSector_field 0 (t.bootCode.data.take 440) (by simp [mbrFields])
  rw [length_bootCode] at boot
  have written := readBE16_slice t.mbrSector 0 440 0 (by decide)
  have taken := readBE16_slice t.bootCode.data 0 440 0 (by decide)
  rw [slice,List.drop_zero] at taken
  rw [boot] at written
  exact written.symm.trans taken

theorem readBE16_scanned (self : MbrPartitionTable) {raw : List UInt8} (size : raw.length = 512)
    (chain : List Ebr) : readBE16 (self.scanned raw chain).bootCode.data 0 = readBE16 raw 0 := by
  have copied : (self.scanned raw chain).bootCode.data = slice raw 0 446 :=
    Bytes.copy_data raw 0 446 (by omega)
  rw [copied,readBE16_slice _ _ _ _ (by decide)]

theorem effect_bootCode {t t' : MbrPartitionTable} {call : MbrCall} (effect : Effect t call t') :
    t'.bootCode = t.bootCode := by
  cases effect <;> rfl

end MbrPartitionTable

/-- The first bytes of a disk are a sector that may be an MBR. -/
structure MbrRaw (disk : Disk) (raw : List UInt8) : Prop where
  first : window disk.byte 0 512 = raw
  signed : readLE16 raw 510 = MBR_SIGNATURE
  noMap : readBE16 raw 0 ≠ APM_DDM_SIGNATURE

theorem MbrRaw.size {disk : Disk} {raw : List UInt8} (mbr : MbrRaw disk raw) : raw.length = 512 := by
  rw [← mbr.first,length_window]

namespace OperationUtils

variable {fuel : Nat} {os : Win32} {disk disk' : Disk} {sectorSize : UInt32}

theorem readFunc_first {n : UInt32} {data : List UInt8} (read : readFunc os disk sectorSize 0 n = .ok data)
    (long : 512 ≤ data.length) :
    data.take 512 = window disk.byte 0 512 ∧ readLE16 data 510 = readLE16 (window disk.byte 0 512) 510 ∧
      readBE16 data 0 = readBE16 (window disk.byte 0 512) 0 := by
  obtain ⟨same,_⟩ := readFunc_zero read
  rw [same]
  have cut := take_window disk.byte 0 data.length 512 long
  refine ⟨cut,?_,readBE16_window _ _ _ (by omega) (by decide)⟩
  have part := readLE16_slice (window disk.byte 0 data.length) 0 512 510 (by decide)
  rw [slice,List.drop_zero,cut] at part
  exact part.symm

theorem scan_first {sector0 : List UInt8} {t : MbrPartitionTable}
    (first : readFunc os disk sectorSize 0 sectorSize = .ok sector0) (long : 512 ≤ sector0.length)
    (parsed : MbrPartitionTable.parse fuel { diskSizeBytes := disk.totalBytes,sectorSize }
      (readFunc os disk sectorSize) = some (.ok t)) :
    512 ≤ sectorSize.toNat ∧ ∃ chain, MbrPartitionTable.Scan { diskSizeBytes := disk.totalBytes,sectorSize }
      (readFunc os disk sectorSize) (window disk.byte 0 512) chain t := by
  obtain ⟨_,bound⟩ := readFunc_zero first
  obtain ⟨raw,chain,scan⟩ := MbrPartitionTable.parse_scan parsed
  obtain ⟨same,short⟩ := readFunc_zero scan.sector
  have whole := scan.whole
  have size : MBR_SIZE.toNat = 512 := rfl
  have exactly : raw.length = 512 := by omega
  rw [exactly] at same
  have bytes : 512 ≤ sectorSize.toNat := by omega
  rw [same] at scan
  exact ⟨bytes,chain,scan⟩

theorem read_mbr {t : MbrPartitionTable}
    (read : readPartitionTable fuel os disk sectorSize = some (.ok (.mbr t))) :
    ∃ raw chain, MbrRaw disk raw ∧ 512 ≤ sectorSize.toNat ∧
      MbrPartitionTable.Scan { diskSizeBytes := disk.totalBytes,sectorSize }
        (readFunc os disk sectorSize) raw chain t := by
  obtain ⟨sector0,first,long,kind⟩ := PartitionTable.parse_detected (readPartitionTable_ok read)
  cases kind with
  | mbr _ noMap signed parsed backing =>
    obtain ⟨_,signature,map⟩ := readFunc_first first long
    obtain ⟨bound,chain,scan⟩ := scan_first first long parsed
    rw [signature] at signed
    rw [map] at noMap
    exact ⟨_,chain,⟨rfl,signed,noMap⟩,bound,scan⟩

end OperationUtils

namespace MbrPartitionTable

def ebrImages (t : MbrPartitionTable) : List UInt8 :=
  match t.findExtended with
  | none => []
  | some ext => ebrSectors ext.startLba t.logicals

theorem serialize_eq (t : MbrPartitionTable) : t.serialize = .ok (t.mbrSector ++ t.ebrImages) := by
  unfold serialize ebrImages
  cases t.findExtended with
  | none => rw [List.append_nil]
  | some ext => rfl

def buffer (t : MbrPartitionTable) (sectorSize : UInt32) : List UInt8 :=
  OperationUtils.padded sectorSize (t.mbrSector ++ t.ebrImages)

end MbrPartitionTable

section Written

variable {os : Win32} {disk disk' : Disk} {sectorSize : UInt32}

theorem front_written {table : PartitionTable} {sector rest : List UInt8} (positive : 0 < sectorSize.toNat)
    (serialized : table.serialize = .ok (sector ++ rest)) (length : sector.length = 512)
    (short : rest.length < 2 ^ 62)
    (written : OperationUtils.writePartitionTable os disk sectorSize table = (.ok (),disk')) :
    disk' = disk.patched 0 (OperationUtils.padded sectorSize (sector ++ rest)) ∧
      (OperationUtils.padded sectorSize (sector ++ rest)).length ≤ disk.totalBytes.toNat ∧
      window disk'.byte 0 512 = sector := by
  have nonempty : sector ++ rest ≠ [] := by
    intro none
    rw [(List.append_eq_nil_iff.mp none).1] at length
    simp at length
  have bound : (sector ++ rest).length < 2 ^ 63 := by
    rw [List.length_append]
    omega
  obtain ⟨rfl,room⟩ := writePartitionTable_ok positive serialized nonempty bound written
  refine ⟨rfl,room,?_⟩
  have front := window_patch_inside disk.byte 0 (OperationUtils.padded sectorSize (sector ++ rest)) 0 512 (by
    rw [OperationUtils.padded,List.length_append,List.length_append]
    omega)
  have whole := slice_all sector
  rw [length] at whole
  rw [OperationUtils.padded,List.append_assoc,slice_append_left _ _ _ _ (by omega),whole,
    ← List.append_assoc] at front
  exact front

theorem mbr_written {t : MbrPartitionTable} (positive : 0 < sectorSize.toNat)
    (short : t.ebrImages.length < 2 ^ 62)
    (written : OperationUtils.writePartitionTable os disk sectorSize (.mbr t) = (.ok (),disk')) :
    disk' = disk.patched 0 (t.buffer sectorSize) ∧ (t.buffer sectorSize).length ≤ disk.totalBytes.toNat ∧
      window disk'.byte 0 512 = t.mbrSector := by
  have serialized : (PartitionTable.mbr t).serialize = .ok (t.mbrSector ++ t.ebrImages) := t.serialize_eq
  exact front_written positive serialized t.length_mbrSector short written

theorem mbr_write_working (t : MbrPartitionTable) (disk : Disk) (positive : 0 < sectorSize.toNat)
    (short : (t.buffer sectorSize).length < 2 ^ 32) (fits : (t.buffer sectorSize).length ≤ disk.totalBytes.toNat) :
    OperationUtils.writePartitionTable .working disk sectorSize (.mbr t) =
      (.ok (),disk.patched 0 (t.buffer sectorSize)) := by
  have serialized : (PartitionTable.mbr t).serialize = .ok (t.mbrSector ++ t.ebrImages) := t.serialize_eq
  have length := t.length_mbrSector
  rw [MbrPartitionTable.buffer] at short fits ⊢
  generalize t.mbrSector = sector at serialized length short fits ⊢
  have nonempty : sector ++ t.ebrImages ≠ [] := by
    intro none
    rw [(List.append_eq_nil_iff.mp none).1] at length
    simp at length
  exact writePartitionTable_working disk positive serialized nonempty short fits

end Written
end SetecWizard.Core
