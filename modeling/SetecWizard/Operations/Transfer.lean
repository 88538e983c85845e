import SetecWizard.Core.PartitionOperations
import SetecWizard.Format.Integers

/-! What transfers do to the disk. A read that succeeds returns bytes of the disk, though
perhaps not all that were asked for; a write that succeeds replaces exactly one
block. When every system call works, reads and writes inside the disk succeed.
-/
namespace SetecWizard.Core
open SetecWizard.Library

def Disk.patched (disk : Disk) (off : Nat) (block : List UInt8) : Disk :=
  { disk with byte := patch disk.byte off block }

@[simp] theorem Disk.patched_totalBytes (disk : Disk) (off : Nat) (block : List UInt8) :
    (disk.patched off block).totalBytes = disk.totalBytes := rfl

@[simp] theorem Disk.patched_byte (disk : Disk) (off : Nat) (block : List UInt8) :
    (disk.patched off block).byte = patch disk.byte off block := rfl

section Reading

variable {os : Win32} {disk : Disk} {sectorSize : UInt32}

theorem readFunc_span (os : Win32) (sectorSize : UInt32) (size off : UInt64) (n : UInt32) :
    ∃ span : Result Nat, (∀ m, span = .ok m → m ≤ n.toNat) ∧
      ∀ disk : Disk, disk.totalBytes = size → OperationUtils.readFunc os disk sectorSize off n =
        span.map (window disk.byte (off / sectorSize.toUInt64 * sectorSize.toUInt64).toNat) := by
  simp only [OperationUtils.readFunc,RawDiskHandle.readSectors]
  generalize ((n + sectorSize - 1) / sectorSize).toUInt64 = count
  generalize off / sectorSize.toUInt64 * sectorSize.toUInt64 = start
  by_cases none : count = 0
  · refine ⟨.ok 0,fun m same => ?_,fun disk _ => ?_⟩
    · cases same
      exact Nat.zero_le _
    · simp [none,Except.map,window]
  · by_cases large : MAXDWORD < count * sectorSize.toUInt64
    · let refused : ErrorInfo :=
        .fromCode .invalidArgument "Read request exceeds maximum single ReadFile size"
      exact ⟨.error refused,by simp,fun disk _ => by rw [if_neg none,if_pos large]; rfl⟩
    · cases outcome : os.readFile start.toNat (count * sectorSize.toUInt64).toNat with
      | error lastErr =>
        let failed := makeWin32Error .diskReadError "ReadFile failed on physical disk" lastErr
        exact ⟨.error failed,by simp,fun disk _ => by rw [if_neg none,if_neg large]; rfl⟩
      | ok bytesRead =>
        let moved := min (min bytesRead (count * sectorSize.toUInt64).toNat) (size.toNat - start.toNat)
        refine ⟨.ok (min n.toNat moved),fun m same => ?_,fun disk same => ?_⟩
        · cases same
          exact Nat.min_le_left _ _
        · have length : RawDiskHandle.available disk start.toNat (count * sectorSize.toUInt64).toNat
            bytesRead = moved := by rw [RawDiskHandle.available,same]
          simp only [if_neg none,if_neg large,Except.map,length]
          rcases Nat.le_total n.toNat moved with cut | all
          · rw [take_window _ _ _ _ cut,Nat.min_eq_left cut]
          · rw [List.take_of_length_le (by simpa using all),Nat.min_eq_right all]

theorem readFunc_ok {off : UInt64} {n : UInt32} {data : List UInt8}
    (read : OperationUtils.readFunc os disk sectorSize off n = .ok data) :
    ∃ m, m ≤ n.toNat ∧
      data = window disk.byte (off / sectorSize.toUInt64 * sectorSize.toUInt64).toNat m := by
  obtain ⟨span,bound,same⟩ := readFunc_span os sectorSize disk.totalBytes off n
  rw [same disk rfl] at read
  cases span with
  | error e => cases read
  | ok m =>
    cases read
    exact ⟨m,bound m rfl,rfl⟩

/-- A read that succeeds on one disk succeeds on every disk of that size, and returns the
same where the bytes of the range are the same. -/
theorem readFunc_other {other : Disk} (size : other.totalBytes = disk.totalBytes) {off : UInt64} {n : UInt32}
    {data : List UInt8} (read : OperationUtils.readFunc os disk sectorSize off n = .ok data) :
    ∃ data', OperationUtils.readFunc os other sectorSize off n = .ok data' ∧
      ((∀ i, (off / sectorSize.toUInt64 * sectorSize.toUInt64).toNat ≤ i →
        i < (off / sectorSize.toUInt64 * sectorSize.toUInt64).toNat + n.toNat →
          other.byte i = disk.byte i) → data' = data) := by
  obtain ⟨span,bound,same⟩ := readFunc_span os sectorSize disk.totalBytes off n
  rw [same disk rfl] at read
  cases span with
  | error e => cases read
  | ok m =>
    cases read
    have short := bound m rfl
    refine ⟨_,same other size,fun kept => ?_⟩
    exact window_congr _ _ _ _ (fun i low high => kept i low (by omega))

theorem readFunc_zero {n : UInt32} {data : List UInt8}
    (read : OperationUtils.readFunc os disk sectorSize 0 n = .ok data) :
    data = window disk.byte 0 data.length ∧ data.length ≤ n.toNat := by
  obtain ⟨m,bound,rfl⟩ := readFunc_ok read
  have origin : ((0 : UInt64) / sectorSize.toUInt64 * sectorSize.toUInt64).toNat = 0 := by
    rw [UInt64.zero_div,UInt64.zero_mul]
    rfl
  rw [origin,length_window]
  exact ⟨rfl,bound⟩

theorem readFunc_congr (first second : Disk) (size : first.totalBytes = second.totalBytes) {low : Nat}
    (same : ∀ i, low ≤ i → first.byte i = second.byte i) {off : UInt64}
    (above : low ≤ (off / sectorSize.toUInt64 * sectorSize.toUInt64).toNat) (n : UInt32) :
    OperationUtils.readFunc os first sectorSize off n =
      OperationUtils.readFunc os second sectorSize off n := by
  obtain ⟨span,_,read⟩ := readFunc_span os sectorSize second.totalBytes off n
  rw [read first size,read second rfl]
  cases span with
  | error e => rfl
  | ok m => exact congrArg Except.ok (window_congr _ _ _ _ (fun i from_sector _ => same i (above.trans from_sector)))

end Reading

section Writing

variable {os : Win32} {disk disk' : Disk} {sectorSize : UInt32}

theorem available_le (disk : Disk) (off length moved : Nat) :
    RawDiskHandle.available disk off length moved ≤ length ∧
      RawDiskHandle.available disk off length moved ≤ disk.totalBytes.toNat - off := by
  unfold RawDiskHandle.available
  omega

theorem writeSectors_ok {mode : DiskAccessMode} {lba count : UInt64} {data : List UInt8}
    (nonzero : count ≠ 0)
    (written : RawDiskHandle.writeSectors os disk mode lba data count sectorSize = (.ok (),disk')) :
    (count * sectorSize.toUInt64).toNat ≤ disk.totalBytes.toNat - (lba * sectorSize.toUInt64).toNat ∧
      disk' = disk.patched (lba * sectorSize.toUInt64).toNat
        (data.take (count * sectorSize.toUInt64).toNat) := by
  unfold RawDiskHandle.writeSectors at written
  simp only [if_neg nonzero] at written
  split at written
  next => simp at written
  next =>
    split at written
    next => simp at written
    next =>
      split at written
      next => simp at written
      next =>
        split at written
        next => simp at written
        next whole =>
          rw [not_not] at whole
          have room := (available_le disk (lba * sectorSize.toUInt64).toNat
            (count * sectorSize.toUInt64).toNat
            (os.writeFile (lba * sectorSize.toUInt64).toNat (count * sectorSize.toUInt64).toNat).2).2
          rw [whole] at room written
          exact ⟨room,(Prod.mk.inj written).2.symm⟩

/-- Whatever becomes of a write, the disk holds the old byte or the new one. -/
theorem writeSectors_byte (mode : DiskAccessMode) (lba : UInt64) (data : List UInt8) (count : UInt64) :
    (RawDiskHandle.writeSectors os disk mode lba data count sectorSize).2 = disk ∨
      ∃ m, (RawDiskHandle.writeSectors os disk mode lba data count sectorSize).2 =
        disk.patched (lba * sectorSize.toUInt64).toNat (data.take m) := by
  unfold RawDiskHandle.writeSectors
  split
  · exact .inl rfl
  · split
    · exact .inl rfl
    · simp only
      split
      · exact .inl rfl
      · split
        · exact .inr ⟨_,rfl⟩
        · split
          · exact .inr ⟨_,rfl⟩
          · exact .inr ⟨_,rfl⟩

theorem writeSectors_size (os : Win32) (disk : Disk) (mode : DiskAccessMode) (lba : UInt64) (data : List UInt8)
    (count : UInt64) (sectorSize : UInt32) :
    (RawDiskHandle.writeSectors os disk mode lba data count sectorSize).2.totalBytes = disk.totalBytes := by
  rcases @writeSectors_byte os disk sectorSize mode lba data count with same | ⟨_,same⟩
  · rw [same]
  · rw [same]
    rfl

theorem writeSectors_fst (os : Win32) (mode : DiskAccessMode) (lba count : UInt64) (sectorSize : UInt32)
    {disk other : Disk} (size : disk.totalBytes = other.totalBytes) (data data' : List UInt8) :
    (RawDiskHandle.writeSectors os disk mode lba data count sectorSize).1 =
      (RawDiskHandle.writeSectors os other mode lba data' count sectorSize).1 := by
  have same (off length moved : Nat) : RawDiskHandle.available disk off length moved =
      RawDiskHandle.available other off length moved := by
    rw [RawDiskHandle.available,RawDiskHandle.available,size]
  unfold RawDiskHandle.writeSectors
  simp only [same,apply_ite Prod.fst]
  cases (os.writeFile (lba * sectorSize.toUInt64).toNat (count * sectorSize.toUInt64).toNat).1 with
  | some lastErr => rfl
  | none => simp only [apply_ite Prod.fst]

section Padding

variable (sectorSize : UInt32) (image : List UInt8)

/-- The padded buffer fills whole sectors, and no more than it needs. -/
structure Padded (count : Nat) : Prop where
  sectors : (OperationUtils.sectorsToWrite sectorSize image).toNat = count
  bytes : (OperationUtils.sectorsToWrite sectorSize image * sectorSize.toUInt64).toNat =
    count * sectorSize.toNat
  length : (OperationUtils.padded sectorSize image).length = count * sectorSize.toNat

theorem padded_spec (positive : 0 < sectorSize.toNat) (short : image.length < 2 ^ 63) :
    Padded sectorSize image ((image.length + sectorSize.toNat - 1) / sectorSize.toNat) := by
  have width := sectorSize.toNat_lt
  have one : (1 : UInt64).toNat = 1 := rfl
  have size : (UInt64.ofNat image.length).toNat = image.length := by
    rw [UInt64.toNat_ofNat',Nat.mod_eq_of_lt (by omega)]
  have sum : (UInt64.ofNat image.length + sectorSize.toUInt64).toNat = image.length + sectorSize.toNat := by
    rw [UInt64.toNat_add,size,UInt32.toNat_toUInt64,Nat.mod_eq_of_lt (by omega)]
  have sectors : (OperationUtils.sectorsToWrite sectorSize image).toNat =
      (image.length + sectorSize.toNat - 1) / sectorSize.toNat := by
    rw [OperationUtils.sectorsToWrite,UInt64.toNat_div,UInt64.toNat_sub_of_le,sum,one,UInt32.toNat_toUInt64]
    rw [UInt64.le_iff_toNat_le,sum,one]
    omega
  have below := Nat.div_mul_le_self (image.length + sectorSize.toNat - 1) sectorSize.toNat
  have above := Nat.lt_div_mul_add (a := image.length + sectorSize.toNat - 1) positive
  have bytes : (OperationUtils.sectorsToWrite sectorSize image * sectorSize.toUInt64).toNat =
      (image.length + sectorSize.toNat - 1) / sectorSize.toNat * sectorSize.toNat := by
    rw [UInt64.toNat_mul,sectors,UInt32.toNat_toUInt64,Nat.mod_eq_of_lt (by omega)]
  refine ⟨sectors,bytes,?_⟩
  rw [OperationUtils.padded,List.length_append,List.length_replicate,bytes]
  omega

theorem padded_whole (count : Nat) (exact : image.length = count * sectorSize.toNat)
    (positive : 0 < sectorSize.toNat) (short : image.length < 2 ^ 63) :
    OperationUtils.padded sectorSize image = image ∧ Padded sectorSize image count := by
  have spec := padded_spec sectorSize image positive short
  have rounded : (image.length + sectorSize.toNat - 1) / sectorSize.toNat = count := by
    rw [exact,Nat.add_sub_assoc positive,Nat.mul_comm,Nat.mul_add_div positive,
      Nat.div_eq_of_lt (by omega),Nat.add_zero]
  rw [rounded] at spec
  refine ⟨?_,spec⟩
  rw [OperationUtils.padded,spec.bytes,exact,Nat.sub_self,List.replicate_zero,List.append_nil]

end Padding

theorem writePartitionTable_ok {table : PartitionTable} {image : List UInt8} (positive : 0 < sectorSize.toNat)
    (serialized : table.serialize = .ok image) (nonempty : image ≠ []) (short : image.length < 2 ^ 63)
    (written : OperationUtils.writePartitionTable os disk sectorSize table = (.ok (),disk')) :
    disk' = disk.patched 0 (OperationUtils.padded sectorSize image) ∧
      (OperationUtils.padded sectorSize image).length ≤ disk.totalBytes.toNat := by
  have spec := padded_spec sectorSize image positive short
  have filled : 0 < image.length := List.length_pos_of_ne_nil nonempty
  have some_sector : OperationUtils.sectorsToWrite sectorSize image ≠ 0 := by
    intro zero
    have none : (OperationUtils.sectorsToWrite sectorSize image).toNat = 0 := congrArg UInt64.toNat zero
    rw [spec.sectors] at none
    have enough := Nat.div_pos (by omega : sectorSize.toNat ≤ image.length + sectorSize.toNat - 1) positive
    omega
  have origin : ((0 : UInt64) * sectorSize.toUInt64).toNat = 0 := by
    rw [UInt64.zero_mul]
    rfl
  unfold OperationUtils.writePartitionTable at written
  simp only [serialized,List.isEmpty_iff,nonempty,if_false] at written
  split at written
  next => simp at written
  next =>
    split at written
    next => simp at written
    next final done =>
      obtain ⟨room,same⟩ := writeSectors_ok some_sector done
      rw [origin,spec.bytes,← spec.length] at room same
      rw [List.take_length] at same
      exact ⟨(Prod.mk.inj written).2.symm.trans same,by omega⟩

end Writing

section Working

variable (disk : Disk) {sectorSize : UInt32}

theorem available_all (off length : Nat) (inside : off + length ≤ disk.totalBytes.toNat) :
    RawDiskHandle.available disk off length length = length := by
  unfold RawDiskHandle.available
  omega

theorem readSectors_working (lba count : UInt64) {off n : Nat}
    (start : (lba * sectorSize.toUInt64).toNat = off) (length : (count * sectorSize.toUInt64).toNat = n)
    (small : n < 2 ^ 32) (inside : off + n ≤ disk.totalBytes.toNat) :
    RawDiskHandle.readSectors .working disk lba count sectorSize = .ok (window disk.byte off n) := by
  have limit : MAXDWORD.toNat = 2 ^ 32 - 1 := rfl
  unfold RawDiskHandle.readSectors
  split
  next zero =>
    rw [zero,UInt64.zero_mul] at length
    have none : n = 0 := length.symm
    rw [none]
    rfl
  next =>
    have short : ¬ MAXDWORD < count * sectorSize.toUInt64 := by
      rw [UInt64.lt_iff_toNat_lt,limit,length]
      omega
    simp only [if_neg short,Win32.working,start,length,available_all disk off n inside]

/-- A read that starts on a sector boundary, when everything works. The bytes asked for
are in `k` sectors and not in fewer. -/
theorem readFunc_working (positive : 0 < sectorSize.toNat) {off : UInt64} {n : UInt32} {lba k : Nat}
    (start : off.toNat = lba * sectorSize.toNat)
    (rounded : (n.toNat + sectorSize.toNat - 1) / sectorSize.toNat = k)
    (part : n.toNat ≤ k * sectorSize.toNat) (small : n.toNat + sectorSize.toNat ≤ 2 ^ 32)
    (inside : (lba + k) * sectorSize.toNat ≤ disk.totalBytes.toNat) :
    OperationUtils.readFunc .working disk sectorSize off n = .ok (window disk.byte off.toNat n.toNat) := by
  have one : (1 : UInt32).toNat = 1 := rfl
  have width := sectorSize.toNat_lt
  have below := Nat.div_mul_le_self (n.toNat + sectorSize.toNat - 1) sectorSize.toNat
  rw [rounded] at below
  have quotient : (off / sectorSize.toUInt64).toNat = lba := by
    rw [UInt64.toNat_div,UInt32.toNat_toUInt64,start,Nat.mul_div_cancel _ positive]
  have first : (off / sectorSize.toUInt64 * sectorSize.toUInt64).toNat = off.toNat := by
    have bound := off.toNat_lt
    rw [UInt64.toNat_mul,quotient,UInt32.toNat_toUInt64,← start,Nat.mod_eq_of_lt bound]
  have last : (n + sectorSize - 1).toNat = n.toNat + sectorSize.toNat - 1 := by
    rw [UInt32.toNat_sub,UInt32.toNat_add,one]
    omega
  have sectors : ((n + sectorSize - 1) / sectorSize).toNat = k := by
    rw [UInt32.toNat_div,last,rounded]
  have length : (((n + sectorSize - 1) / sectorSize).toUInt64 * sectorSize.toUInt64).toNat =
      k * sectorSize.toNat := by
    rw [UInt64.toNat_mul,UInt32.toNat_toUInt64,UInt32.toNat_toUInt64,sectors,Nat.mod_eq_of_lt (by omega)]
  rw [Nat.add_mul,← start] at inside
  have read := readSectors_working disk _ _ first length (by omega) inside
  unfold OperationUtils.readFunc
  simp only [read,Except.map]
  rw [take_window _ _ _ _ part]

theorem readFunc_working_sector (moderate : sectorSize.toNat < 2 ^ 31) {off : UInt64} {lba : Nat}
    (start : off.toNat = lba * sectorSize.toNat)
    (inside : (lba + 1) * sectorSize.toNat ≤ disk.totalBytes.toNat) {n : UInt32} (some_byte : 0 < n.toNat)
    (part : n.toNat ≤ sectorSize.toNat) :
    OperationUtils.readFunc .working disk sectorSize off n = .ok (window disk.byte off.toNat n.toNat) := by
  have single : (n.toNat + sectorSize.toNat - 1) / sectorSize.toNat = 1 :=
    Nat.div_eq_of_lt_le (by omega) (by omega)
  exact readFunc_working disk (by omega) start single (by omega) (by omega) inside

theorem readPartitionTable_working (fuel : Nat) (sectorSize : UInt32) :
    OperationUtils.readPartitionTable fuel .working disk sectorSize =
      PartitionTable.parse fuel (OperationUtils.readFunc .working disk sectorSize) disk.totalBytes
        sectorSize := rfl

theorem writeSectors_padded {image : List UInt8} (positive : 0 < sectorSize.toNat) (nonempty : image ≠ [])
    (short : (OperationUtils.padded sectorSize image).length < 2 ^ 32)
    (fits : (OperationUtils.padded sectorSize image).length ≤ disk.totalBytes.toNat) :
    RawDiskHandle.writeSectors .working disk .readWrite 0 (OperationUtils.padded sectorSize image)
      (OperationUtils.sectorsToWrite sectorSize image) sectorSize =
        (.ok (),disk.patched 0 (OperationUtils.padded sectorSize image)) := by
  have limit : MAXDWORD.toNat = 2 ^ 32 - 1 := rfl
  have longer : image.length ≤ (OperationUtils.padded sectorSize image).length := by
    rw [OperationUtils.padded,List.length_append]
    omega
  have spec := padded_spec sectorSize image positive (by omega)
  have filled : 0 < image.length := List.length_pos_of_ne_nil nonempty
  have bytes := spec.bytes
  rw [← spec.length] at bytes
  have some_sector : OperationUtils.sectorsToWrite sectorSize image ≠ 0 := by
    intro zero
    rw [zero,UInt64.zero_mul] at bytes
    have none : (OperationUtils.padded sectorSize image).length = 0 := bytes.symm
    omega
  have origin : ((0 : UInt64) * sectorSize.toUInt64).toNat = 0 := by
    rw [UInt64.zero_mul]
    rfl
  have allowed : ¬ MAXDWORD < OperationUtils.sectorsToWrite sectorSize image * sectorSize.toUInt64 := by
    rw [UInt64.lt_iff_toNat_lt,limit,bytes]
    omega
  have moved := available_all disk 0 (OperationUtils.padded sectorSize image).length (by omega)
  simp only [RawDiskHandle.writeSectors,if_neg some_sector,if_neg allowed,Win32.working,origin,bytes,
    moved,List.take_length,ne_eq,not_true,if_false]
  rfl

theorem writePartitionTable_working {table : PartitionTable} {image : List UInt8}
    (positive : 0 < sectorSize.toNat) (serialized : table.serialize = .ok image) (nonempty : image ≠ [])
    (short : (OperationUtils.padded sectorSize image).length < 2 ^ 32)
    (fits : (OperationUtils.padded sectorSize image).length ≤ disk.totalBytes.toNat) :
    OperationUtils.writePartitionTable .working disk sectorSize table =
      (.ok (),disk.patched 0 (OperationUtils.padded sectorSize image)) := by
  unfold OperationUtils.writePartitionTable
  simp only [serialized,List.isEmpty_iff,nonempty,if_false]
  rw [writeSectors_padded disk positive nonempty short fits]
  rfl

end Working
end SetecWizard.Core
