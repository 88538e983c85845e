import SetecWizard.Core.FormatFat32
import SetecWizard.Imaging.Sectors

/-! The helper that the formatters write with. What does not start and end on the boundaries
of sectors is put into a copy of the sectors and written back with it. How many sectors
are read is found out from the size alone, wherever in its first sector a write begins.
-/
namespace SetecWizard.Core
open SetecWizard.Library

namespace FormatEngine

variable {os : Win32} {target : FormatTarget} {off : UInt64} {data : List UInt8} {disk : Disk}

theorem writeAtFat32_eq : writeAtFat32 os target off data disk = writeAt os target off data disk := by
  unfold writeAtFat32 writeAt
  simp only
  by_cases plain : (target.partitionOffsetBytes + off) % target.sectorSize.toUInt64 = 0 ∧
      UInt32.ofNat data.length % target.sectorSize = 0
  · rw [if_pos plain,if_neg (by simp [plain.1,plain.2])]
  · refine (if_neg plain).trans (Eq.trans ?_ (if_pos (not_and_or.mp plain)).symm)
    cases RawDiskHandle.readSectors os disk ((target.partitionOffsetBytes + off) / target.sectorSize.toUInt64)
      ((UInt32.ofNat data.length + target.sectorSize - 1) / target.sectorSize).toUInt64 target.sectorSize with
    | error e => rfl
    | ok buf => rfl

theorem writeAllFat32_eq (ws : List Fat32Write) : writeAllFat32 os target ws = writeAll os target ws := by
  induction ws with
  | nil => rfl
  | cons w rest ih =>
    funext disk
    rw [writeAllFat32,writeAll,writeAtFat32_eq,ih]

/-- Where a write begins on the disk. -/
def position (target : FormatTarget) (off : UInt64) : UInt64 := target.partitionOffsetBytes + off

/-- The write begins or ends inside a sector. -/
def ReadFirst (target : FormatTarget) (off : UInt64) (data : List UInt8) : Prop :=
  position target off % target.sectorSize.toUInt64 ≠ 0 ∨ UInt32.ofNat data.length % target.sectorSize ≠ 0

def sectorCount (target : FormatTarget) (data : List UInt8) : UInt64 :=
  ((UInt32.ofNat data.length + target.sectorSize - 1) / target.sectorSize).toUInt64

def readBuffer (os : Win32) (target : FormatTarget) (off : UInt64) (data : List UInt8) (disk : Disk) :
    Result (List UInt8) :=
  RawDiskHandle.readSectors os disk (position target off / target.sectorSize.toUInt64) (sectorCount target data)
    target.sectorSize

/-- The data is copied past the end of the buffer, or more is written back than it holds. -/
def Overruns (os : Win32) (target : FormatTarget) (off : UInt64) (data : List UInt8) (disk : Disk) : Prop :=
  ReadFirst target off data ∧ ∃ buf, readBuffer os target off data disk = .ok buf ∧
    (buf.length < (position target off).toNat % target.sectorSize.toNat + data.length ∨
      buf.length < (sectorCount target data).toNat * target.sectorSize.toNat)

/-- A write stays inside its buffer, and when it succeeds it sets its bytes and no others. -/
structure ExactWrite (os : Win32) (target : FormatTarget) (off : UInt64) (data : List UInt8) (disk : Disk)
    (run : FormatRun) : Prop where
  bounds : ¬ Overruns os target off data disk
  bytes : run.result = .ok () → run.disk = disk.patched (position target off).toNat data

/-- The sectors that are read, if any are, are as many bytes as the size has when it is rounded
up, and there is room for the data behind the beginning of the first of them. -/
def BufferHolds (os : Win32) (target : FormatTarget) (off : UInt64) (data : List UInt8) (disk : Disk) : Prop :=
  ReadFirst target off data → ∀ buf, readBuffer os target off data disk = .ok buf →
    buf.length = roundUp data.length target.sectorSize.toNat ∧
      (position target off).toNat % target.sectorSize.toNat + data.length ≤
        roundUp data.length target.sectorSize.toNat

section Sizes

variable (positive : 0 < target.sectorSize.toNat) (size : data.length < 2 ^ 32)

include positive in
theorem in_sector_toNat : (position target off % target.sectorSize.toUInt64).toUInt32.toNat =
    (position target off).toNat % target.sectorSize.toNat := by
  have narrow := target.sectorSize.toNat_lt
  have below := Nat.mod_lt (position target off).toNat positive
  rw [UInt64.toNat_toUInt32,UInt64.toNat_mod,UInt32.toNat_toUInt64,Nat.mod_eq_of_lt (by omega)]

include positive size

/-- The sectors of a write, unless the sum that rounds its size up wraps around. -/
theorem sectorCount_bytes : (sectorCount target data).toNat * target.sectorSize.toNat =
    if data.length + target.sectorSize.toNat ≤ 2 ^ 32 then roundUp data.length target.sectorSize.toNat else 0 := by
  have one : (1 : UInt32).toNat = 1 := rfl
  have width := target.sectorSize.toNat_lt
  have sum : (UInt32.ofNat data.length + target.sectorSize - 1).toNat =
      (data.length + target.sectorSize.toNat - 1) % 2 ^ 32 := by
    rw [UInt32.toNat_sub,UInt32.toNat_add,UInt32.toNat_ofNat',one]
    omega
  rw [sectorCount,UInt32.toNat_toUInt64,UInt32.toNat_div,sum]
  split
  next small => rw [Nat.mod_eq_of_lt (by omega),roundUp]
  next large =>
    have rest : (data.length + target.sectorSize.toNat - 1) % 2 ^ 32 < target.sectorSize.toNat := by omega
    rw [Nat.div_eq_of_lt rest,Nat.zero_mul]

theorem sectorCount_small : (sectorCount target data).toNat * target.sectorSize.toNat < 2 ^ 32 + 2 ^ 32 := by
  have width := target.sectorSize.toNat_lt
  have close := @roundUp_lt data.length target.sectorSize.toNat positive
  rw [sectorCount_bytes positive size]
  split <;> omega

theorem sectorCount_toNat : (sectorCount target data * target.sectorSize.toUInt64).toNat =
    (sectorCount target data).toNat * target.sectorSize.toNat := by
  have small := sectorCount_small positive size
  rw [UInt64.toNat_mul,UInt32.toNat_toUInt64,Nat.mod_eq_of_lt (by omega)]

theorem readBuffer_ok {buf : List UInt8} (read : readBuffer os target off data disk = .ok buf) :
    buf = window disk.byte ((position target off).toNat / target.sectorSize.toNat * target.sectorSize.toNat) buf.length ∧
      buf.length ≤ (sectorCount target data).toNat * target.sectorSize.toNat := by
  obtain ⟨bytes,_,short⟩ := readSectors_ok (sector_floor (position target off) target.sectorSize) read
  rw [sectorCount_toNat positive size] at short
  exact ⟨bytes,short⟩

end Sizes

section Branches

def written (os : Win32) (target : FormatTarget) (off : UInt64) (data block : List UInt8) (disk : Disk) :
    Mutation Disk :=
  RawDiskHandle.writeSectors os disk .readWrite (position target off / target.sectorSize.toUInt64) block
    (sectorCount target data) target.sectorSize

theorem writeAt_plain (plain : ¬ ReadFirst target off data) : writeAt os target off data disk =
    { result := (written os target off data data disk).1,disk := (written os target off data data disk).2,
      issued := [⟨off.toNat,data.length⟩] } := by
  unfold writeAt
  exact if_neg plain

variable (first : ReadFirst target off data)
include first

theorem writeAt_unread {e : ErrorInfo} (read : readBuffer os target off data disk = .error e) :
    writeAt os target off data disk = { result := .error e,disk := disk } := by
  unfold readBuffer position sectorCount at read
  unfold writeAt
  refine (if_pos first).trans ?_
  rw [read]

variable (positive : 0 < target.sectorSize.toNat) {buf : List UInt8}
  (read : readBuffer os target off data disk = .ok buf)
include positive read

theorem writeAt_short (short : buf.length < (position target off).toNat % target.sectorSize.toNat + data.length ∨
      buf.length < (sectorCount target data).toNat * target.sectorSize.toNat) :
    writeAt os target off data disk = { result := .error noOutcome,disk := disk } := by
  rw [← in_sector_toNat positive] at short
  unfold readBuffer position sectorCount at read
  unfold writeAt
  refine (if_pos first).trans ?_
  rw [read]
  exact if_pos short

theorem writeAt_through (enough : ¬ (buf.length < (position target off).toNat % target.sectorSize.toNat + data.length ∨
      buf.length < (sectorCount target data).toNat * target.sectorSize.toNat)) :
    writeAt os target off data disk =
      { result := (written os target off data
          (splice buf ((position target off).toNat % target.sectorSize.toNat) data) disk).1
        disk := (written os target off data
          (splice buf ((position target off).toNat % target.sectorSize.toNat) data) disk).2
        issued := [⟨off.toNat,data.length⟩] } := by
  rw [← in_sector_toNat positive] at enough ⊢
  unfold readBuffer position sectorCount at read
  unfold writeAt
  refine (if_pos first).trans ?_
  rw [read]
  exact if_neg enough

end Branches

section Exact

variable (divides : target.sectorSize.toNat ∣ 2 ^ 32)
include divides

theorem sector_positive : 0 < target.sectorSize.toNat := Nat.pos_of_dvd_of_pos divides (by decide)

variable (size : data.length < 2 ^ 32)
include size

theorem sectorCount_whole (whole : UInt32.ofNat data.length % target.sectorSize = 0) :
    (sectorCount target data).toNat * target.sectorSize.toNat = data.length := by
  have positive := sector_positive divides
  have multiple : target.sectorSize.toNat ∣ data.length := by
    have zero := congrArg UInt32.toNat whole
    rw [UInt32.toNat_mod,UInt32.toNat_ofNat',Nat.mod_eq_of_lt size] at zero
    exact Nat.dvd_of_mod_eq_zero zero
  have room : data.length + target.sectorSize.toNat ≤ 2 ^ 32 := by
    obtain ⟨k,length⟩ := multiple
    obtain ⟨all,word⟩ := divides
    rw [length,word] at size
    have below : k < all := Nat.lt_of_mul_lt_mul_left size
    rw [length,word,← Nat.mul_succ]
    exact Nat.mul_le_mul_left _ below
  rw [sectorCount_bytes positive size,if_pos room,roundUp_of_dvd positive multiple]

theorem writeAt_exact (ok : (writeAt os target off data disk).result = .ok ()) :
    (writeAt os target off data disk).disk = disk.patched (position target off).toNat data := by
  have positive := sector_positive divides
  have count := sectorCount_toNat positive size
  have start := sector_floor (position target off) target.sectorSize
  have split_ := Nat.div_add_mod' (position target off).toNat target.sectorSize.toNat
  by_cases first : ReadFirst target off data
  · cases read : readBuffer os target off data disk with
    | error e =>
      rw [writeAt_unread first read] at ok
      cases ok
    | ok buf =>
      by_cases short : buf.length < (position target off).toNat % target.sectorSize.toNat + data.length ∨
          buf.length < (sectorCount target data).toNat * target.sectorSize.toNat
      · rw [writeAt_short first positive read short] at ok
        cases ok
      · rw [writeAt_through first positive read short] at ok ⊢
        obtain ⟨bytes,most⟩ := readBuffer_ok positive size read
        have changed := length_splice buf data ((position target off).toNat % target.sectorSize.toNat) (by omega)
        have after := (writeSectors_whole start count (Prod.ext ok rfl)).1
        rw [List.take_of_length_le (by omega)] at after
        refine after.trans ?_
        rw [Disk.patched,bytes,patch_splice_window _ _ _ _ _ (by omega),split_]
        rfl
  · rw [writeAt_plain first] at ok ⊢
    have whole := sectorCount_whole divides size (not_not.mp (not_or.mp first).2)
    have zero := congrArg UInt64.toNat (not_not.mp (not_or.mp first).1)
    rw [UInt64.toNat_mod,UInt32.toNat_toUInt64,UInt64.toNat_zero] at zero
    have after := (writeSectors_whole start count (Prod.ext ok rfl)).1
    rw [List.take_of_length_le (by omega)] at after
    refine after.trans ?_
    congr 1
    omega

theorem exactWrite_iff : ExactWrite os target off data disk (writeAt os target off data disk) ↔
    BufferHolds os target off data disk := by
  have positive := sector_positive divides
  have count := sectorCount_bytes positive size
  constructor
  · rintro ⟨bounds,_⟩ first buf read
    have fits := not_or.mp (fun short => bounds ⟨first,buf,read,short⟩)
    have short := (readBuffer_ok positive size read).2
    have above := @le_roundUp data.length target.sectorSize.toNat positive
    split at count
    next => omega
    next large =>
      have width := target.sectorSize.toNat_lt
      omega
  · intro holds
    refine ⟨?_,writeAt_exact divides size⟩
    rintro ⟨first,buf,read,short⟩
    obtain ⟨length,fits⟩ := holds first buf read
    split at count
    next => omega
    next => omega

end Exact

theorem sector_divides (n : UInt32) (size : n ∈ [512,1024,2048,4096]) : n.toNat ∣ 2 ^ 32 := by
  simp only [List.mem_cons,List.not_mem_nil,or_false] at size
  rcases size with rfl | rfl | rfl | rfl <;> decide

/-- For the sectors that disks have, both helpers make exact writes of what their buffers hold, and
of nothing else. -/
theorem writeAt_exact_iff (os : Win32) (target : FormatTarget) (off : UInt64) (data : List UInt8) (disk : Disk)
    (sector : target.sectorSize ∈ [512,1024,2048,4096]) (size : data.length < 2 ^ 32) :
    (ExactWrite os target off data disk (writeAt os target off data disk) ↔ BufferHolds os target off data disk) ∧
      (ExactWrite os target off data disk (writeAtFat32 os target off data disk) ↔
        BufferHolds os target off data disk) := by
  have divides := sector_divides _ sector
  rw [writeAtFat32_eq]
  exact ⟨exactWrite_iff divides size,exactWrite_iff divides size⟩

section Sample

def sampleTarget : FormatTarget := { diskIndex := 0,partitionOffsetBytes := 1024,partitionSizeBytes := 2048 }

theorem sample_buffer : readBuffer .working sampleTarget 100 [1,2,3] (filled 4096 0xFF) =
    .ok (window (filled 4096 0xFF).byte 1024 512) :=
  @readSectors_working (filled 4096 0xFF) 512 _ _ 1024 512 (by decide) (by decide) (by decide) (by decide)

theorem exact_sample : ExactWrite .working sampleTarget 100 [1,2,3] (filled 4096 0xFF)
    (writeAt .working sampleTarget 100 [1,2,3] (filled 4096 0xFF)) := by
  refine (writeAt_exact_iff .working sampleTarget 100 [1,2,3] (filled 4096 0xFF) (by decide) (by decide)).1.mpr ?_
  intro _ buf read
  rw [sample_buffer] at read
  obtain rfl := Except.ok.inj read
  rw [length_window]
  decide

/-- Two bytes over the end of a sector: one sector is read, and the second byte is copied past
its end. -/
theorem copied_past_end : ¬ ExactWrite .working sampleTarget 511 [1,2] (filled 4096 0xFF)
      (writeAt .working sampleTarget 511 [1,2] (filled 4096 0xFF)) ∧
    ¬ ExactWrite .working sampleTarget 511 [1,2] (filled 4096 0xFF)
      (writeAtFat32 .working sampleTarget 511 [1,2] (filled 4096 0xFF)) := by
  have read : readBuffer .working sampleTarget 511 [1,2] (filled 4096 0xFF) =
      .ok (window (filled 4096 0xFF).byte 1024 512) :=
    @readSectors_working (filled 4096 0xFF) 512 _ _ 1024 512 (by decide) (by decide) (by decide) (by decide)
  have past : Overruns .working sampleTarget 511 [1,2] (filled 4096 0xFF) := by
    refine ⟨.inl (by decide),_,read,.inl ?_⟩
    rw [length_window]
    decide
  exact ⟨fun exact_ => exact_.bounds past,fun exact_ => exact_.bounds past⟩

end Sample

end FormatEngine
end SetecWizard.Core
