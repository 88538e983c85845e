import SetecWizard.Core.FormatEngine
import SetecWizard.Imaging.Sectors

/-! The writes of a format: which ranges a run asks to be written, and that on a disk that
works the writes inside the partition are made, so that the next one is issued as well.
-/
namespace SetecWizard.Core
open SetecWizard.Library

namespace FormatRun

variable {run : FormatRun} {rest : Disk → FormatRun}

theorem next_ok (ok : run.result = .ok ()) :
    run.next rest = { rest run.disk with issued := run.issued ++ (rest run.disk).issued } := by
  unfold next
  rw [ok]

theorem next_error {e : ErrorInfo} (failed : run.result = .error e) : run.next rest = run := by
  unfold next
  rw [failed]

theorem issued_next {e : Extent} (member : e ∈ (run.next rest).issued) :
    e ∈ run.issued ∨ run.result = .ok () ∧ e ∈ (rest run.disk).issued := by
  cases ended : run.result with
  | error failure =>
    rw [next_error ended] at member
    exact .inl member
  | ok _ =>
    rw [next_ok ended] at member
    exact (List.mem_append.mp member).imp id (⟨rfl,·⟩)

theorem issued_first {e : Extent} (member : e ∈ run.issued) : e ∈ (run.next rest).issued := by
  cases ended : run.result with
  | error failure =>
    rw [next_error ended]
    exact member
  | ok _ =>
    rw [next_ok ended]
    exact List.mem_append_left _ member

theorem next_result (ok : (run.next rest).result = .ok ()) :
    run.result = .ok () ∧ (rest run.disk).result = .ok () ∧ (run.next rest).disk = (rest run.disk).disk := by
  cases ended : run.result with
  | error failure =>
    rw [next_error ended,ended] at ok
    cases ok
  | ok _ =>
    rw [next_ok ended] at ok ⊢
    exact ⟨rfl,ok,rfl⟩

end FormatRun

namespace FormatEngine

def extent (w : FormatWrite) : Extent := ⟨w.1.toNat,w.2.length⟩

section Issued

variable {os : Win32} {target : FormatTarget}

theorem writeAt_issued {w : FormatWrite} {disk : Disk} {e : Extent}
    (member : e ∈ (writeAt os target w.1 w.2 disk).issued) : e = extent w := by
  simp only [writeAt] at member
  split at member
  next =>
    split at member
    next => cases member
    next =>
      split at member
      next => cases member
      next => exact List.mem_singleton.mp member
  next => exact List.mem_singleton.mp member

/-- A list of writes issues none but its own. -/
theorem writeAll_issued {ws : List FormatWrite} {disk : Disk} {e : Extent}
    (member : e ∈ (writeAll os target ws disk).issued) : ∃ w ∈ ws, e = extent w := by
  induction ws generalizing disk with
  | nil => cases member
  | cons w rest ih =>
    rcases FormatRun.issued_next member with first | ⟨_,later⟩
    · exact ⟨w,by simp,writeAt_issued first⟩
    · obtain ⟨v,inside,same⟩ := ih later
      exact ⟨v,by simp [inside],same⟩

end Issued

/-- A raw target of 512-byte sectors, which starts and ends inside a disk. -/
structure OnSectors (target : FormatTarget) (disk : Disk) : Prop where
  size : target.sectorSize = 512
  aligned : 512 ∣ target.partitionOffsetBytes.toNat
  room : target.partitionOffsetBytes.toNat + target.partitionSizeBytes.toNat ≤ disk.totalBytes.toNat

theorem OnSectors.of_size {target : FormatTarget} {disk disk' : Disk} (on : OnSectors target disk)
    (same : disk'.totalBytes = disk.totalBytes) : OnSectors target disk' :=
  ⟨on.size,on.aligned,by rw [same]; exact on.room⟩

/-- The ranges inside the partition. -/
def Inside (target : FormatTarget) (e : Extent) : Prop := e.stop ≤ target.partitionSizeBytes.toNat

section Working

variable {target : FormatTarget} {disk : Disk} {off : UInt64} {data : List UInt8}

/-- The sectors for a size, when the sum that rounds it up does not wrap around. -/
theorem sectors_bytes {size sectorSize : UInt32} (positive : 0 < sectorSize.toNat)
    (small : size.toNat + sectorSize.toNat ≤ 2 ^ 32) :
    ((size + sectorSize - 1) / sectorSize).toUInt64.toNat * sectorSize.toNat = roundUp size.toNat sectorSize.toNat := by
  have one : (1 : UInt32).toNat = 1 := rfl
  have last : (size + sectorSize - 1).toNat = size.toNat + sectorSize.toNat - 1 := by
    rw [UInt32.toNat_sub,UInt32.toNat_add,one]
    omega
  rw [UInt32.toNat_toUInt64,UInt32.toNat_div,last,roundUp]

theorem sectors_toNat {size : UInt32} (small : size.toNat + 512 ≤ 2 ^ 32) :
    ((size + 512 - 1) / 512).toUInt64.toNat = (size.toNat + 511) / 512 := by
  have sector : (512 : UInt32).toNat = 512 := rfl
  have one : (1 : UInt32).toNat = 1 := rfl
  rw [UInt32.toNat_toUInt64,UInt32.toNat_div,UInt32.toNat_sub,UInt32.toNat_add,sector,one]
  omega

theorem writeAt_whole (on : OnSectors target disk) (start : 512 ∣ off.toNat) (whole : 512 ∣ data.length)
    (small : data.length + 512 ≤ 2 ^ 32) (bound : target.partitionOffsetBytes.toNat + off.toNat < 2 ^ 64) :
    (writeAt .working target off data disk).issued = [⟨off.toNat,data.length⟩] ∧
      (off.toNat + data.length ≤ target.partitionSizeBytes.toNat →
        (writeAt .working target off data disk).result = .ok () ∧
          (writeAt .working target off data disk).disk.totalBytes = disk.totalBytes) := by
  obtain ⟨size,aligned,room⟩ := on
  have sector : (512 : UInt32).toNat = 512 := rfl
  have sector' : (512 : UInt32).toUInt64.toNat = 512 := rfl
  have absolute : (target.partitionOffsetBytes + off).toNat = target.partitionOffsetBytes.toNat + off.toNat := by
    rw [UInt64.toNat_add,Nat.mod_eq_of_lt bound]
  have length : (UInt32.ofNat data.length).toNat = data.length := by
    rw [UInt32.toNat_ofNat',Nat.mod_eq_of_lt (by omega)]
  have onBoundary : (target.partitionOffsetBytes + off) % (512 : UInt32).toUInt64 = 0 := by
    apply UInt64.toNat_inj.mp
    rw [UInt64.toNat_mod,absolute,sector',UInt64.toNat_zero]
    omega
  have inSectors : UInt32.ofNat data.length % 512 = 0 := by
    apply UInt32.toNat_inj.mp
    rw [UInt32.toNat_mod,length,sector,UInt32.toNat_zero]
    omega
  have plain : ¬ ((target.partitionOffsetBytes + off) % (512 : UInt32).toUInt64 ≠ 0 ∨
      UInt32.ofNat data.length % 512 ≠ 0) := by
    rw [onBoundary,inSectors]
    simp
  simp only [writeAt,size,if_neg plain]
  refine ⟨trivial,fun inside => ?_⟩
  have lba := @sector_start 512 (target.partitionOffsetBytes + off) (by rw [absolute,sector]; omega)
  have count : (((UInt32.ofNat data.length + 512 - 1) / 512).toUInt64 * (512 : UInt32).toUInt64).toNat =
      data.length := by
    rw [UInt64.toNat_mul,sectors_toNat (by omega),length,sector']
    omega
  have written := writeSectors_working disk _ _ data (lba.trans absolute) count rfl (by omega) (by omega)
  rw [written]
  exact ⟨rfl,rfl⟩

theorem sector_room {base at' size total : Nat} (aligned : 512 ∣ base) (inside : at' / 512 * 512 + 512 ≤ size)
    (room : base + size ≤ total) : (base + at') / 512 * 512 + 512 ≤ total := by
  obtain ⟨k,rfl⟩ := aligned
  have moved : (512 * k + at') / 512 * 512 = 512 * k + at' / 512 * 512 := by
    rw [Nat.mul_add_div (by decide),Nat.add_mul,Nat.mul_comm k]
  rw [moved,Nat.add_assoc]
  exact (Nat.add_le_add_left inside _).trans room

theorem writeAt_part (on : OnSectors target disk) (positive : 0 < data.length)
    (part : off.toNat % 512 + data.length ≤ 512)
    (inside : off.toNat / 512 * 512 + 512 ≤ target.partitionSizeBytes.toNat) :
    (writeAt .working target off data disk).result = .ok () ∧
      (writeAt .working target off data disk).disk.totalBytes = disk.totalBytes := by
  obtain ⟨size,aligned,room⟩ := on
  have start := sector_room aligned inside room
  have sector : (512 : UInt32).toNat = 512 := rfl
  have sector' : (512 : UInt32).toUInt64.toNat = 512 := rfl
  have width := disk.totalBytes.toNat_lt
  have absolute : (target.partitionOffsetBytes + off).toNat = target.partitionOffsetBytes.toNat + off.toNat := by
    rw [UInt64.toNat_add,Nat.mod_eq_of_lt (by omega)]
  have length : (UInt32.ofNat data.length).toNat = data.length := by
    rw [UInt32.toNat_ofNat',Nat.mod_eq_of_lt (by omega)]
  have lba := sector_floor (target.partitionOffsetBytes + off) 512
  rw [absolute,sector] at lba
  have count : (((UInt32.ofNat data.length + 512 - 1) / 512).toUInt64 * (512 : UInt32).toUInt64).toNat = 512 := by
    rw [UInt64.toNat_mul,sectors_toNat (by omega),length,sector']
    omega
  have one : ((UInt32.ofNat data.length + 512 - 1) / 512).toUInt64.toNat * (512 : UInt32).toNat = 512 := by
    rw [sectors_toNat (by omega),length,sector]
    omega
  have within : ((target.partitionOffsetBytes + off) % (512 : UInt32).toUInt64).toUInt32.toNat =
      off.toNat % 512 := by
    rw [UInt64.toNat_toUInt32,UInt64.toNat_mod,absolute,sector']
    omega
  by_cases plain : (target.partitionOffsetBytes + off) % (512 : UInt32).toUInt64 ≠ 0 ∨
      UInt32.ofNat data.length % 512 ≠ 0
  · have read := readSectors_working disk _ _ lba count (by omega) start
    simp only [writeAt,size,if_pos plain,read]
    have buffer : ¬ ((window disk.byte ((target.partitionOffsetBytes.toNat + off.toNat) / 512 * 512) 512).length <
        ((target.partitionOffsetBytes + off) % (512 : UInt32).toUInt64).toUInt32.toNat + data.length ∨
        (window disk.byte ((target.partitionOffsetBytes.toNat + off.toNat) / 512 * 512) 512).length <
          ((UInt32.ofNat data.length + 512 - 1) / 512).toUInt64.toNat * (512 : UInt32).toNat) := by
      rw [length_window,within,one]
      omega
    rw [if_neg buffer]
    have changed := length_splice (window disk.byte ((target.partitionOffsetBytes.toNat + off.toNat) / 512 * 512) 512)
      data ((target.partitionOffsetBytes + off) % (512 : UInt32).toUInt64).toUInt32.toNat
      (by rw [length_window,within]; exact part)
    rw [length_window] at changed
    have written := writeSectors_working disk _ _ _ lba count changed (by omega) start
    rw [written]
    exact ⟨rfl,rfl⟩
  · have filled : 512 ∣ data.length := by
      have none := not_not.mp (not_or.mp plain).2
      have zero := congrArg UInt32.toNat none
      rw [UInt32.toNat_mod,length,sector,UInt32.toNat_zero] at zero
      exact Nat.dvd_of_mod_eq_zero zero
    have all : data.length = 512 := by omega
    simp only [writeAt,size,if_neg plain]
    have written := writeSectors_working disk _ _ data lba count all (by omega) start
    rw [written]
    exact ⟨rfl,rfl⟩

def zeroChunk (sector left : Nat) : Nat := roundUp (min (8192 * sector) left) sector

theorem zeroChunk_bounds {sector : Nat} (positive : 0 < sector) (left : Nat) :
    zeroChunk sector left ≤ 8192 * sector ∧ min (8192 * sector) left ≤ zeroChunk sector left :=
  ⟨roundUp_le_of_dvd positive (Nat.min_le_left _ _) (Nat.dvd_mul_left _ _),le_roundUp positive⟩

theorem sector_bounds (n : UInt32) (size : n ∈ [512,1024,2048,4096]) : 0 < n.toNat ∧ n.toNat ≤ 4096 := by
  simp only [List.mem_cons,List.not_mem_nil,or_false] at size
  rcases size with rfl | rfl | rfl | rfl <;> decide

theorem zeroLoop_round (os : Win32) (sector : target.sectorSize ∈ [512,1024,2048,4096]) {totalBytes bytesWritten : UInt64}
    (left : bytesWritten < totalBytes) (rounds : Nat) (disk : Disk) :
    ∃ lba count : UInt64, (target.sectorSize.toNat ∣ target.partitionOffsetBytes.toNat + bytesWritten.toNat →
        target.partitionOffsetBytes.toNat + bytesWritten.toNat < 2 ^ 64 →
        (lba * target.sectorSize.toUInt64).toNat = target.partitionOffsetBytes.toNat + bytesWritten.toNat) ∧
      (count * target.sectorSize.toUInt64).toNat =
        zeroChunk target.sectorSize.toNat (totalBytes.toNat - bytesWritten.toNat) ∧
      zeroLoop os target totalBytes (rounds + 1) bytesWritten disk =
        FormatRun.next
          { result := (RawDiskHandle.writeSectors os disk .readWrite lba
              (List.replicate (zeroChunk target.sectorSize.toNat (totalBytes.toNat - bytesWritten.toNat)) 0) count
              target.sectorSize).1
            disk := (RawDiskHandle.writeSectors os disk .readWrite lba
              (List.replicate (zeroChunk target.sectorSize.toNat (totalBytes.toNat - bytesWritten.toNat)) 0) count
              target.sectorSize).2
            issued := [⟨bytesWritten.toNat,zeroChunk target.sectorSize.toNat (totalBytes.toNat - bytesWritten.toNat)⟩] }
          (zeroLoop os target totalBytes rounds (bytesWritten +
            UInt64.ofNat (zeroChunk target.sectorSize.toNat (totalBytes.toNat - bytesWritten.toNat)))) := by
  obtain ⟨positive,narrow⟩ := sector_bounds _ sector
  have fixed : chunkSectors.toNat = 8192 := rfl
  have most : (chunkSectors * target.sectorSize).toNat = 8192 * target.sectorSize.toNat := by
    rw [UInt32.toNat_mul,fixed,Nat.mod_eq_of_lt (by omega)]
  obtain ⟨bound,_⟩ := zeroChunk_bounds positive (totalBytes.toNat - bytesWritten.toNat)
  have writeBytes : (min (chunkSectors * target.sectorSize).toUInt64 (totalBytes - bytesWritten)).toUInt32.toNat =
      min (8192 * target.sectorSize.toNat) (totalBytes.toNat - bytesWritten.toNat) := by
    rw [UInt64.toNat_toUInt32,UInt64.toNat_min,UInt32.toNat_toUInt64,most,
      UInt64.toNat_sub_of_le _ _ (UInt64.le_of_lt left),Nat.mod_eq_of_lt (by omega)]
  have bytes := @sectors_bytes (min (chunkSectors * target.sectorSize).toUInt64 (totalBytes - bytesWritten)).toUInt32 _
    positive (by rw [writeBytes]; omega)
  rw [writeBytes] at bytes
  have count : (((min (chunkSectors * target.sectorSize).toUInt64 (totalBytes - bytesWritten)).toUInt32 +
        target.sectorSize - 1) / target.sectorSize).toUInt64 * target.sectorSize.toUInt64 =
      UInt64.ofNat (zeroChunk target.sectorSize.toNat (totalBytes.toNat - bytesWritten.toNat)) := by
    apply UInt64.toNat_inj.mp
    rw [UInt64.toNat_mul,UInt64.toNat_ofNat',UInt32.toNat_toUInt64 target.sectorSize,bytes]
    rfl
  refine ⟨(target.partitionOffsetBytes + bytesWritten) / target.sectorSize.toUInt64,
    (((min (chunkSectors * target.sectorSize).toUInt64 (totalBytes - bytesWritten)).toUInt32 +
      target.sectorSize - 1) / target.sectorSize).toUInt64,?_,?_,?_⟩
  · intro aligned below
    have absolute : (target.partitionOffsetBytes + bytesWritten).toNat =
        target.partitionOffsetBytes.toNat + bytesWritten.toNat := by
      rw [UInt64.toNat_add,Nat.mod_eq_of_lt below]
    rw [← absolute] at aligned ⊢
    exact sector_start aligned
  · rw [count,UInt64.toNat_ofNat',Nat.mod_eq_of_lt (by omega)]
  · rw [zeroLoop,if_neg (UInt64.not_le.mpr left)]
    simp only [count,bytes]
    rw [if_neg (by rw [most]; exact Nat.not_lt.mpr bound)]
    rfl

theorem next_position {bytesWritten : UInt64} {n : Nat} (small : bytesWritten.toNat + n < 2 ^ 64) :
    (bytesWritten + UInt64.ofNat n).toNat = bytesWritten.toNat + n := by
  rw [UInt64.toNat_add,UInt64.toNat_ofNat',Nat.mod_eq_of_lt (by omega : n < 2 ^ 64),Nat.mod_eq_of_lt small]

/-- A range of whole sectors is zeroed without going past its end. -/
theorem zeroLoop_inside (os : Win32) (sector : target.sectorSize ∈ [512,1024,2048,4096]) {totalBytes : UInt64}
    (whole : target.sectorSize.toNat ∣ totalBytes.toNat) (rounds : Nat) {bytesWritten : UInt64}
    (start : target.sectorSize.toNat ∣ bytesWritten.toNat) {disk : Disk} {e : Extent}
    (member : e ∈ (zeroLoop os target totalBytes rounds bytesWritten disk).issued) : e.stop ≤ totalBytes.toNat := by
  induction rounds generalizing bytesWritten disk with
  | zero => cases member
  | succ rounds ih =>
    by_cases left : bytesWritten < totalBytes
    · have below := UInt64.lt_iff_toNat_lt.mp left
      have width := totalBytes.toNat_lt
      have chunk : zeroChunk target.sectorSize.toNat (totalBytes.toNat - bytesWritten.toNat) ≤
          totalBytes.toNat - bytesWritten.toNat :=
        roundUp_le_of_dvd (sector_bounds _ sector).1 (Nat.min_le_right _ _) (Nat.dvd_sub whole start)
      obtain ⟨_,_,_,_,same⟩ := zeroLoop_round os sector left rounds disk
      rw [same] at member
      rcases FormatRun.issued_next member with first | ⟨_,later⟩
      · rw [List.mem_singleton.mp first]
        show bytesWritten.toNat + zeroChunk target.sectorSize.toNat (totalBytes.toNat - bytesWritten.toNat) ≤ _
        omega
      · refine ih ?_ later
        rw [next_position (by omega)]
        exact Nat.dvd_add start (dvd_roundUp _ _)
    · rw [zeroLoop,if_pos (UInt64.not_lt.mp left)] at member
      cases member

/-- A range that is zeroed to its end without going past it is one of whole sectors. -/
theorem zeroLoop_whole (os : Win32) (sector : target.sectorSize ∈ [512,1024,2048,4096]) {totalBytes : UInt64}
    (rounds : Nat) {bytesWritten : UInt64} (start : target.sectorSize.toNat ∣ bytesWritten.toNat)
    (before : bytesWritten.toNat ≤ totalBytes.toNat) {disk : Disk}
    (ok : (zeroLoop os target totalBytes rounds bytesWritten disk).result = .ok ())
    (inside : ∀ e ∈ (zeroLoop os target totalBytes rounds bytesWritten disk).issued, e.stop ≤ totalBytes.toNat) :
    target.sectorSize.toNat ∣ totalBytes.toNat := by
  induction rounds generalizing bytesWritten disk with
  | zero =>
    rw [zeroLoop] at ok
    by_cases reached : totalBytes ≤ bytesWritten
    · rwa [Nat.le_antisymm (UInt64.le_iff_toNat_le.mp reached) before]
    · rw [if_neg reached] at ok
      cases ok
  | succ rounds ih =>
    by_cases left : bytesWritten < totalBytes
    · have width := totalBytes.toNat_lt
      obtain ⟨_,_,_,_,same⟩ := zeroLoop_round os sector left rounds disk
      rw [same] at ok inside
      have first := inside _ (FormatRun.issued_first (List.mem_singleton_self _))
      rw [Extent.stop] at first
      simp only at first
      obtain ⟨done,later,_⟩ := FormatRun.next_result ok
      rw [FormatRun.next_ok done] at inside
      have position := @next_position bytesWritten
        (zeroChunk target.sectorSize.toNat (totalBytes.toNat - bytesWritten.toNat)) (by omega)
      refine ih ?_ (by rw [position]; exact first) later (fun e member => inside e (List.mem_append_right _ member))
      rw [position]
      exact Nat.dvd_add start (dvd_roundUp _ _)
    · rwa [Nat.le_antisymm (UInt64.le_iff_toNat_le.mp (UInt64.not_lt.mp left)) before]

/-- On a disk that works all of a list of writes is issued, if what is issued lies inside:
each is either one of whole sectors, or known to lie in a sector of the partition. -/
theorem writeAll_working {ws : List FormatWrite} (on : OnSectors target disk)
    (sound : ∀ w ∈ ws, (512 ∣ w.1.toNat ∧ 512 ∣ w.2.length ∧ w.2.length + 512 ≤ 2 ^ 32 ∧
        target.partitionOffsetBytes.toNat + w.1.toNat < 2 ^ 64) ∨
      (0 < w.2.length ∧ w.1.toNat % 512 + w.2.length ≤ 512 ∧
        w.1.toNat / 512 * 512 + 512 ≤ target.partitionSizeBytes.toNat))
    (inside : ∀ e ∈ (writeAll .working target ws disk).issued, e.stop ≤ target.partitionSizeBytes.toNat) :
    (writeAll .working target ws disk).result = .ok () ∧
      (writeAll .working target ws disk).disk.totalBytes = disk.totalBytes ∧
      ∀ w ∈ ws, (extent w).stop ≤ target.partitionSizeBytes.toNat := by
  induction ws generalizing disk with
  | nil => exact ⟨rfl,rfl,by simp⟩
  | cons w rest ih =>
    obtain ⟨done,kept,held⟩ : (writeAt .working target w.1 w.2 disk).result = .ok () ∧
        (writeAt .working target w.1 w.2 disk).disk.totalBytes = disk.totalBytes ∧
        (extent w).stop ≤ target.partitionSizeBytes.toNat := by
      rcases sound w (by simp) with ⟨start,whole,small,bound⟩ | ⟨positive,part,room⟩
      · obtain ⟨issued,made⟩ := writeAt_whole on start whole small bound
        have held := inside (extent w) (FormatRun.issued_first (by rw [issued]; exact List.mem_singleton.mpr rfl))
        exact ⟨(made held).1,(made held).2,held⟩
      · obtain ⟨done,kept⟩ := writeAt_part on positive part room
        refine ⟨done,kept,?_⟩
        show w.1.toNat + w.2.length ≤ _
        omega
    rw [writeAll,FormatRun.next_ok done] at inside ⊢
    obtain ⟨finished,size,all⟩ := ih (on.of_size kept) (fun v member => sound v (by simp [member]))
      (fun e member => inside e (List.mem_append_right _ member))
    refine ⟨finished,size.trans kept,fun v member => ?_⟩
    rcases List.mem_cons.mp member with rfl | later
    · exact held
    · exact all v later

end Working
end FormatEngine
end SetecWizard.Core
