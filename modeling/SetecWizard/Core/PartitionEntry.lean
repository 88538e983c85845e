import SetecWizard.Core.ByteOrder
import SetecWizard.Library.Extent

/-! The entry record shared by the partition tables, the parameters of a new
partition, and CHS geometry. Sector addresses and counts are 64-bit words.
-/
namespace SetecWizard.Core
open SetecWizard.Library

abbrev DiskReadCallback := UInt64 → UInt32 → Result (List UInt8)

structure CHSGeometry where
  headsPerCylinder : UInt32 := 0
  sectorsPerTrack : UInt32 := 0

def DiskGeometry.chsToLba (chs : CHSAddress) (geometry : CHSGeometry) : Result UInt64 :=
  if geometry.headsPerCylinder = 0 ∨ geometry.sectorsPerTrack = 0 then
    .error (.fromCode .invalidArgument "CHS geometry has zero heads or sectors per track")
  else if chs.sector = 0 then
    .error (.fromCode .invalidArgument "CHS sector number must be >= 1 (1-based addressing)")
  else
    let lba := chs.cylinder.toUInt64 * geometry.headsPerCylinder.toUInt64 * geometry.sectorsPerTrack.toUInt64
    let lba := lba + chs.head.toUInt64 * geometry.sectorsPerTrack.toUInt64
    .ok (lba + (chs.sector.toUInt64 - 1))

def DiskGeometry.lbaToChs (lba : UInt64) (geometry : CHSGeometry) : Result CHSAddress :=
  if geometry.headsPerCylinder = 0 ∨ geometry.sectorsPerTrack = 0 then
    .error (.fromCode .invalidArgument "CHS geometry has zero heads or sectors per track")
  else
    let headsTimeSectors := geometry.headsPerCylinder.toUInt64 * geometry.sectorsPerTrack.toUInt64
    let remainder := lba % headsTimeSectors
    .ok {
      cylinder := (lba / headsTimeSectors).toUInt32
      head := (remainder / geometry.sectorsPerTrack.toUInt64).toUInt8
      sector := (remainder % geometry.sectorsPerTrack.toUInt64 + 1).toUInt8 }

structure PartitionEntry where
  index : Int := -1
  startLba : UInt64 := 0
  sectorCount : UInt64 := 0
  sectorSize : UInt32 := SECTOR_SIZE_512
  mbrType : UInt8 := 0
  isActive : Bool := false
  isExtended : Bool := false
  isLogical : Bool := false
  chsStart : CHSAddress := {}
  chsEnd : CHSAddress := {}
  typeGuid : Guid := .zero 16
  uniqueGuid : Guid := .zero 16
  gptAttributes : UInt64 := 0
  gptName : List UInt8 := []
  apmName : List UInt8 := []
  apmType : List UInt8 := []
deriving DecidableEq

def PartitionEntry.extent (e : PartitionEntry) : Extent :=
  ⟨e.startLba.toNat,e.sectorCount.toNat⟩

/-- The entry a resize leaves in place of `e`. -/
def PartitionEntry.movedTo (e : PartitionEntry) (newStart newSize : UInt64) : PartitionEntry :=
  { e with startLba := newStart, sectorCount := newSize }

structure PartitionParams where
  startLba : UInt64 := 0
  sectorCount : UInt64 := 0
  mbrType : UInt8 := 0x07
  typeGuid : Guid := .zero 16
  gptName : List UInt8 := []
  isActive : Bool := false
  isLogical : Bool := false
deriving DecidableEq

def PartitionParams.extent (p : PartitionParams) : Extent :=
  ⟨p.startLba.toNat,p.sectorCount.toNat⟩

namespace MbrTypes

def Empty : UInt8 := 0x00
def Extended : UInt8 := 0x05
def NTFS_HPFS : UInt8 := 0x07
def Extended_LBA : UInt8 := 0x0F
def LinuxExtended : UInt8 := 0x85
def GPT_Protective : UInt8 := 0xEE

def isExtendedType (type : UInt8) : Bool :=
  type == Extended || type == Extended_LBA || type == LinuxExtended

end MbrTypes

/-- The position `std::find_if` returns for an index, `none` for the end iterator. -/
def findIndex (entries : List PartitionEntry) (index : Int) : Option Nat :=
  entries.findIdx? (fun e => e.index == index)

theorem findIndex_some {entries : List PartitionEntry} {index : Int} {pos : Nat}
    (found : findIndex entries index = some pos) :
    ∃ bound : pos < entries.length, entries[pos].index = index := by
  obtain ⟨bound,matched,_⟩ := List.findIdx?_eq_some_iff_getElem.mp found
  exact ⟨bound,by simpa using matched⟩

theorem split_at {entries : List PartitionEntry} {pos : Nat} {e : PartitionEntry}
    (at_pos : entries[pos]? = some e) :
    ∃ before after, entries = before ++ e :: after ∧ before.length = pos := by
  obtain ⟨bound,rfl⟩ := List.getElem?_eq_some_iff.mp at_pos
  refine ⟨entries.take pos,entries.drop (pos + 1),?_,List.length_take_of_le (by omega)⟩
  rw [← List.drop_eq_getElem_cons bound,List.take_append_drop]

theorem eraseIdx_split (before after : List PartitionEntry) (e : PartitionEntry) :
    (before ++ e :: after).eraseIdx before.length = before ++ after := by
  rw [List.eraseIdx_append_of_length_le (Nat.le_refl _),Nat.sub_self,List.eraseIdx_cons_zero]

theorem modify_at {α : Type} (f : α → α) (before after : List α) (e : α) :
    (before ++ e :: after).modify before.length f = before ++ f e :: after := by
  induction before with
  | nil => rfl
  | cons first rest ih => simpa using ih

theorem modify_split (before after : List PartitionEntry) (e : PartitionEntry)
    (newStart newSize : UInt64) :
    (before ++ e :: after).modify before.length (·.movedTo newStart newSize) =
      before ++ e.movedTo newStart newSize :: after :=
  modify_at _ before after e

theorem map_modified {α β : Type} (f : α → β) (g : α → α) (blind : ∀ x, f (g x) = f x) (xs : List α) (pos : Nat) :
    (xs.modify pos g).map f = xs.map f := by
  apply List.ext_getElem?
  intro i
  rw [List.getElem?_map,List.getElem?_map,List.getElem?_modify]
  cases xs[i]? with
  | none => rfl
  | some x =>
    change some (f (if pos = i then g x else x)) = some (f x)
    split
    · rw [blind]
    · rfl

theorem indices_moved (entries : List PartitionEntry) (pos : Nat) (newStart newSize : UInt64) :
    (entries.modify pos (·.movedTo newStart newSize)).map (·.index) = entries.map (·.index) :=
  map_modified _ (·.movedTo newStart newSize) (fun _ => rfl) entries pos

theorem getElem?_moved (entries : List PartitionEntry) (pos i : Nat) (newStart newSize : UInt64) :
    (entries.modify pos (·.movedTo newStart newSize))[i]? =
      if pos = i then entries[i]?.map (·.movedTo newStart newSize) else entries[i]? := by
  rw [List.getElem?_modify]
  split <;> cases entries[i]? <;> rfl

theorem map_extent_moved (entries : List PartitionEntry) (pos : Nat) (newStart newSize : UInt64) :
    (entries.modify pos (·.movedTo newStart newSize)).map PartitionEntry.extent =
      (entries.map PartitionEntry.extent).set pos ⟨newStart.toNat,newSize.toNat⟩ := by
  apply List.ext_getElem?
  intro i
  rw [List.getElem?_map,getElem?_moved,List.getElem?_set]
  by_cases same : pos = i
  · subst same
    rw [if_pos rfl,if_pos rfl]
    by_cases bound : pos < entries.length
    · simp [bound,PartitionEntry.movedTo,PartitionEntry.extent]
    · simp [bound]
  · rw [if_neg same,if_neg same,List.getElem?_map]

theorem mem_after_resize {entries : List PartitionEntry} {pos : Nat} {newStart newSize : UInt64}
    {e : PartitionEntry} (member : e ∈ entries.modify pos (·.movedTo newStart newSize)) :
    e ∈ entries ∨ ∃ old, entries[pos]? = some old ∧ e = old.movedTo newStart newSize := by
  obtain ⟨i,at_i⟩ := List.getElem?_of_mem member
  rw [getElem?_moved] at at_i
  split at at_i
  next same =>
    obtain ⟨old,at_pos,rfl⟩ := Option.map_eq_some_iff.mp at_i
    exact .inr ⟨old,same ▸ at_pos,rfl⟩
  next => exact .inl (List.mem_of_getElem? at_i)

end SetecWizard.Core
