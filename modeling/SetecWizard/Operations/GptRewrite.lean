import SetecWizard.Gpt.RoundTrip
import SetecWizard.Operations.GptWrite
import SetecWizard.Operations.MbrRewrite

/-! A GPT written to a disk and read again, whatever the size of its records. The
primary copy is in place after the write, sector 0 protects it, and so every read of
the disk returns a GPT with the entries that were written.
-/
namespace SetecWizard.Core
open SetecWizard.Library

theorem occupiedSlots_congr {first second : List UInt8}
    (same : ∀ i < 4, slotBytes first i = slotBytes second i) : occupiedSlots first = occupiedSlots second := by
  refine List.filter_congr (fun i member => ?_)
  rw [slotEmpty_eq,slotEmpty_eq,same i (List.mem_range.mp member)]

namespace GptPartitionTable

/-- What a table keeps of the disk it was parsed from, whatever becomes of its entries. -/
structure Anchored (t : GptPartitionTable) (totalBytes : UInt64) (sectorSize : UInt32) : Prop where
  size : t.diskSizeBytes = totalBytes
  sector : t.sectorSize = sectorSize
  few : t.entryCount ≤ 1024
  wide : GPT_ENTRY_SIZE ≤ t.entrySize
  noMap : readBE16 t.protectiveMbr.data 0 ≠ APM_DDM_SIGNATURE

/-- The entries come back from the array, and the sectors it takes can be counted in 32
bits; neither is checked before the array is written. -/
structure Recordable (t : GptPartitionTable) : Prop extends Arrayed t where
  typed : ∀ pe ∈ t.entries, pe.typeGuid.isZero = false
  rounded : t.entryArrayBytes.toNat + t.sectorSize.toNat ≤ 2 ^ 32

/-- The serializer stays in its buffers: every record in the array, and the array in the
sectors counted for it. It checks neither. -/
structure InBuffers (t : GptPartitionTable) : Prop where
  fits : ∀ pe ∈ t.entries, pe.index.toNat * t.entrySize.toNat + 128 ≤ t.entryArrayBytes.toNat
  rounded : t.entryArrayBytes.toNat + t.sectorSize.toNat ≤ 2 ^ 32

/-- The fields that only an MBR uses are blank. -/
def Blank (e : PartitionEntry) : Prop :=
  e.mbrType = 0 ∧ e.isActive = false ∧ e.isExtended = false ∧ e.isLogical = false

section Parsed

variable {disk : Disk} {sectorSize : UInt32} {t : GptPartitionTable}

theorem parse_eq {self t : GptPartitionTable} {readFunc : DiskReadCallback}
    (parsed : self.parse readFunc = .ok t) :
    ∃ sector0 headerData entryData, readFunc 0 self.sectorSize = .ok sector0 ∧
      readFunc self.sectorSize.toUInt64 self.sectorSize = .ok headerData ∧ Readable headerData ∧
      readFunc (readLE64 headerData 72 * self.sectorSize.toUInt64)
        (readLE32 headerData 80 * readLE32 headerData 84) = .ok entryData ∧
      t = parseEntries { self with
        protectiveMbr := if 512 ≤ sector0.length then .copy sector0 0 512 else self.protectiveMbr
        revision := readLE32 headerData 8
        alternateLba := readLE64 headerData 32
        firstUsableLba := readLE64 headerData 40
        lastUsableLba := readLE64 headerData 48
        diskGuid := guidFromBytes headerData 56
        entryCount := readLE32 headerData 80
        entrySize := readLE32 headerData 84 } entryData := by
  unfold parse at parsed
  obtain ⟨sector0,first,parsed⟩ := bind_ok.mp parsed
  obtain ⟨headerData,header,parsed⟩ := bind_ok.mp parsed
  obtain ⟨_,long,parsed⟩ := bind_ok.mp parsed
  obtain ⟨_,signed,parsed⟩ := bind_ok.mp parsed
  obtain ⟨_,wide,parsed⟩ := bind_ok.mp parsed
  obtain ⟨_,few,parsed⟩ := bind_ok.mp parsed
  obtain ⟨entryData,entries,parsed⟩ := bind_ok.mp parsed
  cases parsed
  exact ⟨sector0,headerData,entryData,first,header,⟨Nat.le_of_not_lt (refuse_ok.mp long),
    not_not.mp (refuse_ok.mp signed),UInt32.not_lt.mp (refuse_ok.mp wide),UInt32.not_lt.mp (refuse_ok.mp few)⟩,
    entries,rfl⟩

theorem anchored_of_sector {readFunc : DiskReadCallback} {totalBytes : UInt64} {sector0 : List UInt8}
    (sector : readFunc 0 sectorSize = .ok sector0) (long : 512 ≤ sector0.length)
    (noMap : readBE16 sector0 0 ≠ APM_DDM_SIGNATURE)
    (parsed : parse { diskSizeBytes := totalBytes,sectorSize } readFunc = .ok t) :
    t.Anchored totalBytes sectorSize := by
  obtain ⟨again,headerData,entryData,first,_,readable,_,rfl⟩ := parse_eq parsed
  rw [sector] at first
  cases first
  refine ⟨rfl,rfl,readable.few,readable.wide,?_⟩
  have copied : (Bytes.copy sector0 0 512).data = slice sector0 0 512 := Bytes.copy_data sector0 0 512 (by omega)
  simp only [parseEntries,if_pos long,copied]
  rw [readBE16_slice _ _ _ _ (by decide)]
  exact noMap

theorem anchored_of_parse (legible : Legible disk sectorSize)
    (parsed : parse { diskSizeBytes := disk.totalBytes,sectorSize }
      (OperationUtils.readFunc .working disk sectorSize) = .ok t) : t.Anchored disk.totalBytes sectorSize := by
  obtain ⟨_,found,long,noMap,_⟩ := legible.detect
  exact anchored_of_sector found long noMap parsed

theorem of_read {fuel : Nat}
    (read : OperationUtils.readPartitionTable fuel .working disk sectorSize = some (.ok (.gpt t))) :
    Legible disk sectorSize ∧ parse { diskSizeBytes := disk.totalBytes,sectorSize }
      (OperationUtils.readFunc .working disk sectorSize) = .ok t := by
  rcases read_kind read with ⟨⟨_,same⟩,_⟩ | ⟨_,_,held,⟨same,_⟩ | ⟨_,same,_,parsed⟩⟩
  · cases same
  · cases same
  · cases same
    exact ⟨held.toLegible,parsed⟩

theorem typed_of_parse {self t : GptPartitionTable} {readFunc : DiskReadCallback}
    (parsed : self.parse readFunc = .ok t) : ∀ e ∈ t.entries, e.typeGuid.isZero = false := by
  obtain ⟨_,_,_,_,_,_,_,rfl⟩ := parse_eq parsed
  intro e member
  obtain ⟨i,_,_,used,rfl⟩ := mem_entries_parseEntries.mp member
  exact used

theorem recordable_of_parse (legible : Legible disk sectorSize)
    (parsed : parse { diskSizeBytes := disk.totalBytes,sectorSize }
      (OperationUtils.readFunc .working disk sectorSize) = .ok t) (nonempty : t.entries ≠ []) : t.Recordable := by
  have slotted := (parse_shape parsed).1
  obtain ⟨sector0,headerData,entryData,_,_,readable,entries,same⟩ := parse_eq parsed
  have record : GPT_ENTRY_SIZE.toNat = 128 := rfl
  have one : (1 : UInt32).toNat = 1 := rfl
  have positive := legible.positive
  have array : t.entryArrayBytes = readLE32 headerData 80 * readLE32 headerData 84 := by
    rw [same]
    rfl
  have stride : t.entrySize = readLE32 headerData 84 := by
    rw [same]
    rfl
  have sector : t.sectorSize = sectorSize := by
    rw [same]
    rfl
  have member : ∀ e ∈ t.entries, e.index.toNat * t.entrySize.toNat + 128 ≤ entryData.length := by
    intro e among
    rw [same] at among
    obtain ⟨i,_,whole,_,rfl⟩ := mem_entries_parseEntries.mp among
    rw [stride]
    exact whole
  rw [readFunc_counted] at entries
  simp only [Except.ok.injEq] at entries
  have length := congrArg List.length entries
  rw [length_window,← array,Disk.reach] at length
  refine ⟨⟨?_,slotted,?_⟩,typed_of_parse parsed,?_⟩
  · have wide := UInt32.le_iff_toNat_le.mp readable.wide
    rw [stride]
    omega
  · intro e among
    have whole := member e among
    omega
  · -- A count of sectors that wrapped would be zero, and nothing would have been read.
    obtain ⟨e,among⟩ := List.exists_mem_of_ne_nil _ nonempty
    have whole := member e among
    have width := t.entryArrayBytes.toNat_lt
    have bytes := sectorSize.toNat_lt
    rw [sector]
    refine Nat.le_of_not_lt (fun large => ?_)
    have none : ((t.entryArrayBytes + sectorSize - 1) / sectorSize).toNat = 0 := by
      rw [UInt32.toNat_div,UInt32.toNat_sub,UInt32.toNat_add,one]
      exact Nat.div_eq_of_lt (by omega)
    rw [none,Nat.zero_mul,Nat.zero_min,Nat.min_zero] at length
    omega

theorem blank_of_parse {self t : GptPartitionTable} {readFunc : DiskReadCallback}
    (parsed : self.parse readFunc = .ok t) : ∀ e ∈ t.entries, Blank e := by
  obtain ⟨_,_,_,_,_,_,_,rfl⟩ := parse_eq parsed
  intro e member
  obtain ⟨i,_,_,_,rfl⟩ := mem_entries_parseEntries.mp member
  exact ⟨rfl,rfl,rfl,rfl⟩

theorem ascending_of_parse {self t : GptPartitionTable} {readFunc : DiskReadCallback}
    (parsed : self.parse readFunc = .ok t) : t.entries.Pairwise (fun a b => a.index < b.index) := by
  obtain ⟨_,_,_,_,_,_,_,rfl⟩ := parse_eq parsed
  exact ascending_parseEntries _ _

end Parsed

section Edited

variable {t t' : GptPartitionTable} {totalBytes : UInt64} {sectorSize : UInt32}

theorem Anchored.kept (anchored : t.Anchored totalBytes sectorSize) {call : GptCall} (effect : Effect t call t') :
    t'.Anchored totalBytes sectorSize := by
  obtain ⟨count,size,bytes,sector⟩ := effect_geometry effect
  have mbr : t'.protectiveMbr = t.protectiveMbr := by
    cases effect with
    | refused => rfl
    | settled => unfold withLastUsable; split <;> rfl
    | added => unfold withLastUsable; split <;> rfl
    | deleted => rfl
    | resized => rfl
  exact ⟨bytes.trans anchored.size,sector.trans anchored.sector,by rw [count]; exact anchored.few,
    by rw [size]; exact anchored.wide,by rw [mbr]; exact anchored.noMap⟩

theorem Recordable.of_added {params : PartitionParams} {random : Bytes 16}
    (anchored : t.Anchored totalBytes sectorSize) (slotted : t.Slotted)
    (typed : ∀ e ∈ t.entries, e.typeGuid.isZero = false) (effect : Effect t (.add params random) t')
    (within : t'.InBuffers) : t'.Recordable := by
  refine ⟨⟨UInt32.le_iff_toNat_le.mp (anchored.kept effect).wide,slotted.kept effect,within.fits⟩,?_,within.rounded⟩
  exact effect_labels effect (P := fun type _ => type.isZero = false) typed
    (fun params random slot _ => newEntry_typed _ params random slot)

theorem Recordable.deleted (rec : t.Recordable) (pos : Nat) :
    Recordable { t with entries := t.entries.eraseIdx pos } := by
  have sub := List.eraseIdx_sublist t.entries pos
  exact ⟨⟨rec.wide,⟨rec.slotted.distinct.sublist (sub.map _),fun e member => rec.slotted.inside e (sub.subset member)⟩,
    fun e member => rec.fits e (sub.subset member)⟩,fun e member => rec.typed e (sub.subset member),rec.rounded⟩

theorem ascending_moved {entries : List PartitionEntry}
    (ascending : entries.Pairwise (fun a b => a.index < b.index)) (pos : Nat) (newStart newSize : UInt64) :
    (entries.modify pos (·.movedTo newStart newSize)).Pairwise (fun a b => a.index < b.index) := by
  have numbers : (entries.map (·.index)).Pairwise (· < ·) := List.pairwise_map.mpr ascending
  rw [← indices_moved entries pos newStart newSize] at numbers
  exact List.pairwise_map.mp numbers

theorem Recordable.resized (rec : t.Recordable) (pos : Nat) (newStart newSize : UInt64) :
    Recordable { t with entries := t.entries.modify pos (·.movedTo newStart newSize) } := by
  have each {P : PartitionEntry → Prop} (blind : ∀ e, P e → P (e.movedTo newStart newSize))
      (held : ∀ e ∈ t.entries, P e) : ∀ e ∈ t.entries.modify pos (·.movedTo newStart newSize), P e := by
    intro e member
    rcases mem_after_resize member with old | ⟨old,at_pos,rfl⟩
    · exact held e old
    · exact blind old (held old (List.mem_of_getElem? at_pos))
  refine ⟨⟨rec.wide,⟨?_,each (fun _ inside => inside) rec.slotted.inside⟩,each (fun _ fits => fits) rec.fits⟩,
    each (fun _ typed => typed) rec.typed,rec.rounded⟩
  rw [indices_moved]
  exact rec.slotted.distinct

end Edited

section Image

variable {t : GptPartitionTable}

theorem Recordable.arraySectors (rec : t.Recordable) (positive : 0 < t.sectorSize.toNat) :
    t.entryArrayBytes.toNat ≤ (t.entryArraySectors * t.sectorSize).toNat ∧
      (t.entryArrayBytes.toNat + t.sectorSize.toNat - 1) / t.sectorSize.toNat * t.sectorSize.toNat =
        (t.entryArraySectors * t.sectorSize).toNat := by
  have one : (1 : UInt32).toNat = 1 := rfl
  have rounded := rec.rounded
  have width := t.entryArrayBytes.toNat_lt
  have sum : (t.entryArrayBytes + t.sectorSize - 1).toNat = t.entryArrayBytes.toNat + t.sectorSize.toNat - 1 := by
    rw [UInt32.toNat_sub,UInt32.toNat_add,one]
    omega
  have below := Nat.div_mul_le_self (t.entryArrayBytes.toNat + t.sectorSize.toNat - 1) t.sectorSize.toNat
  have above := Nat.lt_div_mul_add (a := t.entryArrayBytes.toNat + t.sectorSize.toNat - 1) positive
  have bytes : (t.entryArraySectors * t.sectorSize).toNat =
      (t.entryArrayBytes.toNat + t.sectorSize.toNat - 1) / t.sectorSize.toNat * t.sectorSize.toNat := by
    rw [entryArraySectors,UInt32.toNat_mul,UInt32.toNat_div,sum,Nat.mod_eq_of_lt (by omega)]
  exact ⟨by omega,bytes.symm⟩

theorem Recordable.paddedEntries (rec : t.Recordable) (positive : 0 < t.sectorSize.toNat) :
    t.entryArrayBytes.toNat ≤ t.paddedEntries.length ∧ t.paddedEntries.length < 2 ^ 32 ∧
      slice t.paddedEntries 0 t.entryArrayBytes.toNat = t.entryArray := by
  have enough := (rec.arraySectors positive).1
  have array := rec.length_entryArray
  have width := (t.entryArraySectors * t.sectorSize).toNat_lt
  have fits : 0 + t.entryArray.length ≤
      (List.replicate (t.entryArraySectors * t.sectorSize).toNat (0 : UInt8)).length := by
    rw [List.length_replicate]
    omega
  have same := slice_splice_same _ _ _ fits
  have length := length_splice _ _ _ fits
  rw [List.length_replicate] at length
  rw [array] at same
  rw [GptPartitionTable.paddedEntries]
  exact ⟨by omega,by omega,same⟩

theorem Recordable.image (rec : t.Recordable) (long : 512 ≤ t.sectorSize.toNat) {image : List UInt8}
    (serialized : t.serialize = .ok image) :
    2 * t.sectorSize.toNat + t.entryArrayBytes.toNat ≤ image.length ∧ image.length < 2 ^ 63 ∧
      slice image 0 512 = slice t.protMbr 0 512 ∧
      slice image t.sectorSize.toNat t.sectorSize.toNat = t.primaryHeader ∧
      slice image (2 * t.sectorSize.toNat) t.entryArrayBytes.toNat = t.entryArray := by
  have width := t.sectorSize.toNat_lt
  have mbr := length_protMbr long
  have header : t.primaryHeader.length = t.sectorSize.toNat := length_primaryHeader (by omega)
  have backup : t.backupHeader.length = t.sectorSize.toNat := length_backupHeader (by omega)
  obtain ⟨enough,short,array⟩ := rec.paddedEntries (by omega)
  simp only [serialize,List.append_assoc,Except.ok.injEq] at serialized
  generalize t.protMbr = sector0 at *
  generalize t.primaryHeader = headerData at *
  generalize t.backupHeader = backupData at *
  generalize t.paddedEntries = padding at *
  have at_header := slice_middle sector0 headerData (padding ++ (padding ++ backupData))
  have at_array := slice_append_right (sector0 ++ headerData) (padding ++ (padding ++ backupData)) 0
    t.entryArrayBytes.toNat
  rw [slice_append_left padding (padding ++ backupData) 0 _ (by omega),array,List.length_append,mbr,header,Nat.add_zero] at at_array
  rw [mbr,header] at at_header
  rw [← serialized]
  simp only [List.append_assoc] at at_header at_array
  refine ⟨?_,?_,slice_append_left _ _ _ _ (by omega),at_header,by rw [Nat.two_mul]; exact at_array⟩
  · simp only [List.length_append]
    omega
  · simp only [List.length_append]
    omega

theorem Recordable.paddedEntries_eq (rec : t.Recordable) (positive : 0 < t.sectorSize.toNat) :
    t.paddedEntries.length = (t.entryArraySectors * t.sectorSize).toNat ∧ t.paddedEntries = t.entryArray ++
      List.replicate ((t.entryArraySectors * t.sectorSize).toNat - t.entryArray.length) 0 := by
  have enough := (rec.arraySectors positive).1
  have array := rec.length_entryArray
  have parts : t.paddedEntries = t.entryArray ++
      List.replicate ((t.entryArraySectors * t.sectorSize).toNat - t.entryArray.length) 0 := by
    rw [GptPartitionTable.paddedEntries,splice,List.take_zero,List.nil_append,Nat.zero_add,List.drop_replicate]
  refine ⟨?_,parts⟩
  rw [parts,List.length_append,List.length_replicate]
  omega

theorem Recordable.image_sectors (rec : t.Recordable) (long : 512 ≤ t.sectorSize.toNat) {image : List UInt8}
    (serialized : t.serialize = .ok image) :
    (∃ count, image.length = count * t.sectorSize.toNat) ∧
      2 * t.sectorSize.toNat + t.paddedEntries.length ≤ image.length ∧
      slice image (2 * t.sectorSize.toNat) t.paddedEntries.length = t.paddedEntries := by
  have mbr := length_protMbr long
  have header : t.primaryHeader.length = t.sectorSize.toNat := length_primaryHeader (by omega)
  have backup : t.backupHeader.length = t.sectorSize.toNat := length_backupHeader (by omega)
  have length := (rec.paddedEntries_eq (by omega)).1
  rw [← (rec.arraySectors (by omega)).2] at length
  simp only [serialize,List.append_assoc,Except.ok.injEq] at serialized
  generalize t.protMbr = sector0 at *
  generalize t.primaryHeader = headerData at *
  generalize t.backupHeader = backupData at *
  generalize t.paddedEntries = padding at *
  generalize (t.entryArrayBytes.toNat + t.sectorSize.toNat - 1) / t.sectorSize.toNat = sectors at length
  have at_array := slice_middle (sector0 ++ headerData) padding (padding ++ backupData)
  rw [List.length_append,mbr,header,← Nat.two_mul,List.append_assoc] at at_array
  rw [← serialized]
  simp only [List.length_append,mbr,header,backup,length]
  refine ⟨⟨2 * sectors + 3,by ring⟩,by omega,?_⟩
  rw [← length]
  exact at_array

end Image

/-- A table was written over a disk it belongs to. -/
structure Overwrote (middle : Disk) (sectorSize : UInt32) (t : GptPartitionTable) (disk' : Disk) : Prop where
  anchored : t.Anchored middle.totalBytes sectorSize
  recordable : t.Recordable
  long : 512 ≤ sectorSize.toNat
  moderate : sectorSize.toNat ≤ 2 ^ 31
  size : disk'.totalBytes = middle.totalBytes
  room : 2 * sectorSize.toNat + t.entryArrayBytes.toNat ≤ middle.totalBytes.toNat
  sector0 : window disk'.byte 0 512 = slice t.protMbr 0 512
  header : window disk'.byte sectorSize.toNat sectorSize.toNat = t.primaryHeader
  array : window disk'.byte (2 * sectorSize.toNat) t.entryArrayBytes.toNat = t.entryArray

namespace Overwrote

variable {middle disk' : Disk} {sectorSize : UInt32} {t : GptPartitionTable}

theorem of_patched (anchored : t.Anchored middle.totalBytes sectorSize) (rec : t.Recordable)
    (long : 512 ≤ sectorSize.toNat) (moderate : sectorSize.toNat ≤ 2 ^ 31) {image : List UInt8}
    (serialized : t.serialize = .ok image) (rest : List UInt8)
    (room : (image ++ rest).length ≤ middle.totalBytes.toNat) :
    t.Overwrote middle sectorSize (middle.patched 0 (image ++ rest)) := by
  have sector := anchored.sector
  obtain ⟨length,_,mbr,header,array⟩ := rec.image (by rw [sector]; exact long) serialized
  rw [sector] at length header array
  rw [List.length_append] at room
  have front (off n : Nat) (inside : off + n ≤ image.length) :
      window (middle.patched 0 (image ++ rest)).byte off n = slice image off n := by
    have whole := window_patch_inside middle.byte 0 (image ++ rest) off n (by rw [List.length_append]; omega)
    rw [Nat.zero_add] at whole
    rw [Disk.patched_byte,whole,slice_append_left _ _ _ _ inside]
  refine ⟨anchored,rec,long,moderate,rfl,by omega,?_,?_,?_⟩
  · rw [front 0 512 (by omega),mbr]
  · rw [front _ _ (by omega),header]
  · rw [front _ _ (by omega),array]

theorem of_write {os : Win32} (anchored : t.Anchored middle.totalBytes sectorSize) (rec : t.Recordable)
    (long : 512 ≤ sectorSize.toNat) (moderate : sectorSize.toNat ≤ 2 ^ 31)
    (written : OperationUtils.writePartitionTable os middle sectorSize (.gpt t) = (.ok (),disk')) :
    t.Overwrote middle sectorSize disk' := by
  obtain ⟨image,serialized⟩ : ∃ image, t.serialize = .ok image := ⟨_,rfl⟩
  obtain ⟨length,short,_⟩ := rec.image (by rw [anchored.sector]; exact long) serialized
  have nonempty : image ≠ [] := by
    rintro rfl
    rw [anchored.sector,List.length_nil] at length
    omega
  obtain ⟨same,room⟩ := writePartitionTable_ok (by omega)
    (show (PartitionTable.gpt t).serialize = .ok image from serialized) nonempty short written
  rw [OperationUtils.padded] at same room
  rw [same]
  exact of_patched anchored rec long moderate serialized _ room

variable (laid : t.Overwrote middle sectorSize disk')
include laid

theorem positive : 0 < sectorSize.toNat := by
  have long := laid.long
  omega

theorem whole : 512 ≤ t.sectorSize.toNat := by
  rw [laid.anchored.sector]
  exact laid.long

theorem legible : Legible disk' sectorSize := by
  have long := laid.long
  have room := laid.room
  have length := length_protMbr laid.whole
  refine ⟨long,laid.moderate,by rw [laid.size]; omega,?_,?_⟩
  · rw [laid.sector0,readLE16_slice _ _ _ _ (by decide)]
    exact protMbr_signed laid.whole
  · rw [laid.sector0,readBE16_slice _ _ _ _ (by decide)]
    have kept : readBE16 t.protMbr 0 = readBE16 t.protectiveMbr.data 0 := by
      have clear : slice t.protMbr 0 446 = slice t.preserved 0 446 := by
        have sector := t.length_preserved
        rw [protMbr_eq]
        refine slice_overwrite_apart (fun field member => ?_) sector ?_
        · have fit := t.protFields_layout.fit field member
          have wide := laid.whole
          omega
        · have base : MBR_PARTITION_ENTRY_OFFSET = 446 := rfl
          simp [protFields,Outside,base]
      have copied : slice t.preserved 0 446 = slice t.protectiveMbr.data 0 446 := by
        have wide := laid.whole
        have bytes := t.protectiveMbr.size
        have all : t.protectiveMbr.data.take (min 512 t.sectorSize.toNat) = t.protectiveMbr.data :=
          List.take_of_length_le (by omega)
        have fits : 0 + t.protectiveMbr.data.length ≤ (List.replicate t.sectorSize.toNat (0 : UInt8)).length := by
          rw [List.length_replicate]
          omega
        have within := slice_splice_inside _ t.protectiveMbr.data 0 0 446 fits (by omega)
        rw [preserved,all,← within]
      have one := readBE16_slice t.protMbr 0 446 0 (by decide)
      have two := readBE16_slice t.protectiveMbr.data 0 446 0 (by decide)
      rw [clear,copied] at one
      exact one.symm.trans two
    rw [Nat.zero_add,kept]
    exact laid.anchored.noMap

theorem protective : ∃ v, MbrAt disk' sectorSize [] v ∧ v.hasGptProtective = true := by
  have slots : ∀ i < 4, slotBytes (slice t.protMbr 0 512) i = slotBytes t.protMbr i := by
    intro i below
    have base : MBR_PARTITION_ENTRY_OFFSET = 446 := rfl
    have width : MBR_PARTITION_ENTRY_SIZE = 16 := rfl
    unfold slotBytes
    rw [base,width,slice_slice _ _ _ _ _ (by omega),Nat.zero_add]
  have occupied := (occupiedSlots_congr slots).trans (protMbr_slots laid.whole)
  have first := laid.sector0
  have byte := getD_slice t.protMbr 0 512 450 (by decide)
  rw [Nat.zero_add,protMbr_type laid.whole] at byte
  generalize slice t.protMbr 0 512 = raw at first byte occupied
  have entries : primaryEntries sectorSize raw = [primaryEntry sectorSize raw 0] := by
    rw [primaryEntries,occupied]
    rfl
  have type : (primaryEntry sectorSize raw 0).mbrType = MbrTypes.GPT_Protective := byte
  have plain : (primaryEntry sectorSize raw 0).isExtended =
    MbrTypes.isExtendedType (primaryEntry sectorSize raw 0).mbrType := rfl
  have search : (primaryEntries sectorSize raw).find? (·.isExtended) = none := by
    rw [entries,List.find?_singleton,plain,type]
    rfl
  refine ⟨_,⟨laid.legible,.absent (by rw [first]; exact search),rfl⟩,?_⟩
  rw [MbrPartitionTable.hasGptProtective,MbrPartitionTable.entries_scanned,first,entries]
  simp [type]

theorem reparse : ∃ protectiveMbr, parse { diskSizeBytes := disk'.totalBytes,sectorSize }
    (OperationUtils.readFunc .working disk' sectorSize) = .ok (parseEntries
      (t.adopted { diskSizeBytes := disk'.totalBytes,sectorSize } protectiveMbr) t.entryArray) := by
  have positive := laid.positive
  have moderate := laid.moderate
  have room := laid.room
  have long : 92 ≤ t.sectorSize.toNat := by
    have whole := laid.whole
    omega
  have two : (2 : UInt64).toNat = 2 := rfl
  have bytes : GPT_HEADER_SIZE.toNat = 92 := rfl
  have width := sectorSize.toNat_lt
  have describes := primaryHeader_describes long
  have addresses := primaryHeader_addresses long
  have rounded := laid.recordable.rounded
  obtain ⟨sector0,first,_⟩ := laid.legible.detect
  have second : sectorSize.toUInt64.toNat = 1 * sectorSize.toNat := by rw [UInt32.toNat_toUInt64,Nat.one_mul]
  have third : ((2 : UInt64) * sectorSize.toUInt64).toNat = 2 * sectorSize.toNat := by
    rw [UInt64.toNat_mul,UInt32.toNat_toUInt64,two,Nat.mod_eq_of_lt (by omega)]
  have header := readFunc_sector disk' moderate sectorSize.toUInt64 positive (Nat.le_refl _)
  have there : disk'.reach sectorSize.toNat sectorSize.toNat = sectorSize.toNat := by
    rw [Disk.reach,laid.size]
    omega
  rw [start_sector positive second,UInt32.toNat_toUInt64,there,laid.header] at header
  have entries := @readFunc_counted disk' sectorSize (2 * sectorSize.toUInt64) t.entryArrayBytes
  have enough := laid.recordable.arraySectors (by rw [laid.anchored.sector]; exact positive)
  have counted : ((t.entryArrayBytes + sectorSize - 1) / sectorSize).toNat * sectorSize.toNat =
      (t.entryArraySectors * t.sectorSize).toNat := by
    have one : (1 : UInt32).toNat = 1 := rfl
    rw [← enough.2,laid.anchored.sector,UInt32.toNat_div,UInt32.toNat_sub,UInt32.toNat_add,one]
    rw [laid.anchored.sector] at rounded
    have sum : (2 ^ 32 - 1 + (t.entryArrayBytes.toNat + sectorSize.toNat) % 2 ^ 32) % 2 ^ 32 =
        t.entryArrayBytes.toNat + sectorSize.toNat - 1 := by omega
    rw [sum]
  have all : min t.entryArrayBytes.toNat (disk'.reach (2 * sectorSize.toNat)
      (t.entryArraySectors * t.sectorSize).toNat) = t.entryArrayBytes.toNat := by
    rw [Disk.reach,laid.size]
    omega
  rw [start_sector positive third,third,counted,all,laid.array] at entries
  have minimum : ¬ t.primaryHeader.length < GPT_HEADER_SIZE.toNat := by
    rw [describes.size]
    omega
  refine ⟨if 512 ≤ sector0.length then .copy sector0 0 512 else .zero 512,?_⟩
  simp only [parse,first,header,bind,Except.bind,refuse,minimum,describes.signature,describes.revision,
    describes.firstUsable,describes.lastUsable,describes.diskGuid,describes.entryCount,describes.entrySize,
    addresses.other,addresses.entries,UInt32.not_lt.mpr laid.anchored.wide,UInt32.not_lt.mpr laid.anchored.few,
    if_false,ne_eq,not_true]
  rw [← entryArrayBytes,entries]
  rfl

theorem reread : ∃ g : GptPartitionTable,
    (∀ fuel table', OperationUtils.readPartitionTable fuel .working disk' sectorSize = some (.ok table') →
      table' = .gpt g) ∧
    OperationUtils.readPartitionTable 1 .working disk' sectorSize = some (.ok (.gpt g)) ∧
    parse { diskSizeBytes := disk'.totalBytes,sectorSize } (OperationUtils.readFunc .working disk' sectorSize) =
      .ok g ∧
    g.entryCount = t.entryCount ∧ g.entrySize = t.entrySize ∧
    g.entries.Perm (t.entries.map (fun pe => recorded sectorSize pe.index.toNat pe)) ∧
    (t.entries.Pairwise (fun a b => a.index < b.index) →
      g.entries = t.entries.map (fun pe => recorded sectorSize pe.index.toNat pe)) := by
  obtain ⟨protectiveMbr,parsed⟩ := laid.reparse
  obtain ⟨v,held,protective⟩ := laid.protective
  have arr := laid.recordable.toArrayed
  have typed := laid.recordable.typed
  refine ⟨_,?_,held.read_gpt protective parsed,parsed,rfl,rfl,perm_parseEntries arr typed rfl rfl,
    fun ascending => entries_parseEntries arr typed ascending rfl rfl⟩
  intro fuel table' read
  rcases read_kind read with ⟨_,other⟩ | ⟨chain,u,found,⟨_,alone⟩ | ⟨backing,same,_,again⟩⟩
  · exact absurd laid.legible other
  · rw [found.unique held] at alone
    exact absurd ⟨_,parsed⟩ (alone protective)
  · rw [parsed] at again
    cases again
    exact same

theorem readsSame_iff {β : Type} (view : PartitionEntry → β) (before : GptPartitionTable) :
    ReadsSame view disk' sectorSize (.gpt before) ↔
      (t.entries.map (fun pe => view (recorded sectorSize pe.index.toNat pe))).Perm (before.entries.map view) := by
  obtain ⟨g,always,read,_,_,_,perm,_⟩ := laid.reread
  have viewed : (g.entries.map view).Perm (t.entries.map (fun pe => view (recorded sectorSize pe.index.toNat pe))) := by
    have mapped := perm.map view
    rw [List.map_map] at mapped
    exact mapped
  constructor
  · rintro ⟨fuel,after,again,_,same⟩
    rw [always fuel after again] at same
    exact viewed.symm.trans same
  · intro same
    exact ⟨1,_,read,rfl,viewed.trans same⟩

theorem readsEqual {β : Type} {view : PartitionEntry → β} {before : GptPartitionTable}
    (ascending : t.entries.Pairwise (fun a b => a.index < b.index))
    (same : t.entries.map (fun pe => view (recorded sectorSize pe.index.toNat pe)) = before.entries.map view) :
    ReadsEqual view disk' sectorSize (.gpt before) := by
  obtain ⟨g,_,read,_,_,_,_,listed⟩ := laid.reread
  refine ⟨1,_,read,rfl,?_⟩
  rw [PartitionTable.partitions,PartitionTable.partitions,← same,listed ascending,List.map_map]
  rfl

theorem other {β : Type} {view : PartitionEntry → β} (before : MbrPartitionTable) :
    ¬ ReadsSame view disk' sectorSize (.mbr before) := by
  rintro ⟨fuel,after,read,kind,_⟩
  obtain ⟨_,always,_⟩ := laid.reread
  rw [always fuel after read] at kind
  cases kind

end Overwrote

end GptPartitionTable
end SetecWizard.Core
