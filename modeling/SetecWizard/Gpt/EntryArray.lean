import Mathlib.Data.List.TakeWhile
import SetecWizard.Format.Names
import SetecWizard.Gpt.Layout

/-! The GPT entry array. An entry is a record of six fields; the array is the zeroed
area with the records of the entries at their slots, so that reading a slot gives
its entry back and reading any other slot gives zeros. Decoding a name stops at a zero and encoding leaves
one, so that a name that fills its field is cut.
-/
namespace SetecWizard.Core
open SetecWizard.Library

namespace GptPartitionTable

/-- The code units of a name as they stand in the record. -/
def nameField (pe : PartitionEntry) : List UInt8 := (utf8ToUtf16le pe.gptName 36).flatMap le16

theorem length_utf8ToUtf16le (src : List UInt8) : (utf8ToUtf16le src 36).length = 36 := by
  have bound := length_utf8ToUtf16leLoop src 35
  simp only [utf8ToUtf16le,Nat.reduceSub,List.length_append,List.length_replicate]
  omega

theorem length_nameField (pe : PartitionEntry) : (nameField pe).length = 72 := by
  rw [nameField,length_flatMap_blocks le16 2 length_le16,length_utf8ToUtf16le]

section Record

variable (pe : PartitionEntry)

theorem length_entryBytes : (entryBytes pe).length = 128 := by
  have name := length_nameField pe
  rw [nameField] at name
  simp only [entryBytes,List.length_append,name,pe.typeGuid.size,pe.uniqueGuid.size,length_le64]

theorem entryBytes_fields :
    slice (entryBytes pe) 0 16 = pe.typeGuid.data ∧
    slice (entryBytes pe) 16 16 = pe.uniqueGuid.data ∧
    slice (entryBytes pe) 32 8 = le64 pe.startLba ∧
    slice (entryBytes pe) 40 8 = le64 (pe.startLba + pe.sectorCount - 1) ∧
    slice (entryBytes pe) 48 8 = le64 pe.gptAttributes ∧
    slice (entryBytes pe) 56 72 = nameField pe := by
  have type := pe.typeGuid.size
  have unique := pe.uniqueGuid.size
  have name := length_nameField pe
  simp only [entryBytes,List.append_assoc]
  generalize stop : pe.startLba + pe.sectorCount - 1 = last
  rw [← nameField]
  have at_type := slice_middle [] pe.typeGuid.data (pe.uniqueGuid.data ++ (le64 pe.startLba
    ++ (le64 last ++ (le64 pe.gptAttributes ++ nameField pe))))
  have at_unique := slice_middle pe.typeGuid.data pe.uniqueGuid.data (le64 pe.startLba
    ++ (le64 last ++ (le64 pe.gptAttributes ++ nameField pe)))
  have at_start := slice_middle (pe.typeGuid.data ++ pe.uniqueGuid.data) (le64 pe.startLba)
    (le64 last ++ (le64 pe.gptAttributes ++ nameField pe))
  have at_last := slice_middle (pe.typeGuid.data ++ pe.uniqueGuid.data ++ le64 pe.startLba) (le64 last)
    (le64 pe.gptAttributes ++ nameField pe)
  have at_attributes := slice_middle (pe.typeGuid.data ++ pe.uniqueGuid.data ++ le64 pe.startLba
    ++ le64 last) (le64 pe.gptAttributes) (nameField pe)
  have at_name := slice_middle (pe.typeGuid.data ++ pe.uniqueGuid.data ++ le64 pe.startLba
    ++ le64 last ++ le64 pe.gptAttributes) (nameField pe) []
  simp only [List.append_assoc,List.append_nil,List.length_append,List.length_nil,List.nil_append,type,
    unique,name,length_le64,Nat.reduceAdd] at at_type at_unique at_start at_last at_attributes at_name
  exact ⟨at_type,at_unique,at_start,at_last,at_attributes,at_name⟩

end Record

def recorded (sectorSize : UInt32) (i : Nat) (pe : PartitionEntry) : PartitionEntry :=
  { index := i
    startLba := pe.startLba
    sectorCount := pe.sectorCount
    sectorSize := sectorSize
    typeGuid := pe.typeGuid
    uniqueGuid := pe.uniqueGuid
    gptAttributes := pe.gptAttributes
    gptName := utf16leToUtf8 (utf8ToUtf16le pe.gptName 36) 36 }

section ReadBack

variable {data : List UInt8} {entry : Nat} {pe : PartitionEntry}

theorem record_field (record : slice data entry 128 = entryBytes pe) (off n : Nat)
    (inside : off + n ≤ 128) : slice data (entry + off) n = slice (entryBytes pe) off n := by
  rw [← record,slice_slice _ _ _ _ _ inside]

theorem units_of_field {off : Nat} {units : List UInt16} (count : units.length = 36)
    (field : slice data off 72 = units.flatMap le16) :
    (List.range 36).map (fun k => readLE16 data (off + 2 * k)) = units := by
  apply List.ext_getElem (by simp [count])
  intro k low high
  rw [count] at high
  rw [List.getElem_map,List.getElem_range]
  apply readLE16_of_slice
  rw [← slice_slice _ _ 72 _ _ (by omega),field,slice_flatMap le16 2 length_le16,
    List.getElem?_eq_getElem (by omega),Option.elim_some]

theorem name_units (record : slice data entry 128 = entryBytes pe) :
    (List.range 36).map (fun k => readLE16 data (entry + 56 + 2 * k)) = utf8ToUtf16le pe.gptName 36 :=
  units_of_field (length_utf8ToUtf16le pe.gptName)
    ((record_field record 56 72 (by omega)).trans (entryBytes_fields pe).2.2.2.2.2)

theorem entryAt_record (sectorSize : UInt32) {entrySize i : Nat} (fits : i * entrySize + 128 ≤ data.length)
    (record : slice data (i * entrySize) 128 = entryBytes pe) :
    entryAt sectorSize data entrySize i = recorded sectorSize i pe := by
  obtain ⟨type,unique,start,last,attributes,_⟩ := entryBytes_fields pe
  simp only [entryAt]
  generalize i * entrySize = entry at fits record ⊢
  have at_type : guidFromBytes data entry = pe.typeGuid :=
    Bytes.copy_of_slice _ (by omega) ((record_field record 0 16 (by omega)).trans type)
  have at_unique : guidFromBytes data (entry + 16) = pe.uniqueGuid :=
    Bytes.copy_of_slice _ (by omega) ((record_field record 16 16 (by omega)).trans unique)
  have at_start := readLE64_of_slice ((record_field record 32 8 (by omega)).trans start)
  have at_last := readLE64_of_slice ((record_field record 40 8 (by omega)).trans last)
  have at_attributes := readLE64_of_slice ((record_field record 48 8 (by omega)).trans attributes)
  -- The last LBA is inclusive, so the count comes back whether or not the sum wrapped.
  have count : pe.startLba + pe.sectorCount - 1 - pe.startLba + 1 = pe.sectorCount := by grind
  simp only [recorded,at_type,at_unique,at_start,at_last,at_attributes,name_units record,count]

end ReadBack

def records (entrySize : Nat) (entries : List PartitionEntry) : List (Nat × List UInt8) :=
  entries.map (fun pe => (pe.index.toNat * entrySize,entryBytes pe))

/-- A slot of its own for every entry, which the array holds in full. -/
structure Arrayed (t : GptPartitionTable) : Prop where
  wide : 128 ≤ t.entrySize.toNat
  slotted : t.Slotted
  fits : ∀ pe ∈ t.entries, pe.index.toNat * t.entrySize.toNat + 128 ≤ t.entryArrayBytes.toNat

namespace Arrayed

variable {t : GptPartitionTable}

theorem slot (arr : t.Arrayed) {pe : PartitionEntry} (member : pe ∈ t.entries) :
    pe.index.toNat < t.entryCount.toNat ∧ (pe.index.toNat : Int) = pe.index := by
  obtain ⟨low,high⟩ := arr.slotted.inside pe member
  omega

theorem entryArray_eq (arr : t.Arrayed) : t.entryArray =
    overwrite (List.replicate t.entryArrayBytes.toNat 0) (records t.entrySize.toNat t.entries) := by
  rw [entryArray,overwrite,records,List.foldl_map]
  refine List.foldl_ext _ _ _ ?_
  intro array pe member
  obtain ⟨low,high⟩ := arr.slotted.inside pe member
  rw [if_neg (by omega)]

theorem slots_apart (arr : t.Arrayed) {i j : Nat} (other : i ≠ j) :
    i * t.entrySize.toNat + 128 ≤ j * t.entrySize.toNat ∨ j * t.entrySize.toNat + 128 ≤ i * t.entrySize.toNat := by
  have wide := arr.wide
  rcases Nat.lt_or_gt_of_ne other with before | after
  · left
    have step := Nat.mul_le_mul_right t.entrySize.toNat (Nat.succ_le_of_lt before)
    rw [Nat.succ_mul] at step
    omega
  · right
    have step := Nat.mul_le_mul_right t.entrySize.toNat (Nat.succ_le_of_lt after)
    rw [Nat.succ_mul] at step
    omega

theorem layout (arr : t.Arrayed) : Fields t.entryArrayBytes.toNat (records t.entrySize.toNat t.entries) := by
  constructor
  · intro field member
    obtain ⟨pe,among,rfl⟩ := List.mem_map.mp member
    simpa only [length_entryBytes] using arr.fits pe among
  · rw [records,List.pairwise_map]
    have distinct : t.entries.Pairwise (fun a b => a.index ≠ b.index) :=
      List.pairwise_map.mp arr.slotted.distinct
    refine distinct.imp_of_mem ?_
    intro a b first second other
    have low := (arr.slot first).2
    have high := (arr.slot second).2
    have apart := arr.slots_apart (i := a.index.toNat) (j := b.index.toNat) (by omega)
    simp only [Outside,length_entryBytes]
    omega

theorem length_entryArray (arr : t.Arrayed) : t.entryArray.length = t.entryArrayBytes.toNat := by
  rw [arr.entryArray_eq]
  exact length_overwrite arr.layout.fit List.length_replicate

theorem used_slot (arr : t.Arrayed) {pe : PartitionEntry} (member : pe ∈ t.entries) :
    slice t.entryArray (pe.index.toNat * t.entrySize.toNat) 128 = entryBytes pe := by
  have read := arr.layout.read (List.length_replicate (n := t.entryArrayBytes.toNat) (a := (0 : UInt8)))
    (List.mem_map_of_mem (f := fun pe => (pe.index.toNat * t.entrySize.toNat,entryBytes pe)) member)
  rw [length_entryBytes,← arr.entryArray_eq] at read
  exact read

/-- No byte of a slot without an entry is written. -/
theorem free_byte (arr : t.Arrayed) {i j : Nat} (inside : j < 128)
    (bound : i * t.entrySize.toNat + j < t.entryArray.length) (free : ∀ pe ∈ t.entries, pe.index ≠ i) :
    t.entryArray[i * t.entrySize.toNat + j]? = some 0 := by
  have length := arr.length_entryArray
  have clear : ∀ field ∈ records t.entrySize.toNat t.entries,
      Outside field (i * t.entrySize.toNat + j) 1 := by
    intro field member
    obtain ⟨pe,among,rfl⟩ := List.mem_map.mp member
    have named := (arr.slot among).2
    have other := free pe among
    have apart := arr.slots_apart (i := i) (j := pe.index.toNat) (by omega)
    simp only [Outside,length_entryBytes]
    omega
  have blank := slice_overwrite_apart arr.layout.fit (List.length_replicate (a := (0 : UInt8))) clear
  rw [← arr.entryArray_eq,slice_replicate _ _ _ _ (by omega)] at blank
  have byte := congrArg (·[0]?) blank
  simpa only [getElem?_slice,List.getElem?_replicate,Nat.lt_one_iff,if_true,Nat.add_zero] using byte

end Arrayed

/-- 128 records of 128 bytes, and a slot of its own for every entry. -/
structure Standard (t : GptPartitionTable) : Prop where
  count : t.entryCount = 128
  size : t.entrySize = 128
  slotted : t.Slotted

namespace Standard

variable {t : GptPartitionTable}

theorem bytes (std : t.Standard) : t.entryArrayBytes = 16384 := by
  rw [entryArrayBytes,std.count,std.size]
  rfl

theorem kept (std : t.Standard) {t' : GptPartitionTable} {call : GptCall} (effect : Effect t call t') :
    t'.Standard := by
  obtain ⟨count,size,_,_⟩ := effect_geometry effect
  exact ⟨count.trans std.count,size.trans std.size,std.slotted.kept effect⟩

theorem arrayed (std : t.Standard) : t.Arrayed := by
  have number : (128 : UInt32).toNat = 128 := rfl
  have bytes : (16384 : UInt32).toNat = 16384 := rfl
  refine ⟨by rw [std.size,number],std.slotted,fun pe member => ?_⟩
  obtain ⟨low,high⟩ := std.slotted.inside pe member
  rw [std.count,number] at high
  rw [std.size,std.bytes,number,bytes]
  omega

theorem length_entryArray (std : t.Standard) : t.entryArray.length = 16384 := by
  rw [std.arrayed.length_entryArray,std.bytes]
  rfl

end Standard

def payload (pe : PartitionEntry) : Guid × Guid × UInt64 × UInt64 × UInt64 × List UInt8 :=
  (pe.typeGuid,pe.uniqueGuid,pe.startLba,pe.sectorCount,pe.gptAttributes,pe.gptName)

def SameEntries (first second : List PartitionEntry) : Prop :=
  ∀ i : Int, (first.filter (·.index == i)).map payload = (second.filter (·.index == i)).map payload

theorem filter_index {entries : List PartitionEntry} (distinct : (entries.map (·.index)).Nodup)
    {pe : PartitionEntry} (member : pe ∈ entries) : entries.filter (·.index == pe.index) = [pe] := by
  induction entries with
  | nil => cases member
  | cons first rest ih =>
    rw [List.map_cons,List.nodup_cons] at distinct
    obtain ⟨fresh,tail⟩ := distinct
    rcases List.mem_cons.mp member with rfl | later
    · rw [List.filter_cons_of_pos (by simp),List.filter_eq_nil_iff.mpr]
      intro other among same
      exact fresh (List.mem_map.mpr ⟨other,among,by simpa using same⟩)
    · have other : first.index ≠ pe.index := fun same => fresh (same ▸ List.mem_map_of_mem later)
      rw [List.filter_cons_of_neg (by simpa using other),ih tail later]

/-- Two lists with distinct indices hold the same partitions when every partition of one
has a counterpart in the other, both ways. -/
theorem SameEntries.of_counterparts {first second : List PartitionEntry}
    (firstDistinct : (first.map (·.index)).Nodup) (secondDistinct : (second.map (·.index)).Nodup)
    (there : ∀ a ∈ first, ∃ b ∈ second, b.index = a.index ∧ payload a = payload b)
    (back : ∀ b ∈ second, ∃ a ∈ first, a.index = b.index) : SameEntries first second := by
  intro i
  by_cases present : ∃ a ∈ first, a.index = i
  · obtain ⟨a,member,rfl⟩ := present
    obtain ⟨b,among,index,same⟩ := there a member
    have found := filter_index secondDistinct among
    rw [index] at found
    rw [filter_index firstDistinct member,found,List.map_singleton,List.map_singleton,same]
  · have none : first.filter (·.index == i) = [] :=
      List.filter_eq_nil_iff.mpr (fun a member same => present ⟨a,member,by simpa using same⟩)
    have neither : second.filter (·.index == i) = [] := by
      refine List.filter_eq_nil_iff.mpr (fun b among same => ?_)
      obtain ⟨a,member,index⟩ := back b among
      exact present ⟨a,member,by simpa [index] using same⟩
    rw [none,neither]

section Parse

variable {t self : GptPartitionTable} {data : List UInt8}

/-- The entries depend on nothing but the data and the geometry of the table. -/
theorem parseEntries_congr {first second : GptPartitionTable} (count : first.entryCount = second.entryCount)
    (size : first.entrySize = second.entrySize) (sector : first.sectorSize = second.sectorSize) :
    (first.parseEntries data).entries = (second.parseEntries data).entries := by
  simp only [parseEntries,count,size,sector]

theorem mem_takeWhile_range {p : Nat → Bool} (down : ∀ i j, i ≤ j → p j = true → p i = true) (n i : Nat) :
    i ∈ (List.range n).takeWhile p ↔ i < n ∧ p i = true := by
  constructor
  · intro member
    exact ⟨List.mem_range.mp ((List.takeWhile_sublist _).subset member),List.mem_takeWhile_imp member⟩
  · rintro ⟨below,holds⟩
    have parts : List.range n = List.range (i + 1) ++ (List.range (n - (i + 1))).map (i + 1 + ·) := by
      rw [← List.range_add]
      congr 1
      omega
    rw [parts,List.takeWhile_append_of_pos (fun j member => down j i (by
      have := List.mem_range.mp member
      omega) holds)]
    exact List.mem_append_left _ (List.mem_range.mpr (Nat.lt_succ_self i))

theorem mem_entries_parseEntries {e : PartitionEntry} : e ∈ (self.parseEntries data).entries ↔
    ∃ i, i < self.entryCount.toNat ∧ i * self.entrySize.toNat + 128 ≤ data.length ∧
      (guidFromBytes data (i * self.entrySize.toNat)).isZero = false ∧
        e = entryAt self.sectorSize data self.entrySize.toNat i := by
  have record : GPT_ENTRY_SIZE.toNat = 128 := rfl
  have down : ∀ i j, i ≤ j → decide (j * self.entrySize.toNat + GPT_ENTRY_SIZE.toNat ≤ data.length) = true →
      decide (i * self.entrySize.toNat + GPT_ENTRY_SIZE.toNat ≤ data.length) = true := by
    intro i j below holds
    have step := Nat.mul_le_mul_right self.entrySize.toNat below
    rw [decide_eq_true_eq] at holds ⊢
    omega
  simp only [parseEntries,List.mem_map]
  constructor
  · rintro ⟨i,member,rfl⟩
    obtain ⟨inside,used⟩ := List.mem_filter.mp member
    obtain ⟨below,whole⟩ := (mem_takeWhile_range down _ i).mp inside
    rw [decide_eq_true_eq,record] at whole
    exact ⟨i,below,whole,by simpa using used,rfl⟩
  · rintro ⟨i,below,whole,used,rfl⟩
    have inside := (mem_takeWhile_range down self.entryCount.toNat i).mpr
      ⟨below,by rw [decide_eq_true_eq,record]; exact whole⟩
    exact ⟨i,List.mem_filter.mpr ⟨inside,by simpa using used⟩,rfl⟩

theorem ascending_parseEntries (self : GptPartitionTable) (data : List UInt8) :
    (self.parseEntries data).entries.Pairwise (fun a b => a.index < b.index) := by
  simp only [parseEntries,List.pairwise_map]
  have ordered : (List.range self.entryCount.toNat).Pairwise (· < ·) := List.pairwise_lt_range
  refine ((ordered.sublist (List.takeWhile_sublist _)).filter _).imp ?_
  intro a b below
  exact Int.ofNat_lt.mpr below

theorem distinct_of_ascending {entries : List PartitionEntry}
    (ascending : entries.Pairwise (fun a b => a.index < b.index)) : (entries.map (·.index)).Nodup := by
  rw [List.nodup_iff_pairwise_ne,List.pairwise_map]
  exact ascending.imp (fun below same => absurd below (by rw [same]; exact Int.lt_irrefl _))

section Padded

variable (arr : t.Arrayed) (typed : ∀ pe ∈ t.entries, pe.typeGuid.isZero = false)
  (count : self.entryCount = t.entryCount) (size : self.entrySize = t.entrySize) (pad : Nat)
include arr typed count size

theorem mem_parseEntries_padded (e : PartitionEntry) :
    e ∈ (self.parseEntries (t.entryArray ++ List.replicate pad 0)).entries ↔
      ∃ pe ∈ t.entries, e = recorded self.sectorSize pe.index.toNat pe := by
  have length := arr.length_entryArray
  have record {pe : PartitionEntry} (among : pe ∈ t.entries) :
      slice (t.entryArray ++ List.replicate pad 0) (pe.index.toNat * t.entrySize.toNat) 128 = entryBytes pe := by
    have fits := arr.fits pe among
    rw [slice_append_left _ _ _ _ (by omega),arr.used_slot among]
  rw [mem_entries_parseEntries,count,size]
  constructor
  · rintro ⟨i,bound,whole,used,rfl⟩
    by_cases present : ∃ pe ∈ t.entries, pe.index = i
    · obtain ⟨pe,among,index⟩ := present
      have at_slot : pe.index.toNat = i := by omega
      have there := record among
      rw [at_slot] at there
      exact ⟨pe,among,by rw [at_slot,entryAt_record self.sectorSize whole there]⟩
    · -- A slot without an entry holds zeros, so its type GUID is zero.
      have field : slice (t.entryArray ++ List.replicate pad 0) (i * t.entrySize.toNat) 16 = (Bytes.zero 16).data := by
        apply List.ext_getElem?
        intro j
        rw [getElem?_slice]
        have blank : (Bytes.zero 16).data[j]? = if j < 16 then some 0 else none := List.getElem?_replicate
        rw [blank]
        split
        next inside =>
          rcases Nat.lt_or_ge (i * t.entrySize.toNat + j) t.entryArray.length with within | behind
          · rw [List.getElem?_append_left within]
            exact arr.free_byte (by omega) (by omega) (fun pe among index => present ⟨pe,among,index⟩)
          · rw [List.length_append,List.length_replicate] at whole
            rw [List.getElem?_append_right behind,List.getElem?_replicate,if_pos (by omega)]
        next => rfl
      have guid : guidFromBytes (t.entryArray ++ List.replicate pad 0) (i * t.entrySize.toNat) = .zero 16 :=
        Bytes.copy_of_slice _ (by omega) field
      rw [guid] at used
      exact absurd used (by decide)
  · rintro ⟨pe,among,rfl⟩
    have fits := arr.fits pe among
    have whole : pe.index.toNat * t.entrySize.toNat + 128 ≤ (t.entryArray ++ List.replicate pad 0).length := by
      rw [List.length_append]
      omega
    have read := entryAt_record self.sectorSize whole (record among)
    have guid := congrArg PartitionEntry.typeGuid read
    change guidFromBytes _ _ = pe.typeGuid at guid
    exact ⟨pe.index.toNat,(arr.slot among).1,whole,by rw [guid]; exact typed pe among,read.symm⟩

theorem perm_parseEntries_padded : (self.parseEntries (t.entryArray ++ List.replicate pad 0)).entries.Perm
    (t.entries.map (fun pe => recorded self.sectorSize pe.index.toNat pe)) := by
  have there := ascending_parseEntries self (t.entryArray ++ List.replicate pad 0)
  have here : ((t.entries.map (fun pe => recorded self.sectorSize pe.index.toNat pe)).map (·.index)).Nodup := by
    have same : (t.entries.map (fun pe => recorded self.sectorSize pe.index.toNat pe)).map (·.index) =
        t.entries.map (·.index) := by
      rw [List.map_map]
      exact List.map_congr_left (fun pe member => (arr.slot member).2)
    rw [same]
    exact arr.slotted.distinct
  refine (List.perm_ext_iff_of_nodup (distinct_of_ascending there).of_map here.of_map).mpr (fun e => ?_)
  rw [mem_parseEntries_padded arr typed count size,List.mem_map]
  exact ⟨fun ⟨pe,among,same⟩ => ⟨pe,among,same.symm⟩,fun ⟨pe,among,same⟩ => ⟨pe,among,same.symm⟩⟩

theorem mem_parseEntries (e : PartitionEntry) : e ∈ (self.parseEntries t.entryArray).entries ↔
    ∃ pe ∈ t.entries, e = recorded self.sectorSize pe.index.toNat pe := by
  have padded := mem_parseEntries_padded arr typed count size 0 e
  rwa [List.replicate_zero,List.append_nil] at padded

theorem perm_parseEntries : (self.parseEntries t.entryArray).entries.Perm
    (t.entries.map (fun pe => recorded self.sectorSize pe.index.toNat pe)) := by
  have padded := perm_parseEntries_padded arr typed count size 0
  rwa [List.replicate_zero,List.append_nil] at padded

end Padded

theorem entries_parseEntries (arr : t.Arrayed) (typed : ∀ pe ∈ t.entries, pe.typeGuid.isZero = false)
    (ascending : t.entries.Pairwise (fun a b => a.index < b.index))
    (count : self.entryCount = t.entryCount) (size : self.entrySize = t.entrySize) :
    (self.parseEntries t.entryArray).entries =
      t.entries.map (fun pe => recorded self.sectorSize pe.index.toNat pe) := by
  refine (perm_parseEntries arr typed count size).eq_of_pairwise ?_
    (ascending_parseEntries self t.entryArray) ?_
  · intro a b _ _ below above
    exact absurd below (Int.not_lt.mpr (Int.le_of_lt above))
  · rw [List.pairwise_map]
    refine ascending.imp_of_mem (fun first second below => ?_)
    have low := (arr.slot first).2
    have high := (arr.slot second).2
    simp only [recorded]
    omega

theorem sameEntries_parseEntries (std : t.Standard)
    (typed : ∀ pe ∈ t.entries, pe.typeGuid.isZero = false)
    (named : ∀ pe ∈ t.entries, utf16leToUtf8 (utf8ToUtf16le pe.gptName 36) 36 = pe.gptName)
    (count : self.entryCount = 128) (size : self.entrySize = 128) :
    SameEntries (self.parseEntries t.entryArray).entries t.entries := by
  have arr := std.arrayed
  replace count := count.trans std.count.symm
  replace size := size.trans std.size.symm
  refine .of_counterparts (distinct_of_ascending (ascending_parseEntries _ _)) std.slotted.distinct ?_ ?_
  · intro e member
    obtain ⟨pe,among,rfl⟩ := (mem_parseEntries arr typed count size e).mp member
    exact ⟨pe,among,(arr.slot among).2.symm,by simp [payload,recorded,named pe among]⟩
  · intro pe among
    exact ⟨_,(mem_parseEntries arr typed count size _).mpr ⟨pe,among,rfl⟩,(arr.slot among).2⟩

end Parse

section NameFields

variable {data : List UInt8} {units : List UInt16}

theorem gptName_of_field (sectorSize : UInt32) {entrySize i : Nat} (few : units.length ≤ 36)
    (field : slice data (i * entrySize + 56) 72 = (fieldOf units).flatMap le16) :
    (entryAt sectorSize data entrySize i).gptName = utf16leToUtf8 (fieldOf units) 36 := by
  simp only [entryAt,units_of_field (length_fieldOf few) field]

theorem units_inj {first second : List UInt16} (count : first.length = 36) (count' : second.length = 36)
    (same : first.flatMap le16 = second.flatMap le16) : first = second := by
  have length := length_flatMap_blocks le16 2 length_le16 first
  rw [count] at length
  have field : slice (first.flatMap le16) 0 72 = first.flatMap le16 := by
    have all := slice_all (first.flatMap le16)
    rwa [length] at all
  rw [← units_of_field count field,units_of_field count' (field.trans same)]

/-- A name field comes back from its name, and so does that of an entry that was read and
is written as it is, exactly when the name leaves its last place free. -/
theorem name_field_kept_iff (sectorSize : UInt32) {entrySize i : Nat} (nonzero : ∀ u ∈ units, u ≠ 0)
    (few : units.length ≤ 36) (field : slice data (i * entrySize + 56) 72 = (fieldOf units).flatMap le16) :
    (utf8ToUtf16le (utf16leToUtf8 (fieldOf units) 36) 36 = fieldOf units ↔ units.length ≤ 35) ∧
      (slice (entryBytes (entryAt sectorSize data entrySize i)) 56 72 = slice data (i * entrySize + 56) 72 ↔
        units.length ≤ 35) := by
  have recoded := fieldOf_recoded_iff nonzero few
  refine ⟨recoded,?_⟩
  rw [(entryBytes_fields _).2.2.2.2.2,nameField,gptName_of_field sectorSize few field,field,← recoded]
  exact ⟨units_inj (length_utf8ToUtf16le _) (length_fieldOf few),congrArg (List.flatMap le16)⟩

section Sample

def fullName : List UInt16 := List.replicate 36 0x41

/-- Five letters, the last one of them a surrogate. -/
def shortName : List UInt16 := [0x53,0x65,0x74,0xE9,0xD83D]

theorem short_name_kept : utf8ToUtf16le (utf16leToUtf8 (fieldOf shortName) 36) 36 = fieldOf shortName := by
  have field : slice (List.replicate 56 0 ++ (fieldOf shortName).flatMap le16) (0 * 128 + 56) 72 =
      (fieldOf shortName).flatMap le16 := by decide
  exact (name_field_kept_iff 512 (by simp [shortName]) (by decide) field).1.mpr (by decide)

/-- The last of 36 letters is lost. -/
theorem full_name_cut : ¬ ∀ units : List UInt16, (∀ u ∈ units, u ≠ 0) → units.length ≤ 36 →
    utf8ToUtf16le (utf16leToUtf8 (fieldOf units) 36) 36 = fieldOf units := by
  intro always
  have nonzero : ∀ u ∈ fullName, u ≠ 0 := by
    intro u member
    rw [List.eq_of_mem_replicate member]
    decide
  have kept := always fullName nonzero (by decide)
  revert kept
  decide

end Sample

end NameFields

end GptPartitionTable
end SetecWizard.Core
