import SetecWizard.Core.IsoReader
import SetecWizard.Format.Integers
import Mathlib.Logic.Relation

/-! Directory extents of ISO 9660 and what the parser makes of them. A record of an image that
keeps to the standard is a value here, and an extent is what its sectors of records are laid
out to; the parser gives the records back. Of other bytes it may read an identifier that is
not there.
-/
namespace SetecWizard.Core.IsoFlasher
open SetecWizard.Library

section Safety

variable (dirData : List UInt8) (bytesRead : Nat)

/-- Where the parser looks after a position: at the next sector from padding, else behind the
record. -/
def advance (pos : Nat) : Nat :=
  if dirData.getD pos 0 = 0 then (pos / ISO_SECTOR_SIZE + 1) * ISO_SECTOR_SIZE
  else pos + (dirData.getD pos 0).toNat

def Advances (pos next : Nat) : Prop := pos + sizeofDirRecord ≤ bytesRead ∧ next = advance dirData pos

/-- The positions the parser comes to from one of them. -/
def Reached (start pos : Nat) : Prop := Relation.ReflTransGen (Advances dirData bytesRead) start pos

/-- Every record that the parser comes to has its identifier among the bytes that were read. -/
def IdentifiersRead (start : Nat) : Prop :=
  ∀ pos, Reached dirData bytesRead start pos → pos + sizeofDirRecord ≤ bytesRead →
    sizeofDirRecord ≤ (dirData.getD pos 0).toNat → pos + 33 + (dirData.getD (pos + 32) 0).toNat ≤ bytesRead

variable {dirData} {bytesRead}

theorem identifiersRead_end {start : Nat} (short : bytesRead < start + sizeofDirRecord) :
    IdentifiersRead dirData bytesRead start := by
  intro pos reached inside
  rcases Relation.ReflTransGen.cases_head reached with rfl | ⟨next,⟨more,_⟩,_⟩
  · omega
  · omega

theorem identifiersRead_step {start : Nat} (more : start + sizeofDirRecord ≤ bytesRead) :
    IdentifiersRead dirData bytesRead start ↔
      (sizeofDirRecord ≤ (dirData.getD start 0).toNat →
        start + 33 + (dirData.getD (start + 32) 0).toNat ≤ bytesRead) ∧
      IdentifiersRead dirData bytesRead (advance dirData start) := by
  constructor
  · intro all
    refine ⟨all start Relation.ReflTransGen.refl more,fun pos reached => all pos ?_⟩
    exact Relation.ReflTransGen.head ⟨more,rfl⟩ reached
  · rintro ⟨here,later⟩ pos reached
    rcases Relation.ReflTransGen.cases_head reached with rfl | ⟨next,⟨_,rfl⟩,rest⟩
    · exact fun _ => here
    · exact later pos rest

theorem parseRecords_inside_iff (pos : Nat) :
    (∀ access ∈ (parseRecords dirData bytesRead pos).1, access.Inside) ↔ IdentifiersRead dirData bytesRead pos := by
  fun_induction parseRecords dirData bytesRead pos with
  | case1 pos short =>
    exact ⟨fun _ => identifiersRead_end short,fun _ _ member => absurd member List.not_mem_nil⟩
  | case2 pos more header recordLength padding nextSector last =>
    have zero : dirData.getD pos 0 = 0 := UInt8.toNat_inj.mp padding
    have next : advance dirData pos = nextSector := if_pos zero
    rw [identifiersRead_step (Nat.not_lt.mp more),next]
    constructor
    · intro _
      refine ⟨fun long => ?_,identifiersRead_end (by simp only [sizeofDirRecord]; omega)⟩
      change sizeofDirRecord ≤ recordLength at long
      rw [padding] at long
      exact absurd long (by decide)
    · intro _ access member
      rw [List.mem_singleton.mp member]
      exact Nat.not_lt.mp more
  | case3 pos more header recordLength padding nextSector again accesses entries parsed ih =>
    have zero : dirData.getD pos 0 = 0 := UInt8.toNat_inj.mp padding
    have next : advance dirData pos = nextSector := if_pos zero
    rw [parsed] at ih
    rw [identifiersRead_step (Nat.not_lt.mp more),next,← ih,List.forall_mem_cons]
    constructor
    · rintro ⟨_,later⟩
      refine ⟨fun long => ?_,later⟩
      change sizeofDirRecord ≤ recordLength at long
      rw [padding] at long
      exact absurd long (by decide)
    · exact fun both => ⟨Nat.not_lt.mp more,both.2⟩
  | case4 pos more header recordLength used accesses entries parsed short ih =>
    have next : advance dirData pos = pos + recordLength :=
      if_neg (fun zero => used (congrArg UInt8.toNat zero))
    rw [parsed] at ih
    rw [identifiersRead_step (Nat.not_lt.mp more),next,← ih,List.forall_mem_cons]
    constructor
    · exact fun both => ⟨fun long => absurd long (Nat.not_le.mpr short),both.2⟩
    · exact fun both => ⟨Nat.not_lt.mp more,both.2⟩
  | case5 pos more header recordLength used accesses entries parsed long identifier _ ih
  | case6 pos more header recordLength used accesses entries parsed long identifier _ ih =>
    have next : advance dirData pos = pos + recordLength :=
      if_neg (fun zero => used (congrArg UInt8.toNat zero))
    rw [parsed] at ih
    rw [identifiersRead_step (Nat.not_lt.mp more),next,← ih,List.forall_mem_cons,List.forall_mem_cons]
    constructor
    · rintro ⟨_,here,later⟩
      exact ⟨fun _ => here,later⟩
    · rintro ⟨here,later⟩
      exact ⟨Nat.not_lt.mp more,here (Nat.not_lt.mp long),later⟩

end Safety

section Layout

/-- A name as a record has it: with the dot of a name without an extension, or not, and with a
version, or without one. -/
structure IsoName where
  name : List UInt8
  dot : Bool := false
  version : Option (List UInt8) := none
  plain : SEMICOLON ∉ name
  ends : dot = false → name.getLast? ≠ some DOT

def IsoName.bytes (n : IsoName) : List UInt8 :=
  n.name ++ ((if n.dot then [DOT] else []) ++ (n.version.elim [] (SEMICOLON :: ·)))

/-- The directory itself, the one above it, or a file with a name that is none of these two. -/
inductive IsoIdentifier where
  | current
  | parent
  | named (n : IsoName) (own : n.bytes ≠ [0x00] ∧ n.bytes ≠ [0x01])

def IsoIdentifier.bytes : IsoIdentifier → List UInt8
  | .current => [0x00]
  | .parent => [0x01]
  | .named n _ => n.bytes

structure IsoRecord where
  extAttrRecordLength : UInt8 := 0
  extentLba : UInt32
  dataSize : UInt32
  recordingDate : Bytes 7 := .zero 7
  fileFlags : UInt8 := 0
  fileUnitSize : UInt8 := 0
  interleaveGap : UInt8 := 0
  volumeSeqNum : UInt16 := 1
  identifier : IsoIdentifier
  systemUse : List UInt8 := []
  short : 33 + identifier.bytes.length + systemUse.length ≤ 255

namespace IsoRecord

variable (r : IsoRecord)

def length : Nat := 33 + r.identifier.bytes.length + r.systemUse.length

/-- Numbers are stored in both byte orders. -/
def encode : List UInt8 :=
  .ofNat r.length :: r.extAttrRecordLength :: (le32 r.extentLba ++ ((le32 r.extentLba).reverse ++
    (le32 r.dataSize ++ ((le32 r.dataSize).reverse ++ (r.recordingDate.data ++ (r.fileFlags ::
      r.fileUnitSize :: r.interleaveGap :: (le16 r.volumeSeqNum ++ ((le16 r.volumeSeqNum).reverse ++
        (.ofNat r.identifier.bytes.length :: (r.identifier.bytes ++ r.systemUse))))))))))

def entry : Option IsoFileEntry :=
  match r.identifier with
  | .current => none
  | .parent => none
  | .named n _ => some {
      name := n.name
      lba := r.extentLba
      size := r.dataSize
      isDirectory := r.fileFlags &&& 0x02 ≠ 0 }

theorem length_encode : r.encode.length = r.length := by
  have date := r.recordingDate.size
  simp only [encode,List.length_append,List.length_cons,List.length_reverse,length_le32,length_le16,date,length]
  omega

end IsoRecord

/-- A sector of a directory: records, none of which reaches into the next sector. -/
structure IsoSector where
  records : List IsoRecord
  fits : (records.flatMap IsoRecord.encode).length ≤ ISO_SECTOR_SIZE

def IsoSector.bytes (s : IsoSector) : List UInt8 :=
  s.records.flatMap IsoRecord.encode ++
    List.replicate (ISO_SECTOR_SIZE - (s.records.flatMap IsoRecord.encode).length) 0

def extentOf (sectors : List IsoSector) : List UInt8 := sectors.flatMap IsoSector.bytes

def listing (sectors : List IsoSector) : List IsoFileEntry :=
  (sectors.flatMap IsoSector.records).filterMap IsoRecord.entry

theorem IsoSector.length_bytes (s : IsoSector) : s.bytes.length = ISO_SECTOR_SIZE := by
  rw [bytes,List.length_append,List.length_replicate]
  have fits := s.fits
  omega

end Layout

section Reading

variable {data before after : List UInt8} (r : IsoRecord)

theorem getD_behind (before : List UInt8) (b : UInt8) (after : List UInt8) :
    (before ++ b :: after).getD before.length 0 = b := by
  rw [List.getD_eq_getElem?_getD,List.getElem?_append_right (Nat.le_refl _),Nat.sub_self]
  rfl

/-- What the fields of a record read as. -/
structure FieldsAt (data : List UInt8) (pos : Nat) (r : IsoRecord) : Prop where
  length : (data.getD pos 0).toNat = r.length
  lba : readLE32 data (pos + 2) = r.extentLba
  size : readLE32 data (pos + 10) = r.dataSize
  flags : data.getD (pos + 25) 0 = r.fileFlags
  idLength : (data.getD (pos + 32) 0).toNat = r.identifier.bytes.length
  identifier : slice data (pos + 33) r.identifier.bytes.length = r.identifier.bytes

theorem fieldsAt (before after : List UInt8) : FieldsAt (before ++ (r.encode ++ after)) before.length r := by
  have date := r.recordingDate.size
  have short := r.short
  have field (skip block rest : List UInt8) (same : r.encode ++ after = skip ++ (block ++ rest)) :
      slice (before ++ (r.encode ++ after)) (before.length + skip.length) block.length = block := by
    have middle := slice_middle (before ++ skip) block rest
    rw [List.length_append,List.append_assoc] at middle
    rw [same]
    exact middle
  have byte (skip : List UInt8) (b : UInt8) (rest : List UInt8) (same : r.encode ++ after = skip ++ b :: rest) :
      (before ++ (r.encode ++ after)).getD (before.length + skip.length) 0 = b := by
    have middle := getD_behind (before ++ skip) b rest
    rw [List.length_append,List.append_assoc] at middle
    rw [same]
    exact middle
  obtain ⟨first,starts⟩ : ∃ first, first = [UInt8.ofNat r.length,r.extAttrRecordLength] := ⟨_,rfl⟩
  obtain ⟨upToFlags,flagged⟩ : ∃ bytes, bytes = first ++ (le32 r.extentLba ++ ((le32 r.extentLba).reverse ++
    (le32 r.dataSize ++ ((le32 r.dataSize).reverse ++ r.recordingDate.data)))) := ⟨_,rfl⟩
  obtain ⟨upToName,named⟩ : ∃ bytes, bytes = upToFlags ++ (r.fileFlags :: r.fileUnitSize :: r.interleaveGap ::
    (le16 r.volumeSeqNum ++ (le16 r.volumeSeqNum).reverse)) := ⟨_,rfl⟩
  have lengthFlags : upToFlags.length = 25 := by
    simp only [flagged,starts,List.length_append,List.length_cons,List.length_nil,List.length_reverse,length_le32,date]
  have lengthName : upToName.length = 32 := by
    simp only [named,lengthFlags,List.length_append,List.length_cons,List.length_reverse,length_le16]
  have parts : r.encode ++ after = upToName ++ (.ofNat r.identifier.bytes.length ::
      (r.identifier.bytes ++ (r.systemUse ++ after))) := by
    simp only [IsoRecord.encode,named,flagged,starts,List.append_assoc,List.cons_append,List.nil_append]
  refine ⟨?_,?_,?_,?_,?_,?_⟩
  · have head := byte [] _ _ rfl
    rw [List.length_nil,Nat.add_zero] at head
    rw [head,UInt8.toNat_ofNat']
    exact Nat.mod_eq_of_lt (by rw [IsoRecord.length]; omega)
  · apply readLE32_of_slice
    exact field [.ofNat r.length,r.extAttrRecordLength] (le32 r.extentLba) _
      (by simp only [IsoRecord.encode,List.append_assoc,List.cons_append,List.nil_append]; rfl)
  · apply readLE32_of_slice
    exact field ([.ofNat r.length,r.extAttrRecordLength] ++ (le32 r.extentLba ++ (le32 r.extentLba).reverse))
      (le32 r.dataSize) _ (by simp only [IsoRecord.encode,List.append_assoc,List.cons_append,List.nil_append]; rfl)
  · rw [← lengthFlags]
    apply byte
    rw [parts,named,List.append_assoc]
    rfl
  · have count := byte upToName _ _ parts
    rw [lengthName] at count
    rw [count,UInt8.toNat_ofNat']
    exact Nat.mod_eq_of_lt (by omega)
  · have name := field (upToName ++ [.ofNat r.identifier.bytes.length]) r.identifier.bytes (r.systemUse ++ after)
      (by rw [parts,List.append_assoc]; rfl)
    rw [List.length_append,lengthName] at name
    exact name

theorem stripped_bytes (n : IsoName) : stripped n.bytes = n.name := by
  have kept : ∀ b ∈ n.name, decide (b ≠ SEMICOLON) = true := by
    intro b member
    apply decide_eq_true
    rintro rfl
    exact n.plain member
  have cut : n.bytes.takeWhile (· ≠ SEMICOLON) = n.name ++ (if n.dot then [DOT] else []) := by
    rw [IsoName.bytes,List.takeWhile_append_of_pos kept]
    congr 1
    cases n.dot <;> cases n.version <;> rfl
  rw [stripped,cut]
  cases dotted : n.dot with
  | true =>
    simp only [if_true]
    rw [if_pos List.getLast?_concat,List.dropLast_concat]
  | false =>
    simp only [Bool.false_eq_true,if_false,List.append_nil]
    exact if_neg (n.ends dotted)

theorem isDotEntry_iff {pos : Nat} (fields : FieldsAt data pos r) :
    isDotEntry data pos = true ↔ r.identifier.bytes = [0x00] ∨ r.identifier.bytes = [0x01] := by
  have name := fields.identifier
  have count : data.getD (pos + 32) 0 = 1 ↔ r.identifier.bytes.length = 1 := by
    rw [← fields.idLength,← UInt8.toNat_inj]
    rfl
  have only (single : r.identifier.bytes.length = 1) : r.identifier.bytes = [data.getD (pos + 33) 0] := by
    obtain ⟨b,alone⟩ := List.length_eq_one_iff.mp single
    have first := getD_slice data (pos + 33) 1 0 Nat.one_pos
    rw [single,alone] at name
    rw [name,Nat.add_zero] at first
    rw [alone,← first]
    rfl
  rw [isDotEntry,Bool.and_eq_true,Bool.or_eq_true,beq_iff_eq,beq_iff_eq,beq_iff_eq,count]
  constructor
  · rintro ⟨single,zero | one⟩
    · exact .inl (by rw [only single,zero])
    · exact .inr (by rw [only single,one])
  · rintro (zero | one)
    · have single : r.identifier.bytes.length = 1 := by rw [zero]; rfl
      have same := only single
      rw [zero] at same
      exact ⟨single,.inl (List.cons.inj same).1.symm⟩
    · have single : r.identifier.bytes.length = 1 := by rw [one]; rfl
      have same := only single
      rw [one] at same
      exact ⟨single,.inr (List.cons.inj same).1.symm⟩

theorem entry_at {pos : Nat} (fields : FieldsAt data pos r) :
    r.entry = if isDotEntry data pos then none else some (entryOf data pos) := by
  have dot := isDotEntry_iff r fields
  rw [IsoRecord.entry]
  split
  next current =>
    rw [if_pos (dot.mpr (.inl (by rw [current]; rfl)))]
  next parent =>
    rw [if_pos (dot.mpr (.inr (by rw [parent]; rfl)))]
  next n own named =>
    have bytes : r.identifier.bytes = n.bytes := by rw [named]; rfl
    have other : ¬ isDotEntry data pos = true := by
      rw [dot,bytes,not_or]
      exact own
    rw [if_neg other,entryOf,fields.lba,fields.size,fields.flags,fields.idLength,fields.identifier,bytes,
      stripped_bytes]

theorem parseRecords_short {bytesRead pos : Nat} (short : bytesRead < pos + sizeofDirRecord) :
    parseRecords data bytesRead pos = ([],[]) := by
  rw [parseRecords,if_pos short]

theorem parseRecords_padding {bytesRead pos : Nat} (more : pos + sizeofDirRecord ≤ bytesRead)
    (padding : data.getD pos 0 = 0) :
    (parseRecords data bytesRead pos).2 =
      (parseRecords data bytesRead ((pos / ISO_SECTOR_SIZE + 1) * ISO_SECTOR_SIZE)).2 := by
  rw [parseRecords,if_neg (Nat.not_lt.mpr more)]
  simp only [padding,UInt8.toNat_zero,if_true]
  split
  next last => rw [parseRecords_short (by simp only [sizeofDirRecord]; omega)]
  next => rfl

theorem parseRecords_record {bytesRead pos : Nat} (more : pos + sizeofDirRecord ≤ bytesRead)
    (fields : FieldsAt data pos r) :
    (parseRecords data bytesRead pos).2 = r.entry.toList ++ (parseRecords data bytesRead (pos + r.length)).2 := by
  have used : ¬ r.length = 0 := by rw [IsoRecord.length]; omega
  have long : ¬ r.length < sizeofDirRecord := by rw [IsoRecord.length,sizeofDirRecord]; omega
  rw [parseRecords,if_neg (Nat.not_lt.mpr more),entry_at r fields]
  simp only [fields.length,if_neg used,if_neg long]
  split
  next => rfl
  next => rfl

theorem parseRecords_sector {sector padding : Nat} {rest : List UInt8} (left : List IsoRecord) {before : List UInt8}
    (parts : data = before ++ (left.flatMap IsoRecord.encode ++ (List.replicate padding 0 ++ rest)))
    (whole : before.length + (left.flatMap IsoRecord.encode).length + padding = (sector + 1) * ISO_SECTOR_SIZE)
    (inside : sector * ISO_SECTOR_SIZE ≤ before.length) :
    (parseRecords data data.length before.length).2 =
      left.filterMap IsoRecord.entry ++ (parseRecords data data.length ((sector + 1) * ISO_SECTOR_SIZE)).2 := by
  induction left generalizing before with
  | nil =>
    rw [List.flatMap_nil,List.nil_append] at parts
    rw [List.flatMap_nil,List.length_nil,Nat.add_zero] at whole
    rw [List.filterMap_nil,List.nil_append]
    rcases Nat.lt_or_ge data.length (before.length + sizeofDirRecord) with short | more
    · rw [parseRecords_short short,parseRecords_short (by omega)]
    · cases padding with
      | zero => rw [← whole,Nat.add_zero]
      | succ padding =>
        have zero : data.getD before.length 0 = 0 := by
          rw [parts,List.replicate_succ,List.cons_append]
          exact getD_behind _ _ _
        have number : before.length / ISO_SECTOR_SIZE = sector := by
          simp only [ISO_SECTOR_SIZE] at whole inside ⊢
          omega
        rw [parseRecords_padding more zero,number]
  | cons r left ih =>
    rw [List.flatMap_cons,List.append_assoc] at parts
    have fields := fieldsAt r before (left.flatMap IsoRecord.encode ++ (List.replicate padding 0 ++ rest))
    rw [← parts] at fields
    have size := r.length_encode
    have more : before.length + sizeofDirRecord ≤ data.length := by
      rw [parts,List.length_append,List.length_append,size,IsoRecord.length,sizeofDirRecord]
      omega
    have next := @ih (before ++ r.encode) (by rw [List.append_assoc]; exact parts)
      (by
        rw [List.flatMap_cons,List.length_append] at whole
        rw [List.length_append]
        omega)
      (by rw [List.length_append]; omega)
    rw [List.length_append,size] at next
    rw [parseRecords_record r more fields,next,List.filterMap_cons]
    cases r.entry with
    | none => rfl
    | some entry => rfl

theorem parseRecords_extent (sectors : List IsoSector) {before : List UInt8} {sector : Nat}
    (parts : data = before ++ extentOf sectors) (start : before.length = sector * ISO_SECTOR_SIZE) :
    (parseRecords data data.length before.length).2 = listing sectors := by
  induction sectors generalizing before sector with
  | nil =>
    have all : data.length = before.length := by rw [parts,extentOf,List.flatMap_nil,List.append_nil]
    rw [parseRecords_short (by rw [all,sizeofDirRecord]; omega)]
    rfl
  | cons s rest ih =>
    rw [extentOf,List.flatMap_cons] at parts
    have split := parts
    rw [IsoSector.bytes,List.append_assoc] at split
    have fits := s.fits
    have next := @ih (before ++ s.bytes) (sector + 1) (by rw [List.append_assoc]; exact parts)
      (by rw [List.length_append,s.length_bytes,start,Nat.add_mul,Nat.one_mul])
    rw [List.length_append,s.length_bytes,start,← Nat.succ_mul] at next
    rw [parseRecords_sector s.records split (by rw [Nat.add_mul,Nat.one_mul,start]; omega) (Nat.le_of_eq start.symm)]
    rw [listing,List.flatMap_cons,List.filterMap_append]
    exact congrArg _ next

end Reading

section Extent

variable {image : IsoImage} {extentLba extentSize : UInt32}

def Laid (image : IsoImage) (extentLba extentSize : UInt32) (sectors : List IsoSector) : Prop :=
  extentSize.toNat = (extentOf sectors).length ∧ readExtent image extentLba extentSize = .ok (extentOf sectors)

/-- Only bytes that were read are looked at, and a directory that keeps to the standard is
listed without its first two records. -/
def ParsedExactly (image : IsoImage) (extentLba extentSize : UInt32) : Prop :=
  ∀ accesses entries, parseDirectoryExtent image extentLba extentSize = .ok (accesses,entries) →
    (∀ access ∈ accesses, access.Inside) ∧
      ∀ sectors, Laid image extentLba extentSize sectors → entries = listing sectors

theorem parseDirectoryExtent_ok {accesses : List Access} {entries : List IsoFileEntry} :
    parseDirectoryExtent image extentLba extentSize = .ok (accesses,entries) ↔
      ∃ arrived, readExtent image extentLba extentSize = .ok arrived ∧
        (accesses,entries) = parseRecords (extentBuffer extentSize arrived) arrived.length 0 := by
  rw [parseDirectoryExtent,bind_ok]
  constructor
  · rintro ⟨arrived,read,parsed⟩
    exact ⟨arrived,read,(Except.ok.inj parsed).symm⟩
  · rintro ⟨arrived,read,parsed⟩
    exact ⟨arrived,read,congrArg _ parsed.symm⟩

theorem parseDirectoryExtent_laid {sectors : List IsoSector} (laid : Laid image extentLba extentSize sectors) :
    ∃ accesses, parseDirectoryExtent image extentLba extentSize = .ok (accesses,listing sectors) := by
  obtain ⟨size,read⟩ := laid
  have whole : extentBuffer extentSize (extentOf sectors) = extentOf sectors := by
    rw [extentBuffer,size,Nat.sub_self]
    exact List.append_nil _
  refine ⟨(parseRecords (extentOf sectors) (extentOf sectors).length 0).1,
    parseDirectoryExtent_ok.mpr ⟨_,read,?_⟩⟩
  rw [whole]
  have listed := @parseRecords_extent (extentOf sectors) sectors [] 0 rfl (Nat.zero_mul _).symm
  exact congrArg _ listed.symm

/-- A directory is parsed exactly when the bytes that arrive hold the identifier of every record
the parser comes to. -/
theorem parseDirectoryExtent_exact_iff : ParsedExactly image extentLba extentSize ↔
    ∀ arrived, readExtent image extentLba extentSize = .ok arrived →
      IdentifiersRead (extentBuffer extentSize arrived) arrived.length 0 := by
  constructor
  · intro exact arrived read
    exact (parseRecords_inside_iff 0).mp
      (exact _ _ (parseDirectoryExtent_ok.mpr ⟨arrived,read,rfl⟩)).1
  · intro held accesses entries parsed
    obtain ⟨arrived,read,same⟩ := parseDirectoryExtent_ok.mp parsed
    constructor
    · have inside := (parseRecords_inside_iff 0).mpr (held arrived read)
      rw [← same] at inside
      exact inside
    · intro sectors laid
      obtain ⟨accesses',listed⟩ := parseDirectoryExtent_laid laid
      rw [parsed] at listed
      cases listed
      rfl

/-- An image of 34 bytes: a record whose identifier is said to have 255 bytes. -/
def longIdentifier : IsoImage where
  size := 34
  byte i := if i = 0 then 34 else if i = 32 then 255 else 0x41

/-- The parser takes the identifier from behind the bytes that were read. -/
theorem identifier_overrun : ¬ ParsedExactly longIdentifier 0 34 := by
  intro exact
  have read : readExtent longIdentifier 0 34 = .ok (window longIdentifier.byte 0 34) := rfl
  have inside := (parseRecords_inside_iff 0).mp (exact _ _ (parseDirectoryExtent_ok.mpr ⟨_,read,rfl⟩)).1
  exact absurd (inside 0 Relation.ReflTransGen.refl (by decide) (by decide)) (by decide)

end Extent

end SetecWizard.Core.IsoFlasher
