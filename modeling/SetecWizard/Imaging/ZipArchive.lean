import SetecWizard.Imaging.ZipData

/-! Zip archives as they are written. The loop finds the next entry by the sizes of the local
header, so that it reads an archive back as long as these are there, or there is nothing
between the name and the data descriptor.
-/
namespace SetecWizard.Core.Decompressor
open SetecWizard.Library

def ZipLocalHeader.bytes (hdr : ZipLocalHeader) : List UInt8 :=
  le32 kZipLocalFileHeaderSig ++ le16 hdr.versionNeeded ++ le16 hdr.flags ++ le16 hdr.method
    ++ le16 hdr.modTime ++ le16 hdr.modDate ++ le32 hdr.crc32 ++ le32 hdr.compressedSize
    ++ le32 hdr.uncompressedSize ++ le16 hdr.nameLen ++ le16 hdr.extraLen

theorem length_headerBytes (hdr : ZipLocalHeader) : (ZipLocalHeader.bytes hdr).length = 30 := rfl

theorem parseLocalHeader_bytes (hdr : ZipLocalHeader) : parseLocalHeader (ZipLocalHeader.bytes hdr) = hdr := by
  have versionNeeded : readLE16 (ZipLocalHeader.bytes hdr) 4 = hdr.versionNeeded := readLE16_of_slice rfl
  have flags : readLE16 (ZipLocalHeader.bytes hdr) 6 = hdr.flags := readLE16_of_slice rfl
  have method : readLE16 (ZipLocalHeader.bytes hdr) 8 = hdr.method := readLE16_of_slice rfl
  have modTime : readLE16 (ZipLocalHeader.bytes hdr) 10 = hdr.modTime := readLE16_of_slice rfl
  have modDate : readLE16 (ZipLocalHeader.bytes hdr) 12 = hdr.modDate := readLE16_of_slice rfl
  have crc : readLE32 (ZipLocalHeader.bytes hdr) 14 = hdr.crc32 := readLE32_of_slice rfl
  have compressed : readLE32 (ZipLocalHeader.bytes hdr) 18 = hdr.compressedSize := readLE32_of_slice rfl
  have uncompressed : readLE32 (ZipLocalHeader.bytes hdr) 22 = hdr.uncompressedSize := readLE32_of_slice rfl
  have nameLen : readLE16 (ZipLocalHeader.bytes hdr) 26 = hdr.nameLen := readLE16_of_slice rfl
  have extraLen : readLE16 (ZipLocalHeader.bytes hdr) 28 = hdr.extraLen := readLE16_of_slice rfl
  simp only [parseLocalHeader,versionNeeded,flags,method,modTime,modDate,crc,compressed,uncompressed,nameLen,
    extraLen]

theorem signature_headerBytes (hdr : ZipLocalHeader) :
    readLE32 (ZipLocalHeader.bytes hdr) 0 = kZipLocalFileHeaderSig := readLE32_of_slice rfl

/-- An entry as it is written: stored or deflated, its sizes in the header or in a data
descriptor with or without a signature. -/
structure ZipItem (F : Format UInt8 UInt8) where
  versionNeeded : UInt16 := 20
  flags : UInt16 := 0
  modTime : UInt16 := 0
  modDate : UInt16 := 0
  deflated : Bool
  name : List UInt8
  extra : List UInt8 := []
  packed : List UInt8
  content : List UInt8
  descriptor : Option Bool := none
  name_short : name.length < 2 ^ 16
  extra_short : extra.length < 2 ^ 16
  packed_short : packed.length < 2 ^ 32
  announced : flags &&& 0x08 = 0 ↔ descriptor = none
  stored : deflated = false → packed = content
  decodes : deflated = true → F.verdict packed = .complete packed.length ∧ F.produced packed = content

namespace ZipItem

variable {F : Format UInt8 UInt8} (item : ZipItem F)

def header : ZipLocalHeader where
  versionNeeded := item.versionNeeded
  flags := item.flags
  method := if item.deflated then 8 else 0
  modTime := item.modTime
  modDate := item.modDate
  crc32 := if item.descriptor = none then crc32 item.content else 0
  compressedSize := if item.descriptor = none then .ofNat item.packed.length else 0
  uncompressedSize := if item.descriptor = none then .ofNat item.content.length else 0
  nameLen := .ofNat item.name.length
  extraLen := .ofNat item.extra.length

def sizes : List UInt8 :=
  le32 (crc32 item.content) ++ le32 (.ofNat item.packed.length) ++ le32 (.ofNat item.content.length)

def descriptorBytes : List UInt8 :=
  match item.descriptor with
  | none => []
  | some false => item.sizes
  | some true => le32 0x08074b50 ++ item.sizes

def front : List UInt8 := ZipLocalHeader.bytes item.header ++ (item.name ++ item.extra)

def bytes : List UInt8 := item.front ++ (item.packed ++ item.descriptorBytes)

def entry (bytesProcessed : Nat) : ZipEntry where
  header := item.header
  nameBuf := item.name
  dataOffset := bytesProcessed + 30 + item.name.length + item.extra.length

theorem length_front : item.front.length = 30 + item.name.length + item.extra.length := by
  simp only [front,List.length_append,length_headerBytes]
  omega

theorem nameLen_toNat : item.header.nameLen.toNat = item.name.length :=
  UInt16.toNat_ofNat_of_lt' item.name_short

theorem extraLen_toNat : item.header.extraLen.toNat = item.extra.length :=
  UInt16.toNat_ofNat_of_lt' item.extra_short

theorem compressedSize_toNat :
    item.header.compressedSize.toNat = if item.descriptor = none then item.packed.length else 0 := by
  simp only [header]
  split
  next => exact UInt32.toNat_ofNat_of_lt' item.packed_short
  next => rfl

theorem content_nil (empty : item.packed = []) : item.content = [] := by
  cases deflated : item.deflated with
  | false => exact (item.stored deflated).symm.trans empty
  | true =>
    have complete := (item.decodes deflated).1
    rw [empty,F.verdict_nil] at complete
    cases complete

variable (before after : List UInt8)

theorem entryAt_item : entryAt (before ++ (item.bytes ++ after)) before.length = some (item.entry before.length) := by
  have buffer : slice (before ++ (item.bytes ++ after)) before.length 30 = ZipLocalHeader.bytes item.header := by
    have block := slice_middle before (ZipLocalHeader.bytes item.header)
      (item.name ++ item.extra ++ (item.packed ++ item.descriptorBytes) ++ after)
    rw [length_headerBytes] at block
    simpa only [bytes,front,List.append_assoc] using block
  have named : slice (before ++ (item.bytes ++ after)) (before.length + 30) item.name.length = item.name := by
    have block := slice_middle (before ++ ZipLocalHeader.bytes item.header) item.name
      (item.extra ++ (item.packed ++ item.descriptorBytes) ++ after)
    rw [List.length_append,length_headerBytes] at block
    simpa only [bytes,front,List.append_assoc] using block
  simp only [entryAt,buffer,length_headerBytes,signature_headerBytes,parseLocalHeader_bytes]
  rw [if_neg (by decide),if_neg (by simp),nameLen_toNat,extraLen_toNat,named]
  simp [entry]

theorem bytesProcessed_lt : ¬ (before ++ (item.bytes ++ after)).length ≤ before.length := by
  have size := item.length_front
  simp only [bytes,List.length_append]
  omega

theorem slice_data (n : Nat) : slice (before ++ (item.bytes ++ after)) (item.entry before.length).dataOffset n
    = slice (item.packed ++ (item.descriptorBytes ++ after)) 0 n := by
  have block := slice_append_right (before ++ item.front) (item.packed ++ (item.descriptorBytes ++ after)) 0 n
  rw [List.length_append,length_front] at block
  simpa only [bytes,entry,List.append_assoc,Nat.add_assoc,Nat.add_zero] using block

theorem compressed_item : compressed (before ++ (item.bytes ++ after)) (item.entry before.length)
    = if item.descriptor = none then item.packed else [] := by
  simp only [compressed]
  rw [slice_data]
  simp only [entry]
  rw [compressedSize_toNat]
  split
  next => rw [slice_append_left _ _ _ _ (by omega),slice_all]
  next => simp [slice]

theorem entryData_item : entryData F (before ++ (item.bytes ++ after)) (item.entry before.length)
    = if item.descriptor = none then item.content else [] := by
  rw [entryData,compressed_item]
  cases deflated : item.deflated with
  | false =>
    have method : (item.entry before.length).header.method = 0 := by simp [entry,header,deflated]
    rw [if_pos method,item.stored deflated]
  | true =>
    have method : ¬ (item.entry before.length).header.method = 0 := by simp [entry,header,deflated]
    rw [if_neg method]
    split
    next => exact (item.decodes deflated).2
    next => exact F.produced_nil

theorem sound_item : Sound F (before ++ (item.bytes ++ after)) (item.entry before.length) := by
  refine ⟨?_,?_,?_⟩
  · cases deflated : item.deflated with
    | false => exact .inl (by simp [entry,header,deflated])
    | true => exact .inr (by simp [entry,header,deflated])
  · have front := item.length_front
    have size := item.compressedSize_toNat
    have within_ : item.header.compressedSize.toNat ≤ item.packed.length := by
      rw [size]
      split <;> omega
    simp only [bytes,List.length_append,entry]
    omega
  · intro other
    have deflated : item.deflated = true := by
      by_contra stored
      exact other (by simp [entry,header,stored])
    rw [compressed_item]
    split
    next =>
      rw [(item.decodes deflated).1]
      exact Verdict.noConfusion
    next =>
      rw [F.verdict_nil]
      exact Verdict.noConfusion

variable (host : ZipHost) (outputDir : List Char)

def isDirectory : Bool := endsWithSlash (host.fromUtf8 item.name)

theorem isFile_item : isFile host (item.entry before.length) = !item.isDirectory host := rfl

/-- The next entry is looked for behind the item. -/
def Leads : Prop := item.descriptor = none ∨ item.isDirectory host = false ∧ item.packed = []

theorem nextOffset_described (described : item.descriptor ≠ none) (empty : item.packed = []) :
    nextOffset (before ++ (item.bytes ++ after)) (item.entry before.length)
      = before.length + item.bytes.length := by
  have flagged : ¬ (item.entry before.length).header.flags &&& 0x08 = 0 :=
    fun clear => described (item.announced.mp clear)
  have none_ : (item.entry before.length).header.compressedSize.toNat = 0 := by
    change item.header.compressedSize.toNat = 0
    rw [compressedSize_toNat,if_neg described]
  have front := item.length_front
  have data (n : Nat) := item.slice_data before after n
  have start : (item.entry before.length).dataOffset = before.length + item.front.length := by
    rw [front]
    simp only [entry]
    omega
  simp only [nextOffset]
  rw [if_neg flagged,none_,Nat.add_zero,data,start]
  simp only [bytes,empty,List.nil_append,List.length_append]
  match signed : item.descriptor with
  | none => exact absurd signed described
  | some true =>
    have whole : item.descriptorBytes = le32 0x08074b50 ++ item.sizes := by
      rw [descriptorBytes,signed]
    have read : slice (item.descriptorBytes ++ after) 0 16 = item.descriptorBytes := by
      rw [slice_append_left _ _ _ _ (by rw [whole]; rfl)]
      rw [whole]
      rfl
    have marked : readLE32 item.descriptorBytes 0 = 0x08074b50 := by
      rw [whole]
      exact readLE32_of_slice rfl
    have size : item.descriptorBytes.length = 16 := by
      rw [whole]
      rfl
    rw [read,size,marked,if_neg (by decide),if_pos rfl,Nat.add_assoc]
  | some false =>
    have whole : item.descriptorBytes = item.sizes := by
      rw [descriptorBytes,signed]
    have size : item.sizes.length = 12 := rfl
    have long : ¬ (slice (item.sizes ++ after) 0 16).length < 12 := by
      simp only [slice,List.drop_zero,List.length_take,List.length_append,size]
      omega
    have marked : readLE32 (slice (item.sizes ++ after) 0 16) 0 = 0 := by
      rw [readLE32_slice _ _ _ _ (by decide)]
      refine readLE32_of_slice ?_
      rw [slice_append_left _ _ _ _ (by rw [size]; decide),sizes,item.content_nil empty]
      rfl
    rw [whole,if_neg long,marked,if_neg (by decide),size,Nat.add_assoc]

theorem nextPosition_item (leads : item.Leads host) :
    nextPosition host (before ++ (item.bytes ++ after)) (item.entry before.length)
      = before.length + item.bytes.length := by
  have front := item.length_front
  by_cases described : item.descriptor = none
  · have none_ : item.descriptorBytes = [] := by
      rw [descriptorBytes,described]
    have size : (item.entry before.length).header.compressedSize.toNat = item.packed.length := by
      change item.header.compressedSize.toNat = _
      rw [compressedSize_toNat,if_pos described]
    have clear : (item.entry before.length).header.flags &&& 0x08 = 0 := item.announced.mpr described
    simp only [nextPosition,nextOffset]
    rw [if_pos clear,ite_self,size]
    simp only [entry,bytes,none_,List.append_nil,List.length_append]
    omega
  · obtain ⟨file,empty⟩ := leads.resolve_left described
    have plain : ¬ endsWithSlash (host.fromUtf8 (item.entry before.length).nameBuf) = true := by
      have name : endsWithSlash (host.fromUtf8 item.name) = false := file
      simp [entry,name]
    rw [nextPosition,if_neg plain]
    exact item.nextOffset_described before after described empty

def file : Place × List UInt8 := (filePlace host outputDir (host.fromUtf8 item.name),item.content)

end ZipItem

section

variable {F : Format UInt8 UInt8} (D : IdealDecoder F) (host : ZipHost) (outputDir : List Char)

def archive (items : List (ZipItem F)) (tail : List UInt8) : List UInt8 := items.flatMap ZipItem.bytes ++ tail

def itemFiles (items : List (ZipItem F)) : List (Place × List UInt8) :=
  (items.filter (fun item => !item.isDirectory host)).map (fun item => item.file host outputDir)

/-- What follows the items is not another one. -/
def Closes (tail : List UInt8) : Prop := tail.take 4 ≠ le32 kZipLocalFileHeaderSig

theorem walk_closes (before : List UInt8) {rest : List UInt8} (closes : Closes rest) :
    walk host (before ++ rest) before.length = [] := by
  apply walk_none
  have buffer := slice_append_right before rest 0 30
  rw [Nat.add_zero] at buffer
  simp only [entryAt,buffer]
  split
  next => rfl
  next whole =>
    split
    next => rfl
    next signed =>
      have size : 4 ≤ rest.length := by
        simp only [slice,List.drop_zero,List.length_take] at whole
        omega
      have field : le32 (readLE32 rest 0) = slice rest 0 4 := le32_readLE32 size
      rw [readLE32_slice _ _ _ _ (by decide)] at signed
      rw [not_not.mp signed] at field
      exact absurd field.symm closes

theorem entryFiles_item (item : ZipItem F) (before after : List UInt8) :
    entryFiles F host (before ++ (item.bytes ++ after)) outputDir before.length
      = (if item.isDirectory host then [] else
          [((item.file host outputDir).1,if item.descriptor = none then item.content else [])])
        ++ entryFiles F host (before ++ (item.bytes ++ after)) outputDir
          (nextPosition host (before ++ (item.bytes ++ after)) (item.entry before.length)) := by
  rw [entryFiles,fileEntries_some host _ (item.bytesProcessed_lt before after) (item.entryAt_item before after),
    List.map_append,ZipItem.isFile_item]
  cases directory : item.isDirectory host with
  | true => rfl
  | false =>
    simp only [Bool.not_false,if_true,List.map_cons,List.map_nil,entryFile,item.entryData_item before after]
    rfl

theorem entryFiles_leads {item : ZipItem F} (leads : item.Leads host) (before after : List UInt8) :
    entryFiles F host (before ++ (item.bytes ++ after)) outputDir before.length
      = itemFiles host outputDir [item]
        ++ entryFiles F host ((before ++ item.bytes) ++ after) outputDir (before ++ item.bytes).length := by
  rw [entryFiles_item,item.nextPosition_item before after host leads,List.append_assoc,List.length_append]
  congr 1
  simp only [itemFiles]
  cases directory : item.isDirectory host with
  | true => simp [directory]
  | false =>
    rcases leads with plain | ⟨_,empty⟩
    · simp [directory,plain,ZipItem.file]
    · simp [directory,item.content_nil empty,ZipItem.file]

/-- Behind a directory without data the descriptor is not taken for an item. -/
theorem walk_directory {item : ZipItem F} (directory : item.isDirectory host = true)
    (described : item.descriptor ≠ none) (empty : item.packed = []) (before after : List UInt8) :
    walk host (before ++ (item.bytes ++ after)) (nextPosition host (before ++ (item.bytes ++ after))
      (item.entry before.length)) = [] := by
  have slash : endsWithSlash (host.fromUtf8 (item.entry before.length).nameBuf) = true := directory
  have size : (item.entry before.length).header.compressedSize.toNat = 0 := by
    change item.header.compressedSize.toNat = 0
    rw [item.compressedSize_toNat,if_neg described]
  have front := item.length_front
  have start : (item.entry before.length).dataOffset = (before ++ item.front).length := by
    rw [List.length_append,front]
    simp only [ZipItem.entry]
    omega
  have closes : Closes (item.descriptorBytes ++ after) := by
    unfold Closes ZipItem.descriptorBytes
    match signed : item.descriptor with
    | none => exact absurd signed described
    | some true =>
      change le32 0x08074b50 ≠ le32 kZipLocalFileHeaderSig
      decide
    | some false =>
      change le32 (crc32 item.content) ≠ le32 kZipLocalFileHeaderSig
      rw [item.content_nil empty]
      decide
  have past := walk_closes host (before ++ item.front) closes
  rw [nextPosition,if_pos slash,size,Nat.add_zero,start]
  simpa only [ZipItem.bytes,empty,List.nil_append,List.append_assoc] using past

/-- The archives whose entries are all found: an entry with a data descriptor has no data,
and a directory with one has no file behind it. -/
def Readable : List (ZipItem F) → Prop
  | [] => True
  | item :: rest =>
    if item.descriptor = none then Readable rest
    else if item.isDirectory host then ∀ later ∈ rest, later.isDirectory host = true
    else item.packed = [] ∧ Readable rest

theorem archive_cons (item : ZipItem F) (rest : List (ZipItem F)) (before tail : List UInt8) :
    before ++ archive (item :: rest) tail = before ++ (item.bytes ++ archive rest tail) := by
  simp [archive]

theorem itemFiles_cons (item : ZipItem F) (rest : List (ZipItem F)) :
    itemFiles host outputDir (item :: rest) = itemFiles host outputDir [item] ++ itemFiles host outputDir rest := by
  unfold itemFiles
  rw [← List.map_append,← List.filter_append]
  rfl

theorem itemFiles_nil {items : List (ZipItem F)} :
    itemFiles host outputDir items = [] ↔ ∀ item ∈ items, item.isDirectory host = true := by
  simp [itemFiles,List.filter_eq_nil_iff]

theorem entryFiles_of_walk {input : List UInt8} {pos : Nat} (ended : walk host input pos = []) :
    entryFiles F host input outputDir pos = [] := by
  rw [entryFiles,fileEntries,ended]
  rfl

variable {tail : List UInt8}

theorem entryFiles_archive (closes : Closes tail) (items : List (ZipItem F))
    (bare : ∀ item ∈ items, item.isDirectory host = true → item.packed = [])
    (readable : Readable host items) (before : List UInt8) :
    entryFiles F host (before ++ archive items tail) outputDir before.length = itemFiles host outputDir items := by
  induction items generalizing before with
  | nil => exact entryFiles_of_walk host outputDir (walk_closes host before closes)
  | cons item rest ih =>
    have later := ih (fun other member => bare other (List.mem_cons_of_mem _ member))
    rw [archive_cons,itemFiles_cons]
    simp only [Readable] at readable
    split at readable
    next plain => rw [entryFiles_leads host outputDir (.inl plain),later readable]
    next described =>
      split at readable
      next directory =>
        have ended := walk_directory host directory described (bare item List.mem_cons_self directory) before
          (archive rest tail)
        rw [entryFiles_item,entryFiles_of_walk host outputDir ended,(itemFiles_nil host outputDir).mpr readable,
          if_pos directory]
        simp [itemFiles,directory]
      next file =>
        have leads : item.Leads host := .inr ⟨Bool.eq_false_of_not_eq_true file,readable.1⟩
        rw [entryFiles_leads host outputDir leads,later readable.2]

theorem readable_of_entryFiles (items : List (ZipItem F))
    (bare : ∀ item ∈ items, item.isDirectory host = true → item.packed = [])
    (some_ : ∀ item ∈ items, item.descriptor ≠ none → item.content = [] → item.packed = []) (before : List UInt8)
    (same : entryFiles F host (before ++ archive items tail) outputDir before.length
      = itemFiles host outputDir items) : Readable host items := by
  induction items generalizing before with
  | nil => trivial
  | cons item rest ih =>
    have later := ih (fun other member => bare other (List.mem_cons_of_mem _ member))
      (fun other member => some_ other (List.mem_cons_of_mem _ member)) (before ++ item.bytes)
    rw [archive_cons,itemFiles_cons] at same
    simp only [Readable]
    split
    next plain =>
      rw [entryFiles_leads host outputDir (.inl plain)] at same
      exact later (List.append_cancel_left same)
    next described =>
      split
      next directory =>
        have ended := walk_directory host directory described (bare item List.mem_cons_self directory) before
          (archive rest tail)
        rw [entryFiles_item,entryFiles_of_walk host outputDir ended,if_pos directory,List.append_nil] at same
        exact (itemFiles_nil host outputDir).mp (List.append_eq_nil_iff.mp same.symm).2
      next file =>
        have first : itemFiles host outputDir [item] = [item.file host outputDir] := by
          simp [itemFiles,file]
        have empty : item.packed = [] := by
          rw [entryFiles_item,if_neg file,first,if_neg described] at same
          have head := (List.cons.inj same).1
          exact some_ item List.mem_cons_self described (congrArg Prod.snd head).symm
        rw [entryFiles_leads host outputDir (.inr ⟨Bool.eq_false_of_not_eq_true file,empty⟩)] at same
        exact ⟨empty,later (List.append_cancel_left same)⟩

theorem sound_archive (closes : Closes tail) (items : List (ZipItem F))
    (bare : ∀ item ∈ items, item.isDirectory host = true → item.packed = [])
    (readable : Readable host items) (before : List UInt8) :
    ∀ entry ∈ walk host (before ++ archive items tail) before.length,
      Sound F (before ++ archive items tail) entry := by
  induction items generalizing before with
  | nil =>
    intro entry member
    have none_ : walk host (before ++ archive ([] : List (ZipItem F)) tail) before.length = [] :=
      walk_closes host before closes
    rw [none_] at member
    cases member
  | cons item rest ih =>
    have later := ih (fun other member => bare other (List.mem_cons_of_mem _ member))
    have first := item.sound_item before (archive rest tail)
    have on (leads : item.Leads host) (behind : Readable host rest) :
        ∀ entry ∈ walk host (before ++ (item.bytes ++ archive rest tail)) (nextPosition host
          (before ++ (item.bytes ++ archive rest tail)) (item.entry before.length)),
          Sound F (before ++ (item.bytes ++ archive rest tail)) entry := by
      have next := later behind (before ++ item.bytes)
      rw [item.nextPosition_item before _ host leads]
      simpa only [List.append_assoc,List.length_append] using next
    have behind : ∀ entry ∈ walk host (before ++ (item.bytes ++ archive rest tail)) (nextPosition host
          (before ++ (item.bytes ++ archive rest tail)) (item.entry before.length)),
          Sound F (before ++ (item.bytes ++ archive rest tail)) entry := by
      simp only [Readable] at readable
      split at readable
      next plain => exact on (.inl plain) readable
      next described =>
        split at readable
        next directory =>
          intro entry member
          rw [walk_directory host directory described (bare item List.mem_cons_self directory)] at member
          cases member
        next file => exact on (.inr ⟨Bool.eq_false_of_not_eq_true file,readable.1⟩) readable.2
    rw [archive_cons]
    intro entry member
    rw [walk_some host _ (item.bytesProcessed_lt before _) (item.entryAt_item before _)] at member
    rcases List.mem_cons.mp member with rfl | more
    · exact first
    · exact behind entry more

/-- Success, and the files of the archive with their contents, each written once. -/
def Extracted (items : List (ZipItem F)) (run : Result Unit × ZipWorld) : Prop :=
  run.1 = .ok () ∧ run.2.files.reverse = itemFiles host outputDir items

variable (inputPath : String)

theorem decompressZip_files {input : List UInt8}
    (done : (decompressZip D host input inputPath outputDir).1 = .ok ()) :
    (decompressZip D host input inputPath outputDir).2.files.reverse = entryFiles F host input outputDir 0 := by
  have none_ : (mkpath host {} (filePath host outputDir ['.'])).2.files = [] := mkpath_files host {} _
  simp only [decompressZip] at done ⊢
  split at done
  next => cases done
  next opens =>
    rw [if_neg opens]
    split at done
    next => cases done
    next made =>
      rw [if_neg made,extractLoop_files D host input outputDir 0 _ done,none_,List.append_nil,List.reverse_reverse]

theorem decompressZip_done {input : List UInt8} (faultless : Faultless host outputDir)
    (sound : ∀ entry ∈ walk host input 0, Sound F input entry) :
    (decompressZip D host input inputPath outputDir).1 = .ok () := by
  simp only [decompressZip]
  rw [if_neg (not_not.mpr faultless.opens),if_neg (not_not.mpr faultless.output)]
  exact extractLoop_done D host input outputDir faultless 0 _ sound

/-- The checksum and the size that are recorded for an entry, in its header or, where the
flags say so, in the data descriptor behind its data. -/
def recorded (input : List UInt8) (entry : ZipEntry) : UInt32 × UInt32 :=
  let dd := entry.dataOffset + entry.header.compressedSize.toNat
  if entry.header.flags &&& 0x08 = 0 then (entry.header.crc32,entry.header.uncompressedSize)
  else if readLE32 input dd = 0x08074b50 then (readLE32 input (dd + 4),readLE32 input (dd + 12))
  else (readLE32 input dd,readLE32 input (dd + 8))

/-- A content has the recorded checksum and size. -/
def Matches (input : List UInt8) (entry : ZipEntry) (content : List UInt8) : Prop :=
  crc32 content = (recorded input entry).1 ∧ content.length = (recorded input entry).2.toNat

/-- Each file that was extracted is an entry's, and is as recorded for it. -/
def AsRecorded (input : List UInt8) (run : Result Unit × ZipWorld) : Prop :=
  List.Forall₂ (fun entry file => file.1 = filePlace host outputDir (host.fromUtf8 entry.nameBuf) ∧
    Matches input entry file.2) (fileEntries host input 0) run.2.files.reverse

/-- Extraction is exact for the archives whose entries are all found where their headers say,
and only for these unless an empty file was deflated; and a success says nothing about the
contents, which are as recorded exactly if what is in the input is. -/
theorem decompressZip_exact :
    (∀ (items : List (ZipItem F)) (tail : List UInt8), Faultless host outputDir → Closes tail →
      (∀ item ∈ items, item.isDirectory host = true → item.packed = []) →
      (Readable host items →
        Extracted host outputDir items (decompressZip D host (archive items tail) inputPath outputDir)) ∧
      ((∀ item ∈ items, item.descriptor ≠ none → item.content = [] → item.packed = []) →
        Extracted host outputDir items (decompressZip D host (archive items tail) inputPath outputDir) →
        Readable host items)) ∧
    ∀ input, (decompressZip D host input inputPath outputDir).1 = .ok () →
      (AsRecorded host outputDir input (decompressZip D host input inputPath outputDir) ↔
        ∀ entry ∈ fileEntries host input 0, Matches input entry (entryData F input entry)) := by
  constructor
  · intro items tail faultless closes bare
    constructor
    · intro readable
      have done := decompressZip_done D host outputDir inputPath faultless
        (sound_archive host closes items bare readable [])
      refine ⟨done,(decompressZip_files D host outputDir inputPath done).trans ?_⟩
      exact entryFiles_archive host outputDir closes items bare readable []
    · intro some_ extracted
      obtain ⟨done,files⟩ := extracted
      rw [decompressZip_files D host outputDir inputPath done] at files
      exact readable_of_entryFiles host outputDir items bare some_ [] files
  · intro input done
    rw [AsRecorded,decompressZip_files D host outputDir inputPath done,entryFiles,List.forall₂_map_right_iff,
      List.forall₂_same]
    constructor
    · intro all entry member
      exact (all entry member).2
    · intro all entry member
      exact ⟨rfl,all entry member⟩

end

def plainItem : ZipItem terminated where
  deflated := false
  name := [0x61]
  packed := [0x41]
  content := [0x41]
  name_short := by decide
  extra_short := by decide
  packed_short := by decide
  announced := by decide
  stored := fun _ => rfl
  decodes := fun deflated => by cases deflated

theorem plainHost_faultless : Faultless plainHost "C:/out".toList where
  opens := rfl
  output := by decide
  openable := fun _ => rfl
  writable := fun _ _ => rfl
  initializes := rfl

theorem closes_nil : Closes [] := by
  intro equal
  cases equal

/-- The directory "d/". -/
def folderItem : ZipItem terminated where
  deflated := false
  name := [0x64,0x2F]
  packed := []
  content := []
  name_short := by decide
  extra_short := by decide
  packed_short := by decide
  announced := by decide
  stored := fun _ => rfl
  decodes := fun deflated => by cases deflated

/-- The file "d/b", compressed. -/
def packedItem : ZipItem terminated where
  deflated := true
  name := [0x64,0x2F,0x62]
  packed := [0x42,0x43,0]
  content := [0x42,0x43]
  name_short := by decide
  extra_short := by decide
  packed_short := by decide
  announced := by decide
  stored := fun stored => by cases stored
  decodes := fun _ => ⟨rfl,rfl⟩

/-- The file "e" without a byte, its sizes behind its data. -/
def emptyItem : ZipItem terminated where
  flags := 0x08
  deflated := false
  name := [0x65]
  packed := []
  content := []
  descriptor := some true
  name_short := by decide
  extra_short := by decide
  packed_short := by decide
  announced := by decide
  stored := fun _ => rfl
  decodes := fun deflated => by cases deflated

def sampleItems : List (ZipItem terminated) := [plainItem,folderItem,packedItem,emptyItem]

theorem plain_extracted : itemFiles plainHost "C:/out".toList sampleItems =
      [({ root := "C:".toList,names := ["out".toList,"a".toList] },[0x41]),
        ({ root := "C:".toList,names := ["out".toList,"d".toList,"b".toList] },[0x42,0x43]),
        ({ root := "C:".toList,names := ["out".toList,"e".toList] },[])] ∧
    Extracted plainHost "C:/out".toList sampleItems
      (decompressZip copyingDecoder plainHost (archive sampleItems []) "a.zip" "C:/out".toList) := by
  have bare : ∀ item ∈ sampleItems, item.isDirectory plainHost = true → item.packed = [] := by
    intro item member
    simp only [sampleItems,List.mem_cons,List.not_mem_nil,or_false] at member
    rcases member with rfl | rfl | rfl | rfl
    · exact fun directory => absurd directory (by decide)
    · exact fun _ => rfl
    · exact fun directory => absurd directory (by decide)
    · exact fun _ => rfl
  have exact_ := (decompressZip_exact copyingDecoder plainHost "C:/out".toList "a.zip").1 sampleItems []
    plainHost_faultless closes_nil bare
  exact ⟨by decide,exact_.1 ⟨rfl,trivial⟩⟩

/-- The file "a", with its sizes behind the data. -/
def describedItem : ZipItem terminated where
  flags := 0x08
  deflated := false
  name := [0x61]
  packed := [0x41]
  content := [0x41]
  descriptor := some true
  name_short := by decide
  extra_short := by decide
  packed_short := by decide
  announced := by decide
  stored := fun _ => rfl
  decodes := fun deflated => by cases deflated

/-- It is extracted without an error, and empty. -/
theorem described_emptied :
    (decompressZip copyingDecoder plainHost (archive [describedItem] []) "a.zip" "C:/out".toList).1 = .ok () ∧
    (decompressZip copyingDecoder plainHost (archive [describedItem] []) "a.zip"
      "C:/out".toList).2.files.reverse = [({ root := "C:".toList,names := ["out".toList,"a".toList] },[])] ∧
    ¬ Extracted plainHost "C:/out".toList [describedItem]
      (decompressZip copyingDecoder plainHost (archive [describedItem] []) "a.zip" "C:/out".toList) := by
  have found : entryAt (archive [describedItem] []) 0 = some (describedItem.entry 0) :=
    describedItem.entryAt_item [] []
  have last : nextPosition plainHost (archive [describedItem] []) (describedItem.entry 0) = 43 := by
    decide
  have ended_ : walk plainHost (archive [describedItem] []) 43 = [] := by
    apply walk_none
    decide
  have entries : walk plainHost (archive [describedItem] []) 0 = [describedItem.entry 0] := by
    rw [walk_some plainHost _ (by decide) found,last,ended_]
  have done : (decompressZip copyingDecoder plainHost (archive [describedItem] []) "a.zip"
      "C:/out".toList).1 = .ok () := by
    apply decompressZip_done copyingDecoder plainHost "C:/out".toList "a.zip" plainHost_faultless
    rw [entries]
    intro entry member
    rw [List.mem_singleton.mp member]
    exact describedItem.sound_item [] []
  have files : (decompressZip copyingDecoder plainHost (archive [describedItem] []) "a.zip"
      "C:/out".toList).2.files.reverse = [({ root := "C:".toList,names := ["out".toList,"a".toList] },[])] := by
    rw [decompressZip_files copyingDecoder plainHost "C:/out".toList "a.zip" done,entryFiles,fileEntries,entries]
    decide
  refine ⟨done,files,?_⟩
  rintro ⟨_,kept⟩
  rw [files] at kept
  exact absurd kept (by decide)

end SetecWizard.Core.Decompressor
