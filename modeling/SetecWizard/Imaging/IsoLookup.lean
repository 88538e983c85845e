import SetecWizard.Imaging.IsoDirectory
import Mathlib.Data.List.Nodup

/-! Looking up files in an image that keeps to the standard. A path names an entry through the
directories on the way, without regard to the case of letters; the lookup finds the entry, and
does not ask whether it is a file or whether the image has all of its extent.
-/
namespace SetecWizard.Core.IsoFlasher
open SetecWizard.Library

section Tree

variable (image : IsoImage)

/-- Every call works and transfers what there is. -/
structure Faultless : Prop where
  opens : image.createFile = none
  seeks : ∀ offset, image.setFilePointer offset = none
  reads : ∀ offset length, ∃ moved, image.readFile offset length = .ok moved ∧ length ≤ moved

/-- Names that are equal up to the case of ASCII letters. -/
def SameName (a b : List UInt8) : Prop := a.map toupper = b.map toupper

/-- A path leads from the directory in an extent to an entry. -/
inductive Resolves : UInt32 → UInt32 → List (List UInt8) → IsoFileEntry → Prop where
  | last {lba size : UInt32} {sectors : List IsoSector} {component : List UInt8} {entry : IsoFileEntry} :
      Laid image lba size sectors → entry ∈ listing sectors → SameName entry.name component →
      Resolves lba size [component] entry
  | down {lba size : UInt32} {sectors : List IsoSector} {component : List UInt8} {rest : List (List UInt8)}
      {dir entry : IsoFileEntry} : Laid image lba size sectors → dir ∈ listing sectors →
      SameName dir.name component → dir.isDirectory = true → Resolves dir.lba dir.size rest entry →
      Resolves lba size (component :: rest) entry

/-- The directories below one of them. -/
inductive Below (rootLba rootSize : UInt32) : UInt32 → UInt32 → Prop where
  | root : Below rootLba rootSize rootLba rootSize
  | child {lba size : UInt32} {sectors : List IsoSector} {dir : IsoFileEntry} : Below rootLba rootSize lba size →
      Laid image lba size sectors → dir ∈ listing sectors → dir.isDirectory = true →
      Below rootLba rootSize dir.lba dir.size

/-- Every directory is laid out in sectors of records, and no two names in it are the same. -/
def WellFormedTree (rootLba rootSize : UInt32) : Prop :=
  ∀ lba size, Below image rootLba rootSize lba size →
    ∃ sectors, Laid image lba size sectors ∧ ((listing sectors).map (fun entry => entry.name.map toupper)).Nodup

/-- A volume descriptor of some type in a sector. -/
structure DescriptorAt (lba : Nat) (type : UInt8) : Prop where
  inside : (lba + 1) * ISO_SECTOR_SIZE ≤ image.size
  id : window image.byte (lba * ISO_SECTOR_SIZE + 1) 5 = standardId
  type : image.byte (lba * ISO_SECTOR_SIZE) = type

/-- The primary volume descriptor, one of the first 32, has the record of the root directory. -/
def HasRoot (rootLba rootSize : UInt32) : Prop :=
  ∃ (k : Nat) (root : IsoRecord), k < 32 ∧ root.extentLba = rootLba ∧ root.dataSize = rootSize ∧
    (∀ j < k, ∃ type, type ≠ ISO_VD_PRIMARY ∧ type ≠ ISO_VD_TERMINATOR ∧ DescriptorAt image (ISO_PVD_LBA + j) type) ∧
    DescriptorAt image (ISO_PVD_LBA + k) ISO_VD_PRIMARY ∧
    window image.byte ((ISO_PVD_LBA + k) * ISO_SECTOR_SIZE + 156) 34 = root.encode

def namesOf (path : List UInt8) : List (List UInt8) := (path.splitOn SLASH).filter (· ≠ [])

/-- A lookup succeeds for a path that names a file whose extent the image has, and only for
such a path, and gives the bytes of the extent. -/
def LooksUpExactly (rootLba rootSize : UInt32) (path : List UInt8) : Prop :=
  ∀ data, readIsoFile image path = .ok data ↔
    ∃ entry, Resolves image rootLba rootSize (namesOf path) entry ∧ entry.isDirectory = false ∧
      entry.lba.toNat * ISO_SECTOR_SIZE + entry.size.toNat ≤ image.size ∧
      data = window image.byte (entry.lba.toNat * ISO_SECTOR_SIZE) entry.size.toNat

end Tree

section Path

theorem namesOf_slash (path : List UInt8) : namesOf (SLASH :: path) = namesOf path := by
  have parts : (SLASH :: path).splitOn SLASH = [] :: path.splitOn SLASH :=
    List.splitOnP_append_cons [] path (beq_self_eq_true SLASH)
  rw [namesOf,parts]
  rfl

theorem namesOf_append_slash (path : List UInt8) : namesOf (path ++ [SLASH]) = namesOf path := by
  have parts : (path ++ [SLASH]).splitOn SLASH = path.splitOn SLASH ++ [[]] :=
    List.splitOnP_append_cons path [] (beq_self_eq_true SLASH)
  rw [namesOf,parts,List.filter_append]
  exact List.append_nil _

theorem namesOf_dropWhile (path : List UInt8) : namesOf (path.dropWhile (· = SLASH)) = namesOf path := by
  induction path with
  | nil => rfl
  | cons b rest ih =>
    rw [List.dropWhile_cons]
    split
    next slash => rw [ih,of_decide_eq_true slash,namesOf_slash]
    next => rfl

theorem namesOf_dropWhile_end (path : List UInt8) :
    namesOf (path.reverse.dropWhile (· = SLASH)).reverse = namesOf path := by
  induction path using List.reverseRecOn with
  | nil => rfl
  | append_singleton rest b ih =>
    rw [List.reverse_append,List.reverse_singleton,List.singleton_append,List.dropWhile_cons]
    split
    next slash => rw [ih,of_decide_eq_true slash,namesOf_append_slash]
    next => rw [List.reverse_cons,List.reverse_reverse]

theorem components_eq (path : List UInt8) : components path = namesOf path := by
  rw [← namesOf_dropWhile path,← namesOf_dropWhile_end]
  rfl

end Path

section Walk

variable {image : IsoImage} {rootLba rootSize : UInt32}

theorem listing_unique {lba size : UInt32} {sectors others : List IsoSector} (laid : Laid image lba size sectors)
    (also : Laid image lba size others) : listing sectors = listing others := by
  obtain ⟨_,first⟩ := parseDirectoryExtent_laid laid
  obtain ⟨_,second⟩ := parseDirectoryExtent_laid also
  rw [first] at second
  exact (Prod.mk.inj (Except.ok.inj second)).2

theorem walkTree_ok (tree : WellFormedTree image rootLba rootSize) (path : String) (names : List (List UInt8))
    {lba size : UInt32} (below : Below image rootLba rootSize lba size) {entry : IsoFileEntry} :
    walkTree image path names lba size = .ok entry ↔ Resolves image lba size names entry := by
  induction names generalizing lba size with
  | nil =>
    constructor
    · intro found
      cases found
    · intro resolves
      cases resolves
  | cons component rest ih =>
    obtain ⟨sectors,laid,unique⟩ := tree lba size below
    obtain ⟨accesses,parsed⟩ := parseDirectoryExtent_laid laid
    have same {e f : IsoFileEntry} (first : e ∈ listing sectors) (second : f ∈ listing sectors)
        (alike : e.name.map toupper = f.name.map toupper) : e = f :=
      List.inj_on_of_nodup_map unique first second alike
    rw [walkTree,parsed]
    dsimp only [bind,Except.bind]
    cases search : (listing sectors).find? (fun entry => entry.name.map toupper == component.map toupper) with
    | none =>
      have absent := List.find?_eq_none.mp search
      constructor
      · intro found
        cases found
      · intro resolves
        cases resolves with
        | last also member named =>
          rw [listing_unique also laid] at member
          exact absurd (beq_iff_eq.mpr named) (absent _ member)
        | down also member named =>
          rw [listing_unique also laid] at member
          exact absurd (beq_iff_eq.mpr named) (absent _ member)
    | some e =>
      have member := List.mem_of_find?_eq_some search
      have satisfied := List.find?_some search
      have named : SameName e.name component := beq_iff_eq.mp satisfied
      by_cases final : rest = []
      · simp only [if_pos final]
        subst final
        constructor
        · intro found
          cases found
          exact .last laid member named
        · intro resolves
          cases resolves with
          | last also there alike =>
            rw [listing_unique also laid] at there
            exact congrArg _ (same member there (named.trans alike.symm))
          | down _ _ _ _ onwards => cases onwards
      · simp only [if_neg final]
        cases directory : e.isDirectory with
        | false =>
          simp only [Bool.false_eq_true,not_false_eq_true,if_true]
          constructor
          · intro found
            cases found
          · intro resolves
            cases resolves with
            | last => exact absurd rfl final
            | down also there alike isDir onwards =>
              rw [listing_unique also laid] at there
              rw [same there member (alike.trans named.symm),directory] at isDir
              cases isDir
        | true =>
          simp only [not_true_eq_false,if_false]
          rw [ih (.child below laid member directory)]
          constructor
          · exact fun onwards => .down laid member named directory onwards
          · intro resolves
            cases resolves with
            | last => exact absurd rfl final
            | down also there alike isDir onwards =>
              rw [listing_unique also laid] at there
              rw [← same there member (alike.trans named.symm)]
              exact onwards

theorem resolves_unique (tree : WellFormedTree image rootLba rootSize) {names : List (List UInt8)}
    {entry other : IsoFileEntry} (first : Resolves image rootLba rootSize names entry)
    (second : Resolves image rootLba rootSize names other) : entry = other := by
  have found := (walkTree_ok tree "" names .root).mpr first
  rw [(walkTree_ok tree "" names .root).mpr second] at found
  exact (Except.ok.inj found).symm

end Walk

section Reading

variable {image : IsoImage} {rootLba rootSize : UInt32} (works : Faultless image)
include works

theorem readAt_ok (code : ErrorCode) (seekFailed readFailed : String) (offset length : Nat) :
    readAt image code seekFailed readFailed offset length =
      .ok (window image.byte offset (min length (image.size - offset))) := by
  obtain ⟨moved,transferred,all⟩ := works.reads offset length
  rw [readAt,works.seeks]
  simp only [transferred]
  rw [Nat.min_eq_right all]

theorem scanDescriptors_step {lba : Nat} {type : UInt8} (descriptor : DescriptorAt image lba type) (left : Nat) :
    scanDescriptors image (left + 1) lba =
      if type = ISO_VD_PRIMARY then
        .ok { rootDirRecord := window image.byte (lba * ISO_SECTOR_SIZE + 156) 34 }
      else if type = ISO_VD_TERMINATOR then
        .error (.fromCode .isoParseError "No Primary Volume Descriptor found in ISO")
      else scanDescriptors image left (lba + 1) := by
  obtain ⟨moved,transferred,all⟩ := works.reads (lba * ISO_SECTOR_SIZE) ISO_SECTOR_SIZE
  have inside := descriptor.inside
  rw [Nat.add_mul,Nat.one_mul] at inside
  have whole : min (min moved ISO_SECTOR_SIZE) (image.size - lba * ISO_SECTOR_SIZE) = ISO_SECTOR_SIZE := by omega
  have size : ISO_SECTOR_SIZE = 2048 := rfl
  have first : (window image.byte (lba * ISO_SECTOR_SIZE) ISO_SECTOR_SIZE).getD 0 0 = type := by
    rw [getD_window _ _ _ _ (by decide),Nat.add_zero]
    exact descriptor.type
  have id : slice (window image.byte (lba * ISO_SECTOR_SIZE) ISO_SECTOR_SIZE) 1 5 = standardId := by
    rw [slice_window _ _ _ _ _ (by decide)]
    exact descriptor.id
  have root : slice (window image.byte (lba * ISO_SECTOR_SIZE) ISO_SECTOR_SIZE) 156 34 =
      window image.byte (lba * ISO_SECTOR_SIZE + 156) 34 := slice_window _ _ _ _ _ (by decide)
  have short : refuse ((window image.byte (lba * ISO_SECTOR_SIZE) ISO_SECTOR_SIZE).length < ISO_SECTOR_SIZE)
      .isoParseError "Failed to read volume descriptor sector" = .ok () :=
    refuse_ok.mpr (by rw [length_window]; exact Nat.lt_irrefl _)
  have standard : refuse (slice (window image.byte (lba * ISO_SECTOR_SIZE) ISO_SECTOR_SIZE) 1 5 ≠ standardId)
      .isoParseError "Invalid ISO9660: missing CD001 identifier" = .ok () := refuse_ok.mpr (not_not.mpr id)
  rw [scanDescriptors,works.seeks]
  simp only [transferred,whole,bind,Except.bind,short,standard,first,root]
  by_cases found : type = ISO_VD_PRIMARY
  · rw [if_pos found,if_pos found]
    rfl
  · rw [if_neg found,if_neg found]
    by_cases ends : type = ISO_VD_TERMINATOR
    · simp only [refuse,if_pos ends]
    · simp only [refuse,if_neg ends]

theorem scanDescriptors_primary {k left lba : Nat} (enough : k < left)
    (others : ∀ j < k, ∃ type, type ≠ ISO_VD_PRIMARY ∧ type ≠ ISO_VD_TERMINATOR ∧ DescriptorAt image (lba + j) type)
    (primary : DescriptorAt image (lba + k) ISO_VD_PRIMARY) :
    scanDescriptors image left lba =
      .ok { rootDirRecord := window image.byte ((lba + k) * ISO_SECTOR_SIZE + 156) 34 } := by
  induction k generalizing left lba with
  | zero =>
    cases left with
    | zero => omega
    | succ left =>
      rw [Nat.add_zero] at primary
      rw [scanDescriptors_step works primary,if_pos rfl]
      rfl
  | succ k ih =>
    cases left with
    | zero => omega
    | succ left =>
      obtain ⟨type,notPrimary,goesOn,descriptor⟩ := others 0 (Nat.succ_pos k)
      rw [Nat.add_zero] at descriptor
      rw [scanDescriptors_step works descriptor,if_neg notPrimary,if_neg goesOn]
      have next (j : Nat) : lba + 1 + j = lba + (j + 1) := by omega
      have rest := @ih left (lba + 1) (by omega)
        (fun j below => by rw [next]; exact others (j + 1) (by omega)) (by rw [next]; exact primary)
      rw [rest,next]

theorem readPVD_root (hasRoot : HasRoot image rootLba rootSize) :
    ∃ pvd, readPVD image = .ok pvd ∧ readLE32 pvd.rootDirRecord 2 = rootLba ∧
      readLE32 pvd.rootDirRecord 10 = rootSize := by
  obtain ⟨k,root,few,rfl,rfl,others,primary,record⟩ := hasRoot
  have fields := fieldsAt root [] []
  rw [List.nil_append,List.append_nil] at fields
  refine ⟨_,scanDescriptors_primary works few others primary,?_,?_⟩
  · rw [record]
    exact fields.lba
  · rw [record]
    exact fields.size

theorem readIsoFile_ok (hasRoot : HasRoot image rootLba rootSize) (tree : WellFormedTree image rootLba rootSize)
    (path : List UInt8) {data : List UInt8} :
    readIsoFile image path = .ok data ↔ ∃ entry, Resolves image rootLba rootSize (namesOf path) entry ∧
      data = window image.byte (entry.lba.toNat * ISO_SECTOR_SIZE)
        (min entry.size.toNat (image.size - entry.lba.toNat * ISO_SECTOR_SIZE)) := by
  obtain ⟨pvd,read,lba,size⟩ := readPVD_root works hasRoot
  have find (entry : IsoFileEntry) : findFileInIso image path = .ok entry ↔
      Resolves image rootLba rootSize (namesOf path) entry := by
    rw [findFileInIso,read,components_eq,← walkTree_ok tree (text path) (namesOf path) .root]
    have walk : (do
        refuse (namesOf path = []) .invalidArgument "Empty file path"
        walkTree image (text path) (namesOf path) (readLE32 pvd.rootDirRecord 2) (readLE32 pvd.rootDirRecord 10)) =
          .ok entry ↔ walkTree image (text path) (namesOf path) rootLba rootSize = .ok entry := by
      rw [bind_unit_ok,refuse_ok,lba,size]
      constructor
      · exact fun both => both.2
      · intro found
        refine ⟨fun none => ?_,found⟩
        rw [none] at found
        cases found
    exact walk
  have whole : readIsoFile image path = (findFileInIso image path >>= fun entry =>
      .ok (window image.byte (entry.lba.toNat * ISO_SECTOR_SIZE)
        (min entry.size.toNat (image.size - entry.lba.toNat * ISO_SECTOR_SIZE)))) := by
    rw [readIsoFile,works.opens]
    simp only [readAt_ok works]
  rw [whole,bind_ok]
  constructor
  · rintro ⟨entry,found,same⟩
    exact ⟨entry,(find entry).mp found,(Except.ok.inj same).symm⟩
  · rintro ⟨entry,resolves,rfl⟩
    exact ⟨entry,(find entry).mpr resolves,rfl⟩

/-- A lookup is exact when its path leads to no directory and to no file that the image ends in. -/
theorem readIsoFile_exact_iff (hasRoot : HasRoot image rootLba rootSize)
    (tree : WellFormedTree image rootLba rootSize) (path : List UInt8) :
    LooksUpExactly image rootLba rootSize path ↔
      ∀ entry, Resolves image rootLba rootSize (namesOf path) entry →
        entry.isDirectory = false ∧ entry.lba.toNat * ISO_SECTOR_SIZE + entry.size.toNat ≤ image.size := by
  have read (data : List UInt8) := @readIsoFile_ok image rootLba rootSize works hasRoot tree path data
  constructor
  · intro exact entry resolves
    obtain ⟨other,also,file,inside,_⟩ := (exact _).mp ((read _).mpr ⟨entry,resolves,rfl⟩)
    rw [resolves_unique tree resolves also]
    exact ⟨file,inside⟩
  · intro files data
    rw [read]
    constructor
    · rintro ⟨entry,resolves,rfl⟩
      obtain ⟨file,inside⟩ := files entry resolves
      refine ⟨entry,resolves,file,inside,?_⟩
      rw [Nat.min_eq_left (by omega)]
    · rintro ⟨entry,resolves,_,inside,rfl⟩
      refine ⟨entry,resolves,?_⟩
      rw [Nat.min_eq_left (by omega)]

end Reading

section Sample

def sampleName (letter : UInt8) (plain : SEMICOLON ∉ [letter]) (file : [letter].getLast? ≠ some DOT) : IsoName where
  name := [letter]
  plain := plain
  ends _ := file

def sampleRoot : IsoRecord where
  extentLba := 17
  dataSize := 2048
  fileFlags := 0x02
  identifier := .current
  short := by decide

/-- A directory "D". -/
def sampleFolder : IsoRecord where
  extentLba := 18
  dataSize := 2048
  fileFlags := 0x02
  identifier := .named (sampleName 0x44 (by decide) (by decide)) (by decide)
  short := by decide

def sampleFile : IsoRecord where
  extentLba := 19
  dataSize := 5
  identifier := .named (sampleName 0x41 (by decide) (by decide)) (by decide)
  short := by decide

/-- A file "B" that is longer than what is left of the image. -/
def sampleLong : IsoRecord where
  extentLba := 19
  dataSize := 4096
  identifier := .named (sampleName 0x42 (by decide) (by decide)) (by decide)
  short := by decide

def sampleSector : IsoSector where
  records := [sampleRoot,{ sampleRoot with identifier := .parent, short := by decide },sampleFolder,sampleLong]
  fits := by decide +kernel

def folderSector : IsoSector where
  records := [{ sampleFolder with identifier := .current, short := by decide },
    { sampleRoot with identifier := .parent, short := by decide },sampleFile]
  fits := by decide

/-- A descriptor in sector 16, the two directories behind it and one sector of data. -/
def sampleImage : IsoImage where
  size := 20 * ISO_SECTOR_SIZE
  byte := patch (patch (patch (fun _ => 0) (16 * ISO_SECTOR_SIZE) (ISO_VD_PRIMARY :: standardId))
    (16 * ISO_SECTOR_SIZE + 156) sampleRoot.encode) (17 * ISO_SECTOR_SIZE) (sampleSector.bytes ++ folderSector.bytes)

theorem sample_faultless : Faultless sampleImage :=
  ⟨rfl,fun _ => rfl,fun _ length => ⟨length,rfl,Nat.le_refl length⟩⟩

theorem sample_hasRoot : HasRoot sampleImage 17 2048 := by
  have apart (a n : Nat) (before : a + n ≤ 17 * ISO_SECTOR_SIZE) := window_patch_apart
    (patch (patch (fun _ => (0 : UInt8)) (16 * ISO_SECTOR_SIZE) (ISO_VD_PRIMARY :: standardId))
      (16 * ISO_SECTOR_SIZE + 156) sampleRoot.encode) (17 * ISO_SECTOR_SIZE)
      (sampleSector.bytes ++ folderSector.bytes) a n (.inl before)
  refine ⟨0,sampleRoot,by decide,rfl,rfl,fun _ before => absurd before (Nat.not_lt_zero _),⟨by decide,?_,?_⟩,?_⟩
  · exact (apart _ 5 (by decide)).trans rfl
  · have first := apart (16 * ISO_SECTOR_SIZE) 1 (by decide)
    exact List.head_eq_of_cons_eq (first.trans rfl)
  · exact (apart _ 34 (by decide)).trans (window_patch_whole _ _ rfl)

theorem length_directories : (sampleSector.bytes ++ folderSector.bytes).length = 2 * ISO_SECTOR_SIZE := by
  rw [List.length_append,sampleSector.length_bytes,folderSector.length_bytes]
  rfl

theorem sample_extent {lba : UInt32} {sector : IsoSector} {k : Nat} (place : lba.toNat = 17 + k) (low : k < 2)
    (part : slice (sampleSector.bytes ++ folderSector.bytes) (k * ISO_SECTOR_SIZE) ISO_SECTOR_SIZE = sector.bytes) :
    Laid sampleImage lba 2048 [sector] := by
  have extent : extentOf [sector] = sector.bytes := List.append_nil _
  have start : lba.toNat * ISO_SECTOR_SIZE = 17 * ISO_SECTOR_SIZE + k * ISO_SECTOR_SIZE := by
    rw [place,Nat.add_mul]
  have inside : k * ISO_SECTOR_SIZE + ISO_SECTOR_SIZE ≤ (sampleSector.bytes ++ folderSector.bytes).length := by
    rw [length_directories,← Nat.succ_mul]
    exact Nat.mul_le_mul_right _ low
  refine ⟨?_,?_⟩
  · rw [extent,sector.length_bytes]
    rfl
  · have size : UInt32.toNat 2048 = ISO_SECTOR_SIZE := rfl
    have whole : sampleImage.size = 20 * ISO_SECTOR_SIZE := rfl
    have short : min ISO_SECTOR_SIZE (20 * ISO_SECTOR_SIZE - (17 * ISO_SECTOR_SIZE + k * ISO_SECTOR_SIZE)) =
        ISO_SECTOR_SIZE := by
      simp only [ISO_SECTOR_SIZE]
      omega
    rw [readExtent,readAt_ok sample_faultless,extent,start,← part,size,whole,short]
    exact congrArg _ (window_patch_inside _ _ _ _ _ inside)

theorem sample_laid : Laid sampleImage 17 2048 [sampleSector] := by
  refine sample_extent (k := 0) rfl (by decide) ?_
  rw [Nat.zero_mul,slice_append_left _ _ _ _ (by rw [sampleSector.length_bytes,Nat.zero_add]),
    ← sampleSector.length_bytes,slice_all]

theorem folder_laid : Laid sampleImage 18 2048 [folderSector] := by
  refine sample_extent (k := 1) rfl (by decide) ?_
  have behind := slice_append_right sampleSector.bytes folderSector.bytes 0 ISO_SECTOR_SIZE
  rw [sampleSector.length_bytes,Nat.add_zero] at behind
  rw [Nat.one_mul,behind,← folderSector.length_bytes,slice_all]

theorem sample_below {lba size : UInt32} (below : Below sampleImage 17 2048 lba size) :
    lba = 17 ∧ size = 2048 ∨ lba = 18 ∧ size = 2048 := by
  induction below with
  | root => exact .inl ⟨rfl,rfl⟩
  | child _ laid member directory ih =>
    have folders : ∀ entry ∈ listing [sampleSector], entry.isDirectory = true → entry.lba = 18 ∧ entry.size = 2048 := by
      decide
    have files : ∀ entry ∈ listing [folderSector], entry.isDirectory = false := by decide
    rcases ih with ⟨rfl,rfl⟩ | ⟨rfl,rfl⟩
    · rw [listing_unique laid sample_laid] at member
      exact .inr (folders _ member directory)
    · rw [listing_unique laid folder_laid] at member
      rw [files _ member] at directory
      cases directory

theorem sample_tree : WellFormedTree sampleImage 17 2048 := by
  intro lba size below
  rcases sample_below below with ⟨rfl,rfl⟩ | ⟨rfl,rfl⟩
  · exact ⟨[sampleSector],sample_laid,by decide⟩
  · exact ⟨[folderSector],folder_laid,by decide⟩

/-- "/d/a" names the file "A" in the directory "D". -/
theorem sample_lookup : LooksUpExactly sampleImage 17 2048 [SLASH,0x64,SLASH,0x61] := by
  refine (readIsoFile_exact_iff sample_faultless sample_hasRoot sample_tree [SLASH,0x64,SLASH,0x61]).mpr ?_
  intro entry resolves
  have file : Resolves sampleImage 17 2048 [[0x64],[0x61]] ⟨[0x41],19,5,false⟩ :=
    @Resolves.down _ _ _ _ _ _ ⟨[0x44],18,2048,true⟩ _ sample_laid (by decide) rfl rfl
      (.last folder_laid (by decide) rfl)
  rw [resolves_unique sample_tree resolves file]
  exact ⟨rfl,by decide⟩

/-- A file that the image ends in is read without an error. -/
theorem sample_truncated : ¬ LooksUpExactly sampleImage 17 2048 [0x42] := by
  intro exact
  have file : Resolves sampleImage 17 2048 [[0x42]] ⟨[0x42],19,4096,false⟩ := .last sample_laid (by decide) rfl
  have read := (readIsoFile_ok sample_faultless sample_hasRoot sample_tree [0x42]).mpr ⟨_,file,rfl⟩
  obtain ⟨entry,resolves,_,inside,_⟩ := (exact _).mp read
  rw [resolves_unique sample_tree resolves file] at inside
  exact absurd inside (by decide)

end Sample

end SetecWizard.Core.IsoFlasher
