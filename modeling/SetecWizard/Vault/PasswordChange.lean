import SetecWizard.Vault.KeyFile
import SetecWizard.Vault.Writes

/-! Changing the password of a vault. A sector that has been gone over holds under the
new key what it held under the old one, and the loop touches no other byte; the
header is written last, so that until then the file has sectors under either key.
-/
namespace SetecWizard.Core
open SetecWizard.Library
namespace EncryptedVault

variable {crypto : Crypto} {env : ChangeEnv} {header : VaultHeader} {oldKey newKey : List UInt8}

def place (header : VaultHeader) (sector : Nat) : Nat := header.dataOffset.toNat + sector * 512

theorem place_add (header : VaultHeader) (sector n : Nat) :
    place header (sector + n) = place header sector + n * 512 := by
  rw [place,place,Nat.add_mul,Nat.add_assoc]

theorem seek_sector (file : QFile) {sector : Nat} (inside : place header sector < 2 ^ 63) :
    (file.seek (sectorOffset header sector)).pos = place header sector := by
  have size : (UInt64.ofNat VAULT_SECTOR_SIZE).toNat = 512 := rfl
  rw [place] at inside
  have index : (UInt64.ofNat sector).toNat = sector := by
    rw [UInt64.toNat_ofNat']
    exact Nat.mod_eq_of_lt (by omega)
  have position : (sectorOffset header sector).toNat = place header sector := by
    rw [sectorOffset,UInt64.toNat_add,UInt64.toNat_mul,size,index,place]
    rw [Nat.mod_eq_of_lt (by omega : sector * 512 < 2 ^ 64)]
    exact Nat.mod_eq_of_lt (by omega)
  rw [QFile.seek,seek,position,if_pos (by rw [place]; exact inside)]

def Moved (crypto : Crypto) (oldKey newKey : List UInt8) (sector : Nat) (before after : List UInt8) : Prop :=
  ∃ plain sealed, crypto.xtsDecrypt oldKey (xtsTweak (UInt64.ofNat sector)) (.copy before 0 512) = some plain ∧
    crypto.xtsEncrypt newKey (xtsTweak (UInt64.ofNat sector)) plain = some sealed ∧ after = sealed.data

theorem reencryptSector_xts (xts : header.algorithm = .aes256Xts) {sector : Nat} {before after : List UInt8}
    (moved : reencryptSector crypto env header oldKey newKey sector before = .ok after) :
    Moved crypto oldKey newKey sector before after := by
  rw [reencryptSector,if_pos xts] at moved
  obtain ⟨_,moved⟩ := bind_unit_ok.mp moved
  obtain ⟨plain,decrypted,moved⟩ := bind_ok.mp moved
  obtain ⟨_,moved⟩ := bind_unit_ok.mp moved
  obtain ⟨sealed,encrypted,moved⟩ := bind_ok.mp moved
  cases moved
  unfold decryptSectorXts at decrypted
  unfold encryptSectorXts at encrypted
  split at decrypted
  · cases decrypted
  next opened =>
    cases decrypted
    split at encrypted
    · cases encrypted
    next closed =>
      cases encrypted
      exact ⟨plain,sealed,opened,closed,rfl⟩

theorem Moved.length {sector : Nat} {before after : List UInt8}
    (moved : Moved crypto oldKey newKey sector before after) : after.length = 512 := by
  obtain ⟨_,sealed,_,_,rfl⟩ := moved
  exact sealed.size

/-- One turn of the loop up to its write: what is to be written, and the file at the
position where it will be. -/
def turn (crypto : Crypto) (env : ChangeEnv) (header : VaultHeader) (oldKey newKey : List UInt8) (sector : Nat)
    (file : QFile) : Except (ErrorInfo × QFile) (List UInt8 × QFile) :=
  let (sectorData,file) :=
    (file.seek (sectorOffset header sector)).read VAULT_SECTOR_SIZE (env.sectorRead sector)
  if sectorData.length ≠ VAULT_SECTOR_SIZE then
    .error (.fromCode .diskReadError ("Short read during password change at sector " ++ toString sector),file)
  else
    match reencryptSector crypto env header oldKey newKey sector sectorData with
    | .error e => .error (e,file)
    | .ok sectorBuf => .ok (sectorBuf,file.seek (sectorOffset header sector))

theorem changeLoop_turn (left sector : Nat) (file : QFile) :
    changeLoop crypto env header oldKey newKey (left + 1) sector file =
      match turn crypto env header oldKey newKey sector file with
      | .error (e,file) => (.error e,file)
      | .ok (sectorBuf,file) =>
        if (file.write sectorBuf (env.sectorWritten sector)).1 ≠ sectorBuf.length then
          (.error (.fromCode .diskWriteError "Write failed during password change"),
            (file.write sectorBuf (env.sectorWritten sector)).2)
        else changeLoop crypto env header oldKey newKey left (sector + 1)
          (file.write sectorBuf (env.sectorWritten sector)).2 := by
  rw [changeLoop,turn]
  dsimp only
  split
  · rfl
  · cases reencryptSector crypto env header oldKey newKey sector
      ((file.seek (sectorOffset header sector)).read VAULT_SECTOR_SIZE (env.sectorRead sector)).1 <;> rfl

theorem turn_error {sector : Nat} {file stopped : QFile} {e : ErrorInfo}
    (failed : turn crypto env header oldKey newKey sector file = .error (e,stopped)) :
    stopped.content = file.content := by
  unfold turn at failed
  dsimp only at failed
  split at failed
  · cases failed
    rfl
  · split at failed
    · cases failed
      rfl
    · cases failed

theorem turn_ok {sector : Nat} {file start : QFile} {sectorBuf : List UInt8}
    (reached : turn crypto env header oldKey newKey sector file = .ok (sectorBuf,start)) :
    start.content = file.content ∧ (place header sector < 2 ^ 63 → start.pos = place header sector ∧
      (slice file.content (place header sector) 512).length = 512 ∧
      reencryptSector crypto env header oldKey newKey sector (slice file.content (place header sector) 512) =
        .ok sectorBuf) := by
  unfold turn at reached
  dsimp only at reached
  split at reached
  · cases reached
  next whole =>
    split at reached
    · cases reached
    next moved =>
      cases reached
      refine ⟨rfl,fun inside => ⟨seek_sector _ inside,?_⟩⟩
      have delivered := not_not.mp whole
      simp only [QFile.read,seek_sector file inside] at delivered moved
      change ((slice file.content (place header sector) 512).take (env.sectorRead sector)).length = 512 at delivered
      change reencryptSector crypto env header oldKey newKey sector
        ((slice file.content (place header sector) 512).take (env.sectorRead sector)) = .ok sectorBuf at moved
      have bound : (slice file.content (place header sector) 512).length ≤ 512 := by
        rw [slice,List.length_take]
        exact Nat.min_le_left _ _
      rw [List.length_take] at delivered
      rw [List.take_of_length_le (by omega)] at moved
      exact ⟨by omega,moved⟩

theorem changeLoop_next {left sector : Nat} {file after : QFile} (inside : place header sector < 2 ^ 63)
    (run : changeLoop crypto env header oldKey newKey (left + 1) sector file = (.ok (),after)) :
    ∃ (sectorBuf : List UInt8) (next : QFile), (slice file.content (place header sector) 512).length = 512 ∧
      reencryptSector crypto env header oldKey newKey sector (slice file.content (place header sector) 512) =
        .ok sectorBuf ∧
      next.content = splice file.content (place header sector) sectorBuf ∧
      changeLoop crypto env header oldKey newKey left (sector + 1) next = (.ok (),after) := by
  rw [changeLoop_turn] at run
  cases reached : turn crypto env header oldKey newKey sector file with
  | error stopped =>
    rw [reached] at run
    cases run
  | ok both =>
    obtain ⟨sectorBuf,start⟩ := both
    rw [reached] at run
    dsimp only at run
    obtain ⟨kept,at_place⟩ := turn_ok reached
    obtain ⟨pos,whole,moved⟩ := at_place inside
    split at run
    · cases run
    next all =>
      have written := not_not.mp all
      rw [QFile.write,List.length_take] at written
      refine ⟨sectorBuf,_,whole,moved,?_,run⟩
      rw [QFile.write,List.take_of_length_le (by omega),pos,kept]

theorem changeLoop_xts (xts : header.algorithm = .aes256Xts) {left sector : Nat} {file after : QFile}
    (fits : file.content.length < 2 ^ 63) (room : place header (sector + left) ≤ file.content.length)
    (run : changeLoop crypto env header oldKey newKey left sector file = (.ok (),after)) :
    after.content.length = file.content.length ∧
      (∀ i, i < place header sector ∨ place header (sector + left) ≤ i → after.content[i]? = file.content[i]?) ∧
      ∀ k < left, Moved crypto oldKey newKey (sector + k) (slice file.content (place header (sector + k)) 512)
        (slice after.content (place header (sector + k)) 512) := by
  induction left generalizing sector file with
  | zero =>
    cases run
    exact ⟨rfl,fun _ _ => rfl,fun k below => absurd below (Nat.not_lt_zero k)⟩
  | succ left ih =>
    have last := place_add header sector (left + 1)
    have second := place_add header sector 1
    obtain ⟨sectorBuf,next,whole,reencrypted,content,run⟩ :=
      changeLoop_next (by omega : place header sector < 2 ^ 63) run
    have moved := reencryptSector_xts xts reencrypted
    have size := moved.length
    have stays : place header sector + sectorBuf.length ≤ file.content.length := by omega
    have length : next.content.length = file.content.length := by rw [content,length_splice _ _ _ stays]
    have index : sector + 1 + left = sector + (left + 1) := by omega
    obtain ⟨long,outside,each⟩ := ih (by omega) (by rw [index]; omega) run
    rw [index] at outside
    have frame (i : Nat) (apart : i < place header sector ∨ place header (sector + 1) ≤ i) :
        next.content[i]? = file.content[i]? := by
      rw [content,getElem?_splice _ _ _ _ stays,if_neg (by omega)]
    refine ⟨long.trans length,?_,?_⟩
    · intro i apart
      rw [outside i (by omega),frame i (by omega)]
    · intro k below
      cases k with
      | zero =>
        have written : slice after.content (place header sector) 512 = sectorBuf := by
          have put := slice_splice_same file.content sectorBuf (place header sector) stays
          rw [size] at put
          rw [← put,← content]
          exact slice_keep (fun i _ high => outside i (.inl (by omega)))
        rw [Nat.add_zero,written]
        exact moved
      | succ k =>
        have shifted := each k (by omega)
        have position : sector + 1 + k = sector + (k + 1) := by omega
        have behind := place_add header (sector + 1) k
        rw [position] at shifted behind
        have untouched : slice next.content (place header (sector + (k + 1))) 512 =
            slice file.content (place header (sector + (k + 1))) 512 :=
          slice_keep (fun i low _ => frame i (.inr (by omega)))
        rwa [untouched] at shifted

theorem decryptLoop_congr {other : VaultHeader} {key otherKey : List UInt8} {progress : UInt64 → UInt64 → Bool}
    {left sector : Nat} {rest rest' volume : List UInt8}
    (looped : decryptLoop crypto header key progress left sector rest = .ok volume)
    (same : ∀ k < left, (slice rest' (k * 512) 512).length = 512 ∧ ∀ plain,
      decryptSector crypto header key (UInt64.ofNat (sector + k)) (slice rest (k * 512) 512) = .ok plain →
        decryptSector crypto other otherKey (UInt64.ofNat (sector + k)) (slice rest' (k * 512) 512) = .ok plain) :
    decryptLoop crypto other otherKey (fun _ _ => true) left sector rest' = .ok volume := by
  induction left generalizing sector rest rest' volume with
  | zero => exact looped
  | succ left ih =>
    obtain ⟨_,looped⟩ := bind_unit_ok.mp looped
    obtain ⟨plain,first,looped⟩ := bind_ok.mp looped
    obtain ⟨_,looped⟩ := bind_unit_ok.mp looped
    obtain ⟨others,tail,looped⟩ := bind_ok.mp looped
    have head := same 0 (by omega)
    simp only [Nat.zero_mul,slice,List.drop_zero,Nat.add_zero] at head
    have later : decryptLoop crypto other otherKey (fun _ _ => true) left (sector + 1)
        (rest'.drop VAULT_SECTOR_SIZE) = .ok others := by
      refine ih tail (fun k below => ?_)
      have shifted := same (k + 1) (by omega)
      have index : sector + 1 + k = sector + (k + 1) := by omega
      have offset : VAULT_SECTOR_SIZE + k * 512 = (k + 1) * 512 := by rw [VAULT_SECTOR_SIZE]; omega
      rw [index,slice_drop,slice_drop,offset]
      exact shifted
    refine bind_unit_ok.mpr ⟨refuse_ok.mpr (not_not.mpr head.1),bind_ok.mpr ⟨plain,head.2 plain first,?_⟩⟩
    exact bind_unit_ok.mpr ⟨refuse_ok.mpr (by simp),bind_ok.mpr ⟨others,later,looped⟩⟩

theorem deserialize_current {data : List UInt8} (parsed : VaultHeader.deserialize data = .ok header) :
    header.version = VAULT_VERSION ∧ ¬ header.pbkdf2Iterations < 10000 := by
  unfold VaultHeader.deserialize at parsed
  obtain ⟨_,parsed⟩ := bind_unit_ok.mp parsed
  obtain ⟨_,parsed⟩ := bind_unit_ok.mp parsed
  obtain ⟨current,parsed⟩ := bind_unit_ok.mp parsed
  split at parsed
  · cases parsed
  · obtain ⟨many,parsed⟩ := bind_unit_ok.mp parsed
    cases parsed
    exact ⟨not_not.mp (refuse_ok.mp current),refuse_ok.mp many⟩

def rewritten (crypto : Crypto) (header : VaultHeader) (newKey : List UInt8) : VaultHeader :=
  { header with hmac := .zero 32 }.withHmac crypto (hmacKey header.algorithm newKey)

section Changed

variable {vaultPath : String} {current new : Credentials} {content after volume : List UInt8}

theorem changeKeys_ok {file : Option (List UInt8)} {next : VaultHeader} {oldKey newKey : List UInt8}
    (prepared : changeKeys crypto env vaultPath file current new = .ok (next,oldKey,newKey)) :
    ∃ header salt, readHeader crypto vaultPath file current = .ok header ∧ next = { header with salt := salt } ∧
      (∃ material, deriveKey crypto current header.salt header.pbkdf2Iterations
        (totalKeyLen header.algorithm) = .ok material ∧ material.data = oldKey) ∧
      ∃ material, deriveKey crypto new salt header.pbkdf2Iterations
        (totalKeyLen header.algorithm) = .ok material ∧ material.data = newKey := by
  obtain ⟨_,prepared⟩ := bind_unit_ok.mp prepared
  obtain ⟨header,read,prepared⟩ := bind_ok.mp prepared
  obtain ⟨salt,_,prepared⟩ := bind_ok.mp prepared
  obtain ⟨old,oldDerived,prepared⟩ := bind_ok.mp prepared
  obtain ⟨fresh,newDerived,prepared⟩ := bind_ok.mp prepared
  obtain ⟨_,prepared⟩ := bind_unit_ok.mp prepared
  cases prepared
  exact ⟨header,salt,read,rfl,⟨old,oldDerived,rfl⟩,fresh,newDerived,rfl⟩

theorem rewriteHeader_ok {file : QFile} {written : QFile}
    (run : rewriteHeader crypto env header newKey file = (.ok (),written)) :
    written.content = splice file.content 0 (rewritten crypto header newKey).serialize := by
  unfold rewriteHeader at run
  split at run
  · cases run
  · dsimp only [QFile.write] at run
    split at run
    · cases run
    next whole =>
      have all : ((rewritten crypto header newKey).serialize).take env.headerWritten =
          (rewritten crypto header newKey).serialize := by
        have reported := not_not.mp whole
        have size := (rewritten crypto header newKey).length_serialize
        rw [List.length_take] at reported
        refine List.take_of_length_le ?_
        rw [rewritten] at size ⊢
        rw [VAULT_HEADER_SIZE] at reported
        omega
      cases run
      exact congrArg (splice file.content 0) all

theorem changePassword_ok
    (changed : changePassword crypto env vaultPath current new (some content) = (.ok (),some after)) :
    ∃ next oldKey newKey file, changeKeys crypto env vaultPath (some content) current new = .ok (next,oldKey,newKey) ∧
      changeLoop crypto env next (encKey next.algorithm oldKey) (encKey next.algorithm newKey)
        (next.volumeSize.toNat / VAULT_SECTOR_SIZE) 0 { content := content } = (.ok (),file) ∧
      after = splice file.content 0 (rewritten crypto next newKey).serialize := by
  unfold changePassword at changed
  cases prepared : changeKeys crypto env vaultPath (some content) current new with
  | error e =>
    rw [prepared] at changed
    cases changed
  | ok keys =>
    obtain ⟨next,oldKey,newKey⟩ := keys
    rw [prepared] at changed
    dsimp only at changed
    split at changed
    · cases changed
    next file looped =>
      refine ⟨next,oldKey,newKey,file,rfl,looped,?_⟩
      have written : (rewriteHeader crypto env next newKey file).1 = .ok () := congrArg Prod.fst changed
      have same := Option.some.inj (congrArg Prod.snd changed)
      rw [← same]
      exact rewriteHeader_ok (Prod.ext written rfl)

theorem decryptVolume_ok {credentials : Credentials} {progress : UInt64 → UInt64 → Bool}
    (mounted : decryptVolume crypto vaultPath (some content) credentials progress = .ok (header,volume)) :
    ∃ keyMaterial data, readHeader crypto vaultPath (some content) credentials = .ok header ∧
      deriveKey crypto credentials header.salt header.pbkdf2Iterations
        (totalKeyLen header.algorithm) = .ok keyMaterial ∧
      decryptLoop crypto header (encKey header.algorithm keyMaterial.data) progress
        (header.volumeSize.toNat / VAULT_SECTOR_SIZE) 0 (content.drop (seek 0 header.dataOffset)) = .ok data ∧
      volume = data ++ List.replicate (header.volumeSize.toNat % VAULT_SECTOR_SIZE) 0 := by
  obtain ⟨h,read,mounted⟩ := bind_ok.mp mounted
  obtain ⟨keyMaterial,derived,mounted⟩ := bind_ok.mp mounted
  obtain ⟨data,looped,mounted⟩ := bind_ok.mp mounted
  cases mounted
  exact ⟨keyMaterial,data,read,derived,looped,rfl⟩

theorem decryptLoop_room {key : List UInt8} {progress : UInt64 → UInt64 → Bool} {left sector : Nat}
    {rest : List UInt8} (looped : decryptLoop crypto header key progress left sector rest = .ok volume) :
    left * 512 ≤ rest.length := by
  induction left generalizing sector rest volume with
  | zero => omega
  | succ left ih =>
    obtain ⟨whole,looped⟩ := bind_unit_ok.mp looped
    obtain ⟨plain,_,looped⟩ := bind_ok.mp looped
    obtain ⟨_,looped⟩ := bind_unit_ok.mp looped
    obtain ⟨others,tail,_⟩ := bind_ok.mp looped
    have behind := ih tail
    have size := not_not.mp (refuse_ok.mp whole)
    rw [List.length_take] at size
    rw [List.length_drop] at behind
    have stride := Nat.min_le_right VAULT_SECTOR_SIZE rest.length
    rw [size] at stride
    calc (left + 1) * 512 = left * 512 + 512 := Nat.succ_mul left 512
      _ ≤ rest.length - 512 + 512 := Nat.add_le_add_right behind 512
      _ = rest.length := Nat.sub_add_cancel stride

theorem Moved.decrypts (ideal : crypto.Ideal) {next : VaultHeader} (xts : header.algorithm = .aes256Xts)
    (xts' : next.algorithm = .aes256Xts) {oldKey newKey before after plain : List UInt8} {sector : Nat}
    (moved : Moved crypto oldKey newKey sector before after)
    (opened : decryptSector crypto header oldKey (UInt64.ofNat sector) before = .ok plain) :
    decryptSector crypto next newKey (UInt64.ofNat sector) after = .ok plain := by
  obtain ⟨text,sealed,decrypted,encrypted,rfl⟩ := moved
  have copied : Bytes.copy sealed.data 0 512 = sealed := by
    refine Bytes.copy_of_slice sealed (by rw [sealed.size]) ?_
    have all := slice_all sealed.data
    rwa [sealed.size] at all
  rw [decryptSector,if_pos xts,decryptSectorXts,decrypted] at opened
  rw [decryptSector,if_pos xts',copied,decryptSectorXts,ideal.xts _ _ _ _ encrypted]
  exact opened

/-- The data region is empty, or begins behind the header sector. -/
def Apart (header : VaultHeader) : Prop :=
  header.volumeSize.toNat < 512 ∨ 512 ≤ header.dataOffset.toNat ∧ header.dataOffset.toNat < 2 ^ 63

theorem changeLoop_all (xts : header.algorithm = .aes256Xts) (apart : Apart header) (fits : content.length < 2 ^ 63)
    {key : List UInt8} {progress : UInt64 → UInt64 → Bool}
    (looped : decryptLoop crypto header key progress (header.volumeSize.toNat / VAULT_SECTOR_SIZE) 0
      (content.drop (seek 0 header.dataOffset)) = .ok volume) {next : VaultHeader} (same : next.algorithm = header.algorithm)
    (placed : next.dataOffset = header.dataOffset) {file : QFile}
    (run : changeLoop crypto env next oldKey newKey (header.volumeSize.toNat / VAULT_SECTOR_SIZE) 0
      { content := content } = (.ok (),file)) :
    file.content.length = content.length ∧
      (∀ i, i < header.dataOffset.toNat ∨ header.dataOffset.toNat + header.volumeSize.toNat ≤ i →
        file.content[i]? = content[i]?) ∧
      ∀ k < header.volumeSize.toNat / VAULT_SECTOR_SIZE,
        seek 0 header.dataOffset = header.dataOffset.toNat ∧ 512 ≤ place header k ∧
          Moved crypto oldKey newKey k (slice content (place header k) 512)
            (slice file.content (place header k) 512) := by
  have position (k : Nat) : place next k = place header k := by rw [place,place,placed]
  have room := decryptLoop_room looped
  rcases apart with empty | ⟨behind,low⟩
  · have none : header.volumeSize.toNat / VAULT_SECTOR_SIZE = 0 := Nat.div_eq_of_lt empty
    rw [none] at run ⊢
    cases run
    exact ⟨rfl,fun _ _ => rfl,fun k below => absurd below (Nat.not_lt_zero k)⟩
  · by_cases none : header.volumeSize.toNat / VAULT_SECTOR_SIZE = 0
    · rw [none] at run ⊢
      cases run
      exact ⟨rfl,fun _ _ => rfl,fun k below => absurd below (Nat.not_lt_zero k)⟩
    · have amount := Nat.div_mul_le_self header.volumeSize.toNat 512
      rw [VAULT_SECTOR_SIZE] at *
      rw [List.length_drop,seek,if_pos low] at room
      have last := place_add header 0 (header.volumeSize.toNat / 512)
      have first : place header 0 = header.dataOffset.toNat := by rw [place,Nat.zero_mul,Nat.add_zero]
      obtain ⟨length,outside,each⟩ := changeLoop_xts (same.trans xts) fits
        (by rw [position]; change _ ≤ content.length; omega) run
      refine ⟨length,fun i far => outside i (by rw [position,position]; omega),
        fun k below => ⟨by rw [seek,if_pos low],?_,?_⟩⟩
      · have at_k := place_add header 0 k
        rw [Nat.zero_add] at at_k
        omega
      · have moved := each k below
        rwa [Nat.zero_add,position] at moved

theorem readHeader_rewritten {salted : VaultHeader} {keyMaterial : Bytes (totalKeyLen salted.algorithm)}
    (version : salted.version = VAULT_VERSION) (many : ¬ salted.pbkdf2Iterations < 10000)
    (long : VAULT_HEADER_SIZE ≤ after.length)
    (front : after.take VAULT_HEADER_SIZE = (rewritten crypto salted keyMaterial.data).serialize)
    (derived : deriveKey crypto new salted.salt salted.pbkdf2Iterations (totalKeyLen salted.algorithm) =
      .ok keyMaterial) :
    readHeader crypto vaultPath (some after) new = .ok (rewritten crypto salted keyMaterial.data) := by
  have parsed := (rewritten crypto salted keyMaterial.data).deserialize_serialize version many
  rw [← front] at parsed
  have sealed : (rewritten crypto salted keyMaterial.data).hmac =
      crypto.hmacSha256 (hmacKey salted.algorithm keyMaterial.data)
        (rewritten crypto salted keyMaterial.data).authenticated :=
    withHmac_sealed { salted with hmac := .zero 32 } rfl _
  exact readHeader_of long parsed derived sealed

theorem splice_front {image : List UInt8} (size : image.length = 512) (long : 512 ≤ content.length)
    (rewrote : after = splice content 0 image) :
    after.length = content.length ∧ after.take 512 = image ∧ ∀ i, 512 ≤ i → after[i]? = content[i]? := by
  have fits : 0 + image.length ≤ content.length := by omega
  have put := slice_splice_same content image 0 fits
  rw [size] at put
  subst rewrote
  refine ⟨length_splice _ _ _ fits,put,fun i behind => ?_⟩
  rw [getElem?_splice _ _ _ _ fits,if_neg (by omega)]

theorem changePassword_preserves (crypto : Crypto) (ideal : crypto.Ideal) (env : ChangeEnv) (vaultPath : String)
    (current new : Credentials) (content after volume : List UInt8) (header : VaultHeader)
    (progress : UInt64 → UInt64 → Bool) (fits : content.length < 2 ^ 63)
    (mounted : decryptVolume crypto vaultPath (some content) current progress = .ok (header,volume))
    (xts : header.algorithm = .aes256Xts) (apart : Apart header)
    (changed : changePassword crypto env vaultPath current new (some content) = (.ok (),some after)) :
    (∃ next, readHeader crypto vaultPath (some after) new = .ok next ∧
      decryptVolume crypto vaultPath (some after) new (fun _ _ => true) = .ok (next,volume)) ∧
    after.length = content.length ∧
    ∀ i, after[i]? ≠ content[i]? →
      i < VAULT_HEADER_SIZE ∨ header.dataOffset.toNat ≤ i ∧ i < header.dataOffset.toNat + header.volumeSize.toNat := by
  obtain ⟨keyMaterial,data,read,derived,looped,whole⟩ := decryptVolume_ok mounted
  obtain ⟨salted,oldKey,newKey,file,prepared,run,rewrote⟩ := changePassword_ok changed
  obtain ⟨h,salt,read',salting,⟨old,oldDerived,oldData⟩,fresh,newDerived,newData⟩ := changeKeys_ok prepared
  cases Except.ok.inj (read'.symm.trans read)
  cases Except.ok.inj (oldDerived.symm.trans derived)
  subst salting oldData newData
  obtain ⟨long,parsed,_⟩ := readHeader_ok read
  obtain ⟨version,many⟩ := deserialize_current parsed
  obtain ⟨length,outside,each⟩ :=
    @changeLoop_all _ _ _ _ _ content data xts apart fits _ _ looped { header with salt := salt } rfl rfl file run
  have written := (rewritten crypto { header with salt := salt } fresh.data).length_serialize
  obtain ⟨afterLength,front,afterByte⟩ := splice_front written (by rw [length]; exact long) rewrote
  have reads : readHeader crypto vaultPath (some after) new =
      .ok (rewritten crypto { header with salt := salt } fresh.data) :=
    readHeader_rewritten version many (by rw [afterLength,length]; exact long) front newDerived
  refine ⟨⟨_,reads,?_⟩,afterLength.trans length,?_⟩
  · refine bind_ok.mpr ⟨_,reads,bind_ok.mpr ⟨fresh,newDerived,bind_ok.mpr ⟨data,?_,?_⟩⟩⟩
    · refine decryptLoop_congr looped (fun k below => ?_)
      obtain ⟨positioned,behind,moved⟩ := each k below
      have untouched : slice after (place header k) 512 = slice file.content (place header k) 512 :=
        slice_keep (fun i low _ => afterByte i (by omega))
      have offset : (rewritten crypto { header with salt := salt } fresh.data).dataOffset = header.dataOffset := rfl
      rw [← untouched] at moved
      rw [offset,positioned,Nat.zero_add,slice_drop,slice_drop]
      exact ⟨moved.length,fun plain opened => moved.decrypts ideal xts xts opened⟩
    · rw [whole]
      rfl
  · intro i differs
    by_contra elsewhere
    rw [not_or,VAULT_HEADER_SIZE] at elsewhere
    exact differs ((afterByte i (by omega)).trans (outside i (by omega)))

def ones : Bytes 32 := ⟨List.replicate 32 1,List.length_replicate⟩

def plainHeader (dataOffset : UInt64) (salt : Bytes 32) : VaultHeader :=
  { dataOffset := dataOffset, volumeSize := 512, salt := salt }

def plainChange (file : List UInt8) : Mutation (Option (List UInt8)) :=
  changePassword plainProvider { salt := .ok ones } "a.spwvault" ⟨[0x70],none⟩ ⟨[0x71],none⟩ (some file)

def plainMount (password : UInt8) (file : List UInt8) : Result (VaultHeader × List UInt8) :=
  decryptVolume plainProvider "a.spwvault" (some file) ⟨[password],none⟩ (fun _ _ => true)

def sevens : List UInt8 := (plainHeader 512 (.zero 32)).serialize ++ List.replicate 512 7

theorem sevens_mounts : ∃ header volume, plainMount 0x70 sevens = .ok (header,volume) ∧
    header.algorithm = .aes256Xts ∧ Apart header := by
  have evaluated : (plainMount 0x70 sevens).map (fun mounted =>
      decide (mounted.1.algorithm = .aes256Xts) && decide (mounted.1.dataOffset = 512)) = .ok true := by
    decide +kernel
  cases mounted : plainMount 0x70 sevens with
  | error e => simp [mounted,Except.map] at evaluated
  | ok both =>
    rw [mounted] at evaluated
    obtain ⟨xts,placed⟩ := Bool.and_eq_true_iff.mp (Except.ok.inj evaluated)
    exact ⟨both.1,both.2,rfl,of_decide_eq_true xts,.inr (by rw [of_decide_eq_true placed]; decide)⟩

example : sevens.length = VAULT_HEADER_SIZE + 512 := by decide +kernel

theorem plainChange_ok {file : List UInt8}
    (succeeds : ((plainChange file).1.isOk && (plainChange file).2.isSome) = true) :
    ∃ after, plainChange file = (.ok (),some after) := by
  obtain ⟨ended,some⟩ := Bool.and_eq_true_iff.mp succeeds
  obtain ⟨_,result⟩ := exists_of_isOk ended
  obtain ⟨after,content⟩ := Option.isSome_iff_exists.mp some
  exact ⟨after,Prod.ext result content⟩

theorem preserves_sample : ∃ header volume after, plainMount 0x70 sevens = .ok (header,volume) ∧
    plainChange sevens = (.ok (),some after) ∧
    (∃ next, readHeader plainProvider "a.spwvault" (some after) ⟨[0x71],none⟩ = .ok next ∧
      plainMount 0x71 after = .ok (next,volume)) ∧
    after.length = sevens.length ∧
    ∀ i, after[i]? ≠ sevens[i]? → i < VAULT_HEADER_SIZE ∨
      header.dataOffset.toNat ≤ i ∧ i < header.dataOffset.toNat + header.volumeSize.toNat := by
  obtain ⟨header,volume,mounted,xts,apart⟩ := sevens_mounts
  obtain ⟨after,changed⟩ : ∃ after, plainChange sevens = (.ok (),some after) :=
    plainChange_ok (by decide +kernel)
  exact ⟨header,volume,after,mounted,changed,changePassword_preserves plainProvider plainProvider_ideal
    { salt := .ok ones } "a.spwvault" ⟨[0x70],none⟩ ⟨[0x71],none⟩ sevens after volume header (fun _ _ => true)
    (by decide +kernel) mounted xts apart changed⟩

/-- A vault whose header says that its one sector is the header's own. -/
def overlapping : List UInt8 := (plainHeader 0 (.zero 32)).serialize

/-- The header that is written for the new password goes over the data. -/
theorem overlapping_data_lost : ∃ header volume after, plainMount 0x70 overlapping = .ok (header,volume) ∧
    header.algorithm = .aes256Xts ∧ plainChange overlapping = (.ok (),some after) ∧
    ∀ next, plainMount 0x71 after ≠ .ok (next,volume) := by
  have before : (plainMount 0x70 overlapping).map (fun mounted =>
      decide (mounted.1.algorithm = .aes256Xts) && mounted.2[16]? == some 0) = .ok true := by decide +kernel
  have behind : (plainChange overlapping).2.all (fun after =>
      (plainMount 0x71 after).toOption.all (fun mounted => mounted.2[16]? == some 1)) = true := by decide +kernel
  obtain ⟨after,changed⟩ : ∃ after, plainChange overlapping = (.ok (),some after) :=
    plainChange_ok (by decide +kernel)
  cases mounted : plainMount 0x70 overlapping with
  | error e => simp [mounted,Except.map] at before
  | ok both =>
    rw [mounted] at before
    rw [changed] at behind
    obtain ⟨xts,zero⟩ := Bool.and_eq_true_iff.mp (Except.ok.inj before)
    refine ⟨both.1,both.2,after,rfl,of_decide_eq_true xts,changed,fun next again => ?_⟩
    have one : (both.2[16]? == some 1) = true := by simpa [again,Except.toOption] using behind
    rw [beq_iff_eq] at zero one
    rw [zero] at one
    cases one

end Changed
end EncryptedVault
end SetecWizard.Core
