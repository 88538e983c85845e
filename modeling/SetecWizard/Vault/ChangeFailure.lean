import SetecWizard.Vault.PasswordChange

/-! A change of the password that fails half way. The file is changed in place, so that
the vault is what it was only where nothing that was written differs from what it
was written over.
-/
namespace SetecWizard.Core
open SetecWizard.Library
namespace EncryptedVault

variable {crypto : Crypto} {env : ChangeEnv} {header : VaultHeader} {oldKey newKey image : List UInt8}

def QuietHeader (env : ChangeEnv) (image : List UInt8) (file : QFile) : Prop :=
  env.hmacFails = none →
    slice file.content 0 (image.take env.headerWritten).length = image.take env.headerWritten

/-- Whatever the loop and the header after it write is what they write it over, as far
as the run comes. -/
def Quiet (crypto : Crypto) (env : ChangeEnv) (header : VaultHeader) (oldKey newKey image : List UInt8) :
    Nat → Nat → QFile → Prop
  | 0,_,file => QuietHeader env image file
  | left + 1,sector,file => ∀ sectorBuf start,
    turn crypto env header oldKey newKey sector file = .ok (sectorBuf,start) →
      slice start.content start.pos (sectorBuf.take (env.sectorWritten sector)).length =
        sectorBuf.take (env.sectorWritten sector) ∧
      ((sectorBuf.take (env.sectorWritten sector)).length = sectorBuf.length →
        Quiet crypto env header oldKey newKey image left (sector + 1)
          (start.write sectorBuf (env.sectorWritten sector)).2)

theorem write_quiet {file : QFile} {data : List UInt8} {limit : Nat}
    (same : slice file.content file.pos (data.take limit).length = data.take limit) :
    (file.write data limit).2.content = file.content :=
  splice_slice same

theorem changeLoop_quiet {left sector : Nat} {file after : QFile} {result : Result Unit}
    (quiet : Quiet crypto env header oldKey newKey image left sector file)
    (run : changeLoop crypto env header oldKey newKey left sector file = (result,after)) :
    after.content = file.content ∧
      (result = .ok () → QuietHeader env image after) := by
  induction left generalizing sector file with
  | zero =>
    cases run
    exact ⟨rfl,fun _ => quiet⟩
  | succ left ih =>
    rw [changeLoop_turn] at run
    cases reached : turn crypto env header oldKey newKey sector file with
    | error stopped =>
      rw [reached] at run
      cases run
      exact ⟨turn_error reached,fun ended => by cases ended⟩
    | ok both =>
      obtain ⟨sectorBuf,start⟩ := both
      obtain ⟨same,later⟩ := quiet sectorBuf start reached
      have kept := (write_quiet same).trans (turn_ok reached).1
      rw [reached] at run
      dsimp only at run
      split at run
      · cases run
        exact ⟨kept,fun ended => by cases ended⟩
      next all =>
        obtain ⟨content,ended⟩ := ih (later (not_not.mp all)) run
        exact ⟨content.trans kept,ended⟩

theorem rewriteHeader_quiet {file : QFile}
    (quiet : QuietHeader env (rewritten crypto header newKey).serialize file) :
    (rewriteHeader crypto env header newKey file).2.content = file.content := by
  unfold rewriteHeader
  split
  · rfl
  next going =>
    have same := quiet going
    have kept : ((file.seek 0).write (rewritten crypto header newKey).serialize env.headerWritten).2.content =
        file.content := write_quiet same
    dsimp only
    split
    · exact kept
    · exact kept

variable {vaultPath : String} {current new : Credentials} {content after volume : List UInt8}

/-- Nothing that the change of the password writes differs from what it is written over. -/
def Untouched (crypto : Crypto) (env : ChangeEnv) (vaultPath : String) (current new : Credentials)
    (content : List UInt8) : Prop :=
  ∀ next oldKey newKey, changeKeys crypto env vaultPath (some content) current new = .ok (next,oldKey,newKey) →
    Quiet crypto env next (encKey next.algorithm oldKey) (encKey next.algorithm newKey)
      (rewritten crypto next newKey).serialize (next.volumeSize.toNat / VAULT_SECTOR_SIZE) 0 { content := content }

theorem changePassword_untouched (untouched : Untouched crypto env vaultPath current new content) :
    (changePassword crypto env vaultPath current new (some content)).2 = some content := by
  unfold changePassword
  cases prepared : changeKeys crypto env vaultPath (some content) current new with
  | error e => rfl
  | ok keys =>
    obtain ⟨next,oldKey,newKey⟩ := keys
    have quiet := untouched next oldKey newKey prepared
    dsimp only
    split
    next e file looped => exact congrArg some (changeLoop_quiet quiet looped).1
    next file looped =>
      obtain ⟨kept,ended⟩ := changeLoop_quiet quiet looped
      exact congrArg some ((rewriteHeader_quiet (ended rfl)).trans kept)

/-- The vault still mounts to the same plaintext. -/
def StillMounts (crypto : Crypto) (vaultPath : String) (current : Credentials) (file volume : List UInt8) : Prop :=
  ∃ header, decryptVolume crypto vaultPath (some file) current (fun _ _ => true) = .ok (header,volume)

/-- No two ciphertexts of a sector decrypt to the same. -/
def Permutes (crypto : Crypto) : Prop :=
  ∀ key tweak first second plain, crypto.xtsDecrypt key tweak first = some plain →
    crypto.xtsDecrypt key tweak second = some plain → first = second

/-- The loop leaves the bytes before its first sector alone, however it ends. -/
theorem changeLoop_before (xts : header.algorithm = .aes256Xts) {left sector : Nat} {file last : QFile}
    {result : Result Unit} (fits : file.content.length < 2 ^ 63)
    (room : place header (sector + left) ≤ file.content.length)
    (run : changeLoop crypto env header oldKey newKey left sector file = (result,last)) :
    ∀ i < place header sector, last.content[i]? = file.content[i]? := by
  induction left generalizing sector file with
  | zero =>
    cases run
    exact fun _ _ => rfl
  | succ left ih =>
    have final := place_add header sector (left + 1)
    have second := place_add header sector 1
    rw [changeLoop_turn] at run
    cases reached : turn crypto env header oldKey newKey sector file with
    | error stopped =>
      rw [reached] at run
      cases run
      exact fun i _ => by rw [turn_error reached]
    | ok both =>
      obtain ⟨sectorBuf,start⟩ := both
      obtain ⟨kept,at_place⟩ := turn_ok reached
      obtain ⟨pos,_,moved⟩ := at_place (by omega)
      have size := (reencryptSector_xts xts moved).length
      have short : (sectorBuf.take (env.sectorWritten sector)).length ≤ 512 := by
        rw [List.length_take]
        omega
      have content : (start.write sectorBuf (env.sectorWritten sector)).2.content =
          splice file.content (place header sector) (sectorBuf.take (env.sectorWritten sector)) := by
        rw [QFile.write,pos,kept]
      have stays : place header sector + (sectorBuf.take (env.sectorWritten sector)).length
          ≤ file.content.length := by omega
      have before (i : Nat) (low : i < place header sector) :
          (start.write sectorBuf (env.sectorWritten sector)).2.content[i]? = file.content[i]? := by
        rw [content,getElem?_splice _ _ _ _ stays,if_neg (by omega)]
      rw [reached] at run
      dsimp only at run
      split at run
      · cases run
        exact before
      · have length := length_splice _ _ _ stays
        rw [← content] at length
        have index : sector + 1 + left = sector + (left + 1) := by omega
        intro i low
        rw [ih (by omega) (by rw [index]; omega) run i (by omega),before i low]

theorem quiet_of_kept (xts : header.algorithm = .aes256Xts) {left sector : Nat} {file last : QFile}
    {result : Result Unit} (fits : file.content.length < 2 ^ 63)
    (room : place header (sector + left) ≤ file.content.length)
    (run : changeLoop crypto env header oldKey newKey left sector file = (result,last))
    (kept : ∀ k < left, slice last.content (place header (sector + k)) 512 =
      slice file.content (place header (sector + k)) 512)
    (ended : result = .ok () → env.hmacFails ≠ none) :
    Quiet crypto env header oldKey newKey image left sector file := by
  induction left generalizing sector file with
  | zero =>
    cases run
    exact fun going => absurd going (ended rfl)
  | succ left ih =>
    intro sectorBuf start reached
    have final := place_add header sector (left + 1)
    have second := place_add header sector 1
    obtain ⟨same,at_place⟩ := turn_ok reached
    obtain ⟨pos,_,moved⟩ := at_place (by omega)
    have size := (reencryptSector_xts xts moved).length
    have short : (sectorBuf.take (env.sectorWritten sector)).length ≤ 512 := by
      rw [List.length_take]
      omega
    have content : (start.write sectorBuf (env.sectorWritten sector)).2.content =
        splice file.content (place header sector) (sectorBuf.take (env.sectorWritten sector)) := by
      rw [QFile.write,pos,same]
    have stays : place header sector + (sectorBuf.take (env.sectorWritten sector)).length
        ≤ file.content.length := by omega
    have length := length_splice _ _ _ stays
    rw [← content] at length
    have index : sector + 1 + left = sector + (left + 1) := by omega
    rw [changeLoop_turn,reached] at run
    dsimp only at run
    -- the sector is touched by this turn alone
    have settled : ∀ i < place header (sector + 1), last.content[i]? =
        (start.write sectorBuf (env.sectorWritten sector)).2.content[i]? := by
      split at run
      · cases run
        exact fun _ _ => rfl
      · exact changeLoop_before xts (by omega) (by rw [index]; omega) run
    have written : slice file.content (place header sector) (sectorBuf.take (env.sectorWritten sector)).length =
        sectorBuf.take (env.sectorWritten sector) := by
      have first := kept 0 (by omega)
      have put := slice_splice_same file.content _ (place header sector) stays
      rw [← content] at put
      rw [Nat.add_zero] at first
      calc slice file.content (place header sector) (sectorBuf.take (env.sectorWritten sector)).length
          = slice last.content (place header sector) (sectorBuf.take (env.sectorWritten sector)).length := by
            have narrowed := congrArg (fun xs => slice xs 0 (sectorBuf.take (env.sectorWritten sector)).length) first
            rw [slice_slice _ _ 512 0 _ (by omega),slice_slice _ _ 512 0 _ (by omega),Nat.add_zero] at narrowed
            exact narrowed.symm
        _ = slice (start.write sectorBuf (env.sectorWritten sector)).2.content (place header sector)
              (sectorBuf.take (env.sectorWritten sector)).length :=
            slice_keep (fun i _ high => settled i (by omega))
        _ = sectorBuf.take (env.sectorWritten sector) := put
    rw [pos,same]
    refine ⟨written,fun all => ?_⟩
    have unchanged : (start.write sectorBuf (env.sectorWritten sector)).2.content = file.content := by
      rw [content,splice_slice written]
    have going : ¬ (start.write sectorBuf (env.sectorWritten sector)).1 ≠ sectorBuf.length := not_not.mpr all
    rw [if_neg going] at run
    refine ih (by omega) (by rw [index]; omega) run (fun k below => ?_)
    rw [unchanged]
    have shifted := kept (k + 1) (by omega)
    have position : sector + 1 + k = sector + (k + 1) := by omega
    rwa [position]

theorem readHeader_front {credentials : Credentials} (long : VAULT_HEADER_SIZE ≤ content.length)
    (same : after.take VAULT_HEADER_SIZE = content.take VAULT_HEADER_SIZE) :
    readHeader crypto vaultPath (some after) credentials = readHeader crypto vaultPath (some content) credentials := by
  have sizes := congrArg List.length same
  rw [List.length_take,List.length_take,Nat.min_eq_left long] at sizes
  have longToo : ¬ after.length < VAULT_HEADER_SIZE := by omega
  simp only [readHeader,same,refuse,if_neg longToo,if_neg (Nat.not_lt.mpr long)]

theorem decryptLoop_xts_sectors (xts : header.algorithm = .aes256Xts) {key : List UInt8}
    {progress : UInt64 → UInt64 → Bool} {left sector : Nat} {rest : List UInt8}
    (looped : decryptLoop crypto header key progress left sector rest = .ok volume) :
    volume.length = left * 512 ∧ ∀ k < left, (slice rest (k * 512) 512).length = 512 ∧
      ∃ plain, crypto.xtsDecrypt key (xtsTweak (UInt64.ofNat (sector + k)))
        (.copy (slice rest (k * 512) 512) 0 512) = some plain ∧ slice volume (k * 512) 512 = plain.data := by
  induction left generalizing sector rest volume with
  | zero =>
    cases looped
    exact ⟨rfl,fun k below => absurd below (Nat.not_lt_zero k)⟩
  | succ left ih =>
    obtain ⟨whole,looped⟩ := bind_unit_ok.mp looped
    obtain ⟨first,opened,looped⟩ := bind_ok.mp looped
    obtain ⟨_,looped⟩ := bind_unit_ok.mp looped
    obtain ⟨others,tail,looped⟩ := bind_ok.mp looped
    cases looped
    obtain ⟨length,each⟩ := ih tail
    rw [decryptSector,if_pos xts,decryptSectorXts] at opened
    cases decrypted : crypto.xtsDecrypt key (xtsTweak (UInt64.ofNat sector))
        (.copy (rest.take VAULT_SECTOR_SIZE) 0 512) with
    | none => simp [decrypted,Except.map] at opened
    | some plain =>
      rw [decrypted] at opened
      have data : plain.data = first := Except.ok.inj opened
      have size : first.length = 512 := by rw [← data,plain.size]
      refine ⟨by rw [List.length_append,size,length]; omega,fun k below => ?_⟩
      cases k with
      | zero =>
        rw [Nat.zero_mul,slice_append_left _ _ _ _ (by omega)]
        have all := slice_all first
        rw [size,← data] at all
        rw [← data]
        exact ⟨not_not.mp (refuse_ok.mp whole),plain,decrypted,all⟩
      | succ k =>
        obtain ⟨full,text,found,placed⟩ := each k (by omega)
        have offset : VAULT_SECTOR_SIZE + k * 512 = (k + 1) * 512 := by rw [VAULT_SECTOR_SIZE]; omega
        have behind : first.length + k * 512 = (k + 1) * 512 := by omega
        have index : sector + 1 + k = sector + (k + 1) := by omega
        rw [slice_drop,offset] at full found
        rw [index] at found
        rw [← behind,slice_append_right,behind]
        exact ⟨full,text,found,placed⟩

theorem rewriteHeader_whole {file : QFile} (whole : VAULT_HEADER_SIZE ≤ env.headerWritten)
    (going : env.hmacFails = none) : (rewriteHeader crypto env header newKey file).1 = .ok () := by
  have size := (rewritten crypto header newKey).length_serialize
  have all : ((rewritten crypto header newKey).serialize.take env.headerWritten).length = VAULT_HEADER_SIZE := by
    rw [List.length_take,size,VAULT_HEADER_SIZE]
    rw [VAULT_HEADER_SIZE] at whole
    omega
  unfold rewriteHeader
  rw [going]
  dsimp only [QFile.write]
  rw [if_neg (by exact not_not.mpr all)]

/-- What a change that fails although the header could be written has done to the file. -/
theorem changePassword_failed {e : ErrorInfo} {next : VaultHeader}
    (failed : changePassword crypto env vaultPath current new (some content) = (.error e,some after))
    (whole : VAULT_HEADER_SIZE ≤ env.headerWritten)
    (prepared : changeKeys crypto env vaultPath (some content) current new = .ok (next,oldKey,newKey)) :
    ∃ result last, changeLoop crypto env next (encKey next.algorithm oldKey) (encKey next.algorithm newKey)
        (next.volumeSize.toNat / VAULT_SECTOR_SIZE) 0 { content := content } = (result,last) ∧
      after = last.content ∧ (result = .ok () → env.hmacFails ≠ none) := by
  unfold changePassword at failed
  rw [prepared] at failed
  dsimp only at failed
  split at failed
  next e' last looped =>
    exact ⟨_,last,looped,(Option.some.inj (congrArg Prod.snd failed)).symm,fun ended => by cases ended⟩
  next last looped =>
    refine ⟨_,last,looped,?_,fun _ going => ?_⟩
    · cases stops : env.hmacFails with
      | none =>
        have done : (rewriteHeader crypto env next newKey last).1 = .ok () := rewriteHeader_whole whole stops
        have result := congrArg Prod.fst failed
        rw [done] at result
        cases result
      | some e' =>
        have content := Option.some.inj (congrArg Prod.snd failed)
        rw [← content,rewriteHeader,stops]
    · have done : (rewriteHeader crypto env next newKey last).1 = .ok () := rewriteHeader_whole whole going
      have result := congrArg Prod.fst failed
      rw [done] at result
      cases result

theorem untouched_of_stillMounts (permutes : Permutes crypto) {progress : UInt64 → UInt64 → Bool} {e : ErrorInfo}
    (fits : content.length < 2 ^ 63)
    (mounted : decryptVolume crypto vaultPath (some content) current progress = .ok (header,volume))
    (xts : header.algorithm = .aes256Xts) (behind : 512 ≤ header.dataOffset.toNat)
    (low : header.dataOffset.toNat < 2 ^ 63) (whole : VAULT_HEADER_SIZE ≤ env.headerWritten)
    (failed : changePassword crypto env vaultPath current new (some content) = (.error e,some after))
    (still : StillMounts crypto vaultPath current after volume) :
    Untouched crypto env vaultPath current new content := by
  intro next oldKey newKey prepared
  obtain ⟨result,last,run,lastContent,ended⟩ := changePassword_failed failed whole prepared
  obtain ⟨keyMaterial,data,read,derived,looped,volumeData⟩ := decryptVolume_ok mounted
  obtain ⟨h,salt,read',salting,⟨old,oldDerived,oldData⟩,_⟩ := changeKeys_ok prepared
  cases Except.ok.inj (read'.symm.trans read)
  cases Except.ok.inj (oldDerived.symm.trans derived)
  have xts' : next.algorithm = .aes256Xts := by rw [salting]; exact xts
  have position (k : Nat) : place next k = place header k := by rw [salting]; rfl
  have sized : next.volumeSize = header.volumeSize := by rw [salting]
  clear salting
  have room := decryptLoop_room looped
  rw [List.length_drop,seek,if_pos low] at room
  have final := place_add header 0 (header.volumeSize.toNat / VAULT_SECTOR_SIZE)
  have first : place header 0 = header.dataOffset.toNat := by rw [place,Nat.zero_mul,Nat.add_zero]
  rw [sized] at run ⊢
  cases sectors : header.volumeSize.toNat / VAULT_SECTOR_SIZE with
  | zero =>
    rw [sectors] at run
    cases run
    exact fun going => absurd going (ended rfl)
  | succ left =>
    rw [sectors] at run room final looped
    have roomy : place next (0 + (left + 1)) ≤ content.length := by rw [position]; omega
    have front : after.take VAULT_HEADER_SIZE = content.take VAULT_HEADER_SIZE := by
      have untouched := changeLoop_before xts' fits roomy run
      rw [position,first,← lastContent] at untouched
      have same : slice after 0 512 = slice content 0 512 := slice_keep (fun i _ high => untouched i (by omega))
      exact same
    obtain ⟨again,mountedAgain⟩ := still
    obtain ⟨keyMaterial',data',readAgain,derivedAgain,loopedAgain,volumeAgain⟩ := decryptVolume_ok mountedAgain
    rw [readHeader_front (readHeader_ok read).1 front] at readAgain
    cases Except.ok.inj (readAgain.symm.trans read)
    cases Except.ok.inj (derivedAgain.symm.trans derived)
    have sameData : data' = data := List.append_cancel_right (volumeAgain.symm.trans volumeData)
    rw [sectors,sameData] at loopedAgain
    refine quiet_of_kept xts' fits roomy run (fun k below => ?_) ended
    obtain ⟨full,plain,opened,placed⟩ := (decryptLoop_xts_sectors xts looped).2 k below
    obtain ⟨full',plain',opened',placed'⟩ := (decryptLoop_xts_sectors xts loopedAgain).2 k below
    have text : plain' = plain := Bytes.ext (placed'.symm.trans placed)
    rw [text] at opened'
    have copies := congrArg Bytes.data (permutes _ _ _ _ _ opened' opened)
    have offset : header.dataOffset.toNat + k * 512 = place header k := rfl
    rw [Bytes.copy_data _ 0 512 (by omega),Bytes.copy_data _ 0 512 (by omega)] at copies
    rw [seek,if_pos low,slice_drop,offset] at full full' copies
    rw [slice_drop,slice_slice _ _ 512 0 512 (by omega),slice_slice _ _ 512 0 512 (by omega),Nat.add_zero,offset] at copies
    rw [Nat.zero_add,position,← lastContent]
    exact copies

theorem changePassword_atomic (crypto : Crypto) (env : ChangeEnv) (vaultPath : String) (current new : Credentials)
    (content after volume : List UInt8) (header : VaultHeader) (progress : UInt64 → UInt64 → Bool) (e : ErrorInfo)
    (mounted : decryptVolume crypto vaultPath (some content) current progress = .ok (header,volume))
    (failed : changePassword crypto env vaultPath current new (some content) = (.error e,some after)) :
    (Untouched crypto env vaultPath current new content → StillMounts crypto vaultPath current after volume) ∧
    (Permutes crypto → header.algorithm = .aes256Xts → content.length < 2 ^ 63 →
      512 ≤ header.dataOffset.toNat → header.dataOffset.toNat < 2 ^ 63 → VAULT_HEADER_SIZE ≤ env.headerWritten →
      StillMounts crypto vaultPath current after volume → Untouched crypto env vaultPath current new content) := by
  constructor
  · intro untouched
    have same := changePassword_untouched untouched
    rw [failed] at same
    cases Option.some.inj same
    exact ⟨header,decryptVolume_progress mounted⟩
  · intro permutes xts fits behind low whole still
    exact untouched_of_stillMounts permutes fits mounted xts behind low whole failed still

def echoVault : List UInt8 :=
  ({ volumeSize := 1024, hmac := ⟨List.replicate 32 0x70,List.length_replicate⟩ } : VaultHeader).serialize
    ++ List.replicate 1024 7

def echoMount (file : List UInt8) : Result (VaultHeader × List UInt8) :=
  decryptVolume echoProvider "a.spwvault" (some file) ⟨[0x70],none⟩ (fun _ _ => true)

def interrupted (readable : Nat → Bool) : ChangeEnv :=
  { salt := .ok ones, sectorRead := fun sector => if readable sector then VAULT_SECTOR_SIZE else 0 }

def echoChange (readable : Nat → Bool) : Mutation (Option (List UInt8)) :=
  changePassword echoProvider (interrupted readable) "a.spwvault" ⟨[0x70],none⟩ ⟨[0x71],none⟩ (some echoVault)

example : echoVault.length = VAULT_HEADER_SIZE + 1024 := by decide +kernel

theorem echoMount_ok : ∃ header volume, echoMount echoVault = .ok (header,volume) ∧ volume[0]? = some 0x77 := by
  have evaluated : (echoMount echoVault).map (fun mounted => mounted.2[0]? == some 0x77) = .ok true := by
    decide +kernel
  cases mounted : echoMount echoVault with
  | error e => simp [mounted,Except.map] at evaluated
  | ok both =>
    rw [mounted] at evaluated
    exact ⟨both.1,both.2,rfl,beq_iff_eq.mp (Except.ok.inj evaluated)⟩

theorem echoKeys (readable : Nat → Bool) : ∃ next oldKey newKey,
    changeKeys echoProvider (interrupted readable) "a.spwvault" (some echoVault) ⟨[0x70],none⟩ ⟨[0x71],none⟩ =
      .ok (next,oldKey,newKey) ∧ next.volumeSize.toNat / VAULT_SECTOR_SIZE = 2 := by
  have evaluated : (changeKeys echoProvider (interrupted (fun _ => true)) "a.spwvault" (some echoVault) ⟨[0x70],none⟩
      ⟨[0x71],none⟩).map (fun keys => keys.1.volumeSize.toNat / VAULT_SECTOR_SIZE == 2) = .ok true := by
    decide +kernel
  have same : changeKeys echoProvider (interrupted readable) "a.spwvault" (some echoVault) ⟨[0x70],none⟩ ⟨[0x71],none⟩ =
      changeKeys echoProvider (interrupted (fun _ => true)) "a.spwvault" (some echoVault) ⟨[0x70],none⟩
        ⟨[0x71],none⟩ := rfl
  rw [same]
  cases prepared : changeKeys echoProvider (interrupted (fun _ => true)) "a.spwvault" (some echoVault) ⟨[0x70],none⟩
      ⟨[0x71],none⟩ with
  | error e => simp [prepared,Except.map] at evaluated
  | ok keys =>
    rw [prepared] at evaluated
    exact ⟨keys.1,keys.2.1,keys.2.2,rfl,beq_iff_eq.mp (Except.ok.inj evaluated)⟩

/-- Without its first sector the change fails before it has written anything, and the vault
mounts as before. -/
theorem interrupted_sample : ∃ header volume e after, echoMount echoVault = .ok (header,volume) ∧
    echoChange (fun _ => false) = (.error e,some after) ∧
    Untouched echoProvider (interrupted (fun _ => false)) "a.spwvault" ⟨[0x70],none⟩ ⟨[0x71],none⟩ echoVault ∧
      StillMounts echoProvider "a.spwvault" ⟨[0x70],none⟩ after volume := by
  obtain ⟨header,volume,mounted,_⟩ := echoMount_ok
  obtain ⟨next,oldKey,newKey,prepared,two⟩ := echoKeys (fun _ => false)
  have unread (oldKey newKey : List UInt8) : ∃ stopped, turn echoProvider (interrupted (fun _ => false)) next oldKey
      newKey 0 { content := echoVault } = .error stopped := by
    simp [turn,QFile.read,interrupted,VAULT_SECTOR_SIZE]
  obtain ⟨stopped,first⟩ := unread (encKey next.algorithm oldKey) (encKey next.algorithm newKey)
  have untouched : Untouched echoProvider (interrupted (fun _ => false)) "a.spwvault" ⟨[0x70],none⟩ ⟨[0x71],none⟩
      echoVault := by
    intro next' oldKey' newKey' prepared'
    rw [prepared] at prepared'
    cases prepared'
    rw [two]
    intro sectorBuf start reached
    rw [first] at reached
    cases reached
  have failed : echoChange (fun _ => false) = (.error stopped.1,some stopped.2.content) := by
    unfold echoChange changePassword
    rw [prepared]
    dsimp only
    rw [two,changeLoop_turn,first]
  exact ⟨header,volume,stopped.1,stopped.2.content,mounted,failed,untouched,
    (changePassword_atomic echoProvider (interrupted (fun _ => false)) "a.spwvault" ⟨[0x70],none⟩ ⟨[0x71],none⟩
      echoVault stopped.2.content volume header (fun _ _ => true) stopped.1 mounted failed).1 untouched⟩

theorem echoChange_fails : ∃ e after, echoChange (· ≠ 1) = (.error e,some after) := by
  have evaluated : (!(echoChange (· ≠ 1)).1.isOk && (echoChange (· ≠ 1)).2.isSome) = true := by decide +kernel
  obtain ⟨ended,some⟩ := Bool.and_eq_true_iff.mp evaluated
  obtain ⟨after,content⟩ := Option.isSome_iff_exists.mp some
  cases result : (echoChange (· ≠ 1)).1 with
  | error e => exact ⟨e,after,Prod.ext result content⟩
  | ok _ =>
    rw [result] at ended
    cases ended

/-- The first sector is left under the new key, and the header under the old one. -/
theorem interrupted_change_lost : ∃ header volume e after, echoMount echoVault = .ok (header,volume) ∧
    echoChange (· ≠ 1) = (.error e,some after) ∧ ¬ StillMounts echoProvider "a.spwvault" ⟨[0x70],none⟩ after volume := by
  have behind : (echoChange (· ≠ 1)).2.all (fun after =>
      (echoMount after).toOption.all (fun mounted => mounted.2[0]? == some 0x76)) = true := by decide +kernel
  obtain ⟨header,volume,mounted,first⟩ := echoMount_ok
  obtain ⟨e,after,failed⟩ := echoChange_fails
  refine ⟨header,volume,e,after,mounted,failed,?_⟩
  rintro ⟨other,again⟩
  rw [failed] at behind
  have opened : echoMount after = .ok (other,volume) := again
  have changed : (volume[0]? == some 0x76) = true := by simpa [opened,Except.toOption] using behind
  rw [first] at changed
  cases changed

end EncryptedVault
end SetecWizard.Core
