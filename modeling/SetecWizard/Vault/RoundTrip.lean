import SetecWizard.Vault.Ciphers

/-! Creating a vault and decrypting it again. The writer puts out a sector as long as
its cipher makes it and the reader takes them in strides of a sector, so that
only the cipher that keeps the length is read back.
-/
namespace SetecWizard.Core
open SetecWizard.Library

namespace EncryptedVault

theorem roundedSize_toNat (sizeBytes : UInt64) (fits : sizeBytes.toNat + 511 < 2 ^ 64) :
    (roundedSize sizeBytes).toNat = (sizeBytes.toNat + 511) / 512 * 512 := by
  have raised : (sizeBytes + UInt64.ofNat VAULT_SECTOR_SIZE - 1).toNat = sizeBytes.toNat + 511 := by
    have size : (UInt64.ofNat VAULT_SECTOR_SIZE).toNat = 512 := rfl
    rw [UInt64.toNat_sub,UInt64.toNat_add,size,UInt64.toNat_one]
    omega
  have mask : (~~~ (UInt64.ofNat VAULT_SECTOR_SIZE - 1)).toNat = 2 ^ 64 - (511 + 1) := rfl
  rw [roundedSize,UInt64.toNat_and,raised,mask]
  generalize sizeBytes.toNat + 511 = x at fits
  have cleared : x / 512 * 512 = (x >>> 9) <<< 9 := by
    rw [Nat.shiftRight_eq_div_pow,Nat.shiftLeft_eq]
  rw [cleared]
  apply Nat.eq_of_testBit_eq
  intro i
  have low : (511 : Nat).testBit i = decide (i < 9) := Nat.testBit_two_pow_sub_one 9 i
  rw [Nat.testBit_and,Nat.testBit_two_pow_sub_succ (by decide),low,Nat.testBit_shiftLeft]
  by_cases below : i < 9
  · simp [below]
  · by_cases high : i < 64
    · have index : 9 + (i - 9) = i := by omega
      simp [below,high,Nat.testBit_shiftRight,index]
      omega
    · have zero : x.testBit i = false :=
        Nat.testBit_lt_two_pow (Nat.lt_of_lt_of_le fits (Nat.pow_le_pow_right (by decide) (by omega)))
      have index : 9 + (i - 9) = i := by omega
      simp [zero,Nat.testBit_shiftRight,index]

variable {crypto : Crypto} {env : CreateEnv} {header : VaultHeader} {key : List UInt8}

theorem createLoop_succ {left sector : Nat} {file result : List UInt8}
    (run : createLoop crypto env header key (left + 1) sector file = .ok result) :
    ∃ sectorBuf, encryptSector crypto header key (UInt64.ofNat sector) = .ok sectorBuf ∧
      createLoop crypto env header key left (sector + 1) (file ++ sectorBuf) = .ok result := by
  obtain ⟨sectorBuf,sealed,run⟩ := bind_ok.mp run
  obtain ⟨_,run⟩ := bind_unit_ok.mp run
  obtain ⟨_,run⟩ := bind_unit_ok.mp run
  exact ⟨sectorBuf,sealed,run⟩

/-- The loop only appends to the file. -/
theorem createLoop_appends {left sector : Nat} {file result : List UInt8}
    (run : createLoop crypto env header key left sector file = .ok result) :
    ∃ body, result = file ++ body := by
  induction left generalizing sector file with
  | zero =>
    cases run
    exact ⟨[],by simp⟩
  | succ left ih =>
    obtain ⟨sectorBuf,_,rest⟩ := createLoop_succ run
    obtain ⟨body,whole⟩ := ih rest
    exact ⟨sectorBuf ++ body,by rw [whole,List.append_assoc]⟩

theorem decryptSector_xts (ideal : crypto.Ideal) (xts : header.algorithm = .aes256Xts) {sector : UInt64}
    {sectorBuf : List UInt8} (sealed : encryptSector crypto header key sector = .ok sectorBuf) :
    sectorBuf.length = VAULT_SECTOR_SIZE ∧
      decryptSector crypto header key sector sectorBuf = .ok (List.replicate VAULT_SECTOR_SIZE 0) := by
  rw [encryptSector,if_pos xts,encryptSectorXts] at sealed
  cases encrypted : crypto.xtsEncrypt key (xtsTweak sector) (.zero 512) with
  | none => simp [encrypted,Except.map] at sealed
  | some buffer =>
    rw [encrypted] at sealed
    have data : buffer.data = sectorBuf := Except.ok.inj sealed
    have size : sectorBuf.length = 512 := by rw [← data,buffer.size]
    have copied : Bytes.copy sectorBuf 0 512 = buffer := by
      refine Bytes.copy_of_slice buffer (by omega) ?_
      rw [data,← size,slice_all]
    refine ⟨size,?_⟩
    rw [decryptSector,if_pos xts,copied,decryptSectorXts,ideal.xts _ _ _ _ encrypted]
    rfl

theorem decryptLoop_xts (ideal : crypto.Ideal) (xts : header.algorithm = .aes256Xts)
    {progress : UInt64 → UInt64 → Bool} (going : ∀ done total, progress done total = true)
    {left sector : Nat} {file result : List UInt8}
    (run : createLoop crypto env header key left sector file = .ok result) :
    ∃ body, result = file ++ body ∧
      decryptLoop crypto header key progress left sector body =
        .ok (List.replicate (left * VAULT_SECTOR_SIZE) 0) := by
  induction left generalizing sector file with
  | zero =>
    cases run
    exact ⟨[],by simp,by simp [decryptLoop]⟩
  | succ left ih =>
    obtain ⟨sectorBuf,sealed,rest⟩ := createLoop_succ run
    obtain ⟨body,whole,volume⟩ := ih rest
    obtain ⟨size,plain⟩ := decryptSector_xts ideal xts sealed
    refine ⟨sectorBuf ++ body,by rw [whole,List.append_assoc],?_⟩
    rw [decryptLoop,List.take_left' size,List.drop_left' size]
    simp only [size,going,plain,volume,refuse,ne_eq,not_true_eq_false,if_false,Bool.true_eq_false,
      bind,Except.bind,pure,Except.pure]
    rw [List.replicate_append_replicate,Nat.succ_mul,Nat.add_comm]

theorem decryptLoop_cut (ideal : crypto.Ideal) (longer : header.algorithm ≠ .aes256Xts)
    (progress : UInt64 → UInt64 → Bool) {left : Nat} {file result : List UInt8}
    (run : createLoop crypto env header key (left + 1) 0 file = .ok result) :
    ∃ e, decryptLoop crypto header key progress (left + 1) 0 (result.drop file.length) = .error e := by
  obtain ⟨sectorBuf,sealed,rest⟩ := createLoop_succ run
  obtain ⟨body,whole⟩ := createLoop_appends rest
  rw [encryptSector,if_neg longer] at sealed
  have size : sectorBuf.length = 528 := length_encryptBuffer ideal List.length_replicate sealed
  obtain ⟨e,rejected⟩ := decryptBuffer_cut ideal sealed
  have stride : (result.drop file.length).take VAULT_SECTOR_SIZE = sectorBuf.take 512 := by
    rw [whole,List.append_assoc,List.drop_left]
    exact List.take_append_of_le_length (by rw [size]; decide)
  have full : (sectorBuf.take 512).length = VAULT_SECTOR_SIZE := by
    rw [List.length_take,size]
    rfl
  refine ⟨e,?_⟩
  rw [decryptLoop,stride]
  simp only [full,decryptSector,if_neg longer,rejected,refuse,ne_eq,not_true_eq_false,if_false,bind,Except.bind]

section Created

variable {vaultPath : String} {sizeBytes : UInt64} {credentials : Credentials} {algorithm : VaultAlgorithm}
  {iterations : UInt32} {file : List UInt8}

/-- A header as `create` writes it, with the key derived for it. -/
structure Written (crypto : Crypto) (credentials : Credentials) (sizeBytes : UInt64) (algorithm : VaultAlgorithm)
    (iterations : UInt32) (h : VaultHeader) (keyMaterial : Bytes (totalKeyLen h.algorithm)) : Prop where
  version : h.version = VAULT_VERSION
  kind : h.algorithm = algorithm
  iterations : h.pbkdf2Iterations = iterations
  volumeSize : h.volumeSize = roundedSize sizeBytes
  dataOffset : h.dataOffset.toNat = 512
  derived : deriveKey crypto credentials h.salt h.pbkdf2Iterations (totalKeyLen h.algorithm) = .ok keyMaterial
  sealed : h.hmac = crypto.hmacSha256 (hmacKey h.algorithm keyMaterial.data) h.authenticated

theorem withHmac_sealed (h : VaultHeader) (zero : h.hmac = .zero 32) (key : List UInt8) :
    (h.withHmac crypto key).hmac = crypto.hmacSha256 key (h.withHmac crypto key).authenticated := by
  have covered := h.authenticated_hmac
    (crypto.hmacSha256 key (h.serialize.take (VAULT_HEADER_SIZE - VAULT_HMAC_LEN)))
  have same : ({ h with hmac := .zero 32 } : VaultHeader) = h := by
    rw [← zero]
  rw [same] at covered
  exact congrArg (crypto.hmacSha256 key) covered.symm

theorem create_ok (created : create crypto env vaultPath sizeBytes credentials algorithm iterations = .ok file) :
    1024 ≤ sizeBytes.toNat ∧ ∃ h keyMaterial,
      Written crypto credentials sizeBytes algorithm iterations h keyMaterial ∧
      createLoop crypto env h (encKey h.algorithm keyMaterial.data)
        (h.volumeSize.toNat / VAULT_SECTOR_SIZE) 0 h.serialize = .ok file := by
  unfold create at created
  obtain ⟨_,created⟩ := bind_unit_ok.mp created
  obtain ⟨large,created⟩ := bind_unit_ok.mp created
  obtain ⟨salt,_,created⟩ := bind_ok.mp created
  obtain ⟨iv,_,created⟩ := bind_ok.mp created
  obtain ⟨keyMaterial,derived,created⟩ := bind_ok.mp created
  obtain ⟨_,created⟩ := bind_unit_ok.mp created
  obtain ⟨_,created⟩ := bind_unit_ok.mp created
  refine ⟨UInt64.not_lt.mp (refuse_ok.mp large),
    (newHeader algorithm iterations salt iv sizeBytes).withHmac crypto (hmacKey algorithm keyMaterial.data),
    keyMaterial,⟨rfl,rfl,rfl,rfl,rfl,derived,?_⟩,created⟩
  exact withHmac_sealed (newHeader algorithm iterations salt iv sizeBytes) rfl _

theorem take_header (h : VaultHeader) (body : List UInt8) :
    (h.serialize ++ body).take VAULT_HEADER_SIZE = h.serialize :=
  List.take_left' h.length_serialize

theorem Written.readHeader {h : VaultHeader} {keyMaterial : Bytes (totalKeyLen h.algorithm)}
    (written : Written crypto credentials sizeBytes algorithm iterations h keyMaterial)
    (many : ¬ iterations < 10000) (body : List UInt8) :
    readHeader crypto vaultPath (some (h.serialize ++ body)) credentials = .ok h := by
  have read := h.deserialize_serialize written.version (by rwa [written.iterations])
  have whole : ¬ (h.serialize ++ body).length < VAULT_HEADER_SIZE := by
    rw [List.length_append,h.length_serialize]
    exact Nat.not_lt.mpr (Nat.le_add_right _ _)
  simp only [EncryptedVault.readHeader,take_header,read,written.derived,← written.sealed,refuse,if_neg whole,
    ne_eq,not_true_eq_false,if_false,bind,Except.bind,pure,Except.pure]

theorem Written.readHeader_few {h header : VaultHeader} {keyMaterial : Bytes (totalKeyLen h.algorithm)}
    (written : Written crypto credentials sizeBytes algorithm iterations h keyMaterial)
    (few : iterations < 10000) (body : List UInt8) :
    EncryptedVault.readHeader crypto vaultPath (some (h.serialize ++ body)) credentials ≠ .ok header := by
  intro read
  obtain ⟨e,refused⟩ := h.deserialize_few (by rwa [written.iterations])
  unfold EncryptedVault.readHeader at read
  obtain ⟨_,read⟩ := bind_unit_ok.mp read
  obtain ⟨other,accepted,_⟩ := bind_ok.mp read
  rw [take_header,refused] at accepted
  cases accepted

theorem Written.decryptVolume {h : VaultHeader} {keyMaterial : Bytes (totalKeyLen h.algorithm)}
    (written : Written crypto credentials sizeBytes algorithm iterations h keyMaterial)
    (many : ¬ iterations < 10000) (body : List UInt8) (progress : UInt64 → UInt64 → Bool) :
    decryptVolume crypto vaultPath (some (h.serialize ++ body)) credentials progress =
      (decryptLoop crypto h (encKey h.algorithm keyMaterial.data) progress
        (h.volumeSize.toNat / VAULT_SECTOR_SIZE) 0 body).map
          (fun volume => (h,volume ++ List.replicate (h.volumeSize.toNat % VAULT_SECTOR_SIZE) 0)) := by
  have after : (h.serialize ++ body).drop (seek 0 h.dataOffset) = body := by
    rw [seek,written.dataOffset,if_pos (by decide)]
    exact List.drop_left' h.length_serialize
  simp only [EncryptedVault.decryptVolume,written.readHeader many body,written.derived,after,bind,Except.bind]
  cases decryptLoop crypto h (encKey h.algorithm keyMaterial.data) progress
    (h.volumeSize.toNat / VAULT_SECTOR_SIZE) 0 body <;> rfl

/-- The header is accepted and the volume decrypts to as many zeros as were asked for. -/
def RoundTrips (crypto : Crypto) (vaultPath : String) (file : List UInt8) (credentials : Credentials)
    (progress : UInt64 → UInt64 → Bool) (sizeBytes : UInt64) : Prop :=
  ∃ header, readHeader crypto vaultPath (some file) credentials = .ok header ∧
    decryptVolume crypto vaultPath (some file) credentials progress =
      .ok (header,List.replicate (roundedSize sizeBytes).toNat 0)

theorem roundTrips_xts (ideal : crypto.Ideal) {h : VaultHeader} {keyMaterial : Bytes (totalKeyLen h.algorithm)}
    (written : Written crypto credentials sizeBytes .aes256Xts iterations h keyMaterial)
    (many : ¬ iterations < 10000)
    (run : createLoop crypto env h (encKey h.algorithm keyMaterial.data)
      (h.volumeSize.toNat / VAULT_SECTOR_SIZE) 0 h.serialize = .ok file)
    {progress : UInt64 → UInt64 → Bool} (going : ∀ done total, progress done total = true) :
    RoundTrips crypto vaultPath file credentials progress sizeBytes := by
  obtain ⟨body,appended,volume⟩ := decryptLoop_xts ideal written.kind going run
  rw [appended]
  refine ⟨h,written.readHeader many body,?_⟩
  rw [written.decryptVolume many body,volume]
  have whole : h.volumeSize.toNat / VAULT_SECTOR_SIZE * VAULT_SECTOR_SIZE
      + h.volumeSize.toNat % VAULT_SECTOR_SIZE = (roundedSize sizeBytes).toNat := by
    rw [← written.volumeSize,Nat.mul_comm]
    exact Nat.div_add_mod _ _
  simp only [Except.map,List.replicate_append_replicate,whole]

theorem not_roundTrips_longer (ideal : crypto.Ideal) (fits : sizeBytes.toNat + 511 < 2 ^ 64)
    (large : 1024 ≤ sizeBytes.toNat) {h : VaultHeader} {keyMaterial : Bytes (totalKeyLen h.algorithm)}
    (written : Written crypto credentials sizeBytes algorithm iterations h keyMaterial)
    (many : ¬ iterations < 10000) (longer : algorithm ≠ .aes256Xts)
    (run : createLoop crypto env h (encKey h.algorithm keyMaterial.data)
      (h.volumeSize.toNat / VAULT_SECTOR_SIZE) 0 h.serialize = .ok file)
    (progress : UInt64 → UInt64 → Bool) :
    ¬ RoundTrips crypto vaultPath file credentials progress sizeBytes := by
  rintro ⟨header,_,volume⟩
  have size : 512 ≤ h.volumeSize.toNat := by
    rw [written.volumeSize,roundedSize_toNat sizeBytes fits]
    omega
  obtain ⟨left,sectors⟩ : ∃ left, h.volumeSize.toNat / VAULT_SECTOR_SIZE = left + 1 :=
    ⟨h.volumeSize.toNat / 512 - 1,by rw [VAULT_SECTOR_SIZE]; omega⟩
  obtain ⟨body,appended⟩ := createLoop_appends run
  rw [sectors] at run
  obtain ⟨e,failed⟩ := decryptLoop_cut ideal (by rwa [written.kind]) progress run
  rw [appended,List.drop_left] at failed
  rw [appended,written.decryptVolume many body,sectors,failed] at volume
  cases volume

theorem vault_round_trip_iff (ideal : crypto.Ideal) (fits : sizeBytes.toNat + 511 < 2 ^ 64)
    (created : create crypto env vaultPath sizeBytes credentials algorithm iterations = .ok file)
    {progress : UInt64 → UInt64 → Bool} (going : ∀ done total, progress done total = true) :
    RoundTrips crypto vaultPath file credentials progress sizeBytes ↔
      algorithm = .aes256Xts ∧ 10000 ≤ iterations := by
  obtain ⟨large,h,keyMaterial,written,run⟩ := create_ok created
  constructor
  · intro trips
    have many : ¬ iterations < 10000 := by
      intro few
      obtain ⟨header,read,_⟩ := trips
      obtain ⟨body,appended⟩ := createLoop_appends run
      rw [appended] at read
      exact written.readHeader_few few body read
    refine ⟨?_,UInt32.not_lt.mp many⟩
    by_contra longer
    exact not_roundTrips_longer ideal fits large written many longer run progress trips
  · intro ⟨xts,many⟩
    rw [xts] at written
    exact roundTrips_xts ideal written (UInt32.not_lt.mpr many) run going

end Created

def plainEnv : CreateEnv := { salt := .ok (.zero 32), iv := .ok (.zero 16) }

def plainCreate (algorithm : VaultAlgorithm) (iterations : UInt32) : Result (List UInt8) :=
  create plainProvider plainEnv "a.spwvault" 1024 { password := [0x70,0x77] } algorithm iterations

theorem exists_of_isOk {α : Type} {result : Result α} (succeeds : result.isOk = true) :
    ∃ value, result = .ok value := by
  cases result with
  | error e => cases succeeds
  | ok value => exact ⟨value,rfl⟩

theorem vault_round_trip_xts :
    ∃ file, plainCreate .aes256Xts 500000 = .ok file ∧
      RoundTrips plainProvider "a.spwvault" file { password := [0x70,0x77] } (fun _ _ => true) 1024 := by
  obtain ⟨file,created⟩ : ∃ file, plainCreate .aes256Xts 500000 = .ok file :=
    exists_of_isOk (by decide)
  exact ⟨file,created,(vault_round_trip_iff plainProvider_ideal (by decide) created (fun _ _ => rfl)).mpr
    ⟨rfl,by decide⟩⟩

/-- Neither a vault of the default iteration count in another mode nor one with fewer
than 10000 iterations comes back. -/
theorem created_vaults_lost :
    (∃ file, plainCreate .aes256Cbc 500000 = .ok file ∧
      ¬ RoundTrips plainProvider "a.spwvault" file { password := [0x70,0x77] } (fun _ _ => true) 1024) ∧
    (∃ file, plainCreate .aes256Gcm 500000 = .ok file ∧
      ¬ RoundTrips plainProvider "a.spwvault" file { password := [0x70,0x77] } (fun _ _ => true) 1024) ∧
    ∃ file, plainCreate .aes256Xts 5000 = .ok file ∧
      ∀ header, readHeader plainProvider "a.spwvault" (some file) { password := [0x70,0x77] } ≠ .ok header := by
  have longer (algorithm : VaultAlgorithm) (other : algorithm ≠ .aes256Xts)
      (succeeds : (plainCreate algorithm 500000).isOk = true) :
      ∃ file, plainCreate algorithm 500000 = .ok file ∧
        ¬ RoundTrips plainProvider "a.spwvault" file { password := [0x70,0x77] } (fun _ _ => true) 1024 := by
    obtain ⟨file,created⟩ := exists_of_isOk succeeds
    obtain ⟨large,h,keyMaterial,written,run⟩ := create_ok created
    exact ⟨file,created,not_roundTrips_longer plainProvider_ideal (by decide) large written (by decide) other
      run _⟩
  refine ⟨longer _ (by decide) (by decide),longer _ (by decide) (by decide),?_⟩
  obtain ⟨file,created⟩ : ∃ file, plainCreate .aes256Xts 5000 = .ok file :=
    exists_of_isOk (by decide)
  obtain ⟨_,h,keyMaterial,written,run⟩ := create_ok created
  obtain ⟨body,appended⟩ := createLoop_appends run
  refine ⟨file,created,fun header => ?_⟩
  rw [appended]
  exact written.readHeader_few (by decide) body

end EncryptedVault
end SetecWizard.Core
