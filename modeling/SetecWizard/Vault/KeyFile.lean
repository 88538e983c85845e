import SetecWizard.Core.EncryptedVault
import SetecWizard.Vault.RoundTrip

/-! What a key file has to do with opening a vault. Its hash goes into the first 32
bytes of the derived key, and the HMAC of the header is keyed by bytes behind them
in every mode, so that the header is accepted with any key file.
-/
namespace SetecWizard.Core
open SetecWizard.Library
namespace EncryptedVault

variable {crypto : Crypto} {vaultPath : String} {content : List UInt8} {header : VaultHeader}

theorem hmacKey_mixKeyFile {n : Nat} (algorithm : VaultAlgorithm) (derivedKey : Bytes n) (hash : Bytes 32) :
    hmacKey algorithm (mixKeyFile derivedKey hash).data = hmacKey algorithm derivedKey.data := by
  have behind : 32 ≤ encKeyLen algorithm := by cases algorithm <;> decide
  apply List.ext_getElem?
  intro i
  rw [hmacKey,hmacKey,getElem?_slice,getElem?_slice,mixKeyFile,List.getElem?_mapIdx]
  split
  · have outside : ¬ encKeyLen algorithm + i < 32 := by omega
    simp only [if_neg outside,Option.map_id']
  · rfl

theorem deriveKey_ok {credentials : Credentials} {salt : Bytes 32} {iterations : UInt32} {n : Nat}
    {keyMaterial : Bytes n} (derived : deriveKey crypto credentials salt iterations n = .ok keyMaterial) :
    ∃ derivedKey, crypto.pbkdf2 credentials.password salt iterations n = some derivedKey ∧
      ∀ algorithm, hmacKey algorithm keyMaterial.data = hmacKey algorithm derivedKey.data := by
  unfold deriveKey at derived
  cases made : crypto.pbkdf2 credentials.password salt iterations n with
  | none => simp [made] at derived
  | some derivedKey =>
    refine ⟨derivedKey,rfl,fun algorithm => ?_⟩
    rw [made] at derived
    cases given : credentials.keyFile with
    | none =>
      rw [given] at derived
      rw [← Except.ok.inj derived]
    | some keyFile =>
      rw [given] at derived
      dsimp only at derived
      cases hashed : hashKeyFile crypto keyFile with
      | error e => simp [hashed,Except.map] at derived
      | ok hash =>
        rw [hashed] at derived
        rw [← Except.ok.inj derived]
        exact hmacKey_mixKeyFile algorithm derivedKey hash

theorem deriveKey_other {password : List UInt8} {first : Option KeyFile} (second : Option KeyFile) {salt : Bytes 32}
    {iterations : UInt32} {n : Nat} {keyMaterial : Bytes n}
    (derived : deriveKey crypto ⟨password,first⟩ salt iterations n = .ok keyMaterial) :
    (∃ other, deriveKey crypto ⟨password,second⟩ salt iterations n = .ok other ∧
      ∀ algorithm, hmacKey algorithm other.data = hmacKey algorithm keyMaterial.data) ∨
    ∃ keyFile e, second = some keyFile ∧ hashKeyFile crypto keyFile = .error e ∧
      deriveKey crypto ⟨password,second⟩ salt iterations n = .error e := by
  obtain ⟨derivedKey,made,same⟩ := deriveKey_ok derived
  simp only at made
  cases second with
  | none =>
    refine .inl ⟨derivedKey,by simp only [deriveKey,made],fun algorithm => (same algorithm).symm⟩
  | some keyFile =>
    cases hashed : hashKeyFile crypto keyFile with
    | error e => exact .inr ⟨keyFile,e,rfl,hashed,by simp only [deriveKey,made,hashed,Except.map]⟩
    | ok hash =>
      refine .inl ⟨mixKeyFile derivedKey hash,by simp only [deriveKey,made,hashed,Except.map],fun algorithm => ?_⟩
      rw [hmacKey_mixKeyFile,same]

theorem readHeader_ok {credentials : Credentials}
    (read : readHeader crypto vaultPath (some content) credentials = .ok header) :
    VAULT_HEADER_SIZE ≤ content.length ∧
      VaultHeader.deserialize (content.take VAULT_HEADER_SIZE) = .ok header ∧
      ∃ keyMaterial, deriveKey crypto credentials header.salt header.pbkdf2Iterations
          (totalKeyLen header.algorithm) = .ok keyMaterial ∧
        header.hmac = crypto.hmacSha256 (hmacKey header.algorithm keyMaterial.data) header.authenticated := by
  unfold readHeader at read
  obtain ⟨long,read⟩ := bind_unit_ok.mp read
  obtain ⟨h,parsed,read⟩ := bind_ok.mp read
  obtain ⟨keyMaterial,derived,read⟩ := bind_ok.mp read
  obtain ⟨verified,read⟩ := bind_unit_ok.mp read
  cases read
  exact ⟨Nat.not_lt.mp (refuse_ok.mp long),parsed,keyMaterial,derived,not_not.mp (refuse_ok.mp verified)⟩

theorem readHeader_of {credentials : Credentials} {keyMaterial : Bytes (totalKeyLen header.algorithm)}
    (long : VAULT_HEADER_SIZE ≤ content.length)
    (parsed : VaultHeader.deserialize (content.take VAULT_HEADER_SIZE) = .ok header)
    (derived : deriveKey crypto credentials header.salt header.pbkdf2Iterations
      (totalKeyLen header.algorithm) = .ok keyMaterial)
    (verified : header.hmac = crypto.hmacSha256 (hmacKey header.algorithm keyMaterial.data) header.authenticated) :
    readHeader crypto vaultPath (some content) credentials = .ok header := by
  simp only [readHeader,parsed,derived,← verified,refuse,if_neg (Nat.not_lt.mpr long),ne_eq,not_true_eq_false,
    if_false,bind,Except.bind,pure,Except.pure]

/-- Where a password and a key file open a header, the password does with any key file
that has a hash, and with none. -/
theorem readHeader_other {password : List UInt8} {first : Option KeyFile} (second : Option KeyFile)
    (read : readHeader crypto vaultPath (some content) ⟨password,first⟩ = .ok header) :
    readHeader crypto vaultPath (some content) ⟨password,second⟩ = .ok header ∨
      ∃ keyFile e, second = some keyFile ∧ hashKeyFile crypto keyFile = .error e ∧
        readHeader crypto vaultPath (some content) ⟨password,second⟩ = .error e := by
  obtain ⟨long,parsed,keyMaterial,derived,verified⟩ := readHeader_ok read
  rcases deriveKey_other second derived with ⟨other,derived',same⟩ | ⟨keyFile,e,given,failed,derived'⟩
  · exact .inl (readHeader_of long parsed derived' (by rw [same]; exact verified))
  · refine .inr ⟨keyFile,e,given,failed,?_⟩
    simp only [readHeader,parsed,derived',refuse,if_neg (Nat.not_lt.mpr long),bind,Except.bind]

theorem hashKeyFile_code {keyFile : KeyFile} {e : ErrorInfo} (failed : hashKeyFile crypto keyFile = .error e) :
    e.code ≠ .decryptionFailed := by
  unfold hashKeyFile at failed
  split at failed
  · cases failed
    simp [ErrorInfo.fromCode]
  · cases failed
    simp [ErrorInfo.fromCode]
  · cases failed

theorem deserialize_few_code (h : VaultHeader) (current : h.version = VAULT_VERSION)
    (few : h.pbkdf2Iterations < 10000) {e : ErrorInfo} (refused : VaultHeader.deserialize h.serialize = .error e) :
    e.code = .invalidArgument := by
  have magic := h.field 0x00 9 VAULT_MAGIC (by simp [VaultHeader.fields]) rfl
  have version := getD_of_slice (h.field 0x09 1 [h.version] (by simp [VaultHeader.fields]) rfl)
  have algorithm := getD_of_slice (h.field 0x0A 1 [h.algorithm.id] (by simp [VaultHeader.fields]) rfl)
  have iterations := readLE32_of_slice
    (h.field 0x0C 4 (le32 h.pbkdf2Iterations) (by simp [VaultHeader.fields]) rfl)
  have whole : ¬ h.serialize.length < VAULT_HEADER_SIZE := by simp [VAULT_HEADER_SIZE]
  generalize h.serialize = data at *
  simp only [VaultHeader.deserialize,refuse,if_neg whole,magic,version,algorithm,iterations,current,
    VaultAlgorithm.ofId_id,if_pos few,ne_eq,not_true_eq_false,if_false,bind,Except.bind] at refused
  rw [← Except.error.inj refused]
  rfl

/-- The password alone is refused without the key file, and the password cannot be changed then. -/
def KeyFileAuthenticates (crypto : Crypto) (vaultPath : String) (file : List UInt8) (other : Credentials) : Prop :=
  (∃ e, readHeader crypto vaultPath (some file) other = .error e ∧ e.code = .decryptionFailed) ∧
    ∀ env new, ∃ e, changePassword crypto env vaultPath other new (some file) = (.error e,some file)

def keyFileHash (crypto : Crypto) (keyFile : Option KeyFile) : Option (Bytes 32) :=
  keyFile.bind (fun keyFile => (hashKeyFile crypto keyFile).toOption)

/-- Whatever key file comes with it, the password is not refused for its key. -/
theorem readHeader_created {env : CreateEnv} {sizeBytes : UInt64} {password file : List UInt8}
    {keyFile : Option KeyFile} {algorithm : VaultAlgorithm} {iterations : UInt32}
    (created : create crypto env vaultPath sizeBytes ⟨password,keyFile⟩ algorithm iterations = .ok file)
    (other : Option KeyFile) {e : ErrorInfo}
    (refused : readHeader crypto vaultPath (some file) ⟨password,other⟩ = .error e) :
    e.code ≠ .decryptionFailed := by
  obtain ⟨_,h,keyMaterial,written,run⟩ := create_ok created
  obtain ⟨body,appended⟩ := createLoop_appends run
  by_cases few : iterations < 10000
  · obtain ⟨e',failed⟩ := h.deserialize_few (by rwa [written.iterations])
    have badArgument := deserialize_few_code h written.version (by rwa [written.iterations]) failed
    have front : file.take VAULT_HEADER_SIZE = h.serialize := by rw [appended,take_header]
    have long : ¬ file.length < VAULT_HEADER_SIZE := by
      rw [appended,List.length_append,h.length_serialize]
      exact Nat.not_lt.mpr (Nat.le_add_right _ _)
    simp only [readHeader,front,failed,refuse,if_neg long,bind,Except.bind] at refused
    rw [← Except.error.inj refused,badArgument]
    simp
  · have opened : readHeader crypto vaultPath (some file) ⟨password,keyFile⟩ = .ok h := by
      rw [appended]
      exact written.readHeader few body
    rcases readHeader_other other opened with accepted | ⟨_,e',_,failed,refused'⟩
    · rw [accepted] at refused
      cases refused
    · cases Except.error.inj (refused.symm.trans refused')
      exact hashKeyFile_code failed

theorem key_file_never_authenticates (crypto : Crypto) (env : CreateEnv) (vaultPath : String) (sizeBytes : UInt64)
    (password file : List UInt8) (keyFile other : Option KeyFile) (algorithm : VaultAlgorithm) (iterations : UInt32)
    (created : create crypto env vaultPath sizeBytes ⟨password,keyFile⟩ algorithm iterations = .ok file)
    (_differ : keyFileHash crypto other ≠ keyFileHash crypto keyFile) :
    ¬ KeyFileAuthenticates crypto vaultPath file ⟨password,other⟩ := by
  intro ⟨⟨e,refused,code⟩,_⟩
  exact readHeader_created created other refused code

/-- A provider whose keys repeat the password and whose HMAC is its key. -/
def echoProvider : Crypto :=
  { plainProvider with
    pbkdf2 := fun password _ iterations keyLen =>
      if iterations = 0 then none
      else some ⟨List.ofFn (fun i : Fin keyLen => password.getD (i % password.length) 0),List.length_ofFn⟩
    hmacSha256 := fun key _ => .copy key 0 32 }

/-- A vault made with the password "pw" and a key file of three bytes. -/
def keyedCreate : Result (List UInt8) :=
  create echoProvider plainEnv "a.spwvault" 1024 ⟨[0x70,0x77],some ⟨"key",some [1,2,3]⟩⟩ .aes256Xts 500000

theorem key_file_sample : ∃ file, keyedCreate = .ok file ∧
    ¬ KeyFileAuthenticates echoProvider "a.spwvault" file ⟨[0x70,0x77],none⟩ := by
  obtain ⟨file,created⟩ : ∃ file, keyedCreate = .ok file := exists_of_isOk (by decide)
  exact ⟨file,created,key_file_never_authenticates echoProvider plainEnv "a.spwvault" 1024 [0x70,0x77] file
    (some ⟨"key",some [1,2,3]⟩) none .aes256Xts 500000 created (by decide)⟩

def withoutKeyFile (file : List UInt8) : Mutation (Option (List UInt8)) :=
  changePassword echoProvider { salt := .ok ⟨List.replicate 32 1,rfl⟩ } "a.spwvault" ⟨[0x70,0x77],none⟩
    ⟨[0x6E],none⟩ (some file)

/-- Without its key file the vault opens, and its password is changed. -/
theorem key_file_ignored : ∃ file header after, keyedCreate = .ok file ∧
    readHeader echoProvider "a.spwvault" (some file) ⟨[0x70,0x77],none⟩ = .ok header ∧
    withoutKeyFile file = (.ok (),after) ∧ after ≠ some file ∧
    ¬ KeyFileAuthenticates echoProvider "a.spwvault" file ⟨[0x70,0x77],none⟩ := by
  have opens : (keyedCreate.map (fun file =>
      (readHeader echoProvider "a.spwvault" (some file) ⟨[0x70,0x77],none⟩).isOk)).toOption = some true := by
    decide +kernel
  have changes : (keyedCreate.map (fun file => decide ((withoutKeyFile file).1 = .ok ()) &&
      decide ((withoutKeyFile file).2 ≠ some file))).toOption = some true := by
    decide +kernel
  cases created : keyedCreate with
  | error e => simp [created,Except.map,Except.toOption] at opens
  | ok file =>
    rw [created] at opens changes
    obtain ⟨header,read⟩ := exists_of_isOk (Option.some.inj opens)
    obtain ⟨changed,differs⟩ := Bool.and_eq_true_iff.mp (Option.some.inj changes)
    refine ⟨file,header,_,rfl,read,Prod.ext (of_decide_eq_true changed) rfl,of_decide_eq_true differs,?_⟩
    rintro ⟨⟨e,refused,_⟩,_⟩
    rw [read] at refused
    cases refused

end EncryptedVault
end SetecWizard.Core
