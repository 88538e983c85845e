import SetecWizard.Core.BootAuthenticator
import SetecWizard.Vault.Ciphers

/-! The two checks of a boot key. Both pass over a hash in the configuration that is
not 32 bytes long; the scan of all drives asks for the length of one of them, the
check of one drive for neither. No check asks for the drive's serial number.
-/
namespace SetecWizard.Core
open SetecWizard.Library

theorem constantTimeCompare_iff {a b : List UInt8} {len : Nat} (left : a.length = len)
    (right : b.length = len) : constantTimeCompare a b len = true ↔ a = b := by
  subst left
  have all : slice b 0 a.length = b := by rw [← right,slice_all]
  rw [constantTimeCompare,slice_all,all,decide_eq_true_iff]

theorem stoi_hexDigit (b : UInt8) : stoi (hexDigit (b >>> 4)) (hexDigit (b &&& 0x0F)) = some b := by
  have all : ∀ n < 256, stoi (hexDigit (UInt8.ofNat n >>> 4)) (hexDigit (UInt8.ofNat n &&& 0x0F)) =
      some (UInt8.ofNat n) := by decide +kernel
  have read := all b.toNat b.toNat_lt
  rwa [UInt8.ofNat_toNat] at read

theorem fromHex_toHex (data : List UInt8) : fromHex (toHex data) = some data := by
  induction data with
  | nil => rfl
  | cons b rest ih =>
    rw [toHex] at ih
    rw [toHex,List.flatMap_cons,List.cons_append,List.cons_append,List.nil_append,fromHex,stoi_hexDigit,ih]
    rfl

namespace BootAuthenticator

/-- A token file of the format, whose HMAC is that of its token. -/
structure Genuine (crypto : Crypto) (blob : List UInt8) : Prop where
  size : blob.length = BOOT_TOKEN_FILE_SIZE
  magic : slice blob 0 BOOT_MAGIC_LEN = BOOT_MAGIC
  hmac : slice blob 0x48 BOOT_HMAC_LEN = (crypto.hmacSha256 (token blob) (slice blob 0 0x48)).data

variable {crypto : Crypto} {blob : List UInt8}

theorem Genuine.serialHash_size (genuine : Genuine crypto blob) : (serialHash blob).length = 32 :=
  length_slice _ _ _ (by rw [genuine.size]; decide)

theorem validateTokenBlob_ok : validateTokenBlob crypto blob = .ok () ↔ Genuine crypto blob := by
  unfold validateTokenBlob
  rw [bind_unit_ok,refuse_ok,bind_unit_ok,refuse_ok,refuse_ok,not_not,not_not,Bool.not_eq_false]
  constructor
  · rintro ⟨size,magic,same⟩
    have ending : (blob.drop 0x48).length = BOOT_HMAC_LEN := by rw [List.length_drop,size]; rfl
    have hmac := (constantTimeCompare_iff ending (Bytes.size _)).mp same
    exact ⟨size,magic,by rw [slice,List.take_of_length_le (Nat.le_of_eq ending)]; exact hmac⟩
  · rintro ⟨size,magic,hmac⟩
    have ending : (blob.drop 0x48).length = BOOT_HMAC_LEN := by rw [List.length_drop,size]; rfl
    rw [slice,List.take_of_length_le (Nat.le_of_eq ending)] at hmac
    exact ⟨size,magic,(constantTimeCompare_iff ending (Bytes.size _)).mpr hmac⟩

/-- The drive holds a genuine token file. -/
def Holds (crypto : Crypto) (s : BootState) (driveLetter : String) (blob : List UInt8) : Prop :=
  s.files driveLetter = some blob ∧ Genuine crypto blob

theorem readTokenFile_ok {s : BootState} {driveLetter : String} :
    readTokenFile s driveLetter = .ok blob ↔
      s.files driveLetter = some blob ∧ blob.length = BOOT_TOKEN_FILE_SIZE := by
  unfold readTokenFile
  cases s.files driveLetter with
  | none => simp
  | some raw =>
    by_cases size : raw.length = BOOT_TOKEN_FILE_SIZE
    · simp only [size,ne_eq,not_true_eq_false,if_false,Except.ok.injEq,Option.some.injEq]
      constructor
      · rintro rfl
        exact ⟨rfl,size⟩
      · exact And.left
    · simp only [size,ne_eq,not_false_eq_true,if_true,Option.some.injEq]
      constructor
      · intro failed
        cases failed
      · rintro ⟨rfl,right⟩
        exact absurd right size

theorem read_cases (crypto : Crypto) (s : BootState) (driveLetter : String) :
    (∃ blob, Holds crypto s driveLetter blob ∧ readTokenFile s driveLetter = .ok blob ∧
      validateTokenBlob crypto blob = .ok ()) ∨
    (¬ (∃ blob, Holds crypto s driveLetter blob) ∧
      ((∃ e, readTokenFile s driveLetter = .error e) ∨
        ∃ blob e, readTokenFile s driveLetter = .ok blob ∧ validateTokenBlob crypto blob = .error e)) := by
  cases read : readTokenFile s driveLetter with
  | error e =>
    refine .inr ⟨?_,.inl ⟨e,rfl⟩⟩
    rintro ⟨blob,found,genuine⟩
    rw [readTokenFile_ok.mpr ⟨found,genuine.size⟩] at read
    cases read
  | ok blob =>
    obtain ⟨found,_⟩ := readTokenFile_ok.mp read
    cases valid : validateTokenBlob crypto blob with
    | ok =>
      exact .inl ⟨blob,⟨found,validateTokenBlob_ok.mp valid⟩,rfl,valid⟩
    | error e =>
      refine .inr ⟨?_,.inr ⟨blob,e,rfl,valid⟩⟩
      rintro ⟨other,same,genuine⟩
      cases found.symm.trans same
      rw [validateTokenBlob_ok.mpr genuine] at valid
      cases valid

def Agrees (computed expected : List UInt8) : Prop := expected.length = 32 → computed = expected

theorem agrees_iff (expected : List UInt8) {computed : List UInt8} (size : computed.length = 32) :
    ¬ (expected.length = 32 ∧ constantTimeCompare computed expected 32 = false) ↔ Agrees computed expected := by
  rw [Agrees]
  by_cases whole : expected.length = 32
  · simp [whole,constantTimeCompare_iff size whole]
  · simp [whole]

/-- Every check that is made of the drive succeeds. -/
def PassesChecks (crypto : Crypto) (s : BootState) (driveLetter : String) : Prop :=
  s.config.enabled = true ∧ ∃ blob serial expected, Holds crypto s driveLetter blob ∧
    fromHex s.config.serialHashHex = some serial ∧ Agrees (serialHash blob) serial ∧
    fromHex s.config.tokenHashHex = some expected ∧ Agrees (crypto.sha256 (token blob)).data expected

theorem passesChecks_iff {s : BootState} {driveLetter : String} (holds : Holds crypto s driveLetter blob) :
    PassesChecks crypto s driveLetter ↔ s.config.enabled = true ∧ ∃ serial expected,
      fromHex s.config.serialHashHex = some serial ∧ Agrees (serialHash blob) serial ∧
      fromHex s.config.tokenHashHex = some expected ∧ Agrees (crypto.sha256 (token blob)).data expected := by
  constructor
  · rintro ⟨enabled,other,serial,expected,same,checks⟩
    cases Option.some.inj (same.1.symm.trans holds.1)
    exact ⟨enabled,serial,expected,checks⟩
  · rintro ⟨enabled,serial,expected,checks⟩
    exact ⟨enabled,blob,serial,expected,holds,checks⟩

theorem verifyDrive_ok {s : BootState} {driveLetter : String} :
    verifyDrive crypto s driveLetter = some (.ok ()) ↔ PassesChecks crypto s driveLetter := by
  rcases read_cases crypto s driveLetter with ⟨blob,holds,read,valid⟩ | ⟨nothing,failed⟩
  · rw [passesChecks_iff holds]
    cases enabled : s.config.enabled with
    | false => simp [verifyDrive,enabled]
    | true =>
      simp only [verifyDrive,enabled,read,valid,Bool.true_eq_false,if_false,true_and]
      cases fromHex s.config.serialHashHex with
      | none => simp
      | some serial =>
        have serialCheck := agrees_iff serial holds.2.serialHash_size
        by_cases serialAgrees : Agrees (serialHash blob) serial
        · have passed := serialCheck.mpr serialAgrees
          cases fromHex s.config.tokenHashHex with
          | none => simp [BOOT_SERIAL_HASH_LEN,passed]
          | some expected =>
            have tokenCheck := agrees_iff expected (crypto.sha256 (token blob)).size
            by_cases tokenAgrees : Agrees (crypto.sha256 (token blob)).data expected
            · have passedToo := tokenCheck.mpr tokenAgrees
              simp [BOOT_SERIAL_HASH_LEN,passed,passedToo,serialAgrees,tokenAgrees]
            · have refused := not_not.mp (mt tokenCheck.mp tokenAgrees)
              simp [BOOT_SERIAL_HASH_LEN,passed,refused,tokenAgrees]
        · have refused := not_not.mp (mt serialCheck.mp serialAgrees)
          simp [BOOT_SERIAL_HASH_LEN,refused,serialAgrees]
  · have refused : ¬ PassesChecks crypto s driveLetter :=
      fun ⟨_,blob,_,_,holds,_⟩ => nothing ⟨blob,holds⟩
    unfold verifyDrive
    rcases failed with ⟨e,read⟩ | ⟨blob,e,read,valid⟩
    · cases s.config.enabled <;> simp [read,refused]
    · cases s.config.enabled <;> simp [read,valid,refused]

theorem matchesKey_iff {s : BootState} {driveLetter : String} {expected serial : List UInt8} :
    matchesKey crypto s expected serial driveLetter = true ↔ ∃ blob, Holds crypto s driveLetter blob ∧
      Agrees (serialHash blob) serial ∧ expected.length = 32 ∧ (crypto.sha256 (token blob)).data = expected := by
  rcases read_cases crypto s driveLetter with ⟨blob,holds,read,valid⟩ | ⟨nothing,failed⟩
  · have serialCheck := agrees_iff serial holds.2.serialHash_size
    have only : ∀ other, Holds crypto s driveLetter other → other = blob :=
      fun other same => Option.some.inj (same.1.symm.trans holds.1)
    simp only [matchesKey,read,valid]
    constructor
    · intro found
      split at found
      · cases found
      next passed =>
        obtain ⟨size,same⟩ := of_decide_eq_true found
        exact ⟨blob,holds,serialCheck.mp passed,size,(constantTimeCompare_iff (Bytes.size _) size).mp same⟩
    · rintro ⟨other,same,agrees,size,equal⟩
      cases only other same
      rw [if_neg (by exact serialCheck.mpr agrees)]
      exact decide_eq_true ⟨size,(constantTimeCompare_iff (Bytes.size _) size).mpr equal⟩
  · constructor
    · intro found
      exfalso
      rcases failed with ⟨e,read⟩ | ⟨blob,e,read,valid⟩
      · simp [matchesKey,read] at found
      · simp [matchesKey,read,valid] at found
    · rintro ⟨blob,holds,_⟩
      exact absurd ⟨blob,holds⟩ nothing

/-- The scan of all drives accepts the token of a drive: it does where there is no other. -/
def Accepts (crypto : Crypto) (env : BootEnv) (s : BootState) (driveLetter : String) : Prop :=
  ∃ after, verifyBootKey crypto { env with removable := [driveLetter] } s = some (.ok driveLetter,after)

theorem accepts_iff {env : BootEnv} {s : BootState} {driveLetter : String} :
    Accepts crypto env s driveLetter ↔ s.config.enabled = true ∧ s.config.serialHashHex ≠ [] ∧
      ∃ blob serial expected, Holds crypto s driveLetter blob ∧ fromHex s.config.serialHashHex = some serial ∧
        Agrees (serialHash blob) serial ∧ fromHex s.config.tokenHashHex = some expected ∧
        expected.length = 32 ∧ (crypto.sha256 (token blob)).data = expected := by
  unfold Accepts verifyBootKey
  cases s.config.enabled with
  | false => simp
  | true =>
    rw [if_neg (by decide)]
    by_cases empty : s.config.tokenHashHex = [] ∨ s.config.serialHashHex = []
    · rw [if_pos empty]
      constructor
      · rintro ⟨after,failed⟩
        cases failed
      · rintro ⟨_,named,_,_,expected,_,_,_,decoded,size,_⟩
        rcases empty with empty | empty
        · rw [empty] at decoded
          cases decoded
          cases size
        · exact absurd empty named
    · rw [if_neg empty]
      have named : s.config.serialHashHex ≠ [] := fun none => empty (.inr none)
      simp only [enumerateUsbDrives,List.map_cons,List.map_nil,List.find?_cons,List.find?_nil,true_and,named,
        ne_eq,not_false_eq_true]
      cases fromHex s.config.tokenHashHex with
      | none => simp
      | some expected =>
        cases fromHex s.config.serialHashHex with
        | none => simp
        | some serial =>
          have found := @matchesKey_iff crypto s driveLetter expected serial
          cases hit : matchesKey crypto s expected serial driveLetter with
          | true =>
            obtain ⟨blob,holds,agrees,size,equal⟩ := found.mp hit
            constructor
            · intro _
              exact ⟨blob,serial,expected,holds,rfl,agrees,rfl,size,equal⟩
            · intro _
              refine ⟨s.saveConfig { s.config with lastVerifiedTimestamp := env.now },?_⟩
              simp [hit]
          | false =>
            constructor
            · rintro ⟨after,failed⟩
              simp [hit] at failed
            · rintro ⟨blob,other,wanted,holds,same,agrees,also,size,equal⟩
              cases same
              cases also
              rw [found.mpr ⟨blob,holds,agrees,size,equal⟩] at hit
              cases hit

/-- Both hashes of the configuration are 32 bytes long. -/
def WholeHashes (config : BootKeyConfig) : Prop :=
  ∃ serial expected, fromHex config.serialHashHex = some serial ∧ serial.length = 32 ∧
    fromHex config.tokenHashHex = some expected ∧ expected.length = 32

/-- The drive holds a genuine token, and both its hashes are the configured ones. -/
def Registered (crypto : Crypto) (s : BootState) (driveLetter : String) : Prop :=
  ∃ blob serial expected, Holds crypto s driveLetter blob ∧
    fromHex s.config.serialHashHex = some serial ∧ serial.length = 32 ∧ serialHash blob = serial ∧
    fromHex s.config.tokenHashHex = some expected ∧ expected.length = 32 ∧
    (crypto.sha256 (token blob)).data = expected

theorem registered_of_whole {s : BootState} {driveLetter : String} (whole : WholeHashes s.config)
    (passes : PassesChecks crypto s driveLetter) : Registered crypto s driveLetter := by
  obtain ⟨serial,expected,serialRead,serialSize,tokenRead,tokenSize⟩ := whole
  obtain ⟨_,blob,_,_,holds,same,serialAgrees,also,tokenAgrees⟩ := passes
  cases serialRead.symm.trans same
  cases tokenRead.symm.trans also
  exact ⟨blob,serial,expected,holds,serialRead,serialSize,serialAgrees serialSize,tokenRead,tokenSize,
    tokenAgrees tokenSize⟩

theorem passesChecks_of_accepts {env : BootEnv} {s : BootState} {driveLetter : String}
    (accepts : Accepts crypto env s driveLetter) : PassesChecks crypto s driveLetter := by
  obtain ⟨enabled,_,blob,serial,expected,holds,serialRead,agrees,tokenRead,_,equal⟩ := accepts_iff.mp accepts
  exact ⟨enabled,blob,serial,expected,holds,serialRead,agrees,tokenRead,fun _ => equal⟩

theorem accepts_of_whole {env : BootEnv} {s : BootState} {driveLetter : String} (whole : WholeHashes s.config)
    (passes : PassesChecks crypto s driveLetter) : Accepts crypto env s driveLetter := by
  obtain ⟨blob,serial,expected,holds,serialRead,serialSize,serialSame,tokenRead,tokenSize,tokenSame⟩ :=
    registered_of_whole whole passes
  refine accepts_iff.mpr ⟨passes.1,?_,blob,serial,expected,holds,serialRead,fun _ => serialSame,tokenRead,
    tokenSize,tokenSame⟩
  intro empty
  rw [empty] at serialRead
  cases serialRead
  cases serialSize

/-- The check of one drive accepts registered tokens alone, and those the scan accepts,
exactly when both hashes of the configuration are whole or it refuses the drive anyway. -/
theorem boot_checks_agree_iff (crypto : Crypto) (env : BootEnv) (s : BootState) (driveLetter : String) :
    ((verifyDrive crypto s driveLetter = some (.ok ()) → Registered crypto s driveLetter) ∧
      (verifyDrive crypto s driveLetter = some (.ok ()) ↔ Accepts crypto env s driveLetter)) ↔
    WholeHashes s.config ∨ ¬ PassesChecks crypto s driveLetter := by
  rw [verifyDrive_ok]
  constructor
  · intro ⟨sound,_⟩
    by_cases passes : PassesChecks crypto s driveLetter
    · obtain ⟨_,serial,expected,_,serialRead,serialSize,_,tokenRead,tokenSize,_⟩ := sound passes
      exact .inl ⟨serial,expected,serialRead,serialSize,tokenRead,tokenSize⟩
    · exact .inr passes
  · rintro (whole | refused)
    · exact ⟨registered_of_whole whole,accepts_of_whole whole,passesChecks_of_accepts⟩
    · exact ⟨fun passes => absurd passes refused,fun passes => absurd passes refused,
        fun accepts => absurd (passesChecks_of_accepts accepts) refused⟩

/-- A token of zeros, with what `plainProvider` makes its HMAC. -/
def zeroBlob : List UInt8 := BOOT_MAGIC ++ List.replicate 96 0

example : zeroBlob.length = BOOT_TOKEN_FILE_SIZE := by decide

theorem zeroBlob_genuine : Genuine plainProvider zeroBlob := by
  have hmac : slice zeroBlob 0x48 BOOT_HMAC_LEN =
      (plainProvider.hmacSha256 (token zeroBlob) (slice zeroBlob 0 0x48)).data := by decide
  exact ⟨by decide,by decide,hmac⟩

/-- A configuration with one byte of a hash of the token and none of the serial number. -/
def cutState : BootState where
  files := fun _ => some zeroBlob
  config := { enabled := true, tokenHashHex := [0x30,0x31] }

theorem cut_hashes_pass : ¬ ((verifyDrive plainProvider cutState "E:" = some (.ok ()) →
      Registered plainProvider cutState "E:") ∧
    (verifyDrive plainProvider cutState "E:" = some (.ok ()) ↔
      Accepts plainProvider { usbSerial := fun _ => .ok [0x37] } cutState "E:")) := by
  have passes : PassesChecks plainProvider cutState "E:" := by
    refine ⟨rfl,zeroBlob,[],[1],⟨rfl,zeroBlob_genuine⟩,rfl,fun size => ?_,by decide,fun size => ?_⟩ <;> cases size
  intro ⟨sound,_⟩
  obtain ⟨_,serial,_,_,read,size,_⟩ := sound (verifyDrive_ok.mpr passes)
  cases read
  cases size

theorem generated {env : BootEnv} {usbSerial : List UInt8}
    (made : generateTokenBlob crypto env usbSerial = .ok blob) :
    Genuine crypto blob ∧ serialHash blob = (crypto.sha256 usbSerial).data := by
  obtain ⟨random,whole⟩ : ∃ random : Bytes 32, BOOT_MAGIC ++ (crypto.sha256 usbSerial).data ++ random.data ++
      (crypto.hmacSha256 random.data (BOOT_MAGIC ++ (crypto.sha256 usbSerial).data ++ random.data)).data = blob := by
    unfold generateTokenBlob at made
    cases drawn : env.random with
    | error e => simp [drawn,Except.map] at made
    | ok random => exact ⟨random,Except.ok.inj (by rwa [drawn] at made)⟩
  generalize crypto.sha256 usbSerial = hash at whole
  generalize signed : crypto.hmacSha256 random.data (BOOT_MAGIC ++ hash.data ++ random.data) = hmac at whole
  have magicSize : BOOT_MAGIC.length = 8 := rfl
  have at_magic := slice_middle [] BOOT_MAGIC (hash.data ++ (random.data ++ hmac.data))
  have at_hash := slice_middle BOOT_MAGIC hash.data (random.data ++ hmac.data)
  have at_token := slice_middle (BOOT_MAGIC ++ hash.data) random.data hmac.data
  have at_hmac := slice_middle (BOOT_MAGIC ++ hash.data ++ random.data) hmac.data []
  have at_front := slice_middle [] (BOOT_MAGIC ++ hash.data ++ random.data) hmac.data
  simp only [List.nil_append,List.append_nil,List.append_assoc,List.length_append,List.length_nil,magicSize,
    hash.size,random.size,hmac.size] at at_magic at_hash at_token at_hmac at_front whole signed
  rw [whole] at at_magic at_hash at_token at_hmac at_front
  refine ⟨⟨?_,at_magic,?_⟩,at_hash⟩
  · rw [← whole]
    simp [magicSize,hash.size,random.size,hmac.size]
    rfl
  · have at_token : token blob = random.data := at_token
    have at_front : slice blob 0 0x48 = BOOT_MAGIC ++ (hash.data ++ random.data) := at_front
    rw [at_token,at_front,signed]
    exact at_hmac

theorem createBootKey_ok {env : BootEnv} {driveLetter : String} {s after : BootState}
    (created : createBootKey crypto env driveLetter s = (.ok (),after)) :
    ∃ blob, Holds crypto after driveLetter blob ∧ after.config.enabled = true ∧
      fromHex after.config.serialHashHex = some (serialHash blob) ∧
      fromHex after.config.tokenHashHex = some (crypto.sha256 (token blob)).data := by
  unfold createBootKey at created
  split at created
  · cases created
  · split at created
    · cases created
    next usbSerial _ blob made =>
      obtain ⟨genuine,hash⟩ := generated made
      split at created
      · cases created
      · split at created
        · cases created
        · cases created
          refine ⟨blob,⟨by simp [BootState.saveConfig,BootState.setFile],genuine⟩,rfl,?_,fromHex_toHex _⟩
          rw [hash]
          exact fromHex_toHex _

def copyToken (s : BootState) (source target : String) : BootState := s.setFile target (s.files source)

/-- Both checks accept a copy, whatever drive it is on. -/
theorem copy_accepted {env later : BootEnv} {source target : String} {s after : BootState}
    (created : createBootKey crypto env source s = (.ok (),after)) :
    verifyDrive crypto (copyToken after source target) target = some (.ok ()) ∧
      Accepts crypto later (copyToken after source target) target := by
  obtain ⟨blob,⟨found,genuine⟩,enabled,serial,expected⟩ := createBootKey_ok created
  have whole : WholeHashes (copyToken after source target).config :=
    ⟨_,_,serial,genuine.serialHash_size,expected,Bytes.size _⟩
  have passes : PassesChecks crypto (copyToken after source target) target :=
    ⟨enabled,blob,_,_,⟨by simp [copyToken,BootState.setFile,found],genuine⟩,serial,fun _ => rfl,expected,
      fun _ => rfl⟩
  exact ⟨verifyDrive_ok.mpr passes,accepts_of_whole whole passes⟩

/-- Neither check accepts the drive. -/
def Refused (crypto : Crypto) (env : BootEnv) (s : BootState) (driveLetter : String) : Prop :=
  verifyDrive crypto s driveLetter ≠ some (.ok ()) ∧ ¬ Accepts crypto env s driveLetter

/-- A copied token is refused on no drive, whatever serial number the drive reports. -/
theorem copied_token_never_refused (crypto : Crypto) (env later : BootEnv) (source target : String)
    (s after : BootState) (usbSerial other : List UInt8)
    (created : createBootKey crypto env source s = (.ok (),after))
    (_registered : env.usbSerial source = .ok usbSerial) (_reported : later.usbSerial target = .ok other)
    (_differ : other ≠ usbSerial) : ¬ Refused crypto later (copyToken after source target) target := by
  intro refused
  have accepted : _ ∧ Accepts crypto later (copyToken after source target) target := copy_accepted created
  exact refused.1 accepted.1

def twoDrives : BootEnv where
  usbSerial := fun driveLetter => .ok (if driveLetter = "E:" then [0x31] else [0x32])
  removable := ["E:","F:"]

def noToken : BootState := { files := fun _ => none }

theorem created_sample : (createBootKey plainProvider twoDrives "E:" noToken).1 = .ok () := rfl

theorem copied_token_sample : ¬ Refused plainProvider twoDrives
    (copyToken (createBootKey plainProvider twoDrives "E:" noToken).2 "E:" "F:") "F:" :=
  copied_token_never_refused plainProvider twoDrives twoDrives "E:" "F:" noToken _ [0x31] [0x32]
    (Prod.ext created_sample rfl) rfl rfl (by decide)

/-- The hashes of the two serial numbers differ, and the copy is accepted all the same. -/
theorem copy_passes_elsewhere :
    plainProvider.sha256 [0x31] ≠ plainProvider.sha256 [0x32] ∧
    ∃ after, createBootKey plainProvider twoDrives "E:" noToken = (.ok (),after) ∧
      verifyDrive plainProvider (copyToken after "E:" "F:") "F:" = some (.ok ()) ∧
      Accepts plainProvider twoDrives (copyToken after "E:" "F:") "F:" :=
  ⟨by decide,_,Prod.ext created_sample rfl,copy_accepted (Prod.ext created_sample rfl)⟩

end BootAuthenticator
end SetecWizard.Core
