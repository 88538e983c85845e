import SetecWizard.Vault.Codec

/-! What the ciphers of a vault are taken to do, and what follows for the two ways of
encrypting a sector that make it longer: a sector cut off at its old length does
not decrypt.
-/
namespace SetecWizard.Core
open SetecWizard.Library

/-- The provider's ciphers are inverse to one another, and the tag of GCM does not
authenticate an encrypted zero sector that lost its end. -/
structure Crypto.Ideal (crypto : Crypto) : Prop where
  xts : ∀ key tweak plain sealed,
    crypto.xtsEncrypt key tweak plain = some sealed → crypto.xtsDecrypt key tweak sealed = some plain
  aes : ∀ key block, crypto.aesDecrypt key (crypto.aesEncrypt key block) = block
  gcm : ∀ key nonce plain,
    crypto.gcmOpen key nonce (crypto.gcmSeal key nonce plain).1 (crypto.gcmSeal key nonce plain).2 = some plain
  gcmLength : ∀ key nonce plain, (crypto.gcmSeal key nonce plain).1.length = plain.length
  gcmAuthentic : ∀ key nonce, crypto.gcmOpen key nonce
    ((crypto.gcmSeal key nonce (List.replicate VAULT_SECTOR_SIZE 0)).1.take 496)
    (.copy (crypto.gcmSeal key nonce (List.replicate VAULT_SECTOR_SIZE 0)).1 496 16) = none

theorem Bytes.xor_xor {n : Nat} (p b : Bytes n) : (p.xor b).xor b = p := by
  apply Bytes.ext
  obtain ⟨p,psize⟩ := p
  obtain ⟨b,bsize⟩ := b
  simp only [Bytes.xor]
  subst psize
  induction p generalizing b with
  | nil => simp
  | cons x p ih =>
    cases b with
    | nil => cases bsize
    | cons y b =>
      simp only [List.zipWith_cons_cons,List.cons.injEq]
      exact ⟨by rw [UInt8.xor_assoc,UInt8.xor_self,UInt8.xor_zero],ih b (Nat.succ.inj bsize)⟩

theorem Crypto.Ideal.lawful {crypto : Crypto} (ideal : crypto.Ideal) (key : List UInt8) :
    (crypto.cbc key).Lawful :=
  ⟨ideal.aes key,Bytes.xor_xor⟩

@[simp] theorem length_fromBlocks (blocks : List (Bytes 16)) : (fromBlocks blocks).length = 16 * blocks.length :=
  length_flatMap_blocks _ _ Bytes.size _

theorem toBlocks_fromBlocks (blocks : List (Bytes 16)) : toBlocks (fromBlocks blocks) = blocks := by
  apply List.ext_getElem?
  intro i
  rw [toBlocks,List.getElem?_map,length_fromBlocks,Nat.mul_div_cancel_left _ (by decide)]
  by_cases inside : i < blocks.length
  · have block := slice_flatMap (fun b : Bytes 16 => b.data) 16 Bytes.size blocks i
    rw [List.getElem?_eq_getElem inside] at block
    rw [List.getElem?_eq_getElem inside,List.getElem?_range inside,Option.map_some]
    exact congrArg some (Bytes.copy_of_slice _ (by rw [length_fromBlocks]; omega) block)
  · have beyond : blocks.length ≤ i := Nat.le_of_not_lt inside
    rw [List.getElem?_eq_none beyond,List.getElem?_eq_none (by rwa [List.length_range])]
    rfl

theorem fromBlocks_take (blocks : List (Bytes 16)) (n : Nat) :
    fromBlocks (blocks.take n) = (fromBlocks blocks).take (16 * n) := by
  induction blocks generalizing n with
  | nil => simp [fromBlocks]
  | cons b rest ih =>
    cases n with
    | zero => rfl
    | succ n =>
      have split : 16 * (n + 1) = b.data.length + 16 * n := by rw [b.size]; omega
      rw [List.take_succ_cons,fromBlocks,fromBlocks,List.flatMap_cons,List.flatMap_cons,split,
        List.take_length_add_append]
      exact congrArg (b.data ++ ·) (ih n)

theorem fromBlocks_toBlocks (data : List UInt8) (whole : data.length % 16 = 0) :
    fromBlocks (toBlocks data) = data := by
  have blocks (k : Nat) (bound : 16 * k ≤ data.length) :
      fromBlocks ((List.range k).map (fun i => Bytes.copy data (16 * i) 16)) = data.take (16 * k) := by
    induction k with
    | zero => rfl
    | succ k ih =>
      have last := Bytes.copy_data data (16 * k) 16 (by omega)
      rw [List.range_succ,List.map_append,fromBlocks,List.flatMap_append]
      rw [fromBlocks] at ih
      rw [ih (by omega),Nat.mul_succ,List.take_add]
      simp only [List.map_cons,List.map_nil,List.flatMap_cons,List.flatMap_nil,List.append_nil,last,slice]
  rw [toBlocks,blocks _ (by omega),List.take_of_length_le (by omega)]

theorem length_toBlocks (data : List UInt8) : (toBlocks data).length = data.length / 16 := by
  simp [toBlocks]

variable {crypto : Crypto}

theorem length_encryptBuffer (ideal : crypto.Ideal) {plaintext key ciphertext : List UInt8} {iv : Bytes 16}
    {algorithm : VaultAlgorithm} (sector : plaintext.length = 512)
    (sealed : encryptBuffer crypto plaintext key iv algorithm = .ok ciphertext) :
    ciphertext.length = 528 := by
  cases algorithm with
  | aes256Xts => cases sealed
  | aes256Cbc =>
    cases sealed
    rw [length_fromBlocks,Chaining.length_chain,length_toBlocks,Padding.length_pad (by decide),sector]
  | aes256Gcm =>
    cases sealed
    rw [List.length_append,ideal.gcmLength,sector,Bytes.size]

theorem cut_cbc (ideal : crypto.Ideal) {plaintext front key ciphertext : List UInt8} {iv : Bytes 16}
    (sector : plaintext.length = 512) (ends : plaintext = front ++ [0])
    (sealed : encryptBuffer crypto plaintext key iv .aes256Cbc = .ok ciphertext) :
    ∃ e, decryptBuffer crypto (ciphertext.take 512) key iv .aes256Cbc = .error e := by
  cases sealed
  have size : (Padding.pad 16 plaintext).length = 528 := by
    rw [Padding.length_pad (by decide),sector]
  have kept : (Padding.pad 16 plaintext).take 512 = plaintext := List.take_left' sector
  generalize Padding.pad 16 plaintext = padded at size kept
  have cut : (fromBlocks ((crypto.cbc key).chain iv (toBlocks padded))).take 512 =
      fromBlocks (((crypto.cbc key).chain iv (toBlocks padded)).take 32) :=
    (fromBlocks_take _ 32).symm
  have plain : fromBlocks ((crypto.cbc key).unchain iv
      (((crypto.cbc key).chain iv (toBlocks padded)).take 32)) = front ++ [0] := by
    rw [Chaining.unchain_take,Chaining.unchain_chain (ideal.lawful key),fromBlocks_take,
      fromBlocks_toBlocks _ (by rw [size]),← ends]
    exact kept
  refine ⟨.fromCode .decryptionFailed "BCryptDecrypt failed — wrong password or corrupted data",?_⟩
  rw [cut]
  simp only [decryptBuffer,toBlocks_fromBlocks,plain,Padding.unpad_zero,length_fromBlocks,Nat.mul_mod_right]
  rfl

theorem cut_gcm (ideal : crypto.Ideal) {key ciphertext : List UInt8} {iv : Bytes 16}
    (sealed : encryptBuffer crypto (List.replicate VAULT_SECTOR_SIZE 0) key iv .aes256Gcm = .ok ciphertext) :
    ∃ e, decryptBuffer crypto (ciphertext.take 512) key iv .aes256Gcm = .error e := by
  have authentic := ideal.gcmAuthentic key iv
  have size := ideal.gcmLength key iv (List.replicate VAULT_SECTOR_SIZE 0)
  rw [List.length_replicate] at size
  generalize List.replicate VAULT_SECTOR_SIZE (0 : UInt8) = plaintext at *
  have whole := Except.ok.inj sealed
  generalize crypto.gcmSeal key iv plaintext = both at *
  obtain ⟨body,tag⟩ := both
  have cut : ciphertext.take 512 = body := by
    rw [← whole]
    exact List.take_left' size
  have long : body.length = 512 := size
  refine ⟨.fromCode .decryptionFailed "BCryptDecrypt failed — wrong password or corrupted data",?_⟩
  rw [cut]
  simp only [decryptBuffer,long]
  rw [if_neg (by decide),authentic]

theorem decryptBuffer_cut (ideal : crypto.Ideal) {key ciphertext : List UInt8} {iv : Bytes 16}
    {algorithm : VaultAlgorithm}
    (sealed : encryptBuffer crypto (List.replicate VAULT_SECTOR_SIZE 0) key iv algorithm = .ok ciphertext) :
    ∃ e, decryptBuffer crypto (ciphertext.take 512) key iv algorithm = .error e := by
  cases algorithm with
  | aes256Xts => exact ⟨_,rfl⟩
  | aes256Cbc => exact cut_cbc ideal List.length_replicate (List.replicate_succ' (n := 511)) sealed
  | aes256Gcm => exact cut_gcm ideal sealed

/-- A provider whose ciphers add the key, with a constant tag. -/
def plainProvider : Crypto where
  pbkdf2 := fun _ _ iterations keyLen => if iterations = 0 then none else some (.zero keyLen)
  hmacSha256 := fun key data => .copy (key ++ data) 0 32
  sha256 := fun data => .copy data 0 32
  xtsEncrypt := fun key _ plain => some (plain.xor (.copy key 0 512))
  xtsDecrypt := fun key _ sealed => some (sealed.xor (.copy key 0 512))
  aesEncrypt := fun key block => block.xor (.copy key 0 16)
  aesDecrypt := fun key block => block.xor (.copy key 0 16)
  gcmSeal := fun _ _ plain => (plain,⟨List.replicate 16 0xFF,List.length_replicate⟩)
  gcmOpen := fun _ _ sealed tag => if tag.data = List.replicate 16 0xFF then some sealed else none

theorem plainProvider_ideal : plainProvider.Ideal where
  xts := by
    intro key tweak plain sealed encrypted
    rw [← Option.some.inj encrypted]
    exact congrArg some (Bytes.xor_xor plain _)
  aes := fun key block => Bytes.xor_xor block _
  gcm := fun key nonce plain => by simp [plainProvider]
  gcmLength := fun key nonce plain => rfl
  gcmAuthentic := by
    intro key nonce
    have ending : (Bytes.copy (List.replicate VAULT_SECTOR_SIZE (0 : UInt8)) 496 16).data ≠
        List.replicate 16 0xFF := by decide +kernel
    simp only [plainProvider,if_neg ending]

end SetecWizard.Core
