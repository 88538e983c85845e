import SetecWizard.Vault.Mounts

/-! What is written to the disk of a mounted vault. The container is read by `mount`
and by nothing else, so that the next mount brings back the volume of this one.
-/
namespace SetecWizard.Core
open SetecWizard.Library

structure DiskWrite where
  offset : Nat
  bytes : List UInt8

/-- A disk with the volume as its content; what lies beyond its end is refused. -/
def applyWrite (volume : List UInt8) (w : DiskWrite) : List UInt8 :=
  if w.offset + w.bytes.length ≤ volume.length then splice volume w.offset w.bytes else volume

def applyWrites (volume : List UInt8) (writes : List DiskWrite) : List UInt8 := writes.foldl applyWrite volume

namespace EncryptedVault

variable {crypto : Crypto}

theorem decryptLoop_progress {header : VaultHeader} {key : List UInt8} {progress : UInt64 → UInt64 → Bool}
    {left sector : Nat} {rest volume : List UInt8}
    (decrypted : decryptLoop crypto header key progress left sector rest = .ok volume) :
    decryptLoop crypto header key (fun _ _ => true) left sector rest = .ok volume := by
  induction left generalizing sector rest volume with
  | zero => exact decrypted
  | succ left ih =>
    obtain ⟨whole,decrypted⟩ := bind_unit_ok.mp decrypted
    obtain ⟨plain,sectorOk,decrypted⟩ := bind_ok.mp decrypted
    obtain ⟨_,decrypted⟩ := bind_unit_ok.mp decrypted
    obtain ⟨others,looped,decrypted⟩ := bind_ok.mp decrypted
    refine bind_unit_ok.mpr ⟨whole,bind_ok.mpr ⟨plain,sectorOk,bind_unit_ok.mpr ⟨?_,?_⟩⟩⟩
    · exact refuse_ok.mpr (by simp)
    · exact bind_ok.mpr ⟨others,ih looped,decrypted⟩

theorem decryptVolume_progress {vaultPath : String} {file : Option (List UInt8)} {credentials : Credentials}
    {progress : UInt64 → UInt64 → Bool} {result : VaultHeader × List UInt8}
    (decrypted : decryptVolume crypto vaultPath file credentials progress = .ok result) :
    decryptVolume crypto vaultPath file credentials (fun _ _ => true) = .ok result := by
  obtain ⟨header,read,decrypted⟩ := bind_ok.mp decrypted
  obtain ⟨keyMaterial,derived,decrypted⟩ := bind_ok.mp decrypted
  refine bind_ok.mpr ⟨header,read,bind_ok.mpr ⟨keyMaterial,derived,?_⟩⟩
  cases file with
  | none => cases decrypted
  | some content =>
    obtain ⟨volume,looped,decrypted⟩ := bind_ok.mp decrypted
    exact bind_ok.mpr ⟨volume,decryptLoop_progress looped,decrypted⟩

theorem decryptVolume_unique {vaultPath : String} {file : Option (List UInt8)} {credentials : Credentials}
    {progress again : UInt64 → UInt64 → Bool} {first second : VaultHeader × List UInt8}
    (decrypted : decryptVolume crypto vaultPath file credentials progress = .ok first)
    (repeated : decryptVolume crypto vaultPath file credentials again = .ok second) : first = second := by
  have same := (decryptVolume_progress decrypted).symm.trans (decryptVolume_progress repeated)
  exact Except.ok.inj same

end EncryptedVault

namespace VaultState

variable {paths : Paths} {crypto : Crypto}

def diskContent (s : VaultState) (vhdPath : String) : Option (List UInt8) :=
  (s.files vhdPath).map (fun content => content.take (content.length - 512))

def writeAll (vhdPath : String) (writes : List DiskWrite) (s : VaultState) : VaultState :=
  writes.foldl (fun s w => s.writeDisk vhdPath w.offset w.bytes) s

/-- The first of several calls of `mount` that succeeds, with what it leaves. -/
def mountFirst (paths : Paths) (crypto : Crypto) (vaultPath : String) (credentials : Credentials) :
    List (Bool × MountEnv) → VaultState → Option (MountEnv × VaultState)
  | [],_ => none
  | (readOnly,env) :: later,s =>
    match s.mount paths crypto vaultPath credentials readOnly env with
    | (.ok _,s) => some (env,s)
    | (.error _,s) => mountFirst paths crypto vaultPath credentials later s

theorem diskContent_footer {s : VaultState} {vhdPath : String} {volume footer : List UInt8}
    (content : s.files vhdPath = some (volume ++ footer)) (size : footer.length = 512) :
    s.diskContent vhdPath = some volume := by
  rw [diskContent,content,Option.map_some,List.length_append,size,Nat.add_sub_cancel]
  exact congrArg some List.take_left

theorem writeAll_files {s : VaultState} {vhdPath : String} {volume footer : List UInt8}
    (content : s.files vhdPath = some (volume ++ footer)) (size : footer.length = 512)
    (writable : { vhdPath := vhdPath,readOnly := false } ∈ s.attached) (writes : List DiskWrite) :
    (s.writeAll vhdPath writes).files vhdPath = some (applyWrites volume writes ++ footer) := by
  induction writes generalizing s volume with
  | nil => exact content
  | cons w rest ih =>
    have attached := (writeDisk_mounted vhdPath w.offset w.bytes s).2
    refine @ih (s.writeDisk vhdPath w.offset w.bytes) (applyWrite volume w) ?_ ?_
    · have allowed : s.attached.any (fun a => a.vhdPath == vhdPath && !a.readOnly) = true :=
        List.any_eq_true.mpr ⟨_,writable,by simp⟩
      simp only [writeDisk,content,allowed,true_and,List.length_append,size,applyWrite,Nat.add_le_add_iff_right]
      by_cases fits : w.offset + w.bytes.length ≤ volume.length
      · rw [if_pos fits,if_pos fits,setFile_files,if_pos rfl,splice_append_left _ _ _ _ fits]
      · rw [if_neg fits,if_neg fits,content]
    · rw [attached]
      exact writable

theorem writeAll_other {s : VaultState} {vhdPath path : String} (apart : path ≠ vhdPath)
    (writes : List DiskWrite) : (s.writeAll vhdPath writes).files path = s.files path := by
  induction writes generalizing s with
  | nil => rfl
  | cons w rest ih =>
    refine (ih (s := s.writeDisk vhdPath w.offset w.bytes)).trans ?_
    unfold writeDisk
    split
    · rfl
    · split
      · rw [setFile_files,if_neg apart]
      · rfl

theorem writeAll_mounted (vhdPath : String) (writes : List DiskWrite) (s : VaultState) :
    (s.writeAll vhdPath writes).mounted = s.mounted := by
  induction writes generalizing s with
  | nil => rfl
  | cons w rest ih => exact (ih _).trans (writeDisk_mounted vhdPath w.offset w.bytes s).1

/-- Unmounting leaves a file as it is, or removes it. -/
def Kept (s t : VaultState) (path : String) : Prop := t.files path = s.files path ∨ t.files path = none

theorem detachVhd_kept (answers : DetachAnswers) (vhdPath path : String) (s : VaultState) :
    Kept s (s.detachVhd answers vhdPath).2 path := by
  rcases detachVhd_cases answers vhdPath s with ⟨e,failed⟩ | dropped
  · rw [failed]
    exact .inl rfl
  · rw [dropped,Kept,dropVhd_files]
    split
    · exact .inr rfl
    · exact .inl rfl

theorem detachVhd_other {answers : DetachAnswers} {vhdPath path : String} {s : VaultState}
    (apart : path ≠ vhdPath) : (s.detachVhd answers vhdPath).2.files path = s.files path := by
  rcases detachVhd_cases answers vhdPath s with ⟨e,failed⟩ | dropped
  · rw [failed]
  · rw [dropped,dropVhd_files,if_neg apart]

theorem detachEach_other {answers : String → DetachAnswers} {entries : List (String × MountEntry)}
    {lastError : ErrorInfo} {s : VaultState} {path : String}
    (apart : ∀ m ∈ entries, path ≠ m.2.tempVhdPath) :
    (detachEach answers entries lastError s).2.files path = s.files path := by
  induction entries generalizing lastError s with
  | nil => rfl
  | cons m rest ih =>
    have first := @detachVhd_other (answers m.2.tempVhdPath) _ _ s (apart m List.mem_cons_self)
    rw [detachEach]
    generalize s.detachVhd (answers m.2.tempVhdPath) m.2.tempVhdPath = result at first
    obtain ⟨_ | _,t⟩ := result
    · exact (ih (fun other later => apart other (List.mem_cons_of_mem _ later))).trans first
    · exact (ih (fun other later => apart other (List.mem_cons_of_mem _ later))).trans first

theorem detachEach_kept (answers : String → DetachAnswers) (entries : List (String × MountEntry))
    (lastError : ErrorInfo) (s : VaultState) (path : String) :
    Kept s (detachEach answers entries lastError s).2 path := by
  induction entries generalizing lastError s with
  | nil => exact .inl rfl
  | cons m rest ih =>
    have first := detachVhd_kept (answers m.2.tempVhdPath) m.2.tempVhdPath path s
    rw [detachEach]
    generalize s.detachVhd (answers m.2.tempVhdPath) m.2.tempVhdPath = result at first
    obtain ⟨_ | _,t⟩ := result
    · exact (ih _ t).elim (fun same => first.imp same.trans same.trans) .inr
    · exact (ih _ t).elim (fun same => first.imp same.trans same.trans) .inr

/-- What unmounts a vault. -/
inductive Unmounts (s : VaultState) : VaultState → Prop where
  | one (answers : String → DetachAnswers) (key : String) : Unmounts s (s.unmount answers key).2
  | all (answers : String → DetachAnswers) : Unmounts s (s.unmountAll answers).2

theorem Unmounts.kept {s t : VaultState} (unmounts : Unmounts s t) (path : String) : Kept s t path := by
  cases unmounts with
  | one answers key =>
    rw [unmount]
    split
    · exact .inl rfl
    · exact detachVhd_kept _ _ path s
  | all answers => exact detachEach_kept answers s.mounted {} s path

theorem mountFirst_head {s t : VaultState} {vaultPath point : String} {credentials : Credentials} {readOnly : Bool}
    {env : MountEnv} {later : List (Bool × MountEnv)}
    (mounted : s.mount paths crypto vaultPath credentials readOnly env = (.ok point,t)) :
    mountFirst paths crypto vaultPath credentials ((readOnly,env) :: later) s = some (env,t) := by
  rw [mountFirst,mounted]

theorem mountFirst_ok {s t : VaultState} {vaultPath : String} {credentials : Credentials}
    {attempts : List (Bool × MountEnv)} {env : MountEnv}
    (unused : ∀ attempt ∈ attempts, s.files (attempt.2.vhdPath paths) = none)
    (first : mountFirst paths crypto vaultPath credentials attempts s = some (env,t)) :
    ∃ readOnly point, s.mount paths crypto vaultPath credentials readOnly env = (.ok point,t) := by
  induction attempts with
  | nil => cases first
  | cons attempt later ih =>
    obtain ⟨readOnly,tried⟩ := attempt
    rw [mountFirst] at first
    by_cases mounts : s.Mounts crypto vaultPath credentials tried
    · obtain ⟨header,volume,_,result⟩ := mount_ok paths mounts readOnly
      rw [result] at first
      cases first
      exact ⟨readOnly,_,result⟩
    · have kept : ∃ e, s.mount paths crypto vaultPath credentials readOnly tried = (.error e,s) := by
        obtain ⟨e,failed | failed⟩ := mount_error paths mounts readOnly
        · exact ⟨e,failed⟩
        · rw [s.setFile_none (unused _ List.mem_cons_self)] at failed
          exact ⟨e,failed⟩
      obtain ⟨e,failed⟩ := kept
      rw [failed] at first
      exact ih (fun other member => unused other (List.mem_cons_of_mem _ member)) first

section Remount

variable {s mounted unmounted remounted : VaultState} {vaultPath point : String} {credentials : Credentials}
  {env again : MountEnv} {writes : List DiskWrite} {attempts : List (Bool × MountEnv)} {volume : List UInt8}

theorem remount_diskContent (unused : s.files (env.vhdPath paths) = none)
    (mounts : s.mount paths crypto vaultPath credentials false env = (.ok point,mounted))
    (unmounts : Unmounts (mounted.writeAll (env.vhdPath paths) writes) unmounted)
    (fresh : ∀ attempt ∈ attempts, unmounted.files (attempt.2.vhdPath paths) = none)
    (next : mountFirst paths crypto vaultPath credentials attempts unmounted = some (again,remounted)) :
    remounted.diskContent (again.vhdPath paths) = mounted.diskContent (env.vhdPath paths) := by
  obtain ⟨header,volume,footer,decrypted,size,content,_,others⟩ := mount_diskContent mounts
  obtain ⟨readOnly,point',result⟩ := mountFirst_ok fresh next
  obtain ⟨header',volume',footer',decrypted',size',content',_,_⟩ := mount_diskContent result
  have apart : vaultPath ≠ env.vhdPath paths := by
    intro same
    rw [same,unused] at decrypted
    cases decrypted
  have container := (writeAll_other apart writes).trans (others vaultPath apart)
  rw [diskContent_footer content size,diskContent_footer content' size']
  rcases unmounts.kept vaultPath with kept | removed
  · rw [kept,container] at decrypted'
    have same := EncryptedVault.decryptVolume_unique decrypted decrypted'
    exact congrArg some (congrArg Prod.snd same).symm
  · rw [removed] at decrypted'
    cases decrypted'

theorem remount_keeps_writes_iff (unused : s.files (env.vhdPath paths) = none)
    (mounts : s.mount paths crypto vaultPath credentials false env = (.ok point,mounted))
    (unmounts : Unmounts (mounted.writeAll (env.vhdPath paths) writes) unmounted)
    (fresh : ∀ attempt ∈ attempts, unmounted.files (attempt.2.vhdPath paths) = none)
    (next : mountFirst paths crypto vaultPath credentials attempts unmounted = some (again,remounted)) :
    ∃ volume, mounted.diskContent (env.vhdPath paths) = some volume ∧
      (mounted.writeAll (env.vhdPath paths) writes).diskContent (env.vhdPath paths) =
        some (applyWrites volume writes) ∧
      (remounted.diskContent (again.vhdPath paths) = some (applyWrites volume writes) ↔
        applyWrites volume writes = volume) := by
  have back := remount_diskContent unused mounts unmounts fresh next
  obtain ⟨_,volume,footer,_,size,content,writable,_⟩ := mount_diskContent mounts
  have before := diskContent_footer content size
  have written := writeAll_files content size writable writes
  refine ⟨volume,before,diskContent_footer written size,?_⟩
  rw [back,before,Option.some_inj]
  exact eq_comm

end Remount

/-! The same vault, mounted again after some writes and an `unmountAll`. -/

def sampleAgain : MountEnv := { uuid := "77b0",physicalPath := "PhysicalDrive3" }

def sampleWritten (file : List UInt8) (writes : List DiskWrite) : VaultState :=
  (sampleMounted "D:/photos.spwvault" file).writeAll (sampleEnv.vhdPath samplePaths) writes

def sampleUnmounted (file : List UInt8) (writes : List DiskWrite) : VaultState :=
  ((sampleWritten file writes).unmountAll (fun _ => {})).2

theorem exists_remount (writes : List DiskWrite) : ∃ file remounted,
    EncryptedVault.plainCreate .aes256Xts 500000 = .ok file ∧
    (sampleStart "D:/photos.spwvault" file).mount samplePaths plainProvider "D:/photos.spwvault"
      sampleCredentials false sampleEnv = (.ok "PhysicalDrive2",sampleMounted "D:/photos.spwvault" file) ∧
    (sampleMounted "D:/photos.spwvault" file).diskContent (sampleEnv.vhdPath samplePaths) =
      some (List.replicate 1024 0) ∧
    (sampleUnmounted file writes).files (sampleAgain.vhdPath samplePaths) = none ∧
    mountFirst samplePaths plainProvider "D:/photos.spwvault" sampleCredentials [(false,sampleAgain)]
      (sampleUnmounted file writes) = some (sampleAgain,remounted) := by
  obtain ⟨file,header,created,mounted,table,decrypted⟩ := exists_sampleMounted "D:/photos.spwvault"
  obtain ⟨first,volume,footer,decrypted',size,content,_,others⟩ := mount_diskContent mounted
  have same := congrArg Prod.snd (EncryptedVault.decryptVolume_unique decrypted' decrypted)
  have entryPath : samplePaths.tempVhd (samplePaths.baseName "D:/photos.spwvault") ≠ "D:/photos.spwvault" := by
    decide
  have vhd : "D:/photos.spwvault" ≠ sampleEnv.vhdPath samplePaths := by decide
  have again : sampleAgain.vhdPath samplePaths ≠ sampleEnv.vhdPath samplePaths := by decide
  have name : sampleAgain.vhdPath samplePaths ≠ "D:/photos.spwvault" := by decide
  have initial : (sampleStart "D:/photos.spwvault" file).files "D:/photos.spwvault" = some file := by
    simp [sampleStart]
  have container : (sampleUnmounted file writes).files "D:/photos.spwvault" = some file := by
    have written : (sampleWritten file writes).mounted = _ := (writeAll_mounted _ writes _).trans table
    have apart : ∀ m ∈ (sampleWritten file writes).mounted, "D:/photos.spwvault" ≠ m.2.tempVhdPath := by
      rw [written]
      intro m member
      rw [List.mem_singleton.mp member]
      exact entryPath.symm
    refine (detachEach_other apart).trans ((writeAll_other vhd writes).trans ?_)
    rw [others _ vhd,initial]
  have unused : (sampleUnmounted file writes).files (sampleAgain.vhdPath samplePaths) = none := by
    have absent : (sampleWritten file writes).files (sampleAgain.vhdPath samplePaths) = none :=
      (writeAll_other again writes).trans ((others _ again).trans (by simp [sampleStart,name]))
    rcases (Unmounts.all (fun _ => {})).kept (sampleAgain.vhdPath samplePaths) with kept | removed
    · exact kept.trans absent
    · exact removed
  have mounts : (sampleUnmounted file writes).Mounts plainProvider "D:/photos.spwvault" sampleCredentials
      sampleAgain := by
    refine ⟨rfl,⟨(header,List.replicate 1024 0),?_⟩,rfl,rfl,rfl,rfl,rfl⟩
    rw [container]
    exact decrypted
  obtain ⟨_,_,_,result⟩ := mount_ok samplePaths mounts false
  refine ⟨file,_,created,mounted,?_,unused,mountFirst_head result⟩
  rw [diskContent_footer content size]
  exact congrArg some same

theorem remount_keeps_writes_sample : ∃ file remounted,
    EncryptedVault.plainCreate .aes256Xts 500000 = .ok file ∧
    mountFirst samplePaths plainProvider "D:/photos.spwvault" sampleCredentials [(false,sampleAgain)]
      (sampleUnmounted file [⟨3,[0,0]⟩]) = some (sampleAgain,remounted) ∧
    ∃ volume, (sampleMounted "D:/photos.spwvault" file).diskContent (sampleEnv.vhdPath samplePaths) = some volume ∧
      (sampleWritten file [⟨3,[0,0]⟩]).diskContent (sampleEnv.vhdPath samplePaths) =
        some (applyWrites volume [⟨3,[0,0]⟩]) ∧
      (remounted.diskContent (sampleAgain.vhdPath samplePaths) = some (applyWrites volume [⟨3,[0,0]⟩]) ↔
        applyWrites volume [⟨3,[0,0]⟩] = volume) := by
  obtain ⟨file,remounted,created,mounted,_,unused,next⟩ := exists_remount [⟨3,[0,0]⟩]
  have absent : (sampleStart "D:/photos.spwvault" file).files (sampleEnv.vhdPath samplePaths) = none := by
    have apart : sampleEnv.vhdPath samplePaths ≠ "D:/photos.spwvault" := by decide
    simp [sampleStart,apart]
  refine ⟨file,remounted,created,next,remount_keeps_writes_iff absent mounted (.all _) ?_ next⟩
  intro attempt member
  rw [List.mem_singleton.mp member]
  exact unused

/-- One byte written to a new vault is gone when it is mounted again. -/
theorem written_byte_lost : ∃ file remounted,
    EncryptedVault.plainCreate .aes256Xts 500000 = .ok file ∧
    (sampleStart "D:/photos.spwvault" file).mount samplePaths plainProvider "D:/photos.spwvault"
      sampleCredentials false sampleEnv = (.ok "PhysicalDrive2",sampleMounted "D:/photos.spwvault" file) ∧
    mountFirst samplePaths plainProvider "D:/photos.spwvault" sampleCredentials [(false,sampleAgain)]
      (sampleUnmounted file [⟨0,[0x41]⟩]) = some (sampleAgain,remounted) ∧
    (sampleWritten file [⟨0,[0x41]⟩]).diskContent (sampleEnv.vhdPath samplePaths) =
      some (0x41 :: List.replicate 1023 0) ∧
    remounted.diskContent (sampleAgain.vhdPath samplePaths) = some (List.replicate 1024 0) := by
  obtain ⟨file,remounted,created,mounted,before,unused,next⟩ := exists_remount [⟨0,[0x41]⟩]
  refine ⟨file,remounted,created,mounted,next,?_,?_⟩
  · obtain ⟨_,volume,footer,_,size,content,writable,_⟩ := mount_diskContent mounted
    rw [diskContent_footer content size] at before
    rw [sampleWritten,diskContent_footer (writeAll_files content size writable _) size,Option.some_inj.mp before]
    decide +kernel
  · have absent : (sampleStart "D:/photos.spwvault" file).files (sampleEnv.vhdPath samplePaths) = none := by
      have apart : sampleEnv.vhdPath samplePaths ≠ "D:/photos.spwvault" := by decide
      simp [sampleStart,apart]
    have fresh : ∀ attempt ∈ [(false,sampleAgain)],
        (sampleUnmounted file [⟨0,[0x41]⟩]).files (attempt.2.vhdPath samplePaths) = none := by
      intro attempt member
      rw [List.mem_singleton.mp member]
      exact unused
    exact (remount_diskContent absent mounted (.all _) fresh next).trans before

end VaultState
end SetecWizard.Core
