import SetecWizard.Core.VaultMounts
import SetecWizard.Vault.RoundTrip
import SetecWizard.Library.Run
import Mathlib.Data.List.Nodup

/-! The table of mounts along a run. Unmounting can find the temporary VHD again
exactly where the name of the vault is the one the VHD was given, and where every
mount is of this kind, nothing that was decrypted stays behind.
-/
namespace SetecWizard.Core
open SetecWizard.Library

theorem Paths.tempVhd_inj (paths : Paths) {name other : String} :
    paths.tempVhd name = paths.tempVhd other ↔ name = other := by
  constructor
  · intro same
    simp only [tempVhd] at same
    exact (String.append_right_inj _).mp ((String.append_left_inj _).mp same)
  · intro same
    rw [same]

def MountEnv.Attaches (env : MountEnv) : Prop :=
  env.vhdOpened = true ∧ env.dataWritten = true ∧ env.footerWritten = true ∧
    env.openResult = ERROR_SUCCESS ∧ env.attachResult = ERROR_SUCCESS

/-- The file `createAndAttachVhd` makes. -/
def MountEnv.vhdPath (env : MountEnv) (paths : Paths) : String := paths.tempVhd ("spw_vault_" ++ env.uuid)

theorem length_vhdFooter (diskSize : UInt64) (uniqueId : Bytes 16) :
    (vhdFooter diskSize uniqueId).length = 512 := by
  have fields : ∃ fields : List (Nat × List UInt8),
      (∀ field ∈ fields, field.1 + field.2.length ≤ 512) ∧
        vhdFooter diskSize uniqueId = overwrite (List.replicate 512 0) fields := by
    refine ⟨[(0,_),(8,_),(12,_),(16,_),(28,_),(32,_),(36,_),(40,_),(48,_),(56,_),(60,_),(68,_),(64,_)],?_,rfl⟩
    have long (v : UInt32) : (be32 v).length = 4 := rfl
    simp [uniqueId.size,long,-List.reduceReplicate]
  obtain ⟨fields,fit,same⟩ := fields
  rw [same]
  exact length_overwrite fit List.length_replicate

namespace VaultState

variable {paths : Paths} {crypto : Crypto}

theorem setFile_files (s : VaultState) (path other : String) (content : Option (List UInt8)) :
    (s.setFile path content).files other = if other = path then content else s.files other := rfl

theorem setFile_none (s : VaultState) {path : String} (absent : s.files path = none) :
    s.setFile path none = s := by
  have same : (fun other => if other = path then none else s.files other) = s.files := by
    funext other
    split
    · next equal => rw [equal,absent]
    · rfl
  rw [setFile,same]

def attachVhd (s : VaultState) (vhdPath : String) (content : List UInt8) (readOnly : Bool) : VaultState :=
  { s.setFile vhdPath (some content) with
    attached := { vhdPath := vhdPath,readOnly := readOnly } :: s.attached }

def dropVhd (s : VaultState) (vhdPath : String) : VaultState :=
  { s.setFile vhdPath none with attached := s.attached.filter (·.vhdPath != vhdPath) }

theorem createAndAttachVhd_attaches (s : VaultState) {env : MountEnv} (attaches : env.Attaches)
    (decryptedData : List UInt8) (readOnly : Bool) :
    s.createAndAttachVhd paths env decryptedData readOnly =
      (.ok env.physicalPath,s.attachVhd (env.vhdPath paths)
        (decryptedData ++ vhdFooter (UInt64.ofNat decryptedData.length) env.uniqueId) readOnly) := by
  obtain ⟨opened,data,footer,openedVhd,attached⟩ := attaches
  simp only [createAndAttachVhd,opened,data,footer,openedVhd,attached,ne_eq,not_true_eq_false,if_false,
    Bool.true_eq_false]
  rfl

theorem createAndAttachVhd_fails (paths : Paths) (s : VaultState) {env : MountEnv} (fails : ¬ env.Attaches)
    (decryptedData : List UInt8) (readOnly : Bool) :
    ∃ e, s.createAndAttachVhd paths env decryptedData readOnly = (.error e,s) ∨
      s.createAndAttachVhd paths env decryptedData readOnly =
        (.error e,s.setFile (env.vhdPath paths) none) := by
  unfold createAndAttachVhd
  split
  · exact ⟨_,.inl rfl⟩
  split
  · exact ⟨_,.inr rfl⟩
  split
  · exact ⟨_,.inr rfl⟩
  split
  · exact ⟨_,.inr rfl⟩
  split
  · exact ⟨_,.inr rfl⟩
  · next opened data footer openedVhd attached =>
    refine absurd ⟨?_,?_,?_,?_,?_⟩ fails
    · exact Bool.eq_true_of_not_eq_false opened
    · exact Bool.eq_true_of_not_eq_false data
    · exact Bool.eq_true_of_not_eq_false footer
    · exact not_not.mp openedVhd
    · exact not_not.mp attached

/-- The call of `mount` comes to its end. -/
def Mounts (crypto : Crypto) (s : VaultState) (vaultPath : String) (credentials : Credentials)
    (env : MountEnv) : Prop :=
  s.mounted.any (·.1 == vaultPath) = false ∧
    (∃ volume, EncryptedVault.decryptVolume crypto vaultPath (s.files vaultPath) credentials env.progress =
      .ok volume) ∧ env.Attaches

def newEntry (paths : Paths) (vaultPath : String) (readOnly : Bool) (env : MountEnv) (header : VaultHeader) :
    MountEntry where
  info := {
    vaultPath := vaultPath
    mountPoint := env.physicalPath
    algorithm := header.algorithm
    volumeSize := header.volumeSize
    readOnly := readOnly }
  tempVhdPath := paths.tempVhd (paths.baseName vaultPath)
  createdVhd := env.vhdPath paths

theorem mount_ok (paths : Paths) {s : VaultState} {vaultPath : String} {credentials : Credentials} {env : MountEnv}
    (mounts : s.Mounts crypto vaultPath credentials env) (readOnly : Bool) :
    ∃ header data,
      EncryptedVault.decryptVolume crypto vaultPath (s.files vaultPath) credentials env.progress =
        .ok (header,data) ∧
      s.mount paths crypto vaultPath credentials readOnly env =
        (.ok env.physicalPath,
          { s.attachVhd (env.vhdPath paths)
              (data ++ vhdFooter (UInt64.ofNat data.length) env.uniqueId) readOnly with
            mounted := (vaultPath,newEntry paths vaultPath readOnly env header) :: s.mounted }) := by
  obtain ⟨unmounted,⟨⟨header,data⟩,decrypted⟩,attaches⟩ := mounts
  refine ⟨header,data,decrypted,?_⟩
  simp only [mount,unmounted,decrypted,createAndAttachVhd_attaches s attaches,Bool.false_eq_true,if_false]
  rfl

theorem mount_error (paths : Paths) {s : VaultState} {vaultPath : String} {credentials : Credentials} {env : MountEnv}
    (fails : ¬ s.Mounts crypto vaultPath credentials env) (readOnly : Bool) :
    ∃ e, s.mount paths crypto vaultPath credentials readOnly env = (.error e,s) ∨
      s.mount paths crypto vaultPath credentials readOnly env =
        (.error e,s.setFile (env.vhdPath paths) none) := by
  unfold mount
  split
  · exact ⟨_,.inl rfl⟩
  next unmounted =>
  cases decrypted : EncryptedVault.decryptVolume crypto vaultPath (s.files vaultPath) credentials env.progress with
  | error e => exact ⟨e,.inl rfl⟩
  | ok volume =>
    have noVhd : ¬ env.Attaches := fun attaches =>
      fails ⟨Bool.eq_false_of_not_eq_true unmounted,⟨volume,decrypted⟩,attaches⟩
    obtain ⟨e,left⟩ := createAndAttachVhd_fails paths s noVhd volume.2 readOnly
    refine ⟨e,left.imp ?_ ?_⟩
    · intro kept
      simp only [kept]
    · intro removed
      simp only [removed]

theorem Mounts.of_ok {s t : VaultState} {vaultPath point : String} {credentials : Credentials} {readOnly : Bool}
    {env : MountEnv} (mounted : s.mount paths crypto vaultPath credentials readOnly env = (.ok point,t)) :
    s.Mounts crypto vaultPath credentials env := by
  by_contra fails
  obtain ⟨e,failed | failed⟩ := mount_error paths fails readOnly <;> rw [failed] at mounted <;> cases mounted

theorem mount_diskContent {s t : VaultState} {vaultPath point : String} {credentials : Credentials} {readOnly : Bool}
    {env : MountEnv} (mounted : s.mount paths crypto vaultPath credentials readOnly env = (.ok point,t)) :
    ∃ header volume footer,
      EncryptedVault.decryptVolume crypto vaultPath (s.files vaultPath) credentials env.progress =
        .ok (header,volume) ∧
      footer.length = 512 ∧ t.files (env.vhdPath paths) = some (volume ++ footer) ∧
      { vhdPath := env.vhdPath paths,readOnly := readOnly } ∈ t.attached ∧
      ∀ path, path ≠ env.vhdPath paths → t.files path = s.files path := by
  obtain ⟨header,volume,decrypted,result⟩ := mount_ok paths (Mounts.of_ok mounted) readOnly
  have left : t = _ := (congrArg Prod.snd (mounted.symm.trans result))
  refine ⟨header,volume,_,decrypted,length_vhdFooter (UInt64.ofNat volume.length) env.uniqueId,?_,?_,?_⟩
  · simp only [left,attachVhd,setFile_files,if_true]
  · simp only [left,attachVhd,List.mem_cons,true_or]
  · intro path apart
    simp only [left,attachVhd,setFile_files,if_neg apart]

theorem detachVhd_cases (answers : DetachAnswers) (vhdPath : String) (s : VaultState) :
    (∃ e, s.detachVhd answers vhdPath = (.error e,s)) ∨
      s.detachVhd answers vhdPath = (.ok (),s.dropVhd vhdPath) := by
  unfold detachVhd
  generalize (if (s.files vhdPath).isNone then ERROR_FILE_NOT_FOUND else answers.openResult) = result
  dsimp only
  split
  · exact .inl ⟨_,rfl⟩
  split
  · exact .inl ⟨_,rfl⟩
  · exact .inr rfl

theorem detachVhd_ok {answers : DetachAnswers} {vhdPath : String} {s : VaultState}
    (exists_ : (s.files vhdPath).isSome) (succeeds : answers = {}) :
    s.detachVhd answers vhdPath = (.ok (),s.dropVhd vhdPath) := by
  have present : (s.files vhdPath).isNone = false := by
    rw [← Option.not_isSome,exists_]
    rfl
  rw [succeeds]
  simp only [detachVhd,present,ne_eq,Bool.false_eq_true,if_false,not_true_eq_false]
  rfl

theorem detachVhd_absent {answers : DetachAnswers} {vhdPath : String} {s : VaultState}
    (absent : s.files vhdPath = none) :
    s.detachVhd answers vhdPath = (.error (.fromWin32 .encryptionFailed ERROR_FILE_NOT_FOUND
      "Failed to open VHD for detaching"),s) := by
  rw [detachVhd,absent]
  rfl

/-- The table knows where the VHDs are. -/
def Recorded (s : VaultState) : Prop := ∀ m ∈ s.mounted, m.2.tempVhdPath = m.2.createdVhd

theorem writeDisk_mounted (vhdPath : String) (offset : Nat) (bytes : List UInt8) (s : VaultState) :
    (s.writeDisk vhdPath offset bytes).mounted = s.mounted ∧
      (s.writeDisk vhdPath offset bytes).attached = s.attached := by
  unfold writeDisk
  split
  · exact ⟨rfl,rfl⟩
  · split <;> exact ⟨rfl,rfl⟩

def NamedByUuid (paths : Paths) (crypto : Crypto) (s : VaultState) : VaultAction → Prop
  | .mount vaultPath credentials _ env =>
    s.Mounts crypto vaultPath credentials env → paths.baseName vaultPath = "spw_vault_" ++ env.uuid
  | _ => True

theorem recorded_step (s : VaultState) (action : VaultAction) (recorded : s.Recorded) :
    (s.step paths crypto action).Recorded ↔ s.NamedByUuid paths crypto action := by
  cases action with
  | mount vaultPath credentials readOnly env =>
    by_cases mounts : s.Mounts crypto vaultPath credentials env
    · obtain ⟨header,data,_,mounted⟩ := mount_ok paths mounts readOnly
      have named : (newEntry paths vaultPath readOnly env header).tempVhdPath =
          (newEntry paths vaultPath readOnly env header).createdVhd ↔
          paths.baseName vaultPath = "spw_vault_" ++ env.uuid := paths.tempVhd_inj
      simp only [step,mounted,Recorded,NamedByUuid,List.forall_mem_cons,named,mounts,true_imp_iff]
      exact and_iff_left recorded
    · have kept : (s.step paths crypto (.mount vaultPath credentials readOnly env)).Recorded := by
        obtain ⟨e,failed | failed⟩ := mount_error paths mounts readOnly <;> rw [step,failed] <;> exact recorded
      exact iff_of_true kept (fun holds => absurd holds mounts)
  | unmount answers key =>
    refine iff_of_true ?_ trivial
    rw [step,unmount]
    split
    · exact recorded
    · next name entry _ =>
      intro m member
      have before := List.mem_of_mem_filter member
      rcases detachVhd_cases (answers entry.tempVhdPath) entry.tempVhdPath s with ⟨e,failed⟩ | dropped
      · rw [failed] at before
        exact recorded m before
      · rw [dropped] at before
        exact recorded m before
  | unmountAll answers =>
    refine iff_of_true ?_ trivial
    intro m member
    cases member
  | write vhdPath offset bytes =>
    refine iff_of_true ?_ trivial
    intro m member
    rw [step,(writeDisk_mounted vhdPath offset bytes s).1] at member
    exact recorded m member

/-- Detaching succeeds, and the name a new VHD is given is not in use. -/
def Detaches (paths : Paths) (s : VaultState) : VaultAction → Prop
  | .mount _ _ _ env => s.files (env.vhdPath paths) = none
  | .unmount answers _ => ∀ vhdPath, answers vhdPath = {}
  | .unmountAll answers => ∀ vhdPath, answers vhdPath = {}
  | .write .. => True

/-- Every entry has a VHD of its own, and what else there is was there at the start. -/
structure Tracked (start s : VaultState) : Prop where
  recorded : s.Recorded
  keys : (s.mounted.map (·.1)).Nodup
  vhds : (s.mounted.map (·.2.createdVhd)).Nodup
  present : ∀ m ∈ s.mounted, (s.files m.2.createdVhd).isSome
  files : ∀ path, (s.files path).isSome → (start.files path).isSome ∨ ∃ m ∈ s.mounted, m.2.createdVhd = path
  attached : ∀ a ∈ s.attached, a ∈ start.attached ∨ ∃ m ∈ s.mounted, m.2.createdVhd = a.vhdPath

theorem dropVhd_files (s : VaultState) (vhdPath path : String) :
    (s.dropVhd vhdPath).files path = if path = vhdPath then none else s.files path := rfl

theorem mem_dropVhd_attached {s : VaultState} {vhdPath : String} {a : Attachment} :
    a ∈ (s.dropVhd vhdPath).attached ↔ a ∈ s.attached ∧ a.vhdPath ≠ vhdPath := by
  simp [dropVhd]

theorem mem_findMounted {s : VaultState} {key : String} {m : String × MountEntry}
    (found : s.findMounted key = some m) : m ∈ s.mounted := by
  rw [findMounted,Option.or_eq_some_iff] at found
  rcases found with byPath | ⟨_,byPoint⟩
  · exact List.mem_of_find?_eq_some byPath
  · exact List.mem_of_find?_eq_some byPoint

theorem Tracked.unmount {start s : VaultState} (tracked : Tracked start s) {answers : String → DetachAnswers}
    (succeeds : ∀ vhdPath, answers vhdPath = {}) {key name : String} {entry : MountEntry}
    (found : s.findMounted key = some (name,entry)) :
    s.unmount answers key =
      (.ok (),{ s.dropVhd entry.createdVhd with mounted := s.mounted.filter (·.1 != name) }) := by
  have member := mem_findMounted found
  have path : entry.tempVhdPath = entry.createdVhd := tracked.recorded _ member
  have dropped : s.detachVhd (answers entry.createdVhd) entry.createdVhd = (.ok (),s.dropVhd entry.createdVhd) :=
    detachVhd_ok (tracked.present _ member) (succeeds entry.createdVhd)
  simp only [VaultState.unmount,found,path,dropped]
  rfl

theorem Tracked.drop {start s : VaultState} (tracked : Tracked start s) {m : String × MountEntry}
    (member : m ∈ s.mounted) :
    Tracked start { s.dropVhd m.2.createdVhd with mounted := s.mounted.filter (·.1 != m.1) } := by
  have others {other : String × MountEntry} (kept : other ∈ s.mounted) (differs : other ≠ m) :
      other.1 ≠ m.1 ∧ other.2.createdVhd ≠ m.2.createdVhd :=
    ⟨fun same => differs (List.inj_on_of_nodup_map tracked.keys kept member same),
      fun same => differs (List.inj_on_of_nodup_map tracked.vhds kept member same)⟩
  refine ⟨?_,?_,?_,?_,?_,?_⟩
  · intro other kept
    exact tracked.recorded other (List.mem_of_mem_filter kept)
  · exact tracked.keys.sublist (List.filter_sublist.map _)
  · exact tracked.vhds.sublist (List.filter_sublist.map _)
  · intro other kept
    obtain ⟨before,differs⟩ := List.mem_filter.mp kept
    have apart := others before (fun same => by simp [same] at differs)
    simp only [dropVhd_files,if_neg apart.2]
    exact tracked.present other before
  · intro path there
    simp only [dropVhd_files] at there
    split at there
    · cases there
    · next apart =>
      refine (tracked.files path there).imp_right ?_
      intro ⟨other,before,same⟩
      have differs := (others before (fun equal => apart (by rw [← same,equal]))).1
      exact ⟨other,List.mem_filter.mpr ⟨before,by simpa using differs⟩,same⟩
  · intro a there
    obtain ⟨before,apart⟩ := mem_dropVhd_attached.mp there
    refine (tracked.attached a before).imp_right ?_
    intro ⟨other,kept,same⟩
    have differs := (others kept (fun equal => apart (by rw [← same,equal]))).1
    exact ⟨other,List.mem_filter.mpr ⟨kept,by simpa using differs⟩,same⟩

def dropVhds (vhdPaths : List String) (s : VaultState) : VaultState := vhdPaths.foldl dropVhd s

theorem dropVhds_files (vhdPaths : List String) (s : VaultState) (path : String) :
    (s.dropVhds vhdPaths).files path = if path ∈ vhdPaths then none else s.files path := by
  induction vhdPaths generalizing s with
  | nil => rfl
  | cons vhdPath rest ih =>
    have step := ih (s.dropVhd vhdPath)
    rw [dropVhd_files] at step
    rw [dropVhds,List.foldl_cons]
    refine step.trans ?_
    by_cases first : path = vhdPath <;> by_cases later : path ∈ rest <;> simp [first,later]

theorem mem_dropVhds_attached {vhdPaths : List String} {s : VaultState} {a : Attachment} :
    a ∈ (s.dropVhds vhdPaths).attached ↔ a ∈ s.attached ∧ a.vhdPath ∉ vhdPaths := by
  induction vhdPaths generalizing s with
  | nil => simp [dropVhds]
  | cons vhdPath rest ih =>
    rw [dropVhds,List.foldl_cons]
    refine (ih (s := s.dropVhd vhdPath)).trans ?_
    rw [mem_dropVhd_attached,List.mem_cons,not_or,and_assoc]

theorem detachEach_ok {answers : String → DetachAnswers} (succeeds : ∀ vhdPath, answers vhdPath = {})
    {entries : List (String × MountEntry)} {s : VaultState} (lastError : ErrorInfo)
    (recorded : ∀ m ∈ entries, m.2.tempVhdPath = m.2.createdVhd)
    (vhds : (entries.map (·.2.createdVhd)).Nodup)
    (present : ∀ m ∈ entries, (s.files m.2.createdVhd).isSome) :
    detachEach answers entries lastError s = (lastError,s.dropVhds (entries.map (·.2.createdVhd))) := by
  induction entries generalizing s with
  | nil => rfl
  | cons m rest ih =>
    obtain ⟨fresh,distinct⟩ := List.nodup_cons.mp vhds
    have path := recorded m (by simp)
    have dropped := detachVhd_ok (present m (by simp)) (succeeds m.2.createdVhd)
    have remain : ∀ other ∈ rest, ((s.dropVhd m.2.createdVhd).files other.2.createdVhd).isSome := by
      intro other later
      have apart : other.2.createdVhd ≠ m.2.createdVhd :=
        fun same => fresh (List.mem_map.mpr ⟨other,later,same⟩)
      rw [dropVhd_files,if_neg apart]
      exact present other (by simp [later])
    rw [detachEach,path,dropped]
    exact ih (fun other later => recorded other (by simp [later])) distinct remain

theorem Tracked.unmountAll {start s : VaultState} (tracked : Tracked start s)
    {answers : String → DetachAnswers} (succeeds : ∀ vhdPath, answers vhdPath = {}) :
    s.unmountAll answers =
      (.ok (),{ s.dropVhds (s.mounted.map (·.2.createdVhd)) with mounted := [] }) := by
  rw [VaultState.unmountAll,detachEach_ok succeeds {} tracked.recorded tracked.vhds tracked.present]
  rfl

theorem Tracked.dropAll {start s : VaultState} (tracked : Tracked start s) :
    Tracked start { s.dropVhds (s.mounted.map (·.2.createdVhd)) with mounted := [] } := by
  refine ⟨by simp [Recorded],by simp,by simp,by simp,?_,?_⟩
  · intro path there
    simp only [dropVhds_files] at there
    split at there
    · cases there
    · next apart =>
      rcases tracked.files path there with before | ⟨m,member,same⟩
      · exact .inl before
      · exact absurd (List.mem_map.mpr ⟨m,member,same⟩) apart
  · intro a there
    obtain ⟨before,apart⟩ := mem_dropVhds_attached.mp there
    rcases tracked.attached a before with initial | ⟨m,member,same⟩
    · exact .inl initial
    · exact absurd (List.mem_map.mpr ⟨m,member,same⟩) apart

theorem writeDisk_isSome (vhdPath : String) (offset : Nat) (bytes : List UInt8) (s : VaultState) (path : String) :
    ((s.writeDisk vhdPath offset bytes).files path).isSome = (s.files path).isSome := by
  unfold writeDisk
  split
  · rfl
  · next content there =>
    split
    · rw [setFile_files]
      split
      · next same => rw [same,there]; rfl
      · rfl
    · rfl

theorem Tracked.mount {start s : VaultState} (tracked : Tracked start s) {vaultPath : String}
    {credentials : Credentials} {env : MountEnv} (mounts : s.Mounts crypto vaultPath credentials env)
    (unused : s.files (env.vhdPath paths) = none)
    (named : paths.baseName vaultPath = "spw_vault_" ++ env.uuid) (readOnly : Bool) :
    Tracked start (s.mount paths crypto vaultPath credentials readOnly env).2 := by
  have recorded : (s.step paths crypto (.mount vaultPath credentials readOnly env)).Recorded :=
    (recorded_step s _ tracked.recorded).mpr (fun _ => named)
  obtain ⟨header,data,_,mounted⟩ := mount_ok paths mounts readOnly
  rw [step,mounted] at recorded
  rw [mounted]
  have newKey : vaultPath ∉ s.mounted.map (·.1) := by
    intro there
    obtain ⟨m,member,same⟩ := List.mem_map.mp there
    have never := List.any_eq_false.mp mounts.1 m member
    exact never (by simpa using same)
  have apart {m : String × MountEntry} (member : m ∈ s.mounted) : m.2.createdVhd ≠ env.vhdPath paths := by
    intro same
    have there := tracked.present m member
    rw [same,unused] at there
    cases there
  refine ⟨recorded,?_,?_,?_,?_,?_⟩
  · exact List.nodup_cons.mpr ⟨newKey,tracked.keys⟩
  · refine List.nodup_cons.mpr ⟨?_,tracked.vhds⟩
    intro there
    obtain ⟨m,member,same⟩ := List.mem_map.mp there
    exact apart member same
  · refine List.forall_mem_cons.mpr ⟨?_,?_⟩
    · simp [attachVhd,setFile_files,newEntry]
    · intro m member
      simp only [attachVhd,setFile_files,if_neg (apart member)]
      exact tracked.present m member
  · intro path there
    simp only [attachVhd,setFile_files] at there
    split at there
    · next same => exact .inr ⟨_,List.mem_cons_self,same.symm⟩
    · refine (tracked.files path there).imp_right ?_
      intro ⟨m,member,same⟩
      exact ⟨m,List.mem_cons_of_mem _ member,same⟩
  · intro a there
    rcases List.mem_cons.mp there with new | before
    · exact .inr ⟨_,List.mem_cons_self,by rw [new]; rfl⟩
    · refine (tracked.attached a before).imp_right ?_
      intro ⟨m,member,same⟩
      exact ⟨m,List.mem_cons_of_mem _ member,same⟩

theorem tracked_step {start s : VaultState} (action : VaultAction) (tracked : Tracked start s)
    (guard : s.NamedByUuid paths crypto action ∧ s.Detaches paths action) :
    Tracked start (s.step paths crypto action) := by
  obtain ⟨named,detaches⟩ := guard
  cases action with
  | mount vaultPath credentials readOnly env =>
    by_cases mounts : s.Mounts crypto vaultPath credentials env
    · exact tracked.mount mounts detaches (named mounts) readOnly
    · have kept : s.step paths crypto (.mount vaultPath credentials readOnly env) = s := by
        obtain ⟨e,failed | failed⟩ := mount_error paths mounts readOnly
        · rw [step,failed]
        · rw [step,failed]
          exact s.setFile_none detaches
      rwa [kept]
  | unmount answers key =>
    rw [step]
    cases found : s.findMounted key with
    | none =>
      simp only [VaultState.unmount,found]
      exact tracked
    | some m =>
      rw [tracked.unmount detaches found]
      exact tracked.drop (mem_findMounted found)
  | unmountAll answers =>
    rw [step,tracked.unmountAll detaches]
    exact tracked.dropAll
  | write vhdPath offset bytes =>
    obtain ⟨mounted,attached⟩ := writeDisk_mounted vhdPath offset bytes s
    obtain ⟨recorded,keys,vhds,present,files,attachments⟩ := tracked
    rw [step]
    refine ⟨?_,?_,?_,?_,?_,?_⟩
    · rwa [Recorded,mounted]
    · rwa [mounted]
    · rwa [mounted]
    · simpa only [mounted,writeDisk_isSome] using present
    · simpa only [mounted,writeDisk_isSome] using files
    · rwa [mounted,attached]

/-- What is unmounted where detaching succeeds leaves nothing that the start had not. -/
def Releases (start s : VaultState) : Prop :=
  ∀ answers : String → DetachAnswers, (∀ vhdPath, answers vhdPath = {}) →
    (∀ key name entry, s.findMounted key = some (name,entry) →
      (s.unmount answers key).1 = .ok () ∧ (s.unmount answers key).2.files entry.createdVhd = none ∧
        ∀ a ∈ (s.unmount answers key).2.attached, a.vhdPath ≠ entry.createdVhd) ∧
    (s.unmountAll answers).1 = .ok () ∧
    (∀ path, ((s.unmountAll answers).2.files path).isSome → (start.files path).isSome) ∧
    ∀ a ∈ (s.unmountAll answers).2.attached, a ∈ start.attached

theorem Tracked.releases {start s : VaultState} (tracked : Tracked start s) : Releases start s := by
  intro answers succeeds
  refine ⟨?_,?_,?_,?_⟩
  · intro key name entry found
    rw [tracked.unmount succeeds found]
    refine ⟨rfl,?_,?_⟩
    · simp [dropVhd_files]
    · intro a there
      exact (mem_dropVhd_attached.mp there).2
  · rw [tracked.unmountAll succeeds]
  · intro path there
    rw [tracked.unmountAll succeeds] at there
    rcases tracked.dropAll.files path there with initial | ⟨m,member,_⟩
    · exact initial
    · cases member
  · intro a there
    rw [tracked.unmountAll succeeds] at there
    rcases tracked.dropAll.attached a there with initial | ⟨m,member,_⟩
    · exact initial
    · cases member

theorem mount_table_sound_iff (files : String → Option (List UInt8)) (attached : List Attachment)
    (calls : List VaultAction) :
    ((∀ s ∈ Run.trace (step paths crypto) { files := files,attached := attached } calls, s.Recorded) ↔
      Run.Guarded (step paths crypto) (NamedByUuid paths crypto) { files := files,attached := attached } calls) ∧
    (Run.Guarded (step paths crypto) (fun s action => s.NamedByUuid paths crypto action ∧ s.Detaches paths action)
        { files := files,attached := attached } calls →
      ∀ s ∈ Run.trace (step paths crypto) { files := files,attached := attached } calls,
        Releases { files := files,attached := attached } s) := by
  constructor
  · refine Run.invariant_iff_guarded _ _ (fun _ => True) _ (fun _ _ _ => trivial) ?_ _ _ trivial ?_
    · intro s action _ recorded
      exact recorded_step s action recorded
    · intro m member
      cases member
  · intro guarded s visited
    have initial : Tracked { files := files,attached := attached } { files := files,attached := attached } := by
      refine ⟨by simp [Recorded],by simp,by simp,by simp,?_,?_⟩
      · intro path there
        exact .inl there
      · intro a there
        exact .inl there
    exact (Run.guarded_invariant _ _ _ (fun s action tracked guard => tracked_step action tracked guard)
      _ _ initial guarded s visited).releases

/-! One vault of two sectors, created and mounted. -/

def samplePaths : Paths where
  tempPath := "C:/Temp"
  baseName := fun path =>
    String.ofList ((path.toList.reverse.takeWhile (· ≠ '/')).reverse.takeWhile (· ≠ '.'))

def sampleCredentials : Credentials := { password := [0x70,0x77] }

def sampleEnv : MountEnv := { uuid := "4f2a",physicalPath := "PhysicalDrive2" }

def sampleStart (vaultPath : String) (file : List UInt8) : VaultState where
  files := fun path => if path = vaultPath then some file else none

def sampleMount (vaultPath : String) : VaultAction := .mount vaultPath sampleCredentials false sampleEnv

def sampleMounted (vaultPath : String) (file : List UInt8) : VaultState :=
  (sampleStart vaultPath file).step samplePaths plainProvider (sampleMount vaultPath)

theorem exists_sample : ∃ file, EncryptedVault.plainCreate .aes256Xts 500000 = .ok file ∧
    ∀ vaultPath, ∃ header, EncryptedVault.decryptVolume plainProvider vaultPath (some file) sampleCredentials
      (fun _ _ => true) = .ok (header,List.replicate 1024 0) := by
  obtain ⟨file,created⟩ : ∃ file, EncryptedVault.plainCreate .aes256Xts 500000 = .ok file :=
    EncryptedVault.exists_of_isOk (by decide)
  obtain ⟨_,h,keyMaterial,written,run⟩ := EncryptedVault.create_ok created
  refine ⟨file,created,fun vaultPath => ?_⟩
  have trips : EncryptedVault.RoundTrips plainProvider vaultPath file sampleCredentials (fun _ _ => true) 1024 :=
    EncryptedVault.roundTrips_xts plainProvider_ideal written (by decide) run (fun _ _ => rfl)
  obtain ⟨header,_,volume⟩ := trips
  have size : (EncryptedVault.roundedSize 1024).toNat = 1024 := by decide
  rw [size] at volume
  exact ⟨header,volume⟩

theorem exists_sampleMounted (vaultPath : String) : ∃ file header,
    EncryptedVault.plainCreate .aes256Xts 500000 = .ok file ∧
    (sampleStart vaultPath file).mount samplePaths plainProvider vaultPath sampleCredentials false sampleEnv =
      (.ok "PhysicalDrive2",sampleMounted vaultPath file) ∧
    (sampleMounted vaultPath file).mounted = [(vaultPath,newEntry samplePaths vaultPath false sampleEnv header)] ∧
    EncryptedVault.decryptVolume plainProvider vaultPath (some file) sampleCredentials (fun _ _ => true) =
      .ok (header,List.replicate 1024 0) := by
  obtain ⟨file,created,decrypts⟩ := exists_sample
  obtain ⟨header,decrypted⟩ := decrypts vaultPath
  have initial : (sampleStart vaultPath file).files vaultPath = some file := if_pos rfl
  have volume : EncryptedVault.decryptVolume plainProvider vaultPath ((sampleStart vaultPath file).files vaultPath)
      sampleCredentials sampleEnv.progress = .ok (header,List.replicate 1024 0) := by
    rw [initial]
    exact decrypted
  obtain ⟨found,data,again,result⟩ := mount_ok samplePaths
    (⟨rfl,⟨_,volume⟩,rfl,rfl,rfl,rfl,rfl⟩ : (sampleStart vaultPath file).Mounts plainProvider vaultPath
      sampleCredentials sampleEnv) false
  have same : found = header := congrArg Prod.fst (Except.ok.inj (again.symm.trans volume))
  rw [same] at result
  have mounted : (sampleStart vaultPath file).mount samplePaths plainProvider vaultPath sampleCredentials false
      sampleEnv = (.ok "PhysicalDrive2",sampleMounted vaultPath file) := by
    refine Prod.ext ?_ rfl
    rw [result]
    rfl
  refine ⟨file,header,created,mounted,?_,decrypted⟩
  have after := (Prod.mk.inj (mounted.symm.trans result)).2
  rw [after]
  rfl

theorem mount_table_sound_sample :
    ∃ file, EncryptedVault.plainCreate .aes256Xts 500000 = .ok file ∧
      ∀ s ∈ Run.trace (step samplePaths plainProvider)
        (sampleStart "D:/spw_vault_4f2a.spwvault" file) [sampleMount "D:/spw_vault_4f2a.spwvault"],
        s.Recorded ∧ Releases (sampleStart "D:/spw_vault_4f2a.spwvault" file) s := by
  obtain ⟨file,created,_⟩ := exists_sample
  refine ⟨file,created,?_⟩
  intro s visited
  have named : samplePaths.baseName "D:/spw_vault_4f2a.spwvault" = "spw_vault_" ++ sampleEnv.uuid := by
    decide
  have other : sampleEnv.vhdPath samplePaths ≠ "D:/spw_vault_4f2a.spwvault" := by decide
  have sound := @mount_table_sound_iff samplePaths plainProvider
    (sampleStart "D:/spw_vault_4f2a.spwvault" file).files [] [sampleMount "D:/spw_vault_4f2a.spwvault"]
  have unused : (sampleStart "D:/spw_vault_4f2a.spwvault" file).files (sampleEnv.vhdPath samplePaths) = none := by
    simp [sampleStart,other]
  exact ⟨sound.1.mpr ⟨fun _ => named,trivial⟩ s visited,sound.2 ⟨⟨fun _ => named,unused⟩,trivial⟩ s visited⟩

/-- A vault of another name is left decrypted by both ways of unmounting it. -/
theorem unmount_leaves_vhd :
    ∃ file, EncryptedVault.plainCreate .aes256Xts 500000 = .ok file ∧
      ∃ entry, (sampleMounted "D:/photos.spwvault" file).mounted = [("D:/photos.spwvault",entry)] ∧
        entry.tempVhdPath ≠ entry.createdVhd ∧
        (((sampleMounted "D:/photos.spwvault" file).unmount (fun _ => {}) "D:/photos.spwvault").2.files
          entry.createdVhd).isSome ∧
        (((sampleMounted "D:/photos.spwvault" file).unmountAll (fun _ => {})).2.files entry.createdVhd).isSome := by
  obtain ⟨file,header,created,mounted,table,_⟩ := exists_sampleMounted "D:/photos.spwvault"
  refine ⟨file,created,?_⟩
  have apart : samplePaths.tempVhd (samplePaths.baseName "D:/photos.spwvault") ≠ sampleEnv.vhdPath samplePaths := by
    decide
  have other : samplePaths.tempVhd (samplePaths.baseName "D:/photos.spwvault") ≠ "D:/photos.spwvault" := by
    decide
  obtain ⟨_,_,_,_,_,content,_,others⟩ := mount_diskContent mounted
  have absent : (sampleMounted "D:/photos.spwvault" file).files
      (samplePaths.tempVhd (samplePaths.baseName "D:/photos.spwvault")) = none := by
    rw [others _ apart]
    simp [sampleStart,other]
  have there : ((sampleMounted "D:/photos.spwvault" file).files (sampleEnv.vhdPath samplePaths)).isSome := by
    rw [content]
    rfl
  generalize sampleMounted "D:/photos.spwvault" file = s at absent there table
  have failed := @detachVhd_absent {} _ _ absent
  refine ⟨_,table,apart,?_,?_⟩
  · have found : s.findMounted "D:/photos.spwvault" =
        some ("D:/photos.spwvault",newEntry samplePaths "D:/photos.spwvault" false sampleEnv header) := by
      simp [findMounted,table]
    simp only [unmount,found,newEntry,failed]
    exact there
  · simp only [unmountAll,table,detachEach,newEntry,failed]
    exact there

end VaultState
end SetecWizard.Core
