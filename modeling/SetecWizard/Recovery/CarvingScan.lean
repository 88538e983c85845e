import Mathlib.Data.List.Nodup
import SetecWizard.Core.FileCarving
import SetecWizard.Recovery.ByteReaders
import SetecWizard.Recovery.MftScan

/-! The carving scan looks at the start of every sector of the partition, as long as the size
of a chunk is a number of 32 bits, also when it is rounded up to sectors.
-/
namespace SetecWizard.Core.FileRecovery
open SetecWizard.Library

variable {env : RecoveryEnv} {r : FileRecovery} {disk : Disk}

/-- A header at a sector of the partition. -/
abbrev Hit := Nat × CarvedFileSignature

/-- The bytes of a sector match a signature. -/
def Matches (r : FileRecovery) (disk : Disk) (q : Nat) (sig : CarvedFileSignature) : Prop :=
  window disk.byte (partBase r + q * r.sectorSize.toNat + sig.headerOffset.toNat) sig.header.length = sig.header

instance (q : Nat) (sig : CarvedFileSignature) : Decidable (Matches r disk q sig) :=
  inferInstanceAs (Decidable (_ = _))

def hits (r : FileRecovery) (disk : Disk) (q : Nat) : List Hit :=
  (getDefaultSignatures.filter (fun sig => Matches r disk q sig)).map (fun sig => (q,sig))

def Carved.push (r : FileRecovery) (s : Carved) (hit : Hit) : Carved where
  results := s.results ++ [carvedFile r hit.2 (r.partStart + .ofNat hit.1) s.carvedCount]
  carvedCount := s.carvedCount + 1

def hitFiles (r : FileRecovery) (found : List Hit) : List RecoverableFile :=
  found.mapIdx (fun k hit => carvedFile r hit.2 (r.partStart + .ofNat hit.1) (.ofNat k))

theorem push_all (found : List Hit) : found.foldl (Carved.push r) {} = ⟨hitFiles r found,.ofNat found.length⟩ := by
  induction found using List.reverseRecOn with
  | nil => rfl
  | append_singleton found hit ih =>
    rw [List.foldl_append,ih,List.foldl_cons,List.foldl_nil,Carved.push,hitFiles,hitFiles,List.mapIdx_concat,
      List.length_append,List.length_singleton,UInt32.ofNat_add]
    rfl

theorem mem_hits {q p : Nat} {sig : CarvedFileSignature} :
    (p,sig) ∈ hits r disk q ↔ p = q ∧ sig ∈ getDefaultSignatures ∧ Matches r disk q sig := by
  rw [hits,List.mem_map]
  constructor
  · rintro ⟨sig',member,same⟩
    obtain ⟨rfl,rfl⟩ := Prod.mk.inj same
    obtain ⟨listed,matched⟩ := List.mem_filter.mp member
    exact ⟨rfl,listed,of_decide_eq_true matched⟩
  · rintro ⟨rfl,listed,matched⟩
    exact ⟨sig,List.mem_filter.mpr ⟨listed,decide_eq_true matched⟩,rfl⟩

def allHits (r : FileRecovery) (disk : Disk) (n : Nat) : List Hit := (List.range n).flatMap (hits r disk)

theorem mem_allHits {n q : Nat} {sig : CarvedFileSignature} :
    (q,sig) ∈ allHits r disk n ↔ q < n ∧ sig ∈ getDefaultSignatures ∧ Matches r disk q sig := by
  rw [allHits,List.mem_flatMap]
  constructor
  · rintro ⟨p,member,found⟩
    obtain ⟨rfl,right⟩ := mem_hits.mp found
    exact ⟨List.mem_range.mp member,right⟩
  · rintro ⟨below,right⟩
    exact ⟨q,List.mem_range.mpr below,mem_hits.mpr ⟨rfl,right⟩⟩

theorem signatures_nodup : getDefaultSignatures.Nodup := by decide

theorem allHits_succ (n : Nat) : allHits r disk (n + 1) = allHits r disk n ++ hits r disk n := by
  rw [allHits,List.range_succ,List.flatMap_append,List.flatMap_singleton,allHits]

/-- No hit is there twice, and they are in the order of the sectors. -/
theorem allHits_ordered (n : Nat) :
    (allHits r disk n).Nodup ∧ (allHits r disk n).Pairwise (fun a b => a.1 ≤ b.1) := by
  induction n with
  | zero => exact ⟨List.nodup_nil,List.Pairwise.nil⟩
  | succ n ih =>
    have here : (hits r disk n).Nodup := (signatures_nodup.filter _).map (fun _ _ same => (Prod.mk.inj same).2)
    have at_n : ∀ hit ∈ hits r disk n, hit.1 = n := fun hit member => (mem_hits.mp member).1
    have before : ∀ hit ∈ allHits r disk n, hit.1 < n := fun hit member => (mem_allHits.mp member).1
    rw [allHits_succ]
    constructor
    · apply List.nodup_append.mpr
      refine ⟨ih.1,here,fun a left b right => ?_⟩
      rintro rfl
      have low := before a left
      rw [at_n a right] at low
      exact Nat.lt_irrefl n low
    · apply List.pairwise_append.mpr
      refine ⟨ih.2,here.imp_of_mem (fun left right _ => ?_),fun a left b right => ?_⟩
      · rw [at_n _ left,at_n _ right]
      · rw [at_n b right]
        exact Nat.le_of_lt (before a left)

section Sectors

variable {sectorIdx : UInt64} {chunk : List UInt8}

theorem sector_index (positive : 0 < r.sectorSize.toNat) {off : UInt64} {k : Nat}
    (start : off.toNat = k * r.sectorSize.toNat) : off / r.sectorSize.toUInt64 = .ofNat k := by
  have count : k ≤ k * r.sectorSize.toNat := Nat.le_mul_of_pos_right k positive
  have bound := off.toNat_lt
  apply UInt64.toNat_inj.mp
  rw [UInt64.toNat_div,UInt32.toNat_toUInt64,start,Nat.mul_div_cancel _ positive,UInt64.toNat_ofNat']
  exact (Nat.mod_eq_of_lt (by omega)).symm

/-- The chunk holds the sectors from some one on, and they are not too many to be counted. -/
structure Holds (r : FileRecovery) (disk : Disk) (sectorIdx : UInt64) (m : Nat) (chunk : List UInt8) : Prop where
  bytes : chunk = window disk.byte (partBase r + sectorIdx.toNat * r.sectorSize.toNat) (m * r.sectorSize.toNat)
  small : m * r.sectorSize.toNat < 2 ^ 32
  wide : 512 ≤ r.sectorSize.toNat

theorem headers_short : ∀ sig ∈ getDefaultSignatures,
    sig.headerOffset.toNat + sig.header.length ≤ 15 ∧ 0 < sig.header.length := by decide

theorem checkSignature_eq {m : Nat} (held : Holds r disk sectorIdx m chunk) {off : UInt64} {k : Nat}
    (start : off.toNat = k * r.sectorSize.toNat) (below : k < m) {sig : CarvedFileSignature}
    (listed : sig ∈ getDefaultSignatures) (s : Carved) :
    checkSignature r chunk sectorIdx off s sig =
      if Matches r disk (sectorIdx.toNat + k) sig then s.push r (sectorIdx.toNat + k,sig) else s := by
  have wide := held.wide
  have small := held.small
  obtain ⟨short,_⟩ := headers_short sig listed
  have room : (k + 1) * r.sectorSize.toNat ≤ m * r.sectorSize.toNat := Nat.mul_le_mul_right _ below
  rw [Nat.add_mul,Nat.one_mul] at room
  have width := sig.headerOffset.toNat_lt
  have place : (off + sig.headerOffset.toUInt64).toNat = k * r.sectorSize.toNat + sig.headerOffset.toNat := by
    rw [UInt64.toNat_add,UInt32.toNat_toUInt64,start]
    exact Nat.mod_eq_of_lt (by omega)
  have length : chunk.length = m * r.sectorSize.toNat := by rw [held.bytes,length_window]
  have sector := sector_index (by omega) start
  have header : slice chunk (k * r.sectorSize.toNat + sig.headerOffset.toNat) sig.header.length =
      window disk.byte (partBase r + (sectorIdx.toNat + k) * r.sectorSize.toNat + sig.headerOffset.toNat)
        sig.header.length := by
    rw [held.bytes,slice_window _ _ _ _ _ (by omega),Nat.add_mul]
    apply congrArg (fun off => window disk.byte off sig.header.length)
    omega
  have number : r.partStart + sectorIdx + .ofNat k = r.partStart + .ofNat (sectorIdx.toNat + k) := by
    rw [UInt64.ofNat_add,UInt64.ofNat_toNat,UInt64.add_assoc]
  rw [checkSignature]
  simp only [place,length,header,sector,number]
  rw [if_neg (by omega)]
  rfl

theorem checkSector_eq {m : Nat} (held : Holds r disk sectorIdx m chunk) {off : UInt64} {k : Nat}
    (start : off.toNat = k * r.sectorSize.toNat) (below : k < m) (s : Carved) :
    getDefaultSignatures.foldl (checkSignature r chunk sectorIdx off) s =
      (hits r disk (sectorIdx.toNat + k)).foldl (Carved.push r) s := by
  have each : ∀ sigs : List CarvedFileSignature, (∀ sig ∈ sigs, sig ∈ getDefaultSignatures) → ∀ s,
      sigs.foldl (checkSignature r chunk sectorIdx off) s =
        ((sigs.filter (fun sig => Matches r disk (sectorIdx.toNat + k) sig)).map
          (fun sig => (sectorIdx.toNat + k,sig))).foldl (Carved.push r) s := by
    intro sigs
    induction sigs with
    | nil => exact fun _ _ => rfl
    | cons sig rest ih =>
      intro listed s
      obtain ⟨here,there⟩ := List.forall_mem_cons.mp listed
      rw [List.foldl_cons,checkSignature_eq held start below here,ih there]
      by_cases found : Matches r disk (sectorIdx.toNat + k) sig
      · rw [if_pos found,List.filter_cons,if_pos (decide_eq_true found),List.map_cons,List.foldl_cons]
      · rw [if_neg found,List.filter_cons,if_neg (by rw [decide_eq_false found]; exact Bool.false_ne_true)]
  exact each _ (fun _ listed => listed) s

/-- The hits of some sectors that follow one another. -/
def hitsFrom (r : FileRecovery) (disk : Disk) (first n : Nat) : List Hit :=
  (List.range' first n).flatMap (hits r disk)

theorem checkSectors_eq {m : Nat} (held : Holds r disk sectorIdx m chunk) {fuel : Nat} :
    ∀ {off : UInt64} {k left : Nat} (s : Carved), off.toNat = k * r.sectorSize.toNat → k + left = m → left < fuel →
      checkSectors r chunk sectorIdx fuel off s =
        some ((hitsFrom r disk (sectorIdx.toNat + k) left).foldl (Carved.push r) s) := by
  have wide := held.wide
  have small := held.small
  have reach : maxHeaderCheck.toUInt64.toNat = 15 := by decide
  have length : chunk.length = m * r.sectorSize.toNat := by rw [held.bytes,length_window]
  have width := r.sectorSize.toNat_lt
  induction fuel with
  | zero => intro _ _ left _ _ _ none; exact absurd none (Nat.not_lt_zero left)
  | succ fuel ih =>
    intro off k left s start total enough
    have last : k * r.sectorSize.toNat ≤ m * r.sectorSize.toNat := Nat.mul_le_mul_right _ (by omega)
    have stop : (off + maxHeaderCheck.toUInt64).toNat = k * r.sectorSize.toNat + 15 := by
      rw [UInt64.toNat_add,start,reach]
      exact Nat.mod_eq_of_lt (by omega)
    rw [checkSectors,stop,length]
    cases left with
    | zero =>
      obtain rfl : k = m := total
      rw [if_pos (by omega)]
      rfl
    | succ left =>
      have room : (k + 1) * r.sectorSize.toNat ≤ m * r.sectorSize.toNat := Nat.mul_le_mul_right _ (by omega)
      have next : (off + r.sectorSize.toUInt64).toNat = (k + 1) * r.sectorSize.toNat := by
        rw [UInt64.toNat_add,UInt32.toNat_toUInt64,start,Nat.add_mul,Nat.one_mul]
        exact Nat.mod_eq_of_lt (by omega)
      rw [Nat.add_mul,Nat.one_mul] at room
      rw [if_neg (by omega),checkSector_eq held start (by omega),@ih _ (k + 1) left _ next (by omega) (by omega),hitsFrom,hitsFrom,
        List.range'_succ,List.flatMap_cons,List.foldl_append,Nat.add_assoc]

end Sectors

section Chunks

variable (never : ∀ pos, env.canceled pos = false) (full : env.device.ReadsInFull) (wide : 512 ≤ r.sectorSize.toNat)
  (signed : disk.totalBytes.toNat < 2 ^ 63) (inside : partBase r + partBytes r ≤ disk.totalBytes.toNat)
include signed inside

theorem sector_place {sectorIdx : UInt64} {m : Nat} (within : sectorIdx.toNat + m ≤ r.partSectors.toNat) :
    (r.partStart * r.sectorSize.toUInt64 + sectorIdx * r.sectorSize.toUInt64).toNat =
        partBase r + sectorIdx.toNat * r.sectorSize.toNat ∧
      partBase r + sectorIdx.toNat * r.sectorSize.toNat + m * r.sectorSize.toNat ≤ disk.totalBytes.toNat := by
  have part : (sectorIdx.toNat + m) * r.sectorSize.toNat ≤ r.partSectors.toNat * r.sectorSize.toNat :=
    Nat.mul_le_mul_right _ within
  rw [Nat.add_mul] at part
  rw [partBase,partBytes] at inside
  have first : (r.partStart * r.sectorSize.toUInt64).toNat = r.partStart.toNat * r.sectorSize.toNat := by
    rw [UInt64.toNat_mul,UInt32.toNat_toUInt64]
    exact Nat.mod_eq_of_lt (by omega)
  have second : (sectorIdx * r.sectorSize.toUInt64).toNat = sectorIdx.toNat * r.sectorSize.toNat := by
    rw [UInt64.toNat_mul,UInt32.toNat_toUInt64]
    exact Nat.mod_eq_of_lt (by omega)
  rw [UInt64.toNat_add,first,second,partBase]
  exact ⟨Nat.mod_eq_of_lt (by omega),by omega⟩

include full wide

theorem chunk_held {sectorIdx sectorsToRead : UInt64} (within : sectorIdx.toNat + sectorsToRead.toNat ≤ r.partSectors.toNat)
    (small : sectorsToRead.toNat * r.sectorSize.toNat + r.sectorSize.toNat ≤ 2 ^ 32) :
    ∃ chunk, readPartitionBytes env r disk (sectorIdx * r.sectorSize.toUInt64)
        (sectorsToRead * r.sectorSize.toUInt64).toUInt32 = .ok chunk ∧
      Holds r disk sectorIdx sectorsToRead.toNat chunk := by
  have positive : 0 < r.sectorSize.toNat := by omega
  obtain ⟨place,room⟩ := sector_place signed inside within
  have bytes : (sectorsToRead * r.sectorSize.toUInt64).toUInt32.toNat = sectorsToRead.toNat * r.sectorSize.toNat := by
    rw [UInt64.toNat_toUInt32,UInt64.toNat_mul,UInt32.toNat_toUInt64]
    omega
  have aligned : (r.partStart * r.sectorSize.toUInt64 + sectorIdx * r.sectorSize.toUInt64).toNat %
      r.sectorSize.toNat = 0 := by
    rw [place,partBase,← Nat.add_mul,Nat.mul_mod_left]
  have start : ((r.partStart * r.sectorSize.toUInt64 + sectorIdx * r.sectorSize.toUInt64) %
      r.sectorSize.toUInt64).toUInt32 = 0 := by
    apply UInt32.toNat_inj.mp
    rw [(PartitionRecovery.sector_of positive _).2,aligned]
    rfl
  have read := (@PartitionRecovery.readPartitionBytes_exact_iff r.sectorSize disk
    (r.partStart * r.sectorSize.toUInt64 + sectorIdx * r.sectorSize.toUInt64) positive _ full env rfl r rfl
    (sectorIdx * r.sectorSize.toUInt64) (sectorsToRead * r.sectorSize.toUInt64).toUInt32 rfl
    (by rw [place,bytes]; exact room)).mpr (by
      rw [aligned,start,UInt32.zero_add,PartitionRecovery.rounded positive,bytes,if_pos small,Nat.zero_add]
      exact le_roundUp positive)
  rw [place,bytes] at read
  exact ⟨_,read,⟨rfl,by omega,wide⟩⟩

include never

theorem carveChunks_eq (small : min 128 r.partSectors.toNat * r.sectorSize.toNat + r.sectorSize.toNat ≤ 2 ^ 32)
    {sectorFuel : Nat} (rounds : 128 < sectorFuel) {fuel : Nat} :
    ∀ {sectorIdx : UInt64} (s : Carved), r.partSectors.toNat - sectorIdx.toNat < fuel →
      carveChunks env r disk sectorFuel fuel sectorIdx s = some (.ok
        ((hitsFrom r disk sectorIdx.toNat (r.partSectors.toNat - sectorIdx.toNat)).foldl (Carved.push r) s).results) := by
  have unit : chunkSectors.toNat = 128 := rfl
  have sectors : r.partSectors.toNat * 512 ≤ r.partSectors.toNat * r.sectorSize.toNat := Nat.mul_le_mul_left _ wide
  have short : r.partSectors.toNat < 2 ^ 62 := by
    rw [partBytes] at inside
    omega
  induction fuel with
  | zero => exact fun _ none => absurd none (Nat.not_lt_zero _)
  | succ fuel ih =>
    intro sectorIdx s enough
    rw [carveChunks]
    by_cases below : sectorIdx < r.partSectors
    · have less : sectorIdx.toNat < r.partSectors.toNat := UInt64.lt_iff_toNat_lt.mp below
      have left : (r.partSectors - sectorIdx).toNat = r.partSectors.toNat - sectorIdx.toNat :=
        UInt64.toNat_sub_of_le _ _ (UInt64.le_iff_toNat_le.mpr (Nat.le_of_lt less))
      have toRead : (min chunkSectors (r.partSectors - sectorIdx)).toNat =
          min 128 (r.partSectors.toNat - sectorIdx.toNat) := by
        rw [UInt64.toNat_min,unit,left]
      have next : (sectorIdx + chunkSectors).toNat = sectorIdx.toNat + 128 := by
        rw [UInt64.toNat_add,unit]
        exact Nat.mod_eq_of_lt (by omega)
      have fewer : min 128 (r.partSectors.toNat - sectorIdx.toNat) * r.sectorSize.toNat ≤
          min 128 r.partSectors.toNat * r.sectorSize.toNat := Nat.mul_le_mul_right _ (by omega)
      obtain ⟨chunk,read,held⟩ := chunk_held full wide signed inside
        (by rw [toRead]; omega : sectorIdx.toNat + (min chunkSectors (r.partSectors - sectorIdx)).toNat ≤ _)
        (by rw [toRead]; omega)
      rw [toRead] at held
      have checked := @checkSectors_eq r disk sectorIdx chunk _ held sectorFuel 0 0 _ s (Nat.zero_mul _).symm
        (Nat.zero_add _) (by omega)
      rw [if_neg (not_not_intro below),never,if_neg Bool.false_ne_true]
      simp only [read,checked]
      have sum : List.range' (sectorIdx.toNat + 0) (min 128 (r.partSectors.toNat - sectorIdx.toNat)) ++
          List.range' (sectorIdx.toNat + 128) (r.partSectors.toNat - (sectorIdx.toNat + 128)) =
          List.range' sectorIdx.toNat (r.partSectors.toNat - sectorIdx.toNat) := by
        rcases Nat.le_total 128 (r.partSectors.toNat - sectorIdx.toNat) with whole | last
        · have split : r.partSectors.toNat - sectorIdx.toNat =
              128 + (r.partSectors.toNat - (sectorIdx.toNat + 128)) := by omega
          rw [Nat.min_eq_left whole,Nat.add_zero,List.range'_append_1,← split]
        · have none : r.partSectors.toNat - (sectorIdx.toNat + 128) = 0 := by omega
          rw [Nat.min_eq_right last,none,List.range'_zero,List.append_nil,Nat.add_zero]
      rw [ih _ (by omega),next,hitsFrom,hitsFrom,hitsFrom,← List.foldl_append,← List.flatMap_append,sum]
    · have ended : r.partSectors.toNat - sectorIdx.toNat = 0 := by
        rw [UInt64.lt_iff_toNat_lt] at below
        omega
      rw [if_pos below,ended]
      rfl

end Chunks

section Missed

variable {sectorIdx : UInt64} {chunk : List UInt8}

theorem checkSector_new {off : UInt64} {sigs : List CarvedFileSignature} :
    ∀ {s : Carved}, ∀ file ∈ (sigs.foldl (checkSignature r chunk sectorIdx off) s).results,
      file ∈ s.results ∨ file.carvedLba = r.partStart + sectorIdx + off / r.sectorSize.toUInt64 := by
  induction sigs with
  | nil => exact fun _ member => .inl member
  | cons sig rest ih =>
    intro s file member
    rw [List.foldl_cons] at member
    rcases ih file member with before | new
    · rw [checkSignature] at before
      split at before
      next => exact .inl before
      next =>
        split at before
        next =>
          rcases List.mem_append.mp before with old | here
          · exact .inl old
          · rw [List.mem_singleton.mp here]
            exact .inr rfl
        next => exact .inl before
    · exact .inr new

variable (positive : 0 < r.sectorSize.toNat)
include positive

theorem checkSectors_new (short : chunk.length < 2 ^ 32) {fuel : Nat} :
    ∀ {off : UInt64} {k : Nat} {s s' : Carved}, off.toNat = k * r.sectorSize.toNat → off.toNat < 2 ^ 33 →
      checkSectors r chunk sectorIdx fuel off s = some s' → ∀ file ∈ s'.results, file ∈ s.results ∨
        ∃ k', k' * r.sectorSize.toNat + 15 ≤ chunk.length ∧ file.carvedLba = r.partStart + sectorIdx + .ofNat k' := by
  have reach : maxHeaderCheck.toUInt64.toNat = 15 := by decide
  have width := r.sectorSize.toNat_lt
  induction fuel with
  | zero => intro _ _ _ _ _ _ checked; cases checked
  | succ fuel ih =>
    intro off k s s' start bounded checked file member
    rw [checkSectors] at checked
    split at checked
    next =>
      cases checked
      exact .inl member
    next more =>
      rw [UInt64.toNat_add,reach,Nat.mod_eq_of_lt (by omega)] at more
      have next : (off + r.sectorSize.toUInt64).toNat = (k + 1) * r.sectorSize.toNat := by
        rw [UInt64.toNat_add,UInt32.toNat_toUInt64,start,Nat.add_mul,Nat.one_mul]
        exact Nat.mod_eq_of_lt (by omega)
      have sum : (off + r.sectorSize.toUInt64).toNat = off.toNat + r.sectorSize.toNat := by
        rw [next,start,Nat.add_mul,Nat.one_mul]
      have sector := sector_index positive start
      rcases ih next (by omega) checked file member with before | later
      · rcases checkSector_new file before with old | here
        · exact .inl old
        · rw [sector] at here
          exact .inr ⟨k,by omega,here⟩
      · exact .inr later

/-- What is read of a chunk is at most its size, and nothing where rounding up wraps. -/
theorem chunk_short {offset : UInt64} {size : UInt32} (read : readPartitionBytes env r disk offset size = .ok chunk)
    (aligned : (r.partStart * r.sectorSize.toUInt64 + offset) % r.sectorSize.toUInt64 = 0) :
    chunk.length ≤ if size.toNat + r.sectorSize.toNat ≤ 2 ^ 32 then size.toNat else 0 := by
  have start : ((r.partStart * r.sectorSize.toUInt64 + offset) % r.sectorSize.toUInt64).toUInt32 = 0 := by
    rw [aligned]
    rfl
  have below := sectors_below size r.sectorSize
  unfold readPartitionBytes at read
  simp only [start,UInt32.zero_add,PartitionRecovery.count_aligned positive] at read
  split at read
  next => cases read
  next data sectors =>
    have most := (readSectors_ok rfl sectors).2.2
    rw [UInt64.toNat_mul,UInt32.toNat_toUInt64,UInt32.toNat_toUInt64,Nat.mod_eq_of_lt (by omega),
      PartitionRecovery.rounded positive] at most
    split at read
    next => cases read
    next enough =>
      rw [← Except.ok.inj read,slice,List.length_take,List.length_drop]
      split
      next => omega
      next wraps =>
        rw [if_neg wraps] at most
        omega

variable (wide : 512 ≤ r.sectorSize.toNat) (signed : disk.totalBytes.toNat < 2 ^ 63)
  (inside : partBase r + partBytes r ≤ disk.totalBytes.toNat)
include wide signed inside

theorem chunk_new (below : sectorIdx.toNat < r.partSectors.toNat) {size : UInt32} {sectorFuel : Nat} {s s' : Carved}
    (read : readPartitionBytes env r disk (sectorIdx * r.sectorSize.toUInt64) size = .ok chunk)
    (checked : checkSectors r chunk sectorIdx sectorFuel 0 s = some s') :
    ∀ file ∈ s'.results, file ∈ s.results ∨ ∃ k,
      k * r.sectorSize.toNat + 15 ≤ (if size.toNat + r.sectorSize.toNat ≤ 2 ^ 32 then size.toNat else 0) ∧
        k < 2 ^ 32 ∧ file.carvedLba = r.partStart + .ofNat (sectorIdx.toNat + k) := by
  intro file member
  have zero : (0 : UInt64).toNat = 0 := rfl
  obtain ⟨place,_⟩ := sector_place signed inside (m := 1) below
  have aligned : (r.partStart * r.sectorSize.toUInt64 + sectorIdx * r.sectorSize.toUInt64) %
      r.sectorSize.toUInt64 = 0 := by
    apply UInt64.toNat_inj.mp
    rw [UInt64.toNat_mod,UInt32.toNat_toUInt64,place,partBase,← Nat.add_mul,Nat.mul_mod_left]
    rfl
  have most := chunk_short positive read aligned
  have width := size.toNat_lt
  have short : chunk.length < 2 ^ 32 := by
    split at most <;> omega
  rcases checkSectors_new positive short (k := 0) (by rw [zero,Nat.zero_mul]) (by rw [zero]; decide) checked file member
    with old | ⟨k,first,here⟩
  · exact .inl old
  · have count : k ≤ k * r.sectorSize.toNat := Nat.le_mul_of_pos_right k positive
    refine .inr ⟨k,Nat.le_trans first most,by omega,?_⟩
    rw [here,UInt64.ofNat_add,UInt64.ofNat_toNat,UInt64.add_assoc]

theorem carveChunks_new {sectorFuel fuel : Nat} :
    ∀ {sectorIdx : UInt64} {s : Carved} {files : List RecoverableFile},
      carveChunks env r disk sectorFuel fuel sectorIdx s = some (.ok files) → ∀ file ∈ files,
        file ∈ s.results ∨ ∃ q, sectorIdx.toNat ≤ q ∧ q < 2 ^ 64 ∧ file.carvedLba = r.partStart + .ofNat q := by
  have unit : chunkSectors.toNat = 128 := rfl
  have sectors : r.partSectors.toNat * 512 ≤ r.partSectors.toNat * r.sectorSize.toNat := Nat.mul_le_mul_left _ wide
  have short : r.partSectors.toNat < 2 ^ 62 := by
    rw [partBytes] at inside
    omega
  induction fuel with
  | zero => intro _ _ _ ended; cases ended
  | succ fuel ih =>
    intro sectorIdx s files ended file member
    rw [carveChunks] at ended
    split at ended
    next =>
      cases ended
      exact .inl member
    next more =>
      have below : sectorIdx.toNat < r.partSectors.toNat := UInt64.lt_iff_toNat_lt.mp (not_not.mp more)
      have next : (sectorIdx + chunkSectors).toNat = sectorIdx.toNat + 128 := by
        rw [UInt64.toNat_add,unit]
        exact Nat.mod_eq_of_lt (by omega)
      split at ended
      next => cases ended
      next =>
        simp only at ended
        split at ended
        next =>
          rcases ih ended file member with old | ⟨q,later,found⟩
          · exact .inl old
          · exact .inr ⟨q,by omega,found⟩
        next chunk read =>
          split at ended
          next => cases ended
          next s' checked =>
            rcases ih ended file member with old | ⟨q,later,found⟩
            · rcases chunk_new positive wide signed inside below read checked file old with before | ⟨k,_,small,here⟩
              · exact .inl before
              · exact .inr ⟨sectorIdx.toNat + k,by omega,by omega,here⟩
            · exact .inr ⟨q,by omega,found⟩

/-- Where the size of the first chunk wraps, its last sector is not reported. -/
theorem last_missed (some_sector : 0 < r.partSectors.toNat)
    (large : ¬ min 128 r.partSectors.toNat * r.sectorSize.toNat + r.sectorSize.toNat ≤ 2 ^ 32) {sectorFuel fuel : Nat}
    {files : List RecoverableFile} (ended : scanCarving env r disk sectorFuel fuel = some (.ok files)) :
    ∀ file ∈ files, file.carvedLba ≠ r.partStart + .ofNat (min 128 r.partSectors.toNat - 1) := by
  have unit : chunkSectors.toNat = 128 := rfl
  have zero : (0 : UInt64).toNat = 0 := rfl
  have width := r.sectorSize.toNat_lt
  have apart {a b : Nat} (first : a < 2 ^ 64) (second : b < 2 ^ 64)
      (same : r.partStart + UInt64.ofNat a = r.partStart + UInt64.ofNat b) : a = b := by
    have sum := UInt64.add_right_inj _ |>.mp same
    rw [← UInt64.toNat_inj,UInt64.toNat_ofNat_of_lt' first,UInt64.toNat_ofNat_of_lt' second] at sum
    exact sum
  intro file member same
  cases fuel with
  | zero => cases ended
  | succ fuel =>
    obtain ⟨m,named⟩ : ∃ m, m + 1 = min 128 r.partSectors.toNat := ⟨_,Nat.succ_pred_eq_of_pos (by omega)⟩
    rw [← named,Nat.add_sub_cancel] at same
    rw [← named,Nat.add_mul,Nat.one_mul] at large
    have count : m * r.sectorSize.toNat ≤ 128 * r.sectorSize.toNat := Nat.mul_le_mul_right _ (by omega)
    have first : ∀ q, 128 ≤ q → q < 2 ^ 64 → file.carvedLba ≠ r.partStart + .ofNat q := by
      intro q later bounded found
      have number := apart bounded (by omega) (found.symm.trans same)
      omega
    have size : (min chunkSectors (r.partSectors - 0) * r.sectorSize.toUInt64).toUInt32.toNat =
        (m * r.sectorSize.toNat + r.sectorSize.toNat) % 2 ^ 32 := by
      rw [UInt64.toNat_toUInt32,UInt64.toNat_mul,UInt64.toNat_min,unit,UInt32.toNat_toUInt64,UInt64.sub_zero,← named,
        Nat.add_mul,Nat.one_mul]
      omega
    have empty : ({} : Carved).results = [] := rfl
    rw [scanCarving,carveChunks] at ended
    split at ended
    next none => exact absurd (UInt64.lt_iff_toNat_lt.mpr (zero ▸ some_sector)) none
    next =>
      split at ended
      next => cases ended
      next =>
        have next : ((0 : UInt64) + chunkSectors).toNat = 128 := rfl
        simp only at ended
        split at ended
        next =>
          rcases carveChunks_new positive wide signed inside ended file member with old | ⟨q,later,bounded,found⟩
          · exact absurd (empty ▸ old) List.not_mem_nil
          · exact first q (next ▸ later) bounded found
        next chunk read =>
          split at ended
          next => cases ended
          next s' checked =>
            rcases carveChunks_new positive wide signed inside ended file member with old | ⟨q,later,bounded,found⟩
            · rcases chunk_new positive wide signed inside (zero ▸ some_sector) read checked file old with
                none | ⟨k,reached,small,found⟩
              · exact absurd (empty ▸ none) List.not_mem_nil
              · rw [zero,Nat.zero_add] at found
                obtain rfl := apart (by omega) (by omega) (found.symm.trans same)
                rw [size] at reached
                split at reached <;> omega
            · exact first q (next ▸ later) bounded found

end Missed

/-- The scan reports every header at the start of a sector, each once and in the order of the
sectors, and nothing else. -/
def CarvesExactly (env : RecoveryEnv) (r : FileRecovery) (disk : Disk) (sectorFuel fuel : Nat) : Prop :=
  ∃ found : List Hit, scanCarving env r disk sectorFuel fuel = some (.ok (hitFiles r found)) ∧ found.Nodup ∧
    found.Pairwise (fun a b => a.1 ≤ b.1) ∧
    ∀ q sig, (q,sig) ∈ found ↔ q < r.partSectors.toNat ∧ sig ∈ getDefaultSignatures ∧ Matches r disk q sig

/-- A disk with the header of a program in every sector of the partition. -/
def programs (r : FileRecovery) (totalBytes : UInt64) : Disk where
  totalBytes := totalBytes
  byte i := if (i - partBase r) % r.sectorSize.toNat = 0 then 0x4D else 0x5A

def exeSignature : CarvedFileSignature := ⟨[0x4D,0x5A],0,['e','x','e'],[],500 * mebibyte⟩

section Exactly

variable (never : ∀ pos, env.canceled pos = false) (full : env.device.ReadsInFull) (wide : 512 ≤ r.sectorSize.toNat)
  {totalBytes : UInt64} (signed : totalBytes.toNat < 2 ^ 63) (inside : partBase r + partBytes r ≤ totalBytes.toNat)
  {sectorFuel fuel : Nat}
include wide signed inside

theorem programs_missed (large : ¬ min 128 r.partSectors.toNat * r.sectorSize.toNat + r.sectorSize.toNat ≤ 2 ^ 32) :
    ¬ CarvesExactly env r (programs r totalBytes) sectorFuel fuel := by
  rintro ⟨found,ended,_,_,all⟩
  have width := r.sectorSize.toNat_lt
  have some_sector : 0 < r.partSectors.toNat := by
    apply Nat.pos_of_ne_zero
    intro none
    rw [none,Nat.min_zero,Nat.zero_mul] at large
    omega
  have matched : Matches r (programs r totalBytes) (min 128 r.partSectors.toNat - 1) exeSignature := by
    have start : (exeSignature.headerOffset).toNat = 0 := rfl
    have two : exeSignature.header = [0x4D,0x5A] := rfl
    obtain ⟨q,named⟩ : ∃ q, q = min 128 r.partSectors.toNat - 1 := ⟨_,rfl⟩
    have first : (partBase r + q * r.sectorSize.toNat - partBase r) % r.sectorSize.toNat = 0 := by
      rw [Nat.add_sub_cancel_left,Nat.mul_mod_left]
    have second : (partBase r + q * r.sectorSize.toNat + 1 - partBase r) % r.sectorSize.toNat ≠ 0 := by
      rw [Nat.add_assoc,Nat.add_sub_cancel_left,Nat.mul_add_mod_of_lt (by omega)]
      decide
    have pair : window (programs r totalBytes).byte (partBase r + q * r.sectorSize.toNat) [(0x4D : UInt8),0x5A].length =
        [if (partBase r + q * r.sectorSize.toNat - partBase r) % r.sectorSize.toNat = 0 then 0x4D else 0x5A,
          if (partBase r + q * r.sectorSize.toNat + 1 - partBase r) % r.sectorSize.toNat = 0 then 0x4D else 0x5A] := rfl
    rw [← named,Matches,start,two,Nat.add_zero,pair,if_pos first,if_neg second]
  have member := (all (min 128 r.partSectors.toNat - 1) exeSignature).mpr ⟨by omega,by decide,matched⟩
  obtain ⟨k,bound,here⟩ := List.mem_iff_getElem.mp member
  have reported : carvedFile r exeSignature (r.partStart + .ofNat (min 128 r.partSectors.toNat - 1)) (.ofNat k) ∈
      hitFiles r found := by
    rw [hitFiles,List.mem_mapIdx]
    exact ⟨k,bound,by rw [here]⟩
  exact last_missed (by omega) wide signed inside some_sector large ended _ reported rfl

include never full

/-- Whatever is on the disk, the scan is exact, where the size of the first chunk, rounded up
to sectors, is a number of 32 bits, and only there. -/
theorem scanCarving_exact_iff (rounds : 128 < sectorFuel) (enough : r.partSectors.toNat < fuel) :
    (∀ byte, CarvesExactly env r ⟨totalBytes,byte⟩ sectorFuel fuel) ↔
      min 128 r.partSectors.toNat * r.sectorSize.toNat + r.sectorSize.toNat ≤ 2 ^ 32 := by
  constructor
  · intro exact_
    by_contra large
    exact programs_missed wide signed inside large (exact_ (programs r totalBytes).byte)
  · intro small byte
    have zero : (0 : UInt64).toNat = 0 := rfl
    have scanned := @carveChunks_eq env r ⟨totalBytes,byte⟩ never full wide signed inside small sectorFuel rounds fuel 0
      {} (by rw [zero]; omega)
    rw [zero,Nat.sub_zero,hitsFrom,← List.range_eq_range'] at scanned
    refine ⟨allHits r ⟨totalBytes,byte⟩ r.partSectors.toNat,?_,(allHits_ordered _).1,(allHits_ordered _).2,
      fun q sig => mem_allHits⟩
    rw [scanCarving,scanned,← allHits,push_all]

end Exactly

/-- With sectors of 32 MiB the size of a chunk of 128 sectors is counted as 0. -/
def hugeSectors : FileRecovery := { partStart := 0,partSectors := 128,sectorSize := 0x02000000 }

theorem huge_missed : ¬ CarvesExactly {} hugeSectors (programs hugeSectors 0x100000000) 129 129 :=
  @programs_missed {} hugeSectors (by decide) 0x100000000 (by decide) (by decide) 129 129 (by decide)

def smallSectors : FileRecovery := { partStart := 2048,partSectors := 300 }

theorem small_carved : CarvesExactly {} smallSectors ⟨2097152,(programs smallSectors 2097152).byte⟩ 129 301 := by
  have exact_ := @scanCarving_exact_iff {} smallSectors (fun _ => rfl) Win32.working_readsInFull (by decide) 2097152
    (by decide) (by decide) 129 301 (by decide) (by decide)
  exact exact_.mpr (by decide) _

end SetecWizard.Core.FileRecovery
