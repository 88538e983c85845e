import SetecWizard.Core.Common

/-! The blocks of the map of a disk: the partitions in the order of their offsets, and the free
space between them. The labels and the colours of the blocks are left out.
-/
namespace SetecWizard.Core

/-- The kind of a filesystem, by its place in the enumeration, apart from free space. -/
inductive MapFilesystem where
  | unallocated
  | kind (place : Nat)
deriving DecidableEq

structure PartitionInfo where
  index : Int := -1
  offsetBytes : UInt64 := 0
  sizeBytes : UInt64 := 0
  filesystemType : MapFilesystem := .kind 0
deriving DecidableEq

namespace DiskMapWidget

structure Block where
  partitionIndex : Int := -1
  startBytes : UInt64 := 0
  sizeBytes : UInt64 := 0
  fsType : MapFilesystem := .kind 0
deriving DecidableEq

def partitionBlock (p : PartitionInfo) : Block where
  partitionIndex := p.index
  startBytes := p.offsetBytes
  sizeBytes := p.sizeBytes
  fsType := p.filesystemType

def gap (currentOffset offset : UInt64) : List Block :=
  if currentOffset < offset then
    [{ startBytes := currentOffset,sizeBytes := offset - currentOffset,fsType := .unallocated }]
  else []

/-- The loop over the sorted partitions and the space behind the last one. -/
def blocksFrom (diskSize : UInt64) : List PartitionInfo → UInt64 → List Block
  | [],currentOffset => gap currentOffset diskSize
  | p::rest,currentOffset =>
    gap currentOffset p.offsetBytes ++ partitionBlock p :: blocksFrom diskSize rest (p.offsetBytes + p.sizeBytes)

/-- The partitions come as the sort has left them. -/
def rebuildBlocks (diskSize : UInt64) (sorted : List PartitionInfo) : List Block :=
  if diskSize = 0 then [] else blocksFrom diskSize sorted 0

/-- What the sort may leave: partitions of one offset come in any order. -/
structure SortedFrom (partitions sorted : List PartitionInfo) : Prop where
  perm : sorted.Perm partitions
  order : sorted.Pairwise (fun a b => a.offsetBytes ≤ b.offsetBytes)

end DiskMapWidget
end SetecWizard.Core
