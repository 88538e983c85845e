import SetecWizard.Core.Common

/-! The health of a disk, from the attributes of an ATA disk and their thresholds, or from the
health log of an NVMe disk. The names of the attributes and the numbers of a log that are
only displayed are left out.
-/
namespace SetecWizard.Core

inductive SmartStatus where
  | ok | warning | critical | unknown
deriving DecidableEq

structure SmartAttribute where
  id : UInt8 := 0
  currentValue : UInt8 := 0
  worstValue : UInt8 := 0
  threshold : UInt8 := 0
  rawValue : UInt64 := 0
  status : SmartStatus := .unknown

structure NvmeHealthInfo where
  criticalWarning : UInt8 := 0
  availableSpare : UInt8 := 0
  availableSpareThreshold : UInt8 := 0
  percentageUsed : UInt8 := 0
  mediaErrors : UInt64 := 0

structure SmartData where
  isNvme : Bool := false
  overallHealth : SmartStatus := .unknown
  attributes : List SmartAttribute := []

namespace SmartReader

def SMART_MAX_ATTRS : Nat := 30
def SMART_ATTR_START_OFFSET : Nat := 2
def SMART_ATTR_ENTRY_SIZE : Nat := 12
def SMART_THRESH_START_OFFSET : Nat := 2
def SMART_THRESH_ENTRY_SIZE : Nat := 12

def parseAtaAttribute (data : List UInt8) (i : Nat) : Option SmartAttribute :=
  let offset := SMART_ATTR_START_OFFSET + i * SMART_ATTR_ENTRY_SIZE
  let attrId := data.getD offset 0
  if attrId = 0 then none
  else some {
    id := attrId
    currentValue := data.getD (offset + 3) 0
    worstValue := data.getD (offset + 4) 0
    rawValue := [5,4,3,2,1,0].foldl (fun raw b => raw <<< 8 ||| (data.getD (offset + 5 + b) 0).toUInt64) 0 }

def parseAtaAttributes (data : List UInt8) : List SmartAttribute :=
  (List.range SMART_MAX_ATTRS).filterMap (parseAtaAttribute data)

def parseAtaThresholds (data : List UInt8) : List (UInt8 × UInt8) :=
  (List.range SMART_MAX_ATTRS).filterMap (fun i =>
    let offset := SMART_THRESH_START_OFFSET + i * SMART_THRESH_ENTRY_SIZE
    let attrId := data.getD offset 0
    if attrId = 0 then none else some (attrId,data.getD (offset + 1) 0))

def evaluateAttributeHealth (currentValue worstValue threshold : UInt8) : SmartStatus :=
  if threshold = 0 then .ok
  else if currentValue ≤ threshold then .critical
  else if worstValue ≤ threshold then .warning
  else if 0 < threshold ∧ currentValue.toNat < threshold.toNat + 10 then .warning
  else .ok

def overallLoop (empty : Bool) : List SmartAttribute → Bool → Bool → SmartStatus
  | [],hasWarning,hasUnknown =>
    if hasWarning then .warning else if empty || hasUnknown then .unknown else .ok
  | attr::rest,hasWarning,hasUnknown =>
    match attr.status with
    | .critical => .critical
    | .warning => overallLoop empty rest true hasUnknown
    | .unknown => overallLoop empty rest hasWarning true
    | .ok => overallLoop empty rest hasWarning hasUnknown

def evaluateOverallHealth (attributes : List SmartAttribute) : SmartStatus :=
  overallLoop attributes.isEmpty attributes false false

def mergeThreshold (thresholds : List (UInt8 × UInt8)) (attr : SmartAttribute) : SmartAttribute :=
  let merged := match thresholds.find? (fun entry => entry.1 = attr.id) with
    | some (_,threshVal) => { attr with
        threshold := threshVal
        status := evaluateAttributeHealth attr.currentValue attr.worstValue threshVal }
    | none => attr
  if merged.status = .unknown then
    { merged with status := if 0 < merged.currentValue then .ok else .unknown }
  else merged

/-- `sendAtaSmartRead` gives the two sectors, or the error of the one or the other. -/
def readAtaSmart (dataResult threshResult : Result (List UInt8)) : Result SmartData := do
  let dataSector ← dataResult
  let attributes := parseAtaAttributes dataSector
  let attributes := match threshResult with
    | .ok sector => attributes.map (mergeThreshold (parseAtaThresholds sector))
    | .error _ => attributes.map (fun attr => { attr with status := .unknown })
  return { attributes := attributes,overallHealth := evaluateOverallHealth attributes }

def evaluateNvmeHealth (health : NvmeHealthInfo) : SmartStatus :=
  if health.criticalWarning ≠ 0 then
    if health.criticalWarning &&& 0x0C ≠ 0 then .critical else .warning
  else if 0 < health.availableSpare ∧ 0 < health.availableSpareThreshold ∧
      health.availableSpare ≤ health.availableSpareThreshold then .critical
  else if 100 < health.percentageUsed then .warning
  else if 0 < health.mediaErrors then .warning
  else .ok

end SmartReader
end SetecWizard.Core
