/-
  THE QoS CLASSES and the data types they classify (qos/classification.rs; `QoSClass`
  itself is re-exported from the mesh crate).
-/
import Mathlib.Data.List.Nodup

namespace Peat.Qos

inductive QoSClass where
  | critical | high | normal | low | bulk
  deriving DecidableEq, Repr

namespace QoSClass

def allByPriority : List QoSClass := [.critical, .high, .normal, .low, .bulk]

theorem nodup_allByPriority : allByPriority.Nodup := by decide

theorem mem_allByPriority (c : QoSClass) : c ∈ allByPriority := by cases c <;> decide

end QoSClass

inductive DataType where
  | contactReport | emergencyAlert | abortCommand | roeUpdate
  | targetImage | audioIntercept | missionRetasking | formationChange
  | healthStatus | capabilityChange | formationUpdate | taskAssignment
  | positionUpdate | heartbeat | sensorTelemetry | environmentData
  | modelUpdate | debugLog | historicalTrack | trainingData
  | custom (name : String) (qosClass : QoSClass)
  deriving DecidableEq, Repr

end Peat.Qos
