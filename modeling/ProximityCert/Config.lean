import ProximityCert.Clock.Instant
import ProximityCert.Json.Value

/-! Settings, read from and written as structured values; spans are given in milliseconds. -/

namespace ProximityCert

/-- A span of whole milliseconds. -/
def Json.millis? (j : Json) : Option Duration := j.uint64?.map fun n => Duration.ofMillis n.toNat

def Json.ofMillis (d : Duration) : Json := .ofNat d.millis.toNat

structure ManagerConfig where
  /-- Stands before the device's name to form its resource name. -/
  deviceIdPrefix : String := "devices/"
  downloadPeriod : Duration := Duration.ofHours 12
  baseRetryDelay : Duration := Duration.ofSeconds 5
  maxRetryDelay : Duration := Duration.ofHours 1
  deriving DecidableEq

namespace ManagerConfig

def fieldNames : List String :=
  ["device_id_prefix", "download_period", "scheduler_base_retry_delay", "scheduler_max_retry_delay"]

def toJson (c : ManagerConfig) : Json := Json.ofMembers
  [("device_id_prefix", .str c.deviceIdPrefix), ("download_period", .ofMillis c.downloadPeriod),
    ("scheduler_base_retry_delay", .ofMillis c.baseRetryDelay), ("scheduler_max_retry_delay", .ofMillis c.maxRetryDelay)]

/-- Fields that are missing take their defaults. -/
def ofJson? (j : Json) : Option ManagerConfig :=
  let d : ManagerConfig := {}
  match j.structFields? fieldNames with
  | some [idStart, period, base, max] => do
    return {
      deviceIdPrefix := ← Json.defaulted? d.deviceIdPrefix Json.str? idStart
      downloadPeriod := ← Json.defaulted? d.downloadPeriod Json.millis? period
      baseRetryDelay := ← Json.defaulted? d.baseRetryDelay Json.millis? base
      maxRetryDelay := ← Json.defaulted? d.maxRetryDelay Json.millis? max }
  | _ => none

def resourceName (c : ManagerConfig) (device : String) : String := c.deviceIdPrefix ++ device

end ManagerConfig

structure VerificationConfig where
  readFrameTimeout : Duration := Duration.ofSeconds 15
  deriving DecidableEq

namespace VerificationConfig

def fieldNames : List String := ["read_frame_timeout"]

def toJson (c : VerificationConfig) : Json := Json.ofMembers [("read_frame_timeout", .ofMillis c.readFrameTimeout)]

def ofJson? (j : Json) : Option VerificationConfig :=
  let d : VerificationConfig := {}
  match j.structFields? fieldNames with
  | some [timeout] => (Json.defaulted? d.readFrameTimeout Json.millis? timeout).map fun t => { readFrameTimeout := t }
  | _ => none

end VerificationConfig
end ProximityCert
