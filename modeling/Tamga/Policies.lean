import Tamga.ApiModels

namespace Tamga.Policies

open Library.Serde
open Tamga.Dependencies
open Tamga.Models

variable {J : SerdeJson}

def defaultHeartbeatWindowSecs : UInt64 := 600

def heartbeatIntervalDivisor : UInt32 := 3

inductive OverageStrategy where
  | noOverage
  | allow1_25xOverage
  | allow1_5xOverage
  | allow2xOverage
  | alwaysAllowOverage
  deriving DecidableEq

inductive CheckInInterval where
  | day
  | week
  | month
  | year
  deriving DecidableEq

/-- The spelling that the server stores. -/
def CheckInInterval.asStr : CheckInInterval → String
  | .day => "daily"
  | .week => "weekly"
  | .month => "monthly"
  | .year => "yearly"

structure ExpirationStrategy where
  asStr : String

structure RenewalBasis where
  asStr : String

structure AuthenticationStrategy where
  asStr : String

structure PolicyAttributes (J : SerdeJson) where
  productId : String
  name : String
  duration : Option Int64
  strict : Bool
  floating : Bool
  scheme : Option String
  encrypted : Bool
  usePool : Bool
  «protected» : Bool
  requireCheckIn : Bool
  checkInInterval : Option CheckInInterval
  checkInIntervalCount : Option Int32
  requireHeartbeat : Bool
  heartbeatDuration : Option Int32
  heartbeatCullStrategy : String
  heartbeatResurrectionStrategy : String
  machineUniquenessStrategy : String
  expirationStrategy : ExpirationStrategy
  expirationBasis : String
  renewalBasis : RenewalBasis
  authenticationStrategy : AuthenticationStrategy
  overageStrategy : String
  maxMachines : Option Int32
  maxCores : Option Int32
  maxProcesses : Option Int32
  maxUsers : Option Int32
  metadata : J.Value
  created : J.DateTime
  updated : J.DateTime

structure Policy (J : SerdeJson) where
  id : J.Uuid
  resourceType : String
  attributes : PolicyAttributes J

section Deserialize

def overageStrategy : Deserialize OverageStrategy :=
  parsed fun wire => some <|
    match wire with
    | "NO_OVERAGE" => .noOverage
    | "ALLOW_1_25X_OVERAGE" => .allow1_25xOverage
    | "ALLOW_1_5X_OVERAGE" => .allow1_5xOverage
    | "ALLOW_2X_OVERAGE" => .allow2xOverage
    | "ALWAYS_ALLOW_OVERAGE" => .alwaysAllowOverage
    | _ => .noOverage

def checkInInterval : Deserialize CheckInInterval :=
  parsed fun wire =>
    match wire with
    | "daily" => some .day
    | "day" => some .day
    | "weekly" => some .week
    | "week" => some .week
    | "monthly" => some .month
    | "month" => some .month
    | "yearly" => some .year
    | "year" => some .year
    | _ => none

variable (J)

def policyAttributes : Deserialize (PolicyAttributes J) :=
  struct <| (Fields.done (@PolicyAttributes.mk J))
    |>.field "product_id" string
    |>.field "name" string
    |>.field "duration" (option i64)
    |>.field "strict" bool
    |>.field "floating" bool
    |>.field "scheme" (option string)
    |>.field "encrypted" bool
    |>.field "use_pool" bool
    |>.field "protected" bool
    |>.field "require_check_in" bool
    |>.field "check_in_interval" (option checkInInterval)
    |>.field "check_in_interval_count" (option i32)
    |>.field "require_heartbeat" bool
    |>.field "heartbeat_duration" (option i32)
    |>.field "heartbeat_cull_strategy" string
    |>.field "heartbeat_resurrection_strategy" string
    |>.field "machine_uniqueness_strategy" string
    |>.field "expiration_strategy" (parsed fun wire => some (ExpirationStrategy.mk wire))
    |>.field "expiration_basis" string
    |>.field "renewal_basis" (parsed fun wire => some (RenewalBasis.mk wire))
    |>.field "authentication_strategy" (parsed fun wire => some (AuthenticationStrategy.mk wire))
    |>.field "overage_strategy" string
    |>.field "max_machines" (option i32)
    |>.field "max_cores" (option i32)
    |>.field "max_processes" (option i32)
    |>.field "max_users" (option i32)
    |>.field "metadata" (value J)
    |>.field "created" (dateTime J)
    |>.field "updated" (dateTime J)

def policy : Deserialize (Policy J) :=
  struct <| (Fields.done (@Policy.mk J))
    |>.field "id" (uuid J)
    |>.field "type" string
    |>.field "attributes" (policyAttributes J)

end Deserialize

section Heartbeat

/-- A `Duration` to the nanosecond, for the division of one. -/
structure Nanos where
  nanos : ℕ
  deriving DecidableEq

def Nanos.fromSecs (secs : UInt64) : Nanos := ⟨secs.toNat * 1000000000⟩

/-- `Duration / u32`. -/
def Nanos.div (duration : Nanos) (divisor : UInt32) : Nanos :=
  ⟨duration.nanos / divisor.toNat⟩

def Nanos.max (a b : Nanos) : Nanos := ⟨a.nanos ⊔ b.nanos⟩

namespace PolicyAttributes

/-- The window of a policy that sets none, or none that is positive, is the default. -/
def effectiveHeartbeatWindow (attributes : PolicyAttributes J) : Nanos :=
  .fromSecs <|
    ((attributes.heartbeatDuration.filter fun secs => 0 < secs).map fun secs =>
      secs.toInt64.toUInt64).getD defaultHeartbeatWindowSecs

def recommendedHeartbeatInterval (attributes : PolicyAttributes J) : Nanos :=
  (attributes.effectiveHeartbeatWindow.div heartbeatIntervalDivisor).max (.fromSecs 1)

end PolicyAttributes

end Heartbeat

end Tamga.Policies
