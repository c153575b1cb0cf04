import CallTelemetry.Latency

/-! The registered kinds of services. A code that is not registered stands for an undefined
service. -/
namespace CallTelemetry

inductive ServiceType where
  | undefined
  | unknown
  | user
  | standAlone
  | tomcat
  | springBoot
  | unknownDb
  | mysql
  | internalMethod
  | redis
  | kafkaClient
  | httpClient
  deriving DecidableEq

namespace ServiceType

def all : List ServiceType :=
  [undefined, unknown, user, standAlone, tomcat, springBoot, unknownDb, mysql, internalMethod,
    redis, kafkaClient, httpClient]

def code : ServiceType → Int16
  | undefined => -1
  | unknown => 1
  | user => 2
  | standAlone => 1000
  | tomcat => 1010
  | springBoot => 1210
  | unknownDb => 2050
  | mysql => 2100
  | internalMethod => 5000
  | redis => 8200
  | kafkaClient => 8660
  | httpClient => 9050

def name : ServiceType → String
  | undefined => "UNDEFINED"
  | unknown => "UNKNOWN"
  | user => "USER"
  | standAlone => "STAND_ALONE"
  | tomcat => "TOMCAT"
  | springBoot => "SPRING_BOOT"
  | unknownDb => "UNKNOWN_DB"
  | mysql => "MYSQL"
  | internalMethod => "INTERNAL_METHOD"
  | redis => "REDIS"
  | kafkaClient => "KAFKA_CLIENT"
  | httpClient => "HTTP_CLIENT_4"

def ofCode? (code : Int16) : Option ServiceType := all.find? fun t => t.code == code

def ofCode (code : Int16) : ServiceType := (ofCode? code).getD undefined

def ofName? (name : String) : Option ServiceType := all.find? fun t => t.name == name

def scheme : ServiceType → Latency.Scheme
  | redis => .quick
  | _ => .standard

/-- A service that is called but never observed itself. -/
def isTerminal : ServiceType → Bool
  | unknownDb | mysql | redis => true
  | _ => false

def isQueue (t : ServiceType) : Bool := t == kafkaClient

/-- Whether calls to it enter the statistics. -/
def recordsStatistics : ServiceType → Bool
  | undefined | internalMethod => false
  | _ => true

def includesDestinationId : ServiceType → Bool
  | unknownDb | mysql => true
  | _ => false

/-- An application server. -/
def isServer (t : ServiceType) : Bool := 1000 ≤ t.code && t.code < 2000

def isRpcClient (t : ServiceType) : Bool := 9000 ≤ t.code && t.code < 10000

def isUser (t : ServiceType) : Bool := t == user

def isUnknown (t : ServiceType) : Bool := t == unknown || t == undefined

/-- The name with the code, for diagnostics. -/
def describe (t : ServiceType) : String := t.name ++ "(" ++ toString t.code.toInt ++ ")"

theorem code_injective : ∀ a b : ServiceType, a.code = b.code → a = b := by
  intro a b
  cases a <;> cases b <;> decide

instance : Ord ServiceType := ⟨compareOn code⟩

instance : Std.TransOrd ServiceType := inferInstanceAs (Std.TransCmp (compareOn code))

instance : Std.LawfulEqOrd ServiceType where
  eq_of_compare {a b} h := code_injective a b (Std.LawfulEqOrd.eq_of_compare h)

end ServiceType

end CallTelemetry
