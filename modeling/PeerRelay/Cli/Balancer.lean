import PeerRelay.Cli.Option
import PeerRelay.Fleet.Basic

/-! The command line of a balancer. -/
namespace PeerRelay.Cli

structure BalancerSettings where
  authKey : String := "AuthKey"
  bindAddress : String := "0.0.0.0"
  endpointPort : UInt16 := 7070
  /-- Milliseconds between two health checks. -/
  pingRate : Nat := 10000
  /-- Milliseconds after which a request to a node is given up. -/
  probeTimeout : Nat := 5000
  idLength : Nat := 5
  /-- Seconds for which an issued room id is kept. -/
  idReservation : Nat := 60
  numericIds : Bool := false
  verifyOnJoin : Bool := false
  verbose : Bool := false
  deriving DecidableEq, Repr

namespace BalancerSettings

def options : List (CliOption BalancerSettings) :=
  [.valued "auth-key" (some "AUTH_KEY") some fun s v => { s with authKey := v },
   .valued "bind-address" none some fun s v => { s with bindAddress := v },
   .valued "endpoint-port" (some "ENDPOINT_PORT") port? fun s v => { s with endpointPort := v },
   .valued "ping-rate-ms" none (number? 1) fun s v => { s with pingRate := v },
   .valued "probe-timeout-ms" none (number? 1) fun s v => { s with probeTimeout := v },
   .valued "id-length" none (number? 0) fun s v => { s with idLength := v },
   .valued "id-reservation-secs" none (number? 0) fun s v => { s with idReservation := v },
   .switch "numeric-ids" none fun s v => { s with numericIds := v },
   .switch "verify-on-join" none fun s v => { s with verifyOnJoin := v },
   .switch "verbose" none fun s v => { s with verbose := v }]

def invoke (environment : String → Option String) (arguments : List String) :
    Invocation BalancerSettings :=
  Cli.invoke options environment {} arguments

def version : String := "lightrelay-balancer 0.1.0"

def fleetConfig (s : BalancerSettings) : FleetConfig where
  authKey := s.authKey
  pingRate := s.pingRate
  idLength := s.idLength
  idAlphabet := if s.numericIds then .numeric else .alphanumeric
  idReservation := 1000 * s.idReservation
  verifyOnJoin := s.verifyOnJoin

end BalancerSettings

end PeerRelay.Cli
