import PeerRelay.Cli.Option
import PeerRelay.Node.Basic
import PeerRelay.Transport.Basic

/-! The command line of a relay node. -/
namespace PeerRelay.Cli

structure RelaySettings where
  authKey : String := "Secret Auth Key"
  transport : TransportKind := .webSocket
  bindAddress : String := "0.0.0.0"
  transportPort : UInt16 := 7777
  maxPacket : Nat := 16384
  heartbeatInterval : Nat := 1000
  idLength : Nat := 5
  numericIds : Bool := false
  useEndpoint : Bool := true
  endpointPort : UInt16 := 8080
  listRooms : Bool := true
  natPunch : Bool := true
  natPunchPort : UInt16 := 7776
  useBalancer : Bool := false
  balancerKey : String := "AuthKey"
  balancerAddress : String := "127.0.0.1"
  balancerPort : UInt16 := 7070
  region : Region := .northAmerica
  /-- Milliseconds after which a request to the balancer is given up. -/
  balancerTimeout : Nat := 5000
  balancerIds : Bool := false
  /-- Seconds of silence after which the node registers again. -/
  reregisterAfter : Nat := 60
  publicIp : String := "127.0.0.1"
  authFailure : AuthFailurePolicy := .disconnect
  verbose : Bool := false
  deriving DecidableEq, Repr

namespace RelaySettings

def options : List (CliOption RelaySettings) :=
  [.valued "auth-key" (some "AUTH_KEY") some fun s v => { s with authKey := v },
   .valued "transport" (some "TRANSPORT_CLASS") transport? fun s v => { s with transport := v },
   .valued "bind-address" none some fun s v => { s with bindAddress := v },
   .valued "transport-port" (some "TRANSPORT_PORT") port? fun s v => { s with transportPort := v },
   .valued "max-packet-size" none (number? 0) fun s v => { s with maxPacket := v },
   .valued "heartbeat-interval-ms" (some "UPDATE_HEARTBEAT_INTERVAL") (number? 1)
     fun s v => { s with heartbeatInterval := v },
   .valued "id-length" (some "RANDOMLY_GENERATED_ID_LENGTH") (number? 0)
     fun s v => { s with idLength := v },
   .switch "numeric-ids" none fun s v => { s with numericIds := v },
   .valued "use-endpoint" (some "USE_ENDPOINT") switch? fun s v => { s with useEndpoint := v },
   .valued "endpoint-port" (some "ENDPOINT_PORT") port? fun s v => { s with endpointPort := v },
   .valued "endpoint-server-list" none switch? fun s v => { s with listRooms := v },
   .valued "enable-nat-punch" (some "ENABLE_NAT_PUNCH") switch?
     fun s v => { s with natPunch := v },
   .valued "nat-punch-port" (some "NAT_PUNCH_PORT") port? fun s v => { s with natPunchPort := v },
   .switch "use-load-balancer" (some "USE_LOAD_BALANCER") fun s v => { s with useBalancer := v },
   .valued "load-balancer-auth-key" (some "LOAD_BALANCER_AUTH_KEY") some
     fun s v => { s with balancerKey := v },
   .valued "load-balancer-address" (some "LOAD_BALANCER_ADDRESS") some
     fun s v => { s with balancerAddress := v },
   .valued "load-balancer-port" (some "LOAD_BALANCER_PORT") port?
     fun s v => { s with balancerPort := v },
   .valued "load-balancer-region" (some "LOAD_BALANCER_REGION") region?
     fun s v => { s with region := v },
   .valued "load-balancer-timeout-ms" none (number? 0) fun s v => { s with balancerTimeout := v },
   .switch "load-balancer-ids" none fun s v => { s with balancerIds := v },
   .valued "reregister-after-secs" none (number? 0) fun s v => { s with reregisterAfter := v },
   .valued "public-ip" (some "PUBLIC_IP") some fun s v => { s with publicIp := v },
   .valued "auth-failure" none policy? fun s v => { s with authFailure := v },
   .switch "verbose" none fun s v => { s with verbose := v }]

def invoke (environment : String → Option String) (arguments : List String) :
    Invocation RelaySettings :=
  Cli.invoke options environment {} arguments

def version : String := "lightrelay 0.1.0"

def alphabet (numeric : Bool) : IdAlphabet := if numeric then .numeric else .alphanumeric

def nodeConfig (s : RelaySettings) : NodeConfig where
  publicIp := s.publicIp
  transportPort := s.transportPort
  endpointPort := s.endpointPort
  region := s.region
  idLength := s.idLength
  idAlphabet := alphabet s.numericIds
  authFailure := s.authFailure
  heartbeatInterval := s.heartbeatInterval
  maxPacket := s.maxPacket

def uplink? (s : RelaySettings) : Option Uplink :=
  if s.useBalancer then
    some
      { address := s.balancerAddress
        port := s.balancerPort
        authKey := s.balancerKey
        issuesRoomIds := s.balancerIds
        reregisterAfter := 1000 * s.reregisterAfter
        relay := s.nodeConfig.relay }
  else none

def node (s : RelaySettings) (dice : Dice) (now : Nat) : Node :=
  Node.start s.nodeConfig (.sharedKey s.authKey)
    (if s.natPunch then some (.new s.natPunchPort) else none) s.uplink? dice now

end RelaySettings

end PeerRelay.Cli
