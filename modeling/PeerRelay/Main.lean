import PeerRelay.Cli.Launch

/-! The command line: `relay` or `balancer`, and the options of either. -/
namespace PeerRelay.Main
open Cli

def environmentOf {γ : Type} (options : List (CliOption γ)) : IO (String → Option String) := do
  let values ← options.filterMapM fun o => do
    match o.fallback with
    | none => return none
    | some name => return (← IO.getEnv name).map fun value => (name, value)
  return fun name => values.lookup name

def usage {γ : Type} (command : String) (options : List (CliOption γ)) : String :=
  let line (o : CliOption γ) :=
    s!"  --{o.name}" ++ (if o.isSwitch then "" else " <value>") ++
      (o.fallback.elim "" fun v => s!" [env: {v}]")
  "\n".intercalate (s!"Usage: {command} [options]" :: options.map line)

def reportFailure (socket : ListenSocket) : IO UInt32 := do
  IO.eprintln s!"Error: {socket.failure}"
  return 1

def reportSockets (sockets : List BoundSocket) : IO Unit := do
  for bound in sockets do
    IO.println s!"{bound.socket.name} listening on {bound.address.text}"

def runRelay (settings : RelaySettings) : IO UInt32 := do
  let seed ← IO.monoNanosNow
  match (settings.launch Net.bindHere? Http.unreachable (.seeded seed) 0 ()).1 with
  | .error socket => reportFailure socket
  | .ok running =>
    reportSockets running.sockets
    if let some (.error e) := running.registration then
      IO.eprintln s!"initial load balancer registration failed: {e.message}"
    IO.println s!"relay engine running: {running.node.relay.label}"
    return 0

def runBalancer (settings : BalancerSettings) : IO UInt32 := do
  let seed ← IO.monoNanosNow
  match settings.launch Net.bindHere? (.seeded seed) 0 with
  | .error socket => reportFailure socket
  | .ok (_, sockets) =>
    reportSockets sockets
    return 0

def perform {γ : Type} (command version : String) (options : List (CliOption γ))
    (run : γ → IO UInt32) : Invocation γ → IO UInt32
  | .help => do
    IO.println (usage command options)
    return 0
  | .version => do
    IO.println version
    return 0
  | .refused => do
    IO.eprintln (usage command options)
    return 2
  | .run settings => run settings

end PeerRelay.Main

open PeerRelay PeerRelay.Cli

def main (args : List String) : IO UInt32 := do
  match args with
  | "relay" :: rest =>
    let environment ← Main.environmentOf RelaySettings.options
    Main.perform "relay" RelaySettings.version RelaySettings.options Main.runRelay
      (RelaySettings.invoke environment rest)
  | "balancer" :: rest =>
    let environment ← Main.environmentOf BalancerSettings.options
    Main.perform "balancer" BalancerSettings.version BalancerSettings.options Main.runBalancer
      (BalancerSettings.invoke environment rest)
  | _ =>
    IO.eprintln "Usage: relay [options] or balancer [options]"
    return 2
