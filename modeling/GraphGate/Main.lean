import GraphGate.CommandLine.Run
import GraphGate.Storage.Http.Wire
import Std.Async.DNS
import Std.Async.TCP

namespace GraphGate

/-!
# The program

Files, connections and the clock of the machine, and the exit code. Everything
that is decided here is how to open a connection and when to give one up.
-/

namespace Machine

/-- Runs an action, or gives up after a number of milliseconds. -/
def within {α : Type} (limit : Nat) (act : IO α) : IO (Option α) := do
  let work ← IO.asTask act Task.Priority.dedicated
  let clock ← IO.asTask (IO.sleep limit.toUInt32) Task.Priority.dedicated
  match ← IO.waitAny [work.map some, clock.map fun _ => none] with
  | some (.ok value) => return some value
  | some (.error cause) => throw cause
  | none => return none

/-- The address of a host on the network. -/
def socketAddress (address : Std.Net.IPAddr) (port : UInt16) :
    Std.Net.SocketAddress :=
  match address with
  | .v4 address => .v4 ⟨address, port⟩
  | .v6 address => .v6 ⟨address, port⟩

/-- Everything that a connection gives until it ends. -/
partial def receiveAll
    (socket : Std.Async.TCP.Socket.Client)
    (received : ByteArray) : IO ByteArray := do
  match ← (socket.recv? 65536).block with
  | some bytes => receiveAll socket (received ++ bytes)
  | none => return received

/-- Opens a connection to the first address that accepts one. -/
def connect (port : UInt16) :
    List Std.Net.IPAddr → IO Std.Async.TCP.Socket.Client
  | [] => throw (IO.userError "the host has no address")
  | address :: others => do
      let socket ← Std.Async.TCP.Socket.Client.mk
      try
        (socket.connect (socketAddress address port)).block
        return socket
      catch cause =>
        if others.isEmpty then throw cause else connect port others

/-- Sends a request to a host. -/
def exchange (host : HostAddress) (request : HttpRequest) : IO HttpOutcome := do
  let service := toString host.port.toNat
  let addresses ← (Std.Async.DNS.getAddrInfo host.host service).block
  let socket ← connect host.port addresses.toList
  (socket.send (HttpWire.requestText host request).toUTF8).block
  return HttpWire.outcome (← receiveAll socket .empty).data.toList

/-- Answers a request within its time limit. -/
def answer (request : HttpRequest) : IO HttpOutcome := do
  match HostAddress.ofUrl? request.endpoint with
  | none => return .unreachable "the server cannot be spoken to"
  | some host =>
      try
        match request.timeout with
        | none => exchange host request
        | some limit =>
            match ← within limit (exchange host request) with
            | some outcome => return outcome
            | none => return .unreachable "operation timed out"
      catch cause =>
        return .unreachable (toString cause)

/-- Turns the failure of an action into its text. -/
def attempt {α : Type} (act : IO α) : IO (Except String α) := do
  try
    return .ok (← act)
  catch cause =>
    return .error (toString cause)

/-- Whether a path leads to a file. -/
def isFile (path : String) : IO Bool := do
  try
    return (← (← IO.FS.realPath path).metadata).type == .file
  catch _ =>
    return false

/-- The names in a directory. -/
def namesIn (path : String) : IO (List String) := do
  let entries ← (← IO.FS.realPath path).readDir
  return entries.toList.map IO.FS.DirEntry.fileName

/-- Answers a question about files. -/
def file : (question : FileQuestion) → IO question.Answer
  | .isFile path => isFile path
  | .read path => attempt (IO.FS.readFile path)
  | .list path => attempt (namesIn path)

/-- The world of this machine. -/
def world : Surroundings IO where
  file := file
  network := ⟨answer, within⟩
  draw := IO.rand 0 4294967295

end Machine

end GraphGate

open GraphGate in
/-- Runs the program and gives its exit code. -/
def main (arguments : List String) : IO UInt32 := do
  match Invocation.ofArguments arguments with
  | .error .helpRequested =>
      IO.println Invocation.help
      return 0
  | .error .versionRequested =>
      IO.println "arango-graphql 0.1.0"
      return 0
  | .error cause =>
      IO.eprintln ("error: " ++ cause.message)
      return 1
  | .ok invocation =>
      match ← Machine.world.run invocation with
      | .ok output =>
          IO.println output
          return 0
      | .error cause =>
          IO.eprintln cause.toJson.render
          return 1
