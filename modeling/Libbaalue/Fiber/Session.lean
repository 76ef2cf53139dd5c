import Libbaalue.Fiber.Client
import Libbaalue.Fiber.Server
import Libbaalue.Foundations.LabelledSystem

/-!
# Client and server together

One scheduling client and one scheduling server, each bound to a path, connected by reliable
FIFO queues. The client makes any number of calls, one after the other, on the same socket; a
label says who moves, and what the environment answers. A datagram is delivered when it is
addressed to the path of the other side.

Datagrams carry a tag that the code does not see: the request they are, or the request the
server was handling when it sent them. The histories are made of these tags.

The tags make it possible to say whose reply a reply was, which the code cannot: a byte has no name.
They are ghosts, in that no step looks at them. The queues neither lose nor reorder, as queues of
Unix datagram sockets do not, so what goes wrong in this system is due to the parties and their
timeouts alone; strangers and other clients come in `Clients`.
-/

namespace Libbaalue

/-- An element of a call, by position. Nothing of it is in the datagrams; it is kept beside them for
the histories. -/
structure RequestId where
  call : ℕ
  element : ℕ
  deriving DecidableEq, Repr

/-- Earlier in the order in which a client makes its requests. -/
def RequestId.Before (r r' : RequestId) : Prop :=
  r.call < r'.call ∨ r.call = r'.call ∧ r.element < r'.element

/-- A request: which element it is for, and the element. -/
structure Request where
  id : RequestId
  fiber : FiberElement
  deriving DecidableEq, Repr

/-- A request in the queue of the server. -/
structure RequestPacket where
  request : Request
  datagram : Datagram
  deriving DecidableEq

/-- A reply in the queue of the client, and the request the server was handling when it sent the
reply. -/
structure ReplyPacket where
  sentFor : RequestId
  datagram : Datagram
  deriving DecidableEq

/-- A reply the client has consumed. -/
structure Consumed where
  /-- The element waited for. -/
  waitingFor : RequestId
  /-- The request the server was handling when it sent the reply. -/
  sentFor : RequestId
  payload : List Byte
  /-- A wait of the client had timed out before. -/
  afterTimeout : Bool
  deriving DecidableEq

/-- Two bound paths: C strings that fit `sun_path`. They need not be different for the queues to be,
as each party receives at its own socket. -/
structure Paths where
  kdoF : List Byte
  retF : List Byte
  kdoF_fits : kdoF.length < sizeofSunPath
  retF_fits : retF.length < sizeofSunPath
  nul_notMem_kdoF : (0 : Byte) ∉ kdoF
  nul_notMem_retF : (0 : Byte) ∉ retF

/-- The state of the two parties and their queues, and the histories. The parties are the machines
of their threads; a datagram lies in a queue from the `sendto` to the `recvfrom`. -/
structure Session where
  /-- The array of the last call. -/
  fiberArray : List FiberElement
  /-- The upper halves of the argument registers of the last call. -/
  junk : ℕ → ℕ → CInt
  client : Client
  server : Server
  toServer : List RequestPacket
  toClient : List ReplyPacket
  /-- The number of calls made. -/
  calls : ℕ
  /-- The request the server received last. -/
  handling : Request
  /-- The requests sent, in order. -/
  requests : List Request
  /-- The number of requests sent in the last call. -/
  sentInCall : ℕ
  /-- The requests the server has received, in order. -/
  received : List Request
  /-- The elements the server has called `baa_set_schedule_props` for, in order. -/
  applied : List FiberElement
  consumed : List Consumed
  timedOut : Bool

/-- Who moves, and what the environment answers. A new call may begin when the one before has
returned, and a wait of either party may time out at any time. -/
inductive SessionLabel
  | call (fiberArray : List FiberElement) (junk : ℕ → ℕ → CInt) (ptypeRcv : Byte)
  | clientSend
  | clientRecv
  | clientTimeout
  | serverRecv
  | serverTimeout
  | serverStep (outcome : SchedOutcome)

variable (plat : Platform) (paths : Paths)

/-- The arguments of the last call. -/
def Session.args (s : Session) : ClientArgs := ⟨plat.abi, s.junk, s.fiberArray, paths.kdoF⟩

/-- The element the client is at. -/
def Session.awaited (s : Session) : RequestId := ⟨s.calls - 1, s.client.i⟩

/-- The client sends: to the server's queue if that is where the address points. -/
def Session.clientSend (s : Session) (payload : List Byte) (addr : AddrArg) (fiber : FiberElement) :
    Session :=
  if addr.path = paths.kdoF then
    let request : Request := ⟨s.awaited, fiber⟩
    { s with
      client :=
        (baaSetSchedulePropsViaServer (s.args plat paths)).resume s.client ⟨payload.length, none⟩
      toServer := s.toServer ++ [⟨request, ⟨boundAt paths.retF, payload⟩⟩]
      requests := s.requests ++ [request]
      sentInCall := s.sentInCall + 1 }
  else
    { s with
      client := (baaSetSchedulePropsViaServer (s.args plat paths)).resume s.client ⟨-1, none⟩ }

/-- The server sends: to the client's queue if that is where the address points. -/
def Session.serverSend (s : Session) (ptype : Byte) (addr : AddrArg) : Session :=
  if addr.path = paths.retF then
    { s with
      server := (baaScheduleServerTh plat).resume s.server ⟨none, 1, ⟨.ok, .ok⟩⟩
      toClient := s.toClient ++ [⟨s.handling.id, ⟨boundAt paths.kdoF, [ptype]⟩⟩] }
  else { s with server := (baaScheduleServerTh plat).resume s.server ⟨none, -1, ⟨.ok, .ok⟩⟩ }

/-- One step of the composition; `none` when the party is not at that call. -/
def Session.step (s : Session) : SessionLabel → Option Session
  | .call fiberArray junk ptypeRcv =>
    match s.client.pc with
    | .returned _ =>
      -- the arguments of the call are read from the state, so they are stored first
      let s := { s with
        fiberArray := fiberArray, junk := junk, calls := s.calls + 1, sentInCall := 0 }
      some { s with client := .start (s.args plat paths) ptypeRcv }
    | _ => none
  | .clientSend =>
    match (baaSetSchedulePropsViaServer (s.args plat paths)).call s.client,
      s.fiberArray[s.client.i]? with
    | .sendto payload addr, some fiber => some (s.clientSend plat paths payload addr fiber)
    | _, _ => none
  | .clientRecv =>
    match (baaSetSchedulePropsViaServer (s.args plat paths)).call s.client, s.toClient with
    | .recvfrom _, p :: toClient =>
      some { s with
        client :=
          (baaSetSchedulePropsViaServer (s.args plat paths)).resume s.client ⟨0, some p.datagram⟩
        toClient := toClient
        consumed := s.consumed ++ [⟨s.awaited, p.sentFor, p.datagram.payload, s.timedOut⟩] }
    | _, _ => none
  -- the timeout of the socket, at any time
  | .clientTimeout =>
    match (baaSetSchedulePropsViaServer (s.args plat paths)).call s.client with
    | .recvfrom _ =>
      some { s with
        client := (baaSetSchedulePropsViaServer (s.args plat paths)).resume s.client ⟨0, none⟩
        timedOut := true }
    | _ => none
  | .serverRecv =>
    match (baaScheduleServerTh plat).call s.server, s.toServer with
    | .recvfrom, p :: toServer =>
      some { s with
        server := (baaScheduleServerTh plat).resume s.server ⟨some p.datagram, 0, ⟨.ok, .ok⟩⟩
        toServer := toServer
        handling := p.request
        received := s.received ++ [p.request] }
    | _, _ => none
  | .serverTimeout =>
    match (baaScheduleServerTh plat).call s.server with
    | .recvfrom =>
      some { s with
        server := (baaScheduleServerTh plat).resume s.server ⟨none, 0, ⟨.ok, .ok⟩⟩ }
    | _ => none
  | .serverStep outcome =>
    match (baaScheduleServerTh plat).call s.server with
    | .recvfrom => none
    | .sendto ptype addr => some (s.serverSend plat paths ptype addr)
    | .setScheduleProps fiber =>
      some { s with
        server := (baaScheduleServerTh plat).resume s.server ⟨none, 0, outcome⟩
        applied := s.applied ++ [fiber] }
    | .printSchedInfos _ =>
      some { s with server := (baaScheduleServerTh plat).resume s.server ⟨none, 0, outcome⟩ }

/-- Both parties idle, both queues empty. -/
def Session.init : Session where
  fiberArray := []
  junk _ _ := 0
  client := ⟨.returned 0, 0, [], 0, .zero, 0⟩
  server := .start plat
  toServer := []
  toClient := []
  calls := 0
  handling := ⟨⟨0, 0⟩, ⟨0, 0, 0, 0⟩⟩
  requests := []
  sentInCall := 0
  received := []
  applied := []
  consumed := []
  timedOut := false

/-- The composition of a client and a server. Datagrams of a Unix domain socket are neither lost nor
reordered, so that the queues are the whole network. -/
def sessionSystem : LabelledSystem Session SessionLabel where
  init := .init plat
  step := Session.step plat paths

end Libbaalue
