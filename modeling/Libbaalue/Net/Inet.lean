import Libbaalue.Net.Socket

/-!
# Internet sockets

`connect_inet_socket` and `bind_inet_socket` with their four constructors, as programs over
their calls. The address list is what `getaddrinfo` stores when it succeeds; the loops go
through it with `rp`, and every call in them is made with the fields of `result`, its head.

The fields of `rp` are never used by the loops, but how far it has come is: a loop ends after as
many attempts as the list has entries, and whether it ended by a success is told by `rp` alone. Both
loops are recursive over the rest of the list and keep its head as a parameter, so that this can be
read off the definition. What `getaddrinfo` stores may be empty in the model, though a look-up that
succeeds has an entry.

The two kinds of constructor differ in where a failure leads, and in who frees the list, which is
kept.
-/

namespace Libbaalue

open CallProgram

/-! ### The client side -/

/-- The loop of `connect_inet_socket`, from `rp` on; `none` when `rp` ends as a null pointer. -/
def connectInetLoop (result : AddrInfo) : List AddrInfo → NetProgram (Option ℕ)
  | [] => return none
  | _rp :: aiNext => do
    match ← perform (.socketInet result) with
    | .failed _ => connectInetLoop result aiNext
    | .ok sfd =>
      let _ ← setRcvTimeout sfd
      let _ ← setSndTimeout sfd
      match ← perform (.connectInet sfd result) with
      | .ok _ => return some sfd
      | .failed _ =>
        let _ ← perform (.close sfd)
        connectInetLoop result aiNext

/-- The loop over the whole list. -/
def connectInetAddresses : List AddrInfo → NetProgram (Option ℕ)
  | [] => return none
  | result :: aiNext => connectInetLoop result (result :: aiNext)

/-- `connect_inet_socket`, where the look-up comes to the given addresses. The alarm and the handler
are set back whether an address was found or not. -/
def connectInetSocket (addresses : List AddrInfo) (host service : Option (List Byte))
    (type : SockType) : NetProgram (Option ℕ) := do
  match ← perform (.getaddrinfo host service ⟨false, type⟩) with
  | .failed _ => return none
  | .ok _ =>
    let _ ← perform (.signalAlrm .handleAlarm)
    let _ ← perform (.alarm connectTimeout)
    let sfd ← connectInetAddresses addresses
    let _ ← perform (.alarm 0)
    let _ ← perform (.signalAlrm .oldHandler)
    let _ ← perform .freeaddrinfo
    return sfd

/-- `baa_inet_dgram_client`. -/
def baaInetDgramClient (addresses : List AddrInfo) (host service : Option (List Byte)) :
    NetProgram (Option ℕ) :=
  connectInetSocket addresses host service .dgram

/-- `baa_inet_stream_client`. -/
def baaInetStreamClient (addresses : List AddrInfo) (host service : Option (List Byte)) :
    NetProgram (Option ℕ) :=
  connectInetSocket addresses host service .stream

/-! ### The server side -/

/-- The `setsockopt` of `bind_inet_socket`, for a socket that is to listen; whether the function
goes on. -/
def inetReuseAddr (sfd : ℕ) (flags : Byte) : NetProgram Bool :=
  if flags &&& useListen ≠ 0 then do
    match ← perform (.setReuseAddr sfd 1) with
    | .failed _ => return false
    | .ok _ => return true
  else return true

/-- The loop of `bind_inet_socket`, from `rp` on, with the clean-up that follows it. -/
def bindInetLoop (flags : Byte) (result : AddrInfo) : List AddrInfo → NetProgram (Option ℕ)
  | [] => do
    let _ ← perform .freeaddrinfo
    return none
  | _rp :: aiNext => do
    match ← perform (.socketInet result) with
    | .failed _ => bindInetLoop flags result aiNext
    | .ok sfd =>
      if ← inetReuseAddr sfd flags then
        let _ ← setSndTimeout sfd
        let _ ← setRcvTimeout sfd
        match ← perform (.bindInet sfd result) with
        | .ok _ =>
          let _ ← perform .freeaddrinfo
          return some sfd
        -- close only if bind fails
        | .failed _ =>
          let _ ← perform (.close sfd)
          bindInetLoop flags result aiNext
      else
        let _ ← perform .freeaddrinfo
        let _ ← perform (.close sfd)
        return none

/-- The loop over the whole list. -/
def bindInetAddresses (flags : Byte) : List AddrInfo → NetProgram (Option ℕ)
  | [] => do
    let _ ← perform .freeaddrinfo
    return none
  | result :: aiNext => bindInetLoop flags result (result :: aiNext)

/-- `bind_inet_socket`, where the look-up comes to the given addresses, which are those of the
machine itself. -/
def bindInetSocket (addresses : List AddrInfo) (service : Option (List Byte)) (type : SockType)
    (flags : Byte) : NetProgram (Option ℕ) := do
  match ← perform (.getaddrinfo none service ⟨true, type⟩) with
  | .failed _ => return none
  | .ok _ => bindInetAddresses flags addresses

/-- `baa_inet_dgram_server`. -/
def baaInetDgramServer (addresses : List AddrInfo) (service : Option (List Byte)) :
    NetProgram (Option ℕ) :=
  bindInetSocket addresses service .dgram 0

/-- `baa_inet_stream_server`. -/
def baaInetStreamServer (addresses : List AddrInfo) (service : Option (List Byte)) :
    NetProgram (Option ℕ) := do
  match ← bindInetSocket addresses service .stream useListen with
  | none => return none
  | some sfd =>
    match ← perform (.listen sfd backlog) with
    | .failed _ => return none
    | .ok _ => return some sfd

end Libbaalue
