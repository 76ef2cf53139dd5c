import Libbaalue.Foundations.CallProgram
import Libbaalue.Foundations.Descriptors
import Libbaalue.Net.Datagram

/-!
# The calls of the socket constructors

The system calls of `network.c`, with their arguments, and what they do to the open descriptors
of the process. A call that fails opens nothing, and `close` gives up its descriptor whatever it
returns. The constructors are programs over these calls.

Addresses of the internet calls are entries of the list that `getaddrinfo` delivers, and are
compared as such: which entry a call was made with is what the code can get wrong. The addresses of
the Unix domain calls are the bytes the kernel sees. A timeout, a handler and a limit are arguments
like any other, so that the calls of a trace tell the whole of what was asked for.

Descriptors are numbers chosen by the kernel. The programs do not know that a new one was not open
before; where it matters, it is a condition on the trace.
-/

namespace Libbaalue

open CallProgram

/-- `SOCK_DGRAM` and `SOCK_STREAM`. -/
inductive SockType
  | dgram
  | stream
  deriving DecidableEq, Repr

/-- An entry of the list of `getaddrinfo`; `ai_addrlen` is the length of `ai_addr`. The list itself
is a list of these, and `ai_next` its rest. -/
structure AddrInfo where
  family : CInt
  socktype : CInt
  protocol : CInt
  addr : List Byte
  deriving DecidableEq, Repr

/-- The hints of a look-up, of every address family. -/
structure AddrHints where
  passive : Bool
  socktype : SockType
  deriving DecidableEq, Repr

/-- What `baa_signal` is called with for `SIGALRM`: the handler of the library, or the variable
`old_handler`. -/
inductive AlarmHandler
  | handleAlarm
  | oldHandler
  deriving DecidableEq, Repr

/-- `SO_SNDTIMEO` and `SO_RCVTIMEO`. -/
inductive TimeoutOpt
  | sndTimeo
  | rcvTimeo
  deriving DecidableEq, Repr

/-- A call with its arguments. The Unix domain calls take a type and an address, the internet
calls the entry of the address list whose fields they are made with. -/
inductive NetCall
  | unlink (path : List Byte)
  | socketUnix (type : SockType)
  | bindUnix (sfd : ℕ) (addr : AddrArg)
  | connectUnix (sfd : ℕ) (addr : AddrArg)
  | getaddrinfo (host service : Option (List Byte)) (hints : AddrHints)
  | freeaddrinfo
  | socketInet (ai : AddrInfo)
  | bindInet (sfd : ℕ) (ai : AddrInfo)
  | connectInet (sfd : ℕ) (ai : AddrInfo)
  | setTimeout (sfd : ℕ) (optval : TimeoutOpt) (nsec : ℕ)
  | setReuseAddr (sfd : ℕ) (optVal : CInt)
  | listen (sfd backlog : ℕ)
  | close (sfd : ℕ)
  | signalAlrm (handler : AlarmHandler)
  | alarm (nsec : ℕ)
  | malloc (size : ℕ)
  deriving DecidableEq, Repr

/-- A function of `network.c` that returns an `α`, by the calls it makes. -/
abbrev NetProgram (α : Type) := CallProgram NetCall SysRet α

/-- What a call does to the open descriptors. -/
def netEffect : NetCall × SysRet → FdEffect
  | (.socketUnix _, .ok sfd) => .opens sfd
  | (.socketInet _, .ok sfd) => .opens sfd
  | (.close sfd, _) => .closes sfd
  | _ => .keeps

/-- -1 and an `errno` other than the given one. -/
def SysRet.failedOtherThan (errno : Errno) : SysRet → Bool
  | .ok _ => false
  | .failed e => e ≠ errno

/-- `CONNECT_TIMEOUT`, `RECV_TIMEOUT` and `SEND_TIMEOUT`. -/
def connectTimeout : ℕ := 5

@[inherit_doc connectTimeout]
def recvTimeout : ℕ := 5

@[inherit_doc connectTimeout]
def sendTimeout : ℕ := 5

/-- `BACKLOG`: buffer 10 connections in one socket. -/
def backlog : ℕ := 10

/-- `USE_PID`. -/
def usePid : Byte := 0x01

/-- `USE_BIND`. -/
def useBind : Byte := 0x02

/-- `USE_CONNECT`. -/
def useConnect : Byte := 0x04

/-- `USE_LISTEN`. -/
def useListen : Byte := 0x08

/-- `set_timeout`. Its callers do not look at what it returns. -/
def setTimeout (sfd : ℕ) (optval : TimeoutOpt) (nsec : ℕ) : NetProgram CInt := do
  match ← perform (.setTimeout sfd optval nsec) with
  | .failed _ => return -1
  | .ok _ => return 0

/-- `set_snd_timeout`. -/
def setSndTimeout (sfd : ℕ) : NetProgram CInt := setTimeout sfd .sndTimeo sendTimeout

/-- `set_rcv_timeout`. -/
def setRcvTimeout (sfd : ℕ) : NetProgram CInt := setTimeout sfd .rcvTimeo recvTimeout

theorem setTimeout_makes {P : NetCall → Prop} {sfd : ℕ} {optval : TimeoutOpt} {nsec : ℕ}
    (h : P (.setTimeout sfd optval nsec)) : (setTimeout sfd optval nsec).Makes P := by
  rw [setTimeout, makes_perform_bind]
  refine ⟨h, ?_⟩
  rintro (n | errno) <;> exact makes_pure

/-- The rule of the timeouts: whatever `setsockopt` answers, the caller goes on. -/
theorem ensures_setTimeout_bind {α : Type} {sfd : ℕ} {optval : TimeoutOpt} {nsec : ℕ}
    {f : CInt → NetProgram α} {Q : List (NetCall × SysRet) → α → Prop}
    (h : ∀ r v, (f v).Ensures fun tr a => Q ((.setTimeout sfd optval nsec, r) :: tr) a) :
    (setTimeout sfd optval nsec >>= f).Ensures Q := by
  rw [ensures_bind, setTimeout, ensures_perform_bind]
  rintro (n | errno) <;> rw [ensures_pure] <;> exact h _ _

end Libbaalue
