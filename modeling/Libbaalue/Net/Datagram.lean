import Libbaalue.Platform

/-!
# Datagrams and socket addresses

What `sendto` and `recvfrom` do with a `struct sockaddr_un` on a datagram socket. The address
of a datagram's sender is the contents of its `sun_path`: the path and its NUL for a bound
socket, nothing for an unnamed one.

The pair `(&addr, &len)` of `recvfrom` is a value-result argument: the sender's address is
written over `addr`, as far as `len` allows, and `len` becomes the size of the address
(`AddrArg.receive`). A later `sendto` of the same pair goes to the path that is then in it.

A socket that is not bound has no address at all: its datagrams leave the bytes of `addr` as they
were and set the length to 0, so that a later `sendto` of the pair has nowhere to go until the
length is set back, and goes to what was there before if it is. A path in an address ends at its
first NUL or at the length, whichever is first, and `AddrArg.path` is what the kernel makes of the
pair in a `sendto`.
-/

namespace Libbaalue

open Block

/-- A datagram in flight, with the address that the kernel tells the receiver. -/
structure Datagram where
  /-- The `sun_path` bytes of the sender's address. -/
  sender : List Byte
  payload : List Byte
  deriving DecidableEq, Repr

/-- The `sun_path` bytes of a socket bound at a path. -/
def boundAt (path : List Byte) : List Byte := path ++ [0]

/-- The `sun_path` bytes of a socket that is not bound. -/
def unnamed : List Byte := []

/-- A `struct sockaddr_un` and the `socklen_t` passed along with it. The two are one argument, as
what the kernel does depends on both. -/
structure AddrArg where
  sunPath : List Byte
  len : ℕ
  deriving DecidableEq, Repr

/-- `sizeof(sun_path)`. -/
def sizeofSunPath : ℕ := 108

/-- `offsetof(struct sockaddr_un, sun_path)`. -/
def sunPathOffset : ℕ := 2

/-- `sizeof(struct sockaddr_un)`. -/
def sizeofSockaddrUn : ℕ := sunPathOffset + sizeofSunPath

/-- A zeroed address with its full length. -/
def AddrArg.zero : AddrArg := ⟨List.replicate sizeofSunPath 0, sizeofSockaddrUn⟩

/-- The path a `sendto` of the pair goes to: the bytes inside the length, up to the first NUL. -/
def AddrArg.path (a : AddrArg) : List Byte :=
  (a.sunPath.take (a.len - sunPathOffset)).takeWhile (· ≠ 0)

/-- What `recvfrom` makes of the pair. A sender without a name leaves the bytes alone; the length
becomes that of the sender's address, also where this was cut. -/
def AddrArg.receive (a : AddrArg) (sender : List Byte) : AddrArg :=
  if sender = unnamed then { a with len := 0 }
  else
    { sunPath := overlay a.sunPath (sender.take (a.len - sunPathOffset))
      len := sunPathOffset + sender.length }

/-- The pair with the length set back to the size of the structure. -/
def AddrArg.reset (a : AddrArg) : AddrArg := { a with len := sizeofSockaddrUn }

/-- A path whose NUL is inside the pair's length is the path of the pair. -/
theorem AddrArg.path_eq_of_prefix {a : AddrArg} {path : List Byte} (hnul : (0 : Byte) ∉ path)
    (hpath : boundAt path <+: a.sunPath) (hlen : path.length < a.len - sunPathOffset) :
    a.path = path := by
  obtain ⟨rest, hrest⟩ := hpath
  have htake : a.sunPath.take (a.len - sunPathOffset) =
      path ++ 0 :: rest.take (a.len - sunPathOffset - path.length - 1) := by
    rw [← hrest, boundAt, List.append_assoc, List.take_append, List.take_of_length_le hlen.le,
      List.singleton_append, show a.len - sunPathOffset - path.length =
        a.len - sunPathOffset - path.length - 1 + 1 by omega, List.take_succ_cons,
      Nat.add_sub_cancel]
  have hall : ∀ b ∈ path, (decide (b ≠ 0)) = true := fun b hb =>
    decide_eq_true fun hzero => hnul (hzero ▸ hb)
  rw [AddrArg.path, htake, List.takeWhile_append_of_pos hall, List.takeWhile_cons]
  simp

/-- The address of a bound sender, received into a full-length pair, is where a `sendto` of the pair
then goes. A reply so reaches who has asked. -/
theorem AddrArg.path_receive_boundAt {a : AddrArg} {path : List Byte}
    (hnul : (0 : Byte) ∉ path) (hfits : path.length < sizeofSunPath)
    (hsize : a.sunPath.length = sizeofSunPath) (hlen : a.len = sizeofSockaddrUn) :
    (a.receive (boundAt path)).path = path := by
  have hne : boundAt path ≠ unnamed := by simp [boundAt, unnamed]
  have htake : (boundAt path).take (a.len - sunPathOffset) = boundAt path :=
    List.take_of_length_le (by
      rw [hlen, sizeofSockaddrUn, Nat.add_sub_cancel_left, boundAt, List.length_append]
      simpa using Nat.succ_le_of_lt hfits)
  refine AddrArg.path_eq_of_prefix hnul ?_ ?_
  · rw [receive, if_neg hne, htake,
      overlay_of_le (by
        rw [hsize, boundAt, List.length_append]
        simpa using Nat.succ_le_of_lt hfits)]
    exact List.prefix_append _ _
  · rw [receive, if_neg hne]
    simp [boundAt]

end Libbaalue
