import Libbaalue.Foundations.StringBuffer
import Libbaalue.Net.Socket

/-!
# `can_socket`

`can_socket` of `can_lin.c` as a program over its calls, with the copy of the interface name
into `ifr_name`, which is bounded by the length of the name, and with the label `error`, which
frees the address and leaves the socket open.

`allOrNothing_iff` says exactly when a call is all or nothing: when no socket was opened, or the
name fits and every call succeeded.

The three things promised are independent of each other: the copy of the name, the descriptor of a
failure, and the pointer that is written through. Each is looked at on its own, and the condition is
their conjunction. A name of any length is allowed, since the function does not check it; `*addr` is
either as it was or the address of a success, and the model says which.
-/

namespace Libbaalue

open CallProgram

/-- The protocols of `can_socket`. -/
inductive CanProto
  | raw
  | bcm
  deriving DecidableEq, Repr

/-- `struct sockaddr_can`; `can_family` is `AF_CAN`. -/
structure SockaddrCan where
  canIfindex : CInt
  deriving DecidableEq, Repr

/-- `IFNAMSIZ`. -/
def ifnamsiz : ℕ := 16

/-- `sizeof(struct sockaddr_can)`. -/
def sizeofSockaddrCan : ℕ := 24

/-- `BIND_TO_ANY_CANIF`. -/
def bindToAnyCanif : Byte := 0x01

/-- A call with its arguments; `SIOCGIFINDEX` is given the bytes of `ifr_name` and answers with
`ifr_ifindex`. -/
inductive CanSocketCall
  | socket (proto : CanProto)
  | ioctlIfindex (fd : ℕ) (ifrName : List Byte)
  | malloc (size : ℕ)
  | bind (fd : ℕ) (s : SockaddrCan)
  | connect (fd : ℕ) (s : SockaddrCan)
  | free
  deriving DecidableEq, Repr

/-- What is returned (`none` for -1), what is written to `*addr` (`none` while it is not), and
`ifr_name`. -/
structure CanResult where
  ret : Option ℕ
  addr : Option SockaddrCan
  ifrName : Buffer Byte

/-- The call that attaches the socket of a protocol to its address. -/
def CanProto.attach : CanProto → ℕ → SockaddrCan → CanSocketCall
  | raw, fd, s => .bind fd s
  | bcm, fd, s => .connect fd s

/-- The zeroed `ifr_name`. -/
def zeroIfrName : Buffer Byte := .fresh fun _ => 0

/-- `strncpy(ifr.ifr_name, ifname, strlen(ifname) + 1)`: all of the name, with its NUL. -/
def copyIfname (ifname : List Byte) : Buffer Byte := zeroIfrName.put 0 (ifname ++ [0])

/-- The label `error`: the socket stays open. -/
def canError (s : Option SockaddrCan) (ifrName : Buffer Byte) :
    CallProgram CanSocketCall SysRet CanResult :=
  match s with
  | none => return ⟨none, none, ifrName⟩
  | some _ => do
    let _ ← perform .free
    return ⟨none, none, ifrName⟩

/-- `can_socket`; `hasAddr` tells whether `addr` is not a null pointer. The address is written to
`*addr` if there is one; where there is none nobody frees it. -/
def canSocket (ifname : List Byte) (hasAddr : Bool) (proto : CanProto) (flags : Byte) :
    CallProgram CanSocketCall SysRet CanResult := do
  match ← perform (.socket proto) with
  | .failed _ => canError none zeroIfrName
  | .ok fd =>
    let ifrName := copyIfname ifname
    match ← perform (.ioctlIfindex fd (ifrName.front ifnamsiz)) with
    | .failed _ => canError none ifrName
    | .ok ifindex =>
      match ← perform (.malloc sizeofSockaddrCan) with
      | .failed _ => canError none ifrName
      | .ok _ =>
        let s : SockaddrCan :=
          ⟨if flags &&& bindToAnyCanif ≠ 0 then 0 else BitVec.ofNat 32 ifindex⟩
        match ← perform (proto.attach fd s) with
        | .failed _ => canError (some s) ifrName
        | .ok _ => return ⟨some fd, if hasAddr then some s else none, ifrName⟩

/-- `baa_can_raw_socket`. -/
def baaCanRawSocket (ifname : List Byte) (hasAddr : Bool) (flags : Byte) :
    CallProgram CanSocketCall SysRet CanResult :=
  canSocket ifname hasAddr .raw flags

/-- `baa_can_bcm_socket`. -/
def baaCanBcmSocket (ifname : List Byte) (hasAddr : Bool) (flags : Byte) :
    CallProgram CanSocketCall SysRet CanResult :=
  canSocket ifname hasAddr .bcm flags

/-- What a call does to the open descriptors. The function never closes one. -/
def canEffect : CanSocketCall × SysRet → FdEffect
  | (.socket _, .ok fd) => .opens fd
  | _ => .keeps

/-! ### The name -/

/-- The copy stays inside `ifr_name` if and only if the name fits. -/
theorem copyIfname_writesBelow_iff (ifname : List Byte) :
    (copyIfname ifname).WritesBelow ifnamsiz ↔ ifname.length < ifnamsiz := by
  have hzero : zeroIfrName.WritesBelow ifnamsiz := fun i hi => absurd hi List.not_mem_nil
  have hne : ifname ++ [0] ≠ [] := List.append_ne_nil_of_right_ne_nil _ (List.cons_ne_nil _ _)
  rw [copyIfname, Buffer.writesBelow_put_iff hzero, or_iff_right hne, Nat.zero_add,
    List.length_append, List.length_singleton, Nat.succ_le_iff]

/-- A name that fits is the name the kernel looks up. -/
theorem prefix_front_copyIfname {ifname : List Byte} (h : ifname.length < ifnamsiz) :
    ifname ++ [0] <+: (copyIfname ifname).front ifnamsiz := by
  have hput : (copyIfname ifname).front (ifname.length + 1) = ifname ++ [0] := by
    have hfront := zeroIfrName.front_put 0 (ifname ++ [0])
    rwa [Nat.zero_add, List.length_append] at hfront
  rw [← hput, ← Buffer.front_take _ h]
  exact List.take_prefix _ _

/-! ### All or nothing -/

/-- The promise of `can_socket`: the copy stays inside `ifr_name` and a name that does not fit is
refused; a failure leaves nothing open and `*addr` as it was; a success leaves one descriptor
more, attached to the interface of the name, or to any. -/
structure AllOrNothing (ifname : List Byte) (proto : CanProto) (flags : Byte) (fds : Finset ℕ)
    (tr : List (CanSocketCall × SysRet)) (made : CanResult) : Prop where
  inside : made.ifrName.WritesBelow ifnamsiz
  refused : ifnamsiz ≤ ifname.length → made.ret = none
  nothing : made.ret = none → openAfter canEffect fds tr = fds ∧ made.addr = none
  all : ∀ fd, made.ret = some fd →
    fd ∉ fds ∧ openAfter canEffect fds tr = insert fd fds ∧
      ∃ s v, (proto.attach fd s, .ok v) ∈ tr ∧
        if flags &&& bindToAnyCanif ≠ 0 then s.canIfindex = 0
        else ∃ ifrName index, (.ioctlIfindex fd ifrName, .ok index) ∈ tr ∧
          ifname ++ [0] <+: ifrName ∧ s.canIfindex = BitVec.ofNat 32 index

variable {ifname : List Byte} {proto : CanProto} {flags : Byte} {fds : Finset ℕ}

/-- A failure after the socket was opened leaves it open. -/
private theorem not_allOrNothing_of_open {fd : ℕ} {tr : List (CanSocketCall × SysRet)}
    {ifrName : Buffer Byte}
    (hkeeps : ∀ e ∈ tr, canEffect e = .keeps)
    (hfresh : FreshAlong canEffect fds ((.socket proto, .ok fd) :: tr)) :
    ¬ AllOrNothing ifname proto flags fds ((.socket proto, .ok fd) :: tr)
      ⟨none, none, ifrName⟩ := by
  intro h
  have hopen := (h.nothing rfl).1
  rw [openAfter, openAfter_of_keeps hkeeps] at hopen
  exact hfresh.1 (hopen ▸ Finset.mem_insert_self fd fds)

/-- The verdict on an execution: all or nothing, exactly if no socket was opened, or the name fits
and every call succeeded. -/
def AllOrNothingExactly (ifname : List Byte) (proto : CanProto) (flags : Byte) (fds : Finset ℕ)
    (tr : List (CanSocketCall × SysRet)) (made : CanResult) : Prop :=
  FreshAlong canEffect fds tr →
    (AllOrNothing ifname proto flags fds tr made ↔
      (∀ fd, (.socket proto, .ok fd) ∉ tr) ∨
        ifname.length < ifnamsiz ∧ ∀ e ∈ tr, e.2.isOk = true)

/-- A failure behind the socket. -/
private theorem allOrNothingExactly_of_failed {fd : ℕ} {tr : List (CanSocketCall × SysRet)}
    {ifrName : Buffer Byte} (hkeeps : ∀ e ∈ tr, canEffect e = .keeps)
    (hfailed : ∃ e ∈ tr, e.2.isOk = false) :
    AllOrNothingExactly ifname proto flags fds ((.socket proto, .ok fd) :: tr)
      ⟨none, none, ifrName⟩ := by
  intro hfresh
  refine iff_of_false (not_allOrNothing_of_open hkeeps hfresh) ?_
  rintro (hno | ⟨-, hall⟩)
  · exact hno fd List.mem_cons_self
  · obtain ⟨e, he, hfalse⟩ := hfailed
    rw [hall e (List.mem_cons_of_mem _ he)] at hfalse
    cases hfalse

/-- A call that attaches a socket opens none. -/
private theorem canEffect_attach (proto : CanProto) (fd : ℕ) (s : SockaddrCan) (r : SysRet) :
    canEffect (proto.attach fd s, r) = .keeps := by
  cases proto <;> rfl

/-- A success: the name decides. -/
private theorem allOrNothingExactly_of_ok {fd ifindex v v' : ℕ} {addr : Option SockaddrCan}
    {s : SockaddrCan}
    (hs : s.canIfindex = if flags &&& bindToAnyCanif ≠ 0 then 0 else BitVec.ofNat 32 ifindex) :
    AllOrNothingExactly ifname proto flags fds
      [(.socket proto, .ok fd),
        (.ioctlIfindex fd ((copyIfname ifname).front ifnamsiz), .ok ifindex),
        (.malloc sizeofSockaddrCan, .ok v), (proto.attach fd s, .ok v')]
      ⟨some fd, addr, copyIfname ifname⟩ := by
  intro hfresh
  have hok : ∀ e ∈ ([(.socket proto, .ok fd),
      (.ioctlIfindex fd ((copyIfname ifname).front ifnamsiz), .ok ifindex),
      (.malloc sizeofSockaddrCan, .ok v), (proto.attach fd s, .ok v')] :
        List (CanSocketCall × SysRet)), e.2.isOk = true := by
    simp [SysRet.isOk]
  constructor
  · intro h
    exact .inr ⟨(copyIfname_writesBelow_iff ifname).mp h.inside, hok⟩
  · rintro (hno | ⟨hlen, -⟩)
    · exact absurd List.mem_cons_self (hno fd)
    · refine ⟨(copyIfname_writesBelow_iff ifname).mpr hlen, fun hle => absurd hlen (not_lt.mpr hle),
        fun hnone => (Option.some_ne_none fd hnone).elim, ?_⟩
      intro fd' hfd'
      obtain rfl : fd = fd' := Option.some.inj hfd'
      refine ⟨hfresh.1, ?_, s, v', by simp, ?_⟩
      · rw [openAfter]
        exact openAfter_of_keeps (List.forall_mem_cons.mpr ⟨rfl, List.forall_mem_cons.mpr
          ⟨rfl, List.forall_mem_singleton.mpr (canEffect_attach proto fd s _)⟩⟩)
      · rw [hs]
        split_ifs
        · rfl
        · exact ⟨_, ifindex, by simp, prefix_front_copyIfname hlen, rfl⟩

/-- **When `can_socket` is all or nothing.** In every execution, whatever is open before: if and
only if no socket was opened, or the name fits and every call succeeded. -/
theorem allOrNothing_iff (ifname : List Byte) (hasAddr : Bool) (proto : CanProto) (flags : Byte)
    (fds : Finset ℕ) :
    (canSocket ifname hasAddr proto flags).Ensures fun tr made =>
      FreshAlong canEffect fds tr →
        (AllOrNothing ifname proto flags fds tr made ↔
          (∀ fd, (.socket proto, .ok fd) ∉ tr) ∨
            ifname.length < ifnamsiz ∧ ∀ e ∈ tr, e.2.isOk = true) := by
  have hverdict : (canSocket ifname hasAddr proto flags).Ensures
      (AllOrNothingExactly ifname proto flags fds) := by
    rw [canSocket, ensures_perform_bind]
    -- each call fails or goes on
    rintro (fd | errno)
    · rw [ensures_perform_bind]
      rintro (ifindex | errno)
      · rw [ensures_perform_bind]
        rintro (v | errno)
        · rw [ensures_perform_bind]
          rintro (v' | errno)
          · rw [ensures_pure]
            exact allOrNothingExactly_of_ok rfl
          · rw [canError, ensures_perform_bind]
            intro r
            rw [ensures_pure]
            exact allOrNothingExactly_of_failed (by simp [canEffect])
              (by simp [SysRet.isOk])
        · rw [canError, ensures_pure]
          exact allOrNothingExactly_of_failed (by simp [canEffect]) (by simp [SysRet.isOk])
      · rw [canError, ensures_pure]
        exact allOrNothingExactly_of_failed (by simp [canEffect]) (by simp [SysRet.isOk])
    · rw [canError, ensures_pure]
      refine fun _ => iff_of_true ⟨fun i hi => absurd hi List.not_mem_nil, fun _ => rfl,
        fun _ => ⟨rfl, rfl⟩, fun fd hfd => (Option.some_ne_none fd hfd.symm).elim⟩ (.inl ?_)
      simp
  exact hverdict

/-- An interface that does not exist: the call fails and its socket stays open. A name of 16
letters: its NUL is written behind `ifr_name`. -/
theorem not_allOrNothing :
    (∃ (tr : List (CanSocketCall × SysRet)) (made : CanResult),
      (canSocket [120] true .raw 0).Exec tr made ∧ FreshAlong canEffect ∅ tr ∧
      made.ret = none ∧ openAfter canEffect ∅ tr = {3} ∧
      ¬ AllOrNothing [120] .raw 0 ∅ tr made) ∧
    ∃ (tr : List (CanSocketCall × SysRet)) (made : CanResult),
      (canSocket (List.replicate 16 120) true .raw 0).Exec tr made ∧
      FreshAlong canEffect ∅ tr ∧ made.ret = some 3 ∧ 16 ∈ made.ifrName.written ∧
      ¬ AllOrNothing (List.replicate 16 120) .raw 0 ∅ tr made := by
  have hleak := @exec_of_eval _ _ _ (canSocket [120] true .raw 0)
    [.ok 3, .failed (.other 19)] _ rfl
  have hlong := @exec_of_eval _ _ _ (canSocket (List.replicate 16 120) true .raw 0)
    [.ok 3, .ok 1, .ok 0, .ok 0] _ rfl
  refine ⟨⟨_, _, hleak, by decide, rfl, by decide, fun h => ?_⟩, _, _, hlong, by decide, rfl,
    by decide, fun h => ?_⟩
  · exact absurd (h.nothing rfl).1 (by decide)
  · exact absurd (h.refused (by decide)) (by decide)

end Libbaalue
