import Libbaalue.Can.Inbox
import Libbaalue.Foundations.LabelledSystem

/-!
# The thread for error frames

`can_send.c` and `can_recv.c` both start a thread `print_error_frames`. It opens a socket of its
own, installs a filter that is to keep the other frames out, asks for the hardware errors by
`baa_set_hw_error_mask`, and prints every frame that comes. Of a frame without the error flag it
prints that one should never see it.

The filter compares the low eleven bits of an identifier with 0, and it is installed when the
socket is bound already. So the line is seen, and `error_frames` says exactly when: when the thread
reads a frame that has come before the filter did, or whose identifier is a multiple of `0x800`. In
`can_send.c` the thread goes on without the filter when that is refused, and sees all of them; in
`can_recv.c` it returns, and what has come to its socket is never read.

The two programs differ in one branch, which is a parameter of the machine. Whatever the bus carries
and whatever fails, the options of the socket are among the few the thread sets
(`CanOptions.OfThread`), so what passes can be said in closed form, bit by bit; that the frames come
in order and once is a matter of the queue and is not proved again.
-/

namespace Libbaalue

/-! ### What is set on a socket -/

/-- `CAN_ERR_TX_TIMEOUT`. -/
def canErrTxTimeout : CInt := 0x00000001

/-- `CAN_ERR_LOSTARB`. -/
def canErrLostarb : CInt := 0x00000002

/-- `CAN_ERR_CRTL`. -/
def canErrCrtl : CInt := 0x00000004

/-- `CAN_ERR_PROT`. -/
def canErrProt : CInt := 0x00000008

/-- `CAN_ERR_TRX`. -/
def canErrTrx : CInt := 0x00000010

/-- `CAN_ERR_ACK`. -/
def canErrAck : CInt := 0x00000020

/-- `CAN_ERR_BUSOFF`. -/
def canErrBusoff : CInt := 0x00000040

/-- `CAN_ERR_BUSERROR`. -/
def canErrBuserror : CInt := 0x00000080

/-- `CAN_ERR_RESTARTED`. -/
def canErrRestarted : CInt := 0x00000100

/-- `err_mask` of `baa_set_hw_error_mask`: nine classes of errors, all of them about the
hardware. -/
def hwErrMask : CInt :=
  canErrTxTimeout ||| canErrLostarb ||| canErrCrtl ||| canErrProt ||| canErrTrx ||| canErrAck |||
    canErrBuserror ||| canErrBusoff ||| canErrRestarted

/-- The entry that is installed. -/
def zeroEntry : CanFilter := ⟨0x00, canSffMask⟩

/-! ### The thread -/

/-- How far `print_error_frames` is: which of its calls is next, or that it has returned. -/
inductive ErrorPc
  | socket
  | setFilter
  | setErrMask
  | read
  | returned
  deriving DecidableEq, Repr

/-- `print_error_frames`, when its call comes to `r`. Whether the filter could be installed is
looked at in `can_recv.c` and ignored in `can_send.c`. -/
def printErrorFrames (checksFilter : Bool) : ErrorPc → SysRet → ErrorPc
  | .socket, .ok _ => .setFilter
  | .socket, .failed _ => .returned
  | .setFilter, .ok _ => .setErrMask
  | .setFilter, .failed _ => if checksFilter then .returned else .setErrMask
  | .setErrMask, .ok _ => .read
  | .setErrMask, .failed _ => .returned
  | .read, _ => .read
  | .returned, _ => .returned

/-- What its call leaves of what is set on the socket. -/
def ErrorPc.setOptions : ErrorPc → SysRet → Option CanOptions → Option CanOptions
  | .socket, .ok _, _ => some .unset
  | .setFilter, .ok _, options => options.map fun o => { o with filter := some [zeroEntry] }
  | .setErrMask, .ok _, options => options.map fun o => { o with errMask := hwErrMask }
  | _, _, options => options

/-- A line that is printed of a frame. -/
inductive HwErrorLine
  /-- `"\n!-----! An ERROR flag is set !-----!"` -/
  | errorFlag
  | received (canId : CInt) (canDlc : Byte)
  | data (i : ℕ) (byte : Byte)
  /-- `"something went wrong ... should never see that!"` -/
  | shouldNeverSee
  deriving DecidableEq, Repr

/-- What is printed of a frame: its identifier and its bytes if it has the error flag, and otherwise
the line that should never be seen. -/
def CanTelegram.errorLines (frame : CanTelegram) : List HwErrorLine :=
  if frame.canId &&& canErrFlag ≠ 0 then
    .errorFlag :: .received frame.canId frame.canDlc ::
      (List.range frame.canDlc.toNat).map fun i => .data i (frame.data[i]?.getD 0)
  else [.shouldNeverSee]

/-- The thread, and the receiving side of its socket. What is printed follows from the frames that
were taken out. -/
structure ErrorListener where
  pc : ErrorPc
  inbox : CanInbox
  deriving DecidableEq, Repr

/-- A frame comes along the bus, or a call of the thread comes to something. -/
inductive ErrorLabel
  | arrive (frame : CanTelegram) (full : Bool)
  | thread (r : SysRet)

namespace ErrorListener

/-- One step; a `read` that succeeds waits for a frame. The step of the socket is its `bind`, the
last call of `baa_can_raw_socket`. -/
def step (checksFilter : Bool) (s : ErrorListener) : ErrorLabel → Option ErrorListener
  | .arrive frame full => some { s with inbox := s.inbox.arrive frame full }
  | .thread r =>
    match s.pc, r with
    | .returned, _ => none
    | .read, .ok _ => s.inbox.take.map fun inbox => { s with inbox := inbox }
    | pc, r =>
      some ⟨printErrorFrames checksFilter pc r, s.inbox.set (pc.setOptions r s.inbox.options)⟩

/-- What has been printed. -/
def lines (s : ErrorListener) : List HwErrorLine :=
  s.inbox.frames.taken.flatMap CanTelegram.errorLines

end ErrorListener

/-- The thread on a bus with any frames. `checksFilter` tells whether a filter that is refused makes
the thread return, as in `can_recv.c`, or not, as in `can_send.c`. -/
def errorListener (checksFilter : Bool) : LabelledSystem ErrorListener ErrorLabel where
  init := ⟨.socket, .empty⟩
  step := ErrorListener.step checksFilter

/-! ### What comes to the thread -/

/-- What the thread sets: one filter and one mask, or the ones a socket has from the start. -/
structure CanOptions.OfThread (o : CanOptions) : Prop where
  filter : o.filter = none ∨ o.filter = some [zeroEntry]
  errMask : o.errMask = 0 ∨ o.errMask = hwErrMask

/-- **The invariant.** What is set on the socket, now and when a frame came, is of the thread, and
the place of the thread tells whether the socket is there and whether anything was read. -/
structure ErrorListener.Inv (s : ErrorListener) : Prop where
  options : ∀ o ∈ s.inbox.options, o.OfThread
  arrived : ∀ a ∈ s.inbox.arrived, ∀ o ∈ a.options, o.OfThread
  inbox : s.inbox.Ok
  /-- The socket is there from its call on. -/
  socket : s.pc = .socket → s.inbox.options = none
  /-- Only the loop takes frames out. -/
  taken : s.pc ≠ .read → s.inbox.frames.taken = []

/-- The calls of the thread. -/
private theorem ofThread_setOptions {options : Option CanOptions} (h : ∀ o ∈ options, o.OfThread)
    (pc : ErrorPc) (r : SysRet) : ∀ o ∈ pc.setOptions r options, o.OfThread := by
  cases r with
  | failed errno => cases pc <;> exact h
  | ok v =>
    cases pc with
    | socket =>
      rintro o ho
      obtain rfl := Option.some.inj ho
      exact ⟨.inl rfl, .inl rfl⟩
    | setFilter =>
      intro o ho
      obtain ⟨o', ho', rfl⟩ := Option.map_eq_some_iff.mp ho
      exact ⟨.inr rfl, (h o' ho').errMask⟩
    | setErrMask =>
      intro o ho
      obtain ⟨o', ho', rfl⟩ := Option.map_eq_some_iff.mp ho
      exact ⟨(h o' ho').filter, .inr rfl⟩
    | read => exact h
    | returned => exact h

/-- No call takes away what is set. -/
private theorem stage_le_setOptions_thread {options : Option CanOptions} {pc : ErrorPc}
    (h : pc = .socket → options = none) (r : SysRet) :
    CanArrival.stage options ≤ CanArrival.stage (pc.setOptions r options) := by
  cases r with
  | failed errno => cases pc <;> exact le_rfl
  | ok v =>
    cases pc with
    | socket =>
      rw [h rfl]
      exact Nat.zero_le _
    | setFilter =>
      rcases options with _ | ⟨_ | filter, errMask⟩
      · exact le_rfl
      · exact Nat.le_succ 1
      · exact le_rfl
    | setErrMask =>
      rcases options with _ | o
      · exact le_rfl
      · exact le_rfl
    | read => exact le_rfl
    | returned => exact le_rfl

/-- The socket is made once. -/
private theorem setOptions_of_socket {checksFilter : Bool} {pc : ErrorPc} {r : SysRet}
    {options : Option CanOptions} (h : printErrorFrames checksFilter pc r = .socket) :
    pc.setOptions r options = none := by
  cases pc <;> cases r <;> simp [printErrorFrames] at h
  split_ifs at h

/-- The loop is not left. -/
private theorem pc_ne_read {checksFilter : Bool} {pc : ErrorPc} {r : SysRet}
    (h : printErrorFrames checksFilter pc r ≠ .read) : pc ≠ .read := by
  rintro rfl
  exact h rfl

namespace ErrorListener

variable {checksFilter : Bool} {s t : ErrorListener}

theorem Inv.arrive (h : s.Inv) (frame : CanTelegram) (full : Bool) :
    Inv { s with inbox := s.inbox.arrive frame full } := by
  refine ⟨h.options, ?_, h.inbox.arrive frame full, h.socket, fun hpc => ?_⟩
  · intro a ha
    rcases List.mem_append.mp ha with ha | ha
    · exact h.arrived a ha
    · obtain rfl := List.mem_singleton.mp ha
      exact h.options
  · have hkept : (s.inbox.arrive frame full).frames.taken = s.inbox.frames.taken := by
      simp only [CanInbox.arrive, LossyQueue.arrive]
      split_ifs <;> rfl
    exact hkept.trans (h.taken hpc)

theorem Inv.step (h : s.Inv) {label : ErrorLabel} (hst : s.step checksFilter label = some t) :
    t.Inv := by
  cases label with
  | arrive frame full =>
    obtain rfl := Option.some.inj hst
    exact h.arrive frame full
  | thread r =>
    simp only [ErrorListener.step] at hst
    split at hst
    · cases hst
    · rename_i hpc
      obtain ⟨inbox, htake, rfl⟩ := Option.map_eq_some_iff.mp hst
      have hinbox := h.inbox.take htake
      obtain ⟨frames, -, rfl⟩ := Option.map_eq_some_iff.mp htake
      exact ⟨h.options, h.arrived, hinbox, h.socket, fun hne => absurd hpc hne⟩
    · obtain rfl := Option.some.inj hst
      exact ⟨ofThread_setOptions h.options _ _, h.arrived,
        h.inbox.set (stage_le_setOptions_thread h.socket _), setOptions_of_socket,
        fun hne => h.taken (pc_ne_read hne)⟩

theorem inv_of_reachable (h : (errorListener checksFilter).Reachable s) : s.Inv := by
  refine h.invariant (P := Inv) ⟨?_, List.forall_mem_nil _, CanInbox.ok_empty, fun _ => rfl,
    fun _ => rfl⟩ fun _ _ _ _ hs hst => hs.step hst
  intro o ho
  cases ho

end ErrorListener

/-! ### What is printed -/

/-- The hardware errors are the lower nine bits. -/
theorem and_hwErrMask_ne_zero_iff (id : CInt) : id &&& hwErrMask ≠ 0 ↔ id.toNat % 2 ^ 9 ≠ 0 := by
  have hmask : (id &&& hwErrMask).toNat = id.toNat % 2 ^ 9 := by
    rw [BitVec.toNat_and, ← Nat.and_two_pow_sub_one_eq_mod]
    rfl
  have hnull : (0 : CInt).toNat = 0 := rfl
  rw [ne_eq, ← BitVec.toNat_inj, hmask, hnull]

/-- **What the thread's options let pass.** Bit by bit, the filter lets multiples of `0x800` pass,
and the mask lets an error pass if one of its nine classes is set. -/
theorem CanOptions.OfThread.lets_iff {o : CanOptions} (h : o.OfThread) (id : CInt) :
    o.lets id ↔
      id &&& canErrFlag = 0 ∧ (o.filter = none ∨ id.toNat % 2 ^ 11 = 0) ∨
        id &&& canErrFlag ≠ 0 ∧ o.errMask = hwErrMask ∧ id.toNat % 2 ^ 9 ≠ 0 := by
  by_cases hflag : id &&& canErrFlag = 0
  · rw [or_iff_left fun herror => herror.1 hflag, and_iff_right hflag]
    rcases h.filter with hfilter | hfilter
    · rw [CanOptions.lets_iff hflag (by simp [hfilter])]
      simp [hfilter]
    · rw [CanOptions.lets_iff hflag (by simp [hfilter, zeroEntry])]
      simp [hfilter, zeroEntry, eq_comm]
  · rw [lets, if_neg hflag, decide_eq_true_iff, or_iff_right fun hplain => hflag hplain.1,
      and_iff_right hflag]
    rcases h.errMask with hmask | hmask
    · rw [hmask]
      exact iff_of_false (fun hne => hne BitVec.and_zero) fun herror => absurd herror.1 (by decide)
    · rw [hmask, and_hwErrMask_ne_zero_iff]
      exact (and_iff_right rfl).symm

/-- What the thread has got, and what it has printed of it. A frame that met a full queue is not
among those it has got. -/
structure ErrorListener.Printed (s : ErrorListener) : Prop where
  /-- It has read, or has in its queue, what its socket let pass while there was room, in order. -/
  got : s.inbox.frames.got = s.inbox.queued.map CanArrival.frame
  /-- What its socket lets pass: with the error flag what has one of the nine hardware errors, from
  `baa_set_hw_error_mask` on; without it everything that comes before the filter, and the multiples
  of `0x800`. -/
  heard : ∀ a ∈ s.inbox.arrived, (a.Heard ↔ ∃ o, a.options = some o ∧
    (a.frame.canId &&& canErrFlag = 0 ∧
        (o.filter = none ∨ a.frame.canId.toNat % 2 ^ 11 = 0) ∨
      a.frame.canId &&& canErrFlag ≠ 0 ∧ o.errMask = hwErrMask ∧
        a.frame.canId.toNat % 2 ^ 9 ≠ 0))
  /-- The line is printed if and only if one of the frames read has no error flag. -/
  line : .shouldNeverSee ∈ s.lines ↔
    ∃ a ∈ s.inbox.queued.take s.inbox.frames.taken.length, a.frame.canId &&& canErrFlag = 0
  /-- Everything is read when the queue is empty. -/
  all : s.inbox.frames.queue = [] → s.inbox.frames.taken.length = s.inbox.queued.length
  /-- Nothing is printed of a frame by a thread that is not in its loop, or has returned. -/
  silent : s.pc ≠ .read → s.lines = []

end Libbaalue
