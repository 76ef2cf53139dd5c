import Libbaalue.Can.Cyclic
import Libbaalue.Foundations.LossyQueue

/-!
# The receiving side of a raw socket

A raw socket gets the frames on its bus from the moment it is bound. Which of them it lets pass is
decided by what is set on it when the frame comes: the filter decides on data frames, and lets all
of them pass as long as none is installed; the error mask decides on error frames, and lets none
pass unless some are asked for. What it lets pass waits in the queue of the socket for a `read`, or
is lost if the queue is full.

The history `arrived` has every frame on the bus, with what was set on the socket by then and with
whether the queue was full, so that what a socket has got can be told exactly
(`CanInbox.Carries`): the frames it let pass while there was room, in order, each once.

Both programs that read from a raw socket use it, the receiver of telegrams and the thread for error
frames, and what they share is here: a socket is bound first and gets its filter later, so what it
was told when a frame came depends on the moment, and a frame keeps that with it. What they do not
share is what they set and what they do with a frame.
-/

namespace Libbaalue

/-- `CAN_ERR_FLAG`. -/
def canErrFlag : CInt := 0x20000000

/-- The filter of a socket, which lets all data frames pass if there is none, and the errors that
are asked for. -/
structure CanOptions where
  filter : Option (List CanFilter)
  errMask : CInt
  deriving DecidableEq, Repr

/-- What is set on a socket that was just made. -/
def CanOptions.unset : CanOptions := ⟨none, 0⟩

/-- What a socket lets pass: the error mask decides on error frames, the filter on the others. -/
def CanOptions.lets (options : CanOptions) (id : CInt) : Bool :=
  if id &&& canErrFlag = 0 then
    decide (∀ entries ∈ options.filter,
      ∃ entry ∈ entries, id &&& entry.canMask = entry.canId &&& entry.canMask)
  else id &&& options.errMask ≠ 0

/-- A frame on the bus, with what was set on the socket by then, if it was bound, and with whether
its queue was full. -/
structure CanArrival where
  options : Option CanOptions
  frame : CanTelegram
  full : Bool
  deriving DecidableEq, Repr

/-- The socket is bound, and lets the frame pass. -/
def CanArrival.Heard (a : CanArrival) : Bool := a.options.any fun o => o.lets a.frame.canId

/-- How far a socket is: not bound, without a filter, with one. It never goes back, which is how the
order of what was set is told. -/
def CanArrival.stage (options : Option CanOptions) : ℕ :=
  match options with
  | none => 0
  | some o => if o.filter.isNone then 1 else 2

/-- The receiving side of a socket: what is set on it, once it is bound; its queue; and what has
come along the bus. -/
structure CanInbox where
  options : Option CanOptions
  frames : LossyQueue CanTelegram
  arrived : List CanArrival
  deriving DecidableEq, Repr

namespace CanInbox

/-- A socket that is not there yet, to which nothing has come. -/
def empty : CanInbox := ⟨none, .empty, []⟩

/-- Something is set on the socket. -/
def set (b : CanInbox) (options : Option CanOptions) : CanInbox := { b with options := options }

/-- A frame comes along the bus. If the socket lets it pass it is offered to the queue; in any case
it is remembered. -/
def arrive (b : CanInbox) (frame : CanTelegram) (full : Bool) : CanInbox :=
  let a : CanArrival := ⟨b.options, frame, full⟩
  { b with
    frames := if a.Heard then b.frames.arrive full frame else b.frames
    arrived := b.arrived ++ [a] }

/-- A `read` takes the next frame out. -/
def take (b : CanInbox) : Option CanInbox :=
  b.frames.take.map fun frames => { b with frames := frames }

/-- What was offered to the queue: the frames the socket let pass, each with whether the queue was
full. -/
def offers (b : CanInbox) : List (CanTelegram × Bool) :=
  (b.arrived.filter CanArrival.Heard).map fun a => (a.frame, a.full)

/-- The socket has got what it let pass while there was room, and it was bound first and got its
filter later. -/
structure Ok (b : CanInbox) : Prop where
  carries : b.frames.Carries b.offers
  order : b.arrived.Pairwise fun a a' =>
    CanArrival.stage a.options ≤ CanArrival.stage a'.options
  latest : ∀ a ∈ b.arrived, CanArrival.stage a.options ≤ CanArrival.stage b.options

theorem ok_empty : empty.Ok where
  carries := LossyQueue.carries_empty
  order := List.Pairwise.nil
  latest := List.forall_mem_nil _

variable {b b' : CanInbox}

/-- The frame is offered to the queue if the socket lets it pass, and to nobody otherwise. -/
theorem Ok.arrive (h : b.Ok) (frame : CanTelegram) (full : Bool) : (b.arrive frame full).Ok := by
  obtain ⟨hcarries, horder, hlatest⟩ := h
  refine ⟨?_, List.pairwise_append.mpr ⟨horder, List.pairwise_singleton _ _, ?_⟩, ?_⟩
  · rw [offers, CanInbox.arrive, List.filter_append, List.map_append]
    split_ifs with hheard
    · rw [List.filter_cons_of_pos hheard]
      exact hcarries.arrive full frame
    · rw [List.filter_cons_of_neg hheard, List.filter_nil, List.map_nil, List.append_nil]
      exact hcarries
  · intro a ha a' ha'
    obtain rfl := List.mem_singleton.mp ha'
    exact hlatest a ha
  · intro a ha
    rcases List.mem_append.mp ha with ha | ha
    · exact hlatest a ha
    · obtain rfl := List.mem_singleton.mp ha
      exact le_rfl

theorem Ok.take (h : b.Ok) (htake : b.take = some b') : b'.Ok := by
  obtain ⟨frames, hframes, rfl⟩ := Option.map_eq_some_iff.mp htake
  exact ⟨h.carries.take hframes, h.order, h.latest⟩

/-- What is set later does not count for the frames that came before. -/
theorem Ok.set (h : b.Ok) {options : Option CanOptions}
    (hstage : CanArrival.stage b.options ≤ CanArrival.stage options) : (b.set options).Ok :=
  ⟨h.carries, h.order, fun a ha => (h.latest a ha).trans hstage⟩

/-- What the socket has got of what came: it was let pass, and met a queue with room. -/
def queued (b : CanInbox) : List CanArrival := b.arrived.filter fun a => a.Heard && !a.full

end CanInbox

/-! ### What is let pass -/

/-- The error flag is one bit. -/
theorem and_canErrFlag_eq_zero_iff (x : CInt) :
    x &&& canErrFlag = 0 ↔ x.toNat.testBit 29 = false := by
  have hflag : canErrFlag = BitVec.twoPow 32 29 := rfl
  rw [hflag, BitVec.and_twoPow, BitVec.testBit_toNat]
  cases x.getLsbD 29 with
  | false => simp
  | true =>
    rw [if_pos rfl]
    decide

/-- **What passes entries of eleven bits** of the frames without the error flag. -/
theorem CanOptions.lets_iff {o : CanOptions} {id : CInt} (hid : id &&& canErrFlag = 0)
    (hmask : ∀ entries ∈ o.filter, ∀ entry ∈ entries, entry.canMask = canSffMask) :
    o.lets id ↔ ∀ entries ∈ o.filter,
      ∃ entry ∈ entries, entry.canId.toNat % 2 ^ 11 = id.toNat % 2 ^ 11 := by
  rw [lets, if_pos hid, decide_eq_true_iff]
  refine forall₂_congr fun entries hentries => exists_congr fun entry => and_congr_right fun h => ?_
  rw [hmask entries hentries entry h, and_canSffMask_eq_iff, eq_comm]

end Libbaalue
