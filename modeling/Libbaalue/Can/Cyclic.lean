import Libbaalue.Can.Filter
import Libbaalue.Fiber.Timespec
import Libbaalue.Foundations.CallMachine

/-!
# `send_cyclic_telegram`

The loop of `can_send.c`: write a frame, count its second byte up, sleep for a period. After a
`write` that has failed the loop sleeps for four seconds and writes the same frame again; what
the sleeps return is ignored.

So the frames that are written count modulo 255, whatever fails in between: a call leaves the frame
at the number of those that were written (`frame_resume`). The period is computed in the nanoseconds
of a `long`, into which the product of the milliseconds has to fit: the frames keep the distance
that was asked for if and only if it does (`paced_iff`).

The clock of a run is the sum of what its calls take, each at least what it was asked to sleep and
arbitrarily more, so that a distance is a lower bound and never exact. An interval that
`clock_nanosleep` refuses takes no time, and nobody looks at that it was refused: this is how a
product that has become negative makes the loop run without a pause.
-/

namespace Libbaalue

variable {abi : Abi}

/-! ### The loop -/

/-- `struct can_frame`; `data` are its eight bytes. The loop changes the second one only. -/
structure CanTelegram where
  canId : CInt
  canDlc : Byte
  data : List Byte
  deriving DecidableEq, Repr

/-- The byte that counts. -/
def CanTelegram.counter (frame : CanTelegram) : Byte := frame.data[1]?.getD 0

/-- The frame after a `write`: the counter goes up by one, and from 0xfe back to 0, so that 0xff is
never sent. -/
def CanTelegram.next (frame : CanTelegram) : CanTelegram :=
  if frame.counter = 0xfe then { frame with data := frame.data.set 1 0 }
  else { frame with data := frame.data.set 1 (frame.counter + 1) }

/-- The calls of the loop: `write`, the `sleep` behind a failed one, and `clock_nanosleep` behind a
good one. -/
inductive CyclicCall (abi : Abi)
  | write (frame : CanTelegram)
  | sleep (seconds : ℕ)
  | clockNanosleep (t : Timespec abi)
  deriving DecidableEq

/-- Which call is next. -/
inductive CyclicPc
  | write
  | sleep
  | clockNanosleep
  deriving DecidableEq, Repr

/-- The variables of the loop. -/
structure CyclicSender (abi : Abi) where
  pc : CyclicPc
  frame : CanTelegram
  t : Timespec abi

/-- The loop of `send_cyclic_telegram`, which has no end. Whether the `write` succeeded is the only
thing it looks at. -/
def sendCyclicTelegram (abi : Abi) : CallMachine (CyclicSender abi) (CyclicCall abi) SysRet where
  call s :=
    match s.pc with
    | .write => .write s.frame
    -- so that a user recognises it
    | .sleep => .sleep 4
    | .clockNanosleep => .clockNanosleep s.t
  resume s r :=
    match s.pc, r with
    | .write, .failed _ => { s with pc := .sleep }
    | .write, .ok _ => { s with frame := s.frame.next, pc := .clockNanosleep }
    | .sleep, _ | .clockNanosleep, _ => { s with pc := .write }

/-- `default_ms`. -/
def defaultMs : ℕ := 100

/-- The period, from `cycle_time_ms`; 0 stands for the default. The product with a million is one of
`long`s, which may overflow. -/
def cycleTime (cycleTimeMs : CLong abi) : Option (Timespec abi) :=
  if cycleTimeMs = 0 then some ⟨0, BitVec.ofNat _ (defaultMs * 1000000)⟩
  else baaTsNorm ⟨0, cycleTimeMs * BitVec.ofNat _ 1000000⟩

/-- The frame with the counter `k`, which is what the frame behind `k` successful `write`s should
be. -/
def telegram (canAddr : CLong abi) (k : ℕ) : CanTelegram :=
  ⟨canAddr.setWidth 32, 2, (List.replicate 8 0).set 1 (BitVec.ofNat 8 (k % 255))⟩

/-- The loop is entered. -/
def CyclicSender.start (canAddr : CLong abi) (t : Timespec abi) : CyclicSender abi :=
  ⟨.write, ⟨canAddr.setWidth 32, 2, List.replicate 8 0⟩, t⟩

/-! ### What is written -/

/-- The counter goes from one frame to the next. -/
theorem next_telegram (canAddr : CLong abi) (k : ℕ) :
    (telegram canAddr k).next = telegram canAddr (k + 1) := by
  have hcounter : (telegram canAddr k).counter = BitVec.ofNat 8 (k % 255) := rfl
  have hlt : k % 255 < 255 := Nat.mod_lt _ (by decide)
  rw [CanTelegram.next, hcounter]
  split_ifs with hwrap
  · have hnat : k % 255 = 254 := by
      have h := congrArg BitVec.toNat hwrap
      rw [BitVec.toNat_ofNat, Nat.mod_eq_of_lt (hlt.trans (by decide))] at h
      exact h
    have hzero : (k + 1) % 255 = 0 := by omega
    simp [telegram, hzero]
  · have hne : k % 255 ≠ 254 := fun h => hwrap (by rw [h]; rfl)
    have hsucc : (k + 1) % 255 = k % 255 + 1 := by omega
    have hadd : BitVec.ofNat 8 (k % 255) + 1#8 = BitVec.ofNat 8 ((k + 1) % 255) := by
      rw [hsucc, BitVec.ofNat_add]
    simp [telegram, hadd]

/-- The frame a call has written; a `write` that fails has written nothing. -/
def writtenFrame : CyclicCall abi × SysRet → Option CanTelegram
  | (.write frame, .ok _) => some frame
  | _ => none

variable {s : CyclicSender abi} {canAddr : CLong abi}

/-- The step of the counter. -/
theorem frame_resume {k : ℕ} (h : s.frame = telegram canAddr k) (r : SysRet) :
    ((sendCyclicTelegram abi).resume s r).frame =
      telegram canAddr
        (k + (writtenFrame ((sendCyclicTelegram abi).call s, r)).toList.length) := by
  obtain ⟨pc, frame, t⟩ := s
  obtain rfl : frame = telegram canAddr k := h
  cases pc with
  | write =>
    cases r with
    | ok v => exact next_telegram canAddr k
    | failed errno => rfl
  | sleep => rfl
  | clockNanosleep => rfl

/-- The frame in a call is the one that is counted. -/
theorem eq_of_writtenFrame {r : SysRet} {frame : CanTelegram}
    (h : writtenFrame ((sendCyclicTelegram abi).call s, r) = some frame) : frame = s.frame := by
  obtain ⟨pc, frame', t⟩ := s
  cases pc with
  | write =>
    cases r with
    | ok v => exact (Option.some.inj h).symm
    | failed errno => cases h
  | sleep => cases h
  | clockNanosleep => cases h

/-! ### When it is written -/

/-- An interval that `clock_nanosleep` accepts. -/
def Timespec.Interval (t : Timespec abi) : Prop := 0 ≤ t.tvSec.toInt ∧ t.Normalised

instance (t : Timespec abi) : Decidable t.Interval := inferInstanceAs (Decidable (_ ∧ _))

/-- How long a call takes at least, in nanoseconds; an interval that is refused takes no time. -/
def CyclicCall.rest : CyclicCall abi → ℤ
  | .write _ => 0
  | .sleep seconds => seconds * nsecPerSec
  | .clockNanosleep t => if t.Interval then t.ns else 0

/-- The times at which frames are written, from call `k` on; `late` is what a call takes longer. -/
def writeTimes (late : ℕ → ℕ) : ℕ → ℤ → List (CyclicCall abi × SysRet) → List ℤ
  | _, _, [] => []
  | k, now, e :: tr =>
    (writtenFrame e).toList.map (fun _ => now + e.1.rest + late k) ++
      writeTimes late (k + 1) (now + e.1.rest + late k) tr

private theorem CyclicCall.rest_nonneg (c : CyclicCall abi) : 0 ≤ c.rest := by
  cases c with
  | write frame => exact le_rfl
  | sleep seconds => exact mul_nonneg (Nat.cast_nonneg _) (by decide)
  | clockNanosleep t =>
    rw [rest]
    split_ifs with ht
    · exact add_nonneg (mul_nonneg ht.1 (by decide)) ht.2.1
    · exact le_rfl

variable {late : ℕ → ℕ} {k : ℕ} {now : ℤ}

/-- Nothing is written before the clock begins. -/
private theorem le_of_mem_writeTimes {tr : List (CyclicCall abi × SysRet)} {b : ℤ}
    (h : b ∈ writeTimes late k now tr) : now ≤ b := by
  induction tr generalizing k now with
  | nil => cases h
  | cons e tr ih =>
    have hstep : now ≤ now + e.1.rest + late k := by
      have hrest := e.1.rest_nonneg
      have hlate : (0 : ℤ) ≤ late k := Nat.cast_nonneg _
      linarith
    rw [writeTimes] at h
    rcases List.mem_append.mp h with h | h
    · obtain ⟨frame, -, rfl⟩ := List.mem_map.mp h
      exact hstep
    · exact hstep.trans (ih h)

private theorem t_resume (s : CyclicSender abi) (r : SysRet) :
    ((sendCyclicTelegram abi).resume s r).t = s.t := by
  obtain ⟨pc, frame, t⟩ := s
  cases pc <;> cases r <;> rfl

/-- A period passes behind every frame that is written. -/
private theorem add_rest_le_writeTimes {answers : List SysRet} {j : ℕ} {a b : ℤ}
    (ha : (writeTimes late k now ((sendCyclicTelegram abi).trace s answers))[j]? = some a)
    (hb : (writeTimes late k now ((sendCyclicTelegram abi).trace s answers))[j + 1]? = some b) :
    a + (CyclicCall.clockNanosleep s.t).rest ≤ b := by
  induction answers generalizing s k now j with
  | nil => cases ha
  | cons r answers ih =>
    rw [CallMachine.trace, writeTimes] at ha hb
    rcases hframe : writtenFrame ((sendCyclicTelegram abi).call s, r) with _ | frame
    · simp only [hframe, Option.toList_none, List.map_nil, List.nil_append] at ha hb
      rw [← t_resume s r]
      exact ih ha hb
    · simp only [hframe, Option.toList_some, List.map_cons, List.map_nil, List.cons_append,
        List.nil_append] at ha hb
      cases j with
      | succ j =>
        rw [← t_resume s r]
        exact ih ha hb
      | zero =>
        obtain rfl := Option.some.inj ha
        obtain ⟨pc, frame', t⟩ := s
        rw [List.getElem?_cons_succ] at hb
        have hmem := List.mem_of_getElem? hb
        cases answers with
        | nil => cases hmem
        | cons r' answers =>
          -- the call behind a frame that is written is the sleep
          cases pc with
          | write =>
            cases r with
            | failed errno => cases hframe
            | ok v =>
              change b ∈ writeTimes late (k + 1 + 1)
                (_ + (CyclicCall.clockNanosleep t).rest + late (k + 1)) _ at hmem
              have hlate : (0 : ℤ) ≤ late (k + 1) := Nat.cast_nonneg _
              exact (le_add_of_nonneg_right hlate).trans (le_of_mem_writeTimes hmem)
          | sleep => cases hframe
          | clockNanosleep => cases hframe

/-- In every run the frames are at least `gap` apart, whatever fails and however late the calls
return. -/
def Paced (t : Timespec abi) (gap : ℤ) : Prop :=
  ∀ (canAddr : CLong abi) (late : ℕ → ℕ) (now : ℤ) (answers : List SysRet) (j : ℕ) (a b : ℤ),
    (writeTimes late 0 now
      ((sendCyclicTelegram abi).trace (.start canAddr t) answers))[j]? = some a →
    (writeTimes late 0 now
      ((sendCyclicTelegram abi).trace (.start canAddr t) answers))[j + 1]? = some b →
    a + gap ≤ b

/-- A run without delays has its frames exactly as far apart as the sleep takes. -/
theorem paced_iff_le_rest {t : Timespec abi} {gap : ℤ} :
    Paced t gap ↔ gap ≤ (CyclicCall.clockNanosleep t).rest := by
  constructor
  · intro h
    have hle := h 0 (fun _ => 0) 0 [.ok 16, .ok 0, .ok 16] 0 0
      ((CyclicCall.clockNanosleep t).rest) rfl
      (by simp [CallMachine.trace, sendCyclicTelegram, writeTimes, writtenFrame,
        CyclicSender.start, CyclicCall.rest])
    simpa using hle
  · intro h canAddr late now answers j a b ha hb
    have hrest := add_rest_le_writeTimes ha hb
    have ht : (CyclicSender.start canAddr t).t = t := rfl
    rw [ht] at hrest
    linarith

/-! ### The period -/

/-- What is asked for, in nanoseconds, as a number without bound. -/
def periodNs (cycleTimeMs : CLong abi) : ℕ :=
  (if cycleTimeMs = 0 then defaultMs else cycleTimeMs.toNat) * 1000000

/-- Nanoseconds that are not negative become an interval. -/
private theorem baaTsNorm_interval {nsec : CLong abi} (h : 0 ≤ nsec.toInt) :
    ∃ t, baaTsNorm ⟨0, nsec⟩ = some t ∧ t.Interval ∧ t.ns = nsec.toInt := by
  have hlt : nsec.toInt < 2 ^ (abi.longBits - 1) := nsec.toInt_lt
  have hquot : 0 ≤ nsec.toInt / nsecPerSec := Int.ediv_nonneg h (by decide)
  have hquot' : nsec.toInt / nsecPerSec ≤ nsec.toInt := Int.ediv_le_self _ h
  have hpow : (0 : ℤ) < 2 ^ (abi.longBits - 1) := pow_pos (by decide) _
  obtain ⟨t, hnorm, hns⟩ : ∃ t : Timespec abi, t.Normalised ∧ t.ns = nsec.toInt :=
    Timespec.exists_normalised (by linarith) (by linarith)
  have hsec : t.tvSec.toInt = nsec.toInt / nsecPerSec := by rw [← hns, hnorm.ns_ediv]
  refine ⟨t, (baaTsNorm_eq_some_iff h).mpr ⟨?_, ?_⟩, ⟨?_, hnorm⟩, hns⟩
  · rw [hsec, toInt_zero, zero_add]
  · rw [← hnorm.ns_emod, hns]
  · rw [hsec]
    exact hquot

/-- **When frames keep the distance that was asked for.** For every `cycle_time_ms`, the loop is
entered, and in every run, whatever fails and however long the calls take, each frame is at
least the period behind the one before, if and only if the nanoseconds of the period fit
`long`. -/
theorem paced_iff (cycleTimeMs : CLong abi) :
    ∃ t, cycleTime cycleTimeMs = some t ∧
      (Paced t (periodNs cycleTimeMs) ↔ cycleTimeMs.toNat * 1000000 < 2 ^ (abi.longBits - 1)) := by
  rw [cycleTime, periodNs]
  split_ifs with hzero
  · refine ⟨_, rfl, ?_⟩
    subst hzero
    rw [paced_iff_le_rest]
    cases abi <;> decide
  · set nsec : CLong abi := cycleTimeMs * BitVec.ofNat _ 1000000 with hnsec
    have hnat : nsec.toNat = cycleTimeMs.toNat * 1000000 % 2 ^ abi.longBits := by
      have hmod : 1000000 % 2 ^ abi.longBits = 1000000 := by cases abi <;> rfl
      rw [hnsec, BitVec.toNat_mul, BitVec.toNat_ofNat, hmod]
    have hle : nsec.toNat ≤ cycleTimeMs.toNat * 1000000 := hnat ▸ Nat.mod_le _ _
    have hpow : 2 ^ abi.longBits = 2 * 2 ^ (abi.longBits - 1) := by
      rw [← pow_succ', Nat.sub_add_cancel abi.longBits_pos]
    rcases lt_or_ge nsec.toInt 0 with hneg | hnonneg
    · -- `baa_ts_norm` leaves a negative value, which the kernel refuses
      have hnorm : baaTsNorm ⟨0, nsec⟩ = some ⟨0, nsec⟩ :=
        baaTsNorm_of_lt (hneg.trans (by decide))
      refine ⟨_, hnorm, ?_⟩
      have hinterval : ¬ (⟨0, nsec⟩ : Timespec abi).Interval := fun h =>
        absurd h.2.1 (not_le.mpr hneg)
      rw [paced_iff_le_rest, CyclicCall.rest, if_neg hinterval]
      -- the product is beyond the positive range, before it wraps
      have hlarge : 2 ^ (abi.longBits - 1) ≤ nsec.toNat := by
        by_contra hlt
        rw [BitVec.toInt_eq_toNat_of_lt (by omega)] at hneg
        omega
      refine iff_of_false (not_le.mpr ?_) (not_lt.mpr (hlarge.trans hle))
      have hpos : 0 < 2 ^ (abi.longBits - 1) := Nat.two_pow_pos _
      exact_mod_cast hpos.trans_le (hlarge.trans hle)
    · obtain ⟨t, hnorm, hinterval, hns⟩ := baaTsNorm_interval hnonneg
      refine ⟨t, hnorm, ?_⟩
      have hint : nsec.toInt = nsec.toNat := by
        rw [BitVec.toInt_eq_toNat_cond] at hnonneg ⊢
        split_ifs at hnonneg ⊢ with hsmall
        · rfl
        · have := nsec.isLt
          omega
      -- a period that is kept is one that was not wrapped
      have hsmall : nsec.toNat < 2 ^ (abi.longBits - 1) := by
        have hlt : nsec.toInt < 2 ^ (abi.longBits - 1) := nsec.toInt_lt
        rw [hint] at hlt
        exact_mod_cast hlt
      rw [paced_iff_le_rest, CyclicCall.rest, if_pos hinterval, hns, hint, Nat.cast_le]
      constructor
      · exact fun h => h.trans_lt hsmall
      · intro h
        rw [hnat, Nat.mod_eq_of_lt (by omega)]

/-- Three seconds come out negative in a 32-bit `long`. -/
example : ((3000 : CLong .ilp32) * BitVec.ofNat _ 1000000).toInt < 0 := by decide

end Libbaalue
