import Libbaalue.Foundations.LabelledSystem
import Mathlib.Data.Nat.Basic
import Mathlib.Tactic.Ring

/-!
# Stop-and-wait over anonymous replies

A requester sends one request at a time and waits; the responder takes the requests in order
and produces `m` replies to each, before it takes the next; replies arrive in order and carry
no name. The requester stops waiting when it has consumed a last reply (the `m`-th, `2m`-th,
... it has consumed), or when it gives up.

Only numbers are kept. The `j`-th reply produced belongs to request `j / m`, so attribution is
arithmetic: as long as the requester never gave up, the next reply it consumes belongs to the
request it waits for; once it gave up, to an earlier one, for ever (`Counts.Inv`,
`inv_of_reachable`).

The pattern knows no messages. A protocol is shown to be an instance by mapping its state to the
counts and its steps to the events, and what it sends and receives is brought back through the
stream of replies in the last section. The invariant is arithmetic on four numbers and two flags,
and its one nonlinear part is the division by `m`.
-/

namespace StopAndWait

/-- How far the two parties have come. The messages themselves are not there: that the `k`th request
is answered by certain replies is a matter of their numbers. -/
structure Counts where
  sent : ℕ
  received : ℕ
  produced : ℕ
  consumed : ℕ
  waiting : Bool
  aborted : Bool
  deriving DecidableEq

/-- What the parties do. Requests and replies are received in the order in which they were sent, and
none is lost. -/
inductive Event
  | send
  | receive
  | reply
  | consume
  | abort

/-- One step of the pattern with `m` replies to a request. The responder answers a request in full
before it takes the next one; a requester that gives up leaves the rest of the replies where they
are. -/
def step (m : ℕ) (s : Counts) : Event → Option Counts
  | .send => if s.waiting then none else some { s with sent := s.sent + 1, waiting := true }
  | .receive =>
    if s.received < s.sent ∧ s.produced = m * s.received then
      some { s with received := s.received + 1 }
    else none
  | .reply =>
    if s.produced < m * s.received then some { s with produced := s.produced + 1 } else none
  | .consume =>
    if s.waiting ∧ s.consumed < s.produced then
      some { s with consumed := s.consumed + 1, waiting := decide ((s.consumed + 1) % m ≠ 0) }
    else none
  | .abort => if s.waiting then some { s with waiting := false, aborted := true } else none

/-- The pattern with `m` replies to a request. -/
def system (m : ℕ) : LabelledSystem Counts Event where
  init := ⟨0, 0, 0, 0, false, false⟩
  step := step m

/-- The arithmetic of attribution. A requester that never gave up waits for the replies to its last
request; one that has is behind by one request at least, and stays behind. -/
structure Counts.Inv (m : ℕ) (s : Counts) : Prop where
  received_le : s.received ≤ s.sent
  produced_le : s.produced ≤ m * s.received
  consumed_le : s.consumed ≤ s.produced
  waiting_iff : s.aborted = false → s.waiting = true → s.consumed / m + 1 = s.sent
  idle : s.aborted = false → s.waiting = false → s.consumed = m * s.sent
  late_waiting : s.aborted = true → s.waiting = true → s.consumed / m + 1 < s.sent
  late_idle : s.aborted = true → s.waiting = false → s.consumed < m * s.sent

/-- The request of the next reply does not change while a request is being answered. -/
private theorem succ_div_of_mod_ne {m c : ℕ} (h : (c + 1) % m ≠ 0) : (c + 1) / m = c / m := by
  rw [Nat.succ_div, if_neg fun hd => h (Nat.mod_eq_zero_of_dvd hd), Nat.add_zero]

/-- A last reply completes its request. -/
private theorem succ_eq_of_mod_eq {m c : ℕ} (h : (c + 1) % m = 0) :
    c + 1 = m * (c / m + 1) := by
  have hdvd := Nat.dvd_of_mod_eq_zero h
  have hdiv : (c + 1) / m = c / m + 1 := by rw [Nat.succ_div, if_pos hdvd]
  rw [← hdiv, Nat.mul_div_cancel' hdvd]

theorem Counts.Inv.step {m : ℕ} (hm : 0 < m) {s t : Counts} {e : Event} (h : s.Inv m)
    (hst : step m s e = some t) : t.Inv m := by
  obtain ⟨hrec, hprod, hcons, hwait, hidle, hlwait, hlidle⟩ := h
  cases e with
  | send =>
    simp only [StopAndWait.step] at hst
    split_ifs at hst with hw
    obtain rfl := Option.some.inj hst
    rw [Bool.not_eq_true] at hw
    refine ⟨by simp; omega, hprod, hcons, fun ha _ => ?_, by simp, fun ha _ => ?_, by simp⟩
    · simp only [hidle ha hw, Nat.mul_div_cancel_left _ hm]
    · have := (Nat.div_lt_iff_lt_mul hm).mpr (mul_comm m s.sent ▸ hlidle ha hw)
      simp only
      omega
  | receive =>
    simp only [StopAndWait.step] at hst
    split_ifs at hst with hr
    obtain rfl := Option.some.inj hst
    exact ⟨hr.1, by simp only [mul_add]; omega, hcons, hwait, hidle, hlwait, hlidle⟩
  | reply =>
    simp only [StopAndWait.step] at hst
    split_ifs at hst with hr
    obtain rfl := Option.some.inj hst
    exact ⟨hrec, hr, Nat.le_succ_of_le hcons, hwait, hidle, hlwait, hlidle⟩
  | consume =>
    simp only [StopAndWait.step] at hst
    split_ifs at hst with hr
    obtain rfl := Option.some.inj hst
    -- the wait ends with the last reply to a request: `(consumed + 1) % m = 0`
    refine ⟨hrec, hprod, hr.2, fun ha hw => ?_, fun ha hw => ?_, fun ha hw => ?_, fun ha hw => ?_⟩
    · simp only [decide_eq_true_eq] at hw
      simpa only [succ_div_of_mod_ne hw] using hwait ha hr.1
    · simp only [decide_eq_false_iff_not, not_not] at hw
      simpa only [hwait ha hr.1] using succ_eq_of_mod_eq hw
    · simp only [decide_eq_true_eq] at hw
      simpa only [succ_div_of_mod_ne hw] using hlwait ha hr.1
    · simp only [decide_eq_false_iff_not, not_not] at hw
      simp only [succ_eq_of_mod_eq hw]
      exact Nat.mul_lt_mul_of_pos_left (hlwait ha hr.1) hm
  | abort =>
    simp only [StopAndWait.step] at hst
    split_ifs at hst with hw
    obtain rfl := Option.some.inj hst
    refine ⟨hrec, hprod, hcons, by simp, by simp, by simp, fun _ _ => ?_⟩
    have hle : s.consumed / m + 1 ≤ s.sent := by
      cases ha : s.aborted with
      | false => exact (hwait ha hw).le
      | true => exact (hlwait ha hw).le
    calc s.consumed < m * (s.consumed / m + 1) := Nat.lt_mul_div_succ _ hm
      _ ≤ m * s.sent := Nat.mul_le_mul_left m hle

/-- **Attribution by position.** In every reachable state, the next reply to be consumed
belongs to the request waited for as long as the requester never gave up, and to an earlier
one afterwards. -/
theorem inv_of_reachable {m : ℕ} (hm : 0 < m) {s : Counts} (h : (system m).Reachable s) :
    s.Inv m :=
  h.invariant ⟨by simp [system], by simp [system], by simp [system], by simp [system],
    by simp [system], by simp [system], by simp [system]⟩ fun _ _ _ _ hs hst => hs.step hm hst

/-- What is under way before the requester ever gave up: at most one request, and no reply
next to a request that was not received. -/
theorem Counts.Inv.inFlight {m : ℕ} (hm : 0 < m) {s : Counts} (h : s.Inv m)
    (ha : s.aborted = false) :
    s.sent ≤ s.received + 1 ∧
      (s.received < s.sent → s.consumed = s.produced ∧ s.produced = m * s.received) ∧
      (s.waiting = false → s.received = s.sent ∧ s.consumed = s.produced) := by
  have hdiv : s.consumed / m ≤ s.received :=
    Nat.div_le_of_le_mul (h.consumed_le.trans h.produced_le)
  have hmul : m * (s.consumed / m) ≤ s.consumed := Nat.mul_div_le _ _
  have hprod := h.produced_le
  have hcons := h.consumed_le
  have hrec := h.received_le
  -- every reply consumed was produced, every reply produced was asked for
  cases hw : s.waiting with
  | true =>
    have hsent := h.waiting_iff ha hw
    refine ⟨by omega, fun hlt => ?_, by simp⟩
    have heq : s.consumed / m = s.received := by omega
    rw [heq] at hmul
    omega
  | false =>
    have hsent := h.idle ha hw
    have hle : s.sent ≤ s.received :=
      Nat.le_of_mul_le_mul_left (hsent ▸ hcons.trans hprod) hm
    have heq : s.received = s.sent := le_antisymm hrec hle
    rw [heq, ← hsent] at hprod
    refine ⟨by omega, by omega, fun _ => ⟨heq, by omega⟩⟩

/-! ### The stream of replies -/

variable {α β : Type*} {m : ℕ} {f : α → List β}

/-- `m` replies to every request. -/
theorem length_replies (hf : ∀ a, (f a).length = m) (l : List α) :
    (l.flatMap f).length = m * l.length := by
  induction l with
  | nil => rfl
  | cons a l ih => rw [List.flatMap_cons, List.length_append, hf, ih, List.length_cons]; ring

/-- The `j`-th reply is a reply to request `j / m`. -/
theorem getElem?_replies (hm : 0 < m) (hf : ∀ a, (f a).length = m) (l : List α) (j : ℕ) :
    (l.flatMap f)[j]? = l[j / m]?.bind fun a => (f a)[j % m]? := by
  induction l generalizing j with
  | nil => simp
  | cons a l ih =>
    rw [List.flatMap_cons, List.getElem?_append, hf]
    split_ifs with h
    · simp [Nat.div_eq_of_lt h, Nat.mod_eq_of_lt h]
    · obtain ⟨k, rfl⟩ := Nat.exists_eq_add_of_le (Nat.le_of_not_lt h)
      rw [Nat.add_sub_cancel_left, ih, Nat.add_div_left _ hm, List.getElem?_cons_succ,
        Nat.add_mod_left]

end StopAndWait
