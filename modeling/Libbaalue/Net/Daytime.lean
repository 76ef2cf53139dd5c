import Libbaalue.Foundations.CallMachine
import Libbaalue.Foundations.Descriptors
import Libbaalue.Helper.PidFile

/-!
# `baa_daytime_server_th`

The thread accepts a connection, writes the time to it and goes back to `accept`. The
descriptor of the connection is overwritten by the next one and never closed: the descriptors
the thread has open are the listening socket and one for each connection accepted so far
(`card_open_daytime`), so that it has only the listening socket open as long as every `accept`
has failed (`onlyListening_iff`).

The machine has three calls and no way out of its loop, and its answers are arbitrary: an `accept`
may fail, and a `write` may come short, and neither is looked at. So the number of descriptors is a
function of the answers, by induction on a run. That the kernel hands out descriptors that are not
open is all that is assumed; a process runs out of them in the end, which is the matter of
`DaytimeClients`.
-/

namespace Libbaalue

/-- The calls of the thread. -/
inductive DaytimePc
  | accept
  | time
  | write
  deriving DecidableEq, Repr

/-- The variables of the thread; `confd` is `none` for -1. The buffer is what `snprintf` has left in
it. -/
structure Daytime where
  pc : DaytimePc
  confd : Option ℕ
  buf : List Byte
  len : ℕ
  deriving DecidableEq, Repr

/-- A call of the thread with its arguments. -/
inductive DaytimeCall
  | accept (sfd : ℕ)
  | time
  | write (confd : Option ℕ) (buf : List Byte)
  deriving DecidableEq, Repr

/-- What the calls come to: the value of `accept` and `write`, the text of `ctime`. -/
structure DaytimeAnswer where
  ret : SysRet
  ctime : List Byte
  deriving DecidableEq, Repr

/-- The thread when it enters its loop. -/
def Daytime.start : Daytime := ⟨.accept, none, [], 0⟩

/-- `"%.24s\r\n"`: the first 24 bytes of what `ctime` returns, and the end of a line. -/
def daytimeLine (ctime : List Byte) : List Byte := snprintfMaxLine (ctime.take 24 ++ [13, 10])

/-- The thread that serves the listening socket `sfd`. It closes nothing, neither behind a `write`
nor elsewhere. -/
def baaDaytimeServerTh (sfd : ℕ) : CallMachine Daytime DaytimeCall DaytimeAnswer where
  call s :=
    match s.pc with
    | .accept => .accept sfd
    | .time => .time
    | .write => .write s.confd (s.buf.take s.len)
  resume s a :=
    match s.pc with
    | .accept =>
      match a.ret with
      | .failed _ => { s with confd := none }
      | .ok confd => { s with confd := some confd, pc := .time }
    | .time =>
      { s with buf := daytimeLine a.ctime, len := (daytimeLine a.ctime).length, pc := .write }
    -- a short `write` and a failed one are logged, and the connection is left as it is
    | .write => { s with pc := .accept }

/-- A connection is a new descriptor. -/
def daytimeEffect : DaytimeCall × DaytimeAnswer → FdEffect
  | (.accept _, ⟨.ok confd, _⟩) => .opens confd
  | (.accept _, ⟨.failed _, _⟩) => .keeps
  | (.time, _) => .keeps
  | (.write _ _, _) => .keeps

/-- An `accept` that succeeded. -/
def isConnection : DaytimeCall × DaytimeAnswer → Bool
  | (.accept _, ⟨.ok _, _⟩) => true
  | (.accept _, ⟨.failed _, _⟩) => false
  | (.time, _) => false
  | (.write _ _, _) => false

variable (sfd : ℕ)

/-- The calls of a run, with their answers. -/
def daytimeTrace (answers : List DaytimeAnswer) : List (DaytimeCall × DaytimeAnswer) :=
  (baaDaytimeServerTh sfd).trace .start answers

/-- The descriptors the thread has open after a run. -/
def daytimeOpen (answers : List DaytimeAnswer) : Finset ℕ :=
  openAfter daytimeEffect {sfd} (daytimeTrace sfd answers)

/-- The thread is at the head of its loop after a run. -/
def AtHead (answers : List DaytimeAnswer) : Prop :=
  ((baaDaytimeServerTh sfd).run .start answers).pc = .accept

instance (answers : List DaytimeAnswer) : Decidable (AtHead sfd answers) :=
  inferInstanceAs (Decidable (_ = _))

variable {sfd}

/-- No call of the thread closes a descriptor. -/
private theorem daytimeEffect_ne_closes (e : DaytimeCall × DaytimeAnswer) (fd : ℕ) :
    daytimeEffect e ≠ .closes fd := by
  obtain ⟨_ | _ | _, ⟨_ | _, _⟩⟩ := e <;> simp [daytimeEffect]

private theorem daytimeEffect_eq_keeps_iff (e : DaytimeCall × DaytimeAnswer) :
    daytimeEffect e = .keeps ↔ isConnection e = false := by
  obtain ⟨_ | _ | _, ⟨_ | _, _⟩⟩ := e <;> simp [daytimeEffect, isConnection]

/-- What is fresh in a run is fresh in what has been done of it. -/
private theorem freshAlong_take {answers : List DaytimeAnswer}
    (hfresh : FreshAlong daytimeEffect {sfd} (daytimeTrace sfd answers)) (n : ℕ) :
    FreshAlong daytimeEffect {sfd} (daytimeTrace sfd (answers.take n)) := by
  rw [← List.take_append_drop n answers, daytimeTrace, CallMachine.trace_append] at hfresh
  exact (freshAlong_append.mp hfresh).1

/-- **One descriptor for each connection**, and the listening socket: the connections accepted so
far can be counted in the table. -/
theorem card_open_daytime {answers : List DaytimeAnswer}
    (hfresh : FreshAlong daytimeEffect {sfd} (daytimeTrace sfd answers)) :
    (daytimeOpen sfd answers).card = 1 + (daytimeTrace sfd answers).countP isConnection := by
  rw [daytimeOpen, card_openAfter (fun e _ => daytimeEffect_ne_closes e) hfresh,
    Finset.card_singleton, numOpened]
  congr 2
  funext e
  obtain ⟨_ | _ | _, ⟨_ | _, _⟩⟩ := e <;> simp [daytimeEffect, isConnection]

/-- **When the thread does not accumulate descriptors.** For every run: every time control is
back at the head of the loop only the listening socket is open, if and only if no `accept` that
was made by then has succeeded. -/
theorem onlyListening_iff (sfd : ℕ) (answers : List DaytimeAnswer)
    (hfresh : FreshAlong daytimeEffect {sfd} (daytimeTrace sfd answers)) :
    (∀ n, AtHead sfd (answers.take n) → daytimeOpen sfd (answers.take n) = {sfd}) ↔
      ∀ n, AtHead sfd (answers.take n) →
        ∀ e ∈ daytimeTrace sfd (answers.take n), isConnection e = false := by
  refine forall₂_congr fun n _ => ?_
  rw [daytimeOpen, openAfter_eq_self_iff (fun e _ => daytimeEffect_ne_closes e)
    (freshAlong_take hfresh n)]
  exact forall₂_congr fun e _ => daytimeEffect_eq_keeps_iff e

/-- The answers of one turn: a connection on descriptor 5, the time, and a `write` of 26
bytes. -/
def oneConnection : List DaytimeAnswer :=
  [⟨.ok 5, []⟩, ⟨.ok 0, List.replicate 25 65⟩, ⟨.ok 26, []⟩]

/-- The thread serves one connection. -/
theorem onlyListening_iff_oneConnection :
    (∀ n, AtHead 4 (oneConnection.take n) → daytimeOpen 4 (oneConnection.take n) = {4}) ↔
      ∀ n, AtHead 4 (oneConnection.take n) →
        ∀ e ∈ daytimeTrace 4 (oneConnection.take n), isConnection e = false :=
  onlyListening_iff 4 oneConnection (by decide)

/-- Back at the head of the loop, the connection is still open. -/
theorem not_onlyListening_oneConnection :
    FreshAlong daytimeEffect {4} (daytimeTrace 4 oneConnection) ∧ AtHead 4 oneConnection ∧
      daytimeOpen 4 oneConnection = {4, 5} ∧ daytimeOpen 4 oneConnection ≠ {4} := by
  decide

end Libbaalue
