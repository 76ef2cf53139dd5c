import Libbaalue.Net.Inet
import Libbaalue.Net.Uds
import Mathlib.Logic.Function.Basic

/-!
# The alarm of a connect

`uds_socket` and `connect_inet_socket` connect under a timeout: they install their own handler
for `SIGALRM` by `baa_signal`, arm the one timer the process has, and set both back afterwards. The
state of the process that they change is an `AlarmState`, followed along the calls and along the
alarm itself, which may go off in between and is disarmed then. The handlers are those of any
process, and the one that is there before may be any of them; an alarm of the caller is one that is
not due while the functions run.

Of all calls only a few matter (`alarmCalls`): `udsSocket_alarmCalls` and
`connectInetSocket_alarmCalls` say which of them a function makes, in order. `alarm(0)` does not
bring back what `alarm(5)` replaced, and the early return of `uds_socket` sets nothing back
(`restoresAlarm_iff`). What `baa_signal` sets back is the handler alone, not the mask and the flags
that it was installed with (`installed_of_connected`).

The events of a run are its calls and the moment at which the alarm goes off, in any order, and what
they leave is computed along them. A run of calls that do not matter changes nothing but for the
alarm in it, so each run is cut at the few calls that do, and the state is followed from one to the
next (`AlarmState.after`).
-/

namespace Libbaalue

open CallProgram

/-! ### `baa_signal` -/

/-- `SIGALRM`. -/
def sigAlrm : CInt := 14

/-- `SA_RESTART`. -/
def saRestart : CInt := 0x10000000

/-- `struct sigaction`, for a process with the handlers `H`. The mask is a list of signals. -/
structure SigAction (H : Type) where
  saHandler : H
  saMask : List CInt
  saFlags : CInt

variable {H : Type}

/-- `baa_signal`, on what is installed for the signals of a process: what is installed then, and
the handler that is returned. A `SIGALRM` is to interrupt a call, other signals are not. Nothing is
said of a `sigaction` that fails, as it does for no signal that can be caught. -/
def baaSignal (signo : CInt) (func : H) (installed : CInt → SigAction H) :
    (CInt → SigAction H) × H :=
  (Function.update installed signo ⟨func, [], if signo = sigAlrm then 0 else saRestart⟩,
    (installed signo).saHandler)

/-! ### The state -/

/-- Who armed the alarm that is pending. A process has one alarm, so that the one of the library
replaces that of the caller. -/
inductive AlarmOwner
  | library
  | caller
  deriving DecidableEq, Repr

/-- What is installed for the signals, the variable `old_handler`, and the alarm of the process: all
that the functions change and should set back. -/
structure AlarmState (H : Type) where
  installed : CInt → SigAction H
  oldHandler : H
  pending : Option AlarmOwner

/-- What happens: a call, or the alarm of the library goes off. It may do so in the middle of any
call, and most likely in the `connect`. -/
inductive AlarmEvent
  | call (e : NetCall × SysRet)
  | goesOff
  deriving DecidableEq, Repr

namespace AlarmState

/-- The state before the call: the caller may have an alarm pending, and the variable holds
anything. -/
def before (installed : CInt → SigAction H) (oldHandler : H) (callerPending : Bool) :
    AlarmState H :=
  ⟨installed, oldHandler, if callerPending then some .caller else none⟩

/-- The handler of `SIGALRM`. -/
def handler (s : AlarmState H) : H := (s.installed sigAlrm).saHandler

/-- What an event does to the state; `handleAlarm` is the handler of the library. The process has
one alarm, which a new one replaces, and one that goes off is not pending any more. -/
def step (handleAlarm : H) (s : AlarmState H) : AlarmEvent → AlarmState H
  | .call (.signalAlrm .handleAlarm, _) =>
    let made := baaSignal sigAlrm handleAlarm s.installed
    { s with installed := made.1, oldHandler := made.2 }
  | .call (.signalAlrm .oldHandler, _) =>
    { s with installed := (baaSignal sigAlrm s.oldHandler s.installed).1 }
  | .call (.alarm nsec, _) => { s with pending := if nsec = 0 then none else some .library }
  | .call _ => s
  | .goesOff => { s with pending := s.pending.filter (· ≠ .library) }

/-- The state after the events. -/
def after (handleAlarm : H) (s : AlarmState H) (events : List AlarmEvent) : AlarmState H :=
  events.foldl (step handleAlarm) s

/-- The caller has its handler and its alarm again, and no alarm of the library. -/
def Restored (s t : AlarmState H) : Prop := t.handler = s.handler ∧ t.pending = s.pending

end AlarmState

/-- The calls among the events. -/
def AlarmEvent.call? : AlarmEvent → Option (NetCall × SysRet)
  | call e => some e
  | goesOff => none

/-- An event that arms the alarm of the library. -/
def AlarmEvent.arms : AlarmEvent → Bool
  | call (.alarm nsec, _) => nsec ≠ 0
  | _ => false

/-- The alarm of the library goes off behind the call that arms it, and so not before it was set. -/
def GoesOffArmed (events : List AlarmEvent) : Prop :=
  .goesOff ∈ events.dropWhile fun e => !e.arms

/-! ### The calls that matter -/

/-- The calls that matter to the alarm, and the `connect` of `uds_socket`. -/
def NetCall.isAlarmCall : NetCall → Bool
  | .signalAlrm _ | .alarm _ | .connectUnix _ _ => true
  | _ => false

/-- The calls of a trace that matter. -/
def alarmCalls (tr : List (NetCall × SysRet)) : List (NetCall × SysRet) :=
  tr.filter fun e => e.1.isAlarmCall

private theorem alarmCalls_append (tr tr' : List (NetCall × SysRet)) :
    alarmCalls (tr ++ tr') = alarmCalls tr ++ alarmCalls tr' :=
  List.filter_append ..

private theorem alarmCalls_cons (e : NetCall × SysRet) (tr : List (NetCall × SysRet)) :
    alarmCalls (e :: tr) = if e.1.isAlarmCall then e :: alarmCalls tr else alarmCalls tr :=
  List.filter_cons

/-- The `connect`s of a trace are among the calls that matter. -/
private theorem mem_alarmCalls_connect {tr : List (NetCall × SysRet)} {sfd : ℕ} {addr : AddrArg}
    {r : SysRet} :
    (.connectUnix sfd addr, r) ∈ alarmCalls tr ↔ (.connectUnix sfd addr, r) ∈ tr := by
  rw [alarmCalls, List.mem_filter]
  exact and_iff_left rfl

/-- A program that makes none of these calls. -/
private theorem alarmCalls_of_makes {α : Type} {p : NetProgram α}
    (h : p.Makes fun c => c.isAlarmCall = false) : p.Ensures fun tr _ => alarmCalls tr = [] := by
  intro tr a hexec
  rw [alarmCalls, List.filter_eq_nil_iff]
  intro e he
  rw [h.of_mem hexec e he]
  exact Bool.false_ne_true

section Rules

variable {α β : Type} {p : NetProgram α} {f : α → NetProgram β}
  {Q : List (NetCall × SysRet) → Prop}

/-- What comes before does not matter. -/
private theorem ensures_quiet_bind (hp : p.Makes fun c => c.isAlarmCall = false)
    (hf : ∀ a, (f a).Ensures fun tr _ => Q (alarmCalls tr)) :
    (p >>= f).Ensures fun tr _ => Q (alarmCalls tr) := by
  rw [ensures_bind]
  refine (alarmCalls_of_makes hp).mono fun tr a hnil => (hf a).mono fun tr' b hQ => ?_
  rwa [alarmCalls_append, hnil, List.nil_append]

/-- Neither does what comes behind. -/
private theorem ensures_bind_quiet (hp : p.Ensures fun tr _ => Q (alarmCalls tr))
    (hf : ∀ a, (f a).Makes fun c => c.isAlarmCall = false) :
    (p >>= f).Ensures fun tr _ => Q (alarmCalls tr) := by
  rw [ensures_bind]
  refine hp.mono fun tr a hQ => (alarmCalls_of_makes (hf a)).mono fun tr' b hnil => ?_
  rwa [alarmCalls_append, hnil, List.append_nil]

end Rules

/-! ### `uds_socket` -/

/-- The calls `uds_socket` may make: none, those up to a `connect` that fails, or all. The second of
these is the early return. -/
inductive UdsAlarmCalls : List (NetCall × SysRet) → Prop
  | none : UdsAlarmCalls []
  | failed (r₁ r₂ : SysRet) (sfd : ℕ) (addr : AddrArg) (errno : Errno) :
    UdsAlarmCalls [(.signalAlrm .handleAlarm, r₁), (.alarm connectTimeout, r₂),
      (.connectUnix sfd addr, .failed errno)]
  | connected (r₁ r₂ r₃ r₄ : SysRet) (sfd : ℕ) (addr : AddrArg) (v : ℕ) :
    UdsAlarmCalls [(.signalAlrm .handleAlarm, r₁), (.alarm connectTimeout, r₂),
      (.connectUnix sfd addr, .ok v), (.alarm 0, r₃), (.signalAlrm .oldHandler, r₄)]

private theorem udsConnect_alarmCalls (sfd : ℕ) (str : List Byte) (flags : Byte) :
    (udsConnect sfd str flags).Ensures fun tr _ => UdsAlarmCalls (alarmCalls tr) := by
  rw [udsConnect]
  split_ifs
  · simp only [ensures_perform_bind]
    intro r₁ r₂
    rintro (v | errno)
    · simp only [ensures_perform_bind, ensures_pure]
      exact fun r₃ r₄ => .connected r₁ r₂ r₃ r₄ _ _ v
    · rw [ensures_pure]
      exact .failed r₁ r₂ _ _ errno
  · rw [ensures_pure]
    exact .none

private theorem udsConfigure_alarmCalls (sfd : ℕ) (str : List Byte) (n : ℕ) (flags : Byte) :
    (udsConfigure sfd str n flags).Ensures fun tr _ => UdsAlarmCalls (alarmCalls tr) := by
  rw [udsConfigure]
  refine ensures_quiet_bind (udsBind_makes fun _ => rfl) fun bound => ?_
  split_ifs
  · refine ensures_bind_quiet (udsConnect_alarmCalls sfd str flags) fun connected => ?_
    split_ifs
    · -- the timeouts of a socket are not alarms
      refine .bind (setTimeout_makes rfl) fun _ => .bind (setTimeout_makes rfl) fun _ => ?_
      rw [makes_perform_bind]
      refine ⟨rfl, ?_⟩
      rintro (v | errno) <;> exact makes_pure
    · exact makes_pure
  · rw [ensures_pure]
    exact .none

theorem udsSocket_alarmCalls (pid : ℕ) (name dir : Option (List Byte)) (type : SockType)
    (flags : Byte) :
    (udsSocket pid name dir type flags).Ensures fun tr _ => UdsAlarmCalls (alarmCalls tr) := by
  cases name with
  | none => exact ensures_pure.mpr .none
  | some name =>
    rw [udsSocket, ensures_perform_bind]
    intro r
    split_ifs
    · exact ensures_pure.mpr .none
    · exact ensures_pure.mpr .none
    · rw [ensures_perform_bind]
      rintro (sfd | errno)
      · exact udsConfigure_alarmCalls sfd _ _ flags
      · exact ensures_pure.mpr .none

/-! ### `connect_inet_socket` -/

/-- The loop over the addresses makes none of the calls. -/
private theorem connectInetLoop_makes_quiet (result : AddrInfo) (addresses : List AddrInfo) :
    (connectInetLoop result addresses).Makes fun c => c.isAlarmCall = false := by
  induction addresses with
  | nil => exact makes_pure
  | cons rp aiNext ih =>
    rw [connectInetLoop, makes_perform_bind]
    refine ⟨rfl, ?_⟩
    rintro (sfd | errno)
    · -- the timeouts of a socket are not alarms
      refine .bind (setTimeout_makes rfl) fun _ => .bind (setTimeout_makes rfl) fun _ => ?_
      rw [makes_perform_bind]
      refine ⟨rfl, ?_⟩
      rintro (v | errno)
      · exact makes_pure
      · rw [makes_perform_bind]
        exact ⟨rfl, fun _ => ih⟩
    · exact ih

private theorem connectInetAddresses_makes_quiet (addresses : List AddrInfo) :
    (connectInetAddresses addresses).Makes fun c => c.isAlarmCall = false := by
  cases addresses with
  | nil => exact makes_pure
  | cons result aiNext => exact connectInetLoop_makes_quiet result _

/-- The calls `connect_inet_socket` makes: none if the look-up fails, and all otherwise. -/
inductive InetAlarmCalls : List (NetCall × SysRet) → Bool → Prop
  | none : InetAlarmCalls [] false
  | all (r₁ r₂ r₃ r₄ : SysRet) :
    InetAlarmCalls [(.signalAlrm .handleAlarm, r₁), (.alarm connectTimeout, r₂), (.alarm 0, r₃),
      (.signalAlrm .oldHandler, r₄)] true

theorem connectInetSocket_alarmCalls (addresses : List AddrInfo)
    (host service : Option (List Byte)) (type : SockType) :
    (connectInetSocket addresses host service type).Ensures fun tr _ =>
      ∃ r tr', tr = (.getaddrinfo host service ⟨false, type⟩, r) :: tr' ∧
        InetAlarmCalls (alarmCalls tr) r.isOk := by
  rw [connectInetSocket, ensures_perform_bind]
  rintro (v | errno)
  · simp only [ensures_perform_bind]
    intro r₁ r₂
    rw [ensures_bind]
    refine (alarmCalls_of_makes (connectInetAddresses_makes_quiet addresses)).mono ?_
    intro tr sfd hnil
    simp only [ensures_perform_bind, ensures_pure]
    intro r₃ r₄ r₅
    have hcalls : alarmCalls (tr ++ [(.alarm 0, r₃), (.signalAlrm .oldHandler, r₄),
        (.freeaddrinfo, r₅)]) = [(.alarm 0, r₃), (.signalAlrm .oldHandler, r₄)] := by
      rw [alarmCalls_append, hnil]
      rfl
    have hall := InetAlarmCalls.all r₁ r₂ r₃ r₄
    rw [← hcalls] at hall
    exact ⟨.ok v, _, rfl, hall⟩
  · rw [ensures_pure]
    exact ⟨_, _, rfl, .none⟩

/-! ### What the events leave -/

/-- The call of an event, if it matters. -/
def AlarmEvent.alarmCall? (e : AlarmEvent) : Option (NetCall × SysRet) :=
  e.call?.filter fun e => e.1.isAlarmCall

private theorem filterMap_alarmCall? (events : List AlarmEvent) :
    events.filterMap AlarmEvent.alarmCall? = alarmCalls (events.filterMap AlarmEvent.call?) := by
  induction events with
  | nil => rfl
  | cons e events ih =>
    cases e with
    | goesOff =>
      rw [List.filterMap_cons_none rfl, List.filterMap_cons_none rfl]
      exact ih
    | call e =>
      rw [List.filterMap_cons_some (f := AlarmEvent.call?) (b := e) rfl, alarmCalls_cons, ← ih]
      split_ifs with he
      · exact List.filterMap_cons_some (Option.filter_eq_some_iff.mpr ⟨rfl, he⟩)
      · exact List.filterMap_cons_none (by simp [AlarmEvent.alarmCall?, AlarmEvent.call?, he])

namespace AlarmState

variable {handleAlarm : H}

/-- The alarm goes off, or does not. -/
private def settle (s : AlarmState H) (off : Prop) [Decidable off] : AlarmState H :=
  if off then { s with pending := s.pending.filter (· ≠ .library) } else s

/-- Events without a call that matters: the alarm may go off in them, and nothing else. -/
private theorem after_quiet (handleAlarm : H) {quiet : List AlarmEvent}
    (h : ∀ e ∈ quiet, e.alarmCall? = none) (s : AlarmState H) :
    s.after handleAlarm quiet = s.settle (.goesOff ∈ quiet) := by
  induction quiet generalizing s with
  | nil => rfl
  | cons e quiet ih =>
    obtain ⟨he, hquiet⟩ := List.forall_mem_cons.mp h
    have hrest : s.after handleAlarm (e :: quiet) =
        (s.step handleAlarm e).settle (.goesOff ∈ quiet) := ih hquiet _
    rw [hrest]
    cases e with
    | goesOff => simp [settle, step, Option.filter_filter]
    | call e =>
      obtain ⟨c, r⟩ := e
      have hstep : s.step handleAlarm (.call (c, r)) = s := by
        cases c <;> first | rfl | cases he
      simp [hstep, settle]

end AlarmState

/-- An event that arms is a call that matters. -/
private theorem arms_eq_false {e : AlarmEvent} (h : e.alarmCall? = none) : e.arms = false := by
  cases e with
  | goesOff => rfl
  | call e =>
    obtain ⟨c, r⟩ := e
    cases c <;> first | rfl | cases h

namespace AlarmState

variable {handleAlarm : H} {s : AlarmState H} {events : List AlarmEvent}

/-- **The first call that matters**: what it finds is the state, but for an alarm that has gone off
before, and the alarm goes off armed if it does so behind a call that arms it. -/
private theorem exists_after_eq (handleAlarm : H) (s : AlarmState H) {c : NetCall × SysRet}
    {cs : List (NetCall × SysRet)} (h : events.filterMap AlarmEvent.alarmCall? = c :: cs) :
    ∃ (off : Bool) (rest : List AlarmEvent), rest.filterMap AlarmEvent.alarmCall? = cs ∧
      s.after handleAlarm events =
        ((s.settle (off = true)).step handleAlarm (.call c)).after handleAlarm rest ∧
      (.goesOff ∈ events ↔ off = true ∨ .goesOff ∈ rest) ∧
      (GoesOffArmed events ↔
        if (AlarmEvent.call c).arms then .goesOff ∈ rest else GoesOffArmed rest) := by
  -- what comes before the call are other calls, and alarms that go off
  obtain ⟨quiet, e, rest, rfl, hquiet, he, hrest⟩ := List.filterMap_eq_cons_iff.mp h
  obtain rfl : e = .call c := by
    cases e with
    | goesOff => cases he
    | call e => exact congrArg _ (Option.some.inj (Option.filter_eq_some_iff.mp he).1)
  refine ⟨decide (.goesOff ∈ quiet), rest, hrest, ?_, by simp, ?_⟩
  · have hbefore := after_quiet handleAlarm hquiet s
    rw [after] at hbefore
    simp only [after, List.foldl_append, List.foldl_cons, hbefore, decide_eq_true_eq]
  · have hskip : ∀ e ∈ quiet, (!e.arms) = true := fun e he =>
      congrArg not (arms_eq_false (hquiet e he))
    rw [GoesOffArmed, List.dropWhile_append_of_pos hskip]
    cases harms : (AlarmEvent.call c).arms with
    | true =>
      rw [List.dropWhile_cons_of_neg (by simp [harms])]
      simp
    | false =>
      rw [List.dropWhile_cons_of_pos (by simp [harms])]
      exact Iff.rfl

/-- No call that matters is left. -/
private theorem after_of_nil (handleAlarm : H) (s : AlarmState H)
    (h : events.filterMap AlarmEvent.alarmCall? = []) :
    s.after handleAlarm events = s.settle (.goesOff ∈ events) :=
  after_quiet handleAlarm (List.filterMap_eq_nil_iff.mp h) s

@[simp]
private theorem handler_settle (off : Prop) [Decidable off] :
    (s.settle off).handler = s.handler := by
  rw [settle]
  split_ifs <;> rfl

@[simp]
private theorem oldHandler_settle (off : Prop) [Decidable off] :
    (s.settle off).oldHandler = s.oldHandler := by
  rw [settle]
  split_ifs <;> rfl

@[simp]
private theorem pending_settle (off : Prop) [Decidable off] :
    (s.settle off).pending = if off then s.pending.filter (· ≠ .library) else s.pending := by
  rw [settle]
  split_ifs <;> rfl

@[simp]
private theorem installed_settle (off : Prop) [Decidable off] :
    (s.settle off).installed = s.installed := by
  rw [settle]
  split_ifs <;> rfl

@[simp]
private theorem installed_setBack (r : SysRet) :
    (s.step handleAlarm (.call (.signalAlrm .oldHandler, r))).installed sigAlrm =
      ⟨s.oldHandler, [], 0⟩ := by
  simp [step, baaSignal]

@[simp]
private theorem handler_install (r : SysRet) :
    (s.step handleAlarm (.call (.signalAlrm .handleAlarm, r))).handler = handleAlarm := by
  simp [step, baaSignal, handler]

@[simp]
private theorem oldHandler_install (r : SysRet) :
    (s.step handleAlarm (.call (.signalAlrm .handleAlarm, r))).oldHandler = s.handler := rfl

@[simp]
private theorem pending_install (r : SysRet) :
    (s.step handleAlarm (.call (.signalAlrm .handleAlarm, r))).pending = s.pending := rfl

@[simp]
private theorem handler_alarm (nsec : ℕ) (r : SysRet) :
    (s.step handleAlarm (.call (.alarm nsec, r))).handler = s.handler := rfl

@[simp]
private theorem oldHandler_alarm (nsec : ℕ) (r : SysRet) :
    (s.step handleAlarm (.call (.alarm nsec, r))).oldHandler = s.oldHandler := rfl

@[simp]
private theorem pending_alarm (nsec : ℕ) (r : SysRet) :
    (s.step handleAlarm (.call (.alarm nsec, r))).pending =
      if nsec = 0 then none else some .library := rfl

@[simp]
private theorem step_connect (sfd : ℕ) (addr : AddrArg) (r : SysRet) :
    s.step handleAlarm (.call (.connectUnix sfd addr, r)) = s := rfl

@[simp]
private theorem pending_setBack (r : SysRet) :
    (s.step handleAlarm (.call (.signalAlrm .oldHandler, r))).pending = s.pending := rfl

@[simp]
private theorem handler_setBack (r : SysRet) :
    (s.step handleAlarm (.call (.signalAlrm .oldHandler, r))).handler = s.oldHandler := by
  simp [step, baaSignal, handler]

end AlarmState

/-! ### Both -/

variable {handleAlarm : H} {s : AlarmState H} {events : List AlarmEvent}
  {calls : List (NetCall × SysRet)}

/-- An alarm of the caller does not go off. -/
private theorem AlarmState.pending_filter (h : s.pending ≠ some .library) :
    s.pending.filter (· ≠ .library) = s.pending := by
  rcases hpending : s.pending with _ | owner
  · rfl
  · have hne : owner ≠ .library := fun heq => h (heq ▸ hpending)
    simp [Option.filter, hne]

/-- What the events of `uds_socket` leave: a `connect` that fails leaves the library's handler, and
its alarm unless that has gone off; one that succeeds leaves no alarm. -/
private theorem UdsAlarmCalls.restored_iff (h : UdsAlarmCalls calls)
    (hevents : events.filterMap AlarmEvent.alarmCall? = calls)
    (hpending : s.pending ≠ some .library) :
    s.Restored (s.after handleAlarm events) ↔
      (∀ sfd addr r, (.connectUnix sfd addr, r) ∉ calls) ∨ s.pending = Option.none ∧
        ((∃ sfd addr v, (.connectUnix sfd addr, .ok v) ∈ calls) ∨
          s.handler = handleAlarm ∧ GoesOffArmed events) := by
  have hkept := AlarmState.pending_filter hpending
  cases h with
  -- the alarm was never touched
  | none =>
    rw [AlarmState.after_of_nil handleAlarm s hevents]
    refine iff_of_true ⟨AlarmState.handler_settle _, ?_⟩ (.inl (by simp))
    rw [AlarmState.pending_settle, hkept, ite_self]
  | failed r₁ r₂ sfd addr errno =>
    obtain ⟨off₁, rest₁, hevents₁, hafter₁, -, harmed₁⟩ :=
      AlarmState.exists_after_eq handleAlarm s hevents
    obtain ⟨off₂, rest₂, hevents₂, hafter₂, -, harmed₂⟩ :=
      AlarmState.exists_after_eq handleAlarm _ hevents₁
    obtain ⟨off₃, rest₃, hevents₃, hafter₃, hoff₃, -⟩ :=
      AlarmState.exists_after_eq handleAlarm _ hevents₂
    -- an alarm counts from the second call on, which arms it
    have harmed : GoesOffArmed events ↔ off₃ = true ∨ .goesOff ∈ rest₃ :=
      harmed₁.trans (harmed₂.trans hoff₃)
    have hleft : (s.after handleAlarm events).pending =
        if off₃ = true ∨ .goesOff ∈ rest₃ then Option.none else some .library := by
      rw [hafter₁, hafter₂, hafter₃, AlarmState.after_of_nil handleAlarm _ hevents₃]
      by_cases hoff : off₃ = true
      · simp [hoff, connectTimeout, Option.filter]
      · simp [hoff, connectTimeout, Option.filter]
    have hhandler : (s.after handleAlarm events).handler = handleAlarm := by
      rw [hafter₁, hafter₂, hafter₃, AlarmState.after_of_nil handleAlarm _ hevents₃]
      simp
    have hcame : ¬ ∀ sfd' addr' r, (NetCall.connectUnix sfd' addr', r) ∉
        [(.signalAlrm .handleAlarm, r₁), (.alarm connectTimeout, r₂),
          (.connectUnix sfd addr, .failed errno)] := fun h =>
      h sfd addr (.failed errno) (by simp)
    have hfailed : ¬ ∃ sfd' addr' v, (NetCall.connectUnix sfd' addr', SysRet.ok v) ∈
        [(.signalAlrm .handleAlarm, r₁), (.alarm connectTimeout, r₂),
          (.connectUnix sfd addr, .failed errno)] := by simp
    rw [or_iff_right hcame, or_iff_right hfailed, AlarmState.Restored, hleft, hhandler, harmed]
    -- what is left is the handler of the library, and its alarm unless that went off
    by_cases hoff : off₃ = true ∨ .goesOff ∈ rest₃
    · rw [if_pos hoff, and_iff_left hoff, and_comm, eq_comm, @eq_comm _ s.handler]
    · rw [if_neg hoff]
      exact iff_of_false (fun h => hpending h.2.symm) fun h => hoff h.2.2
  | connected r₁ r₂ r₃ r₄ sfd addr v =>
    obtain ⟨off₁, rest₁, hevents₁, hafter₁, -⟩ :=
      AlarmState.exists_after_eq handleAlarm s hevents
    obtain ⟨off₂, rest₂, hevents₂, hafter₂, -⟩ :=
      AlarmState.exists_after_eq handleAlarm _ hevents₁
    obtain ⟨off₃, rest₃, hevents₃, hafter₃, -⟩ :=
      AlarmState.exists_after_eq handleAlarm _ hevents₂
    obtain ⟨off₄, rest₄, hevents₄, hafter₄, -⟩ :=
      AlarmState.exists_after_eq handleAlarm _ hevents₃
    obtain ⟨off₅, rest₅, hevents₅, hafter₅, -⟩ :=
      AlarmState.exists_after_eq handleAlarm _ hevents₄
    -- the handler is put back and the alarm is off: one of the caller is lost
    rw [hafter₁, hafter₂, hafter₃, hafter₄, hafter₅,
      AlarmState.after_of_nil handleAlarm _ hevents₅]
    simp [AlarmState.Restored, eq_comm]

/-- What the events of `connect_inet_socket` leave. -/
private theorem InetAlarmCalls.restored_iff {found : Bool} (h : InetAlarmCalls calls found)
    (hevents : events.filterMap AlarmEvent.alarmCall? = calls)
    (hpending : s.pending ≠ some .library) :
    s.Restored (s.after handleAlarm events) ↔ found = false ∨ s.pending = Option.none := by
  cases h with
  | none =>
    rw [AlarmState.after_of_nil handleAlarm s hevents]
    refine iff_of_true ⟨AlarmState.handler_settle _, ?_⟩ (.inl rfl)
    rw [AlarmState.pending_settle, AlarmState.pending_filter hpending, ite_self]
  | all r₁ r₂ r₃ r₄ =>
    obtain ⟨off₁, rest₁, hevents₁, hafter₁, -⟩ :=
      AlarmState.exists_after_eq handleAlarm s hevents
    obtain ⟨off₂, rest₂, hevents₂, hafter₂, -⟩ :=
      AlarmState.exists_after_eq handleAlarm _ hevents₁
    obtain ⟨off₃, rest₃, hevents₃, hafter₃, -⟩ :=
      AlarmState.exists_after_eq handleAlarm _ hevents₂
    obtain ⟨off₄, rest₄, hevents₄, hafter₄, -⟩ :=
      AlarmState.exists_after_eq handleAlarm _ hevents₃
    rw [hafter₁, hafter₂, hafter₃, hafter₄, AlarmState.after_of_nil handleAlarm _ hevents₄]
    simp [AlarmState.Restored, eq_comm]

/-- **When the caller's alarm is restored**, whatever handler the caller has and whenever the alarm
of the library goes off. After `uds_socket`, if and only if it did not come to a `connect`, or the
caller had no alarm pending and either the `connect` succeeded, or the handler was the library's
already and its alarm has gone off; after `connect_inet_socket`, if and only if the look-up failed
or the caller had no alarm pending. -/
theorem restoresAlarm_iff (handleAlarm : H) (installed : CInt → SigAction H) (oldHandler : H)
    (callerPending : Bool) :
    (∀ (pid : ℕ) (name dir : Option (List Byte)) (type : SockType) (flags : Byte),
      (udsSocket pid name dir type flags).Ensures fun tr _ =>
        ∀ events : List AlarmEvent, events.filterMap AlarmEvent.call? = tr →
          ((AlarmState.before installed oldHandler callerPending).Restored
              ((AlarmState.before installed oldHandler callerPending).after handleAlarm events) ↔
            (∀ sfd addr r, (.connectUnix sfd addr, r) ∉ tr) ∨ callerPending = false ∧
              ((∃ sfd addr v, (.connectUnix sfd addr, .ok v) ∈ tr) ∨
                (installed sigAlrm).saHandler = handleAlarm ∧ GoesOffArmed events))) ∧
    ∀ (addresses : List AddrInfo) (host service : Option (List Byte)) (type : SockType),
      (connectInetSocket addresses host service type).Ensures fun tr _ =>
        ∀ events : List AlarmEvent, events.filterMap AlarmEvent.call? = tr →
          ((AlarmState.before installed oldHandler callerPending).Restored
              ((AlarmState.before installed oldHandler callerPending).after handleAlarm events) ↔
            (∃ errno, tr.head? = some (.getaddrinfo host service ⟨false, type⟩, .failed errno)) ∨
              callerPending = false) := by
  have hpending : (AlarmState.before installed oldHandler callerPending).pending = none ↔
      callerPending = false := by cases callerPending <;> simp [AlarmState.before]
  have hne : (AlarmState.before installed oldHandler callerPending).pending ≠ some .library := by
    cases callerPending <;> simp [AlarmState.before]
  constructor
  · intro pid name dir type flags
    refine (udsSocket_alarmCalls pid name dir type flags).mono ?_
    rintro _ _ hcalls events rfl
    have hmem := @mem_alarmCalls_connect (events.filterMap AlarmEvent.call?)
    simp only [← hmem, ← hpending]
    exact hcalls.restored_iff (filterMap_alarmCall? events) hne
  · intro addresses host service type
    refine (connectInetSocket_alarmCalls addresses host service type).mono ?_
    -- the calls behind a `getaddrinfo` that fails leave the alarm alone
    rintro tr _ ⟨r, tr', rfl, hcalls⟩ events hevents
    rw [hcalls.restored_iff ((filterMap_alarmCall? events).trans (by rw [hevents])) hne, hpending]
    cases r <;> simp [SysRet.isOk]

/-- What is installed after a `connect` of `uds_socket` that has succeeded: the handler is the
caller's, but it is installed without a mask and without flags. -/
theorem installed_of_connected (handleAlarm : H) (s : AlarmState H) {r₁ r₂ r₃ r₄ : SysRet}
    {sfd v : ℕ} {addr : AddrArg}
    (hevents : events.filterMap AlarmEvent.alarmCall? =
      [(.signalAlrm .handleAlarm, r₁), (.alarm connectTimeout, r₂),
        (.connectUnix sfd addr, .ok v), (.alarm 0, r₃), (.signalAlrm .oldHandler, r₄)]) :
    (s.after handleAlarm events).installed sigAlrm = ⟨s.handler, [], 0⟩ := by
  obtain ⟨off₁, rest₁, hevents₁, hafter₁, -⟩ := AlarmState.exists_after_eq handleAlarm s hevents
  obtain ⟨off₂, rest₂, hevents₂, hafter₂, -⟩ :=
    AlarmState.exists_after_eq handleAlarm _ hevents₁
  obtain ⟨off₃, rest₃, hevents₃, hafter₃, -⟩ :=
    AlarmState.exists_after_eq handleAlarm _ hevents₂
  obtain ⟨off₄, rest₄, hevents₄, hafter₄, -⟩ :=
    AlarmState.exists_after_eq handleAlarm _ hevents₃
  obtain ⟨off₅, rest₅, hevents₅, hafter₅, -⟩ :=
    AlarmState.exists_after_eq handleAlarm _ hevents₄
  rw [hafter₁, hafter₂, hafter₃, hafter₄, hafter₅, AlarmState.after_of_nil handleAlarm _ hevents₅]
  simp

/-- A handler of the caller, which has an alarm pending or not. -/
def callersHandler (func : H) (callerPending : Bool) : AlarmState H :=
  .before (fun _ => ⟨func, [], 0⟩) func callerPending

/-- A `connect` that times out leaves the library's handler; an alarm of the caller is lost. -/
theorem not_restoresAlarm :
    (∃ (tr : List (NetCall × SysRet)) (made : UdsResult) (events : List AlarmEvent),
      (udsSocket 1 (some [115]) none .stream useConnect).Exec tr made ∧ made.sfd = none ∧
      events.filterMap AlarmEvent.call? = tr ∧
      ((callersHandler 1 false).after 0 events).handler = 0 ∧
      ¬ (callersHandler 1 false).Restored ((callersHandler 1 false).after 0 events)) ∧
    ∃ (tr : List (NetCall × SysRet)) (ret : Option ℕ) (events : List AlarmEvent),
      (connectInetSocket [⟨2, 1, 6, []⟩] none none .stream).Exec tr ret ∧ ret = some 3 ∧
      events.filterMap AlarmEvent.call? = tr ∧
      ((callersHandler 1 true).after 0 events).pending = none ∧
      ¬ (callersHandler 1 true).Restored ((callersHandler 1 true).after 0 events) := by
  -- the alarm of the library goes off during the `connect`, which fails
  have huds : ((udsSocket 1 (some [115]) none .stream useConnect).eval
      [.failed .enoent, .ok 3, .ok 0, .ok 0, .failed .eintr]).map (fun e => (e.2.sfd,
        decide (((e.1.map AlarmEvent.call).insertIdx 4 .goesOff).filterMap AlarmEvent.call? = e.1),
        ((callersHandler 1 false).after 0
          ((e.1.map AlarmEvent.call).insertIdx 4 .goesOff)).handler)) = some (none, true, 0) := by
    decide +kernel
  -- an alarm of the caller is pending, and no `connect` fails
  have hinet : ((connectInetSocket [⟨2, 1, 6, []⟩] none none .stream).eval
      [.ok 0, .ok 0, .ok 0, .ok 3, .ok 0, .ok 0, .ok 0, .ok 0, .ok 0, .ok 0]).map (fun e => (e.2,
        decide ((e.1.map AlarmEvent.call).filterMap AlarmEvent.call? = e.1),
        ((callersHandler 1 true).after 0 (e.1.map AlarmEvent.call)).pending)) =
      some (some 3, true, none) := by
    decide +kernel
  obtain ⟨⟨tr, made⟩, htr, hfacts⟩ := Option.map_eq_some_iff.mp huds
  obtain ⟨⟨tr', ret⟩, htr', hfacts'⟩ := Option.map_eq_some_iff.mp hinet
  obtain ⟨hmade, hcalls, hhandler⟩ : _ ∧ _ ∧ _ := by simpa only [Prod.mk.injEq] using hfacts
  obtain ⟨hret, hcalls', hpending⟩ : _ ∧ _ ∧ _ := by simpa only [Prod.mk.injEq] using hfacts'
  refine ⟨⟨tr, made, _, exec_of_eval htr, hmade, of_decide_eq_true hcalls, hhandler, fun h => ?_⟩,
    tr', ret, _, exec_of_eval htr', hret, of_decide_eq_true hcalls', hpending, fun h => ?_⟩
  · exact absurd (hhandler.symm.trans h.1) (by decide)
  · exact absurd (hpending.symm.trans h.2) (by decide)

end Libbaalue
