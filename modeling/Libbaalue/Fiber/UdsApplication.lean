import Libbaalue.Fiber.Application

/-!
# Applications at a server

`main` of `time_triggert_uds.c` builds its fibers, has the array checked and asks a server to set
the properties, where `time_triggert_simple.c` makes the calls itself. It goes on to
`baa_start_scheduler` if `baa_set_schedule_props_via_server` returned 0, and ends otherwise. Any
number of such applications, each with its own threads and a client of its own, run at one
server, with strangers.

Each application keeps the invariant of its own start, and its client is one of the clients of
the server: `ApplicationOk` says how the two belong together. What the server applies for an
application is then always part of its array, in order and each once, and only of an accepted
array; that much no stranger can change. If besides the client of the application has consumed only
what the server sent for it, the server's replies to it got through and no wait of it timed out, a
return value of 0 means that the whole array is applied, and a fiber that has come past its wait has
what its element asks for, whatever the other applications and the strangers ask for in between
(`starts_configured_viaServer`). The condition is needed: a `PTYPE_CMD_ACK` of a stranger ends the
wait as one of the server does, and the fibers start unconfigured.

The composition adds nothing to the two systems it is made of: an application moves by the steps of
`Scheduler`, its client by those of `Clients`, and the two meet where `main` makes the call and
where it looks at what the call returned. So the invariant of the start and that of the clients are
used as they stand, and what is proved here is that they belong together.
-/

namespace Libbaalue

variable (plat : Platform) {n : ℕ} (paths : ClientsPaths n) (limits : KernelLimits)

/-! ### The processes -/

/-- Applications and the server. Each application has its threads and its side of the sessions, of
which it makes one call; what the threads share with others is the server. -/
structure Applications (n : ℕ) where
  clients : Clients n
  /-- The threads of an application. Between `baa_build_scheduler` and `baa_start_scheduler`
  its `main` is at `setProps`. -/
  app : Fin n → SchedulerState
  /-- `baa_set_schedule_props_via_server` has been called. -/
  asked : Fin n → Bool

/-- Who moves: a thread of an application, its `main` around the call of the library, or a step of
the clients and the server. -/
inductive ApplicationsLabel (n : ℕ)
  | thread (i : Fin n) (a : SchedulerLabel)
  /-- The check, and the call behind it. -/
  | ask (i : Fin n) (junk : ℕ → ℕ → CInt) (ptypeRcv : Byte)
  /-- What the call has returned is looked at. -/
  | answered (i : Fin n)
  /-- A client in its call, the server, or a stranger. -/
  | env (a : ClientsLabel n)

def ClientsLabel.isCall : ClientsLabel n → Bool
  | .call _ _ _ _ => true
  | _ => false

/-- `main` at another place. -/
def SchedulerState.goTo (s : SchedulerState) (pc : MainPc) : SchedulerState := { s with main := pc }

namespace Applications

/-- The state with one application replaced. -/
def setApp (s : Applications n) (i : Fin n) (app : SchedulerState) : Applications n :=
  { s with app := Function.update s.app i app }

/-- The state behind the call of `baa_set_schedule_props_via_server`. -/
def askedBy (s : Applications n) (i : Fin n) (clients : Clients n) : Applications n :=
  { s with clients := clients, asked := Function.update s.asked i true }

/-- One step. -/
def step (s : Applications n) : ApplicationsLabel n → Option (Applications n)
  | .thread i a =>
    -- `main` sets no properties itself
    if a = .main ∧ (s.app i).main.setsProps then none
    else ((s.app i).step a).map (s.setApp i)
  | .ask i junk ptypeRcv =>
    if (s.app i).main.setsProps ∧ s.asked i = false then
      if accepts limits (s.app i).fiberArray then
        (s.clients.step plat paths (.call i (s.app i).fiberArray junk ptypeRcv)).map (s.askedBy i)
      else some (s.setApp i ((s.app i).goTo .failed))
    else none
  | .answered i =>
    if (s.app i).main.setsProps ∧ s.asked i then
      match (s.clients.side i).client.pc with
      | .returned ret =>
        some (s.setApp i ((s.app i).goTo (if ret = 0 then .start .lock else .failed)))
      | _ => none
    else none
  | .env a =>
    if a.isCall then none
    else (s.clients.step plat paths a).map fun clients => { s with clients := clients }

/-- The steps of an orderly run: those of each application, and the array is read when the thread
ids are there. It does not change then, so that it can be read at one go. -/
def orderly (s : Applications n) : ApplicationsLabel n → Bool
  | .thread i a => (s.app i).orderly a
  | .ask i _ _ => decide (∀ j < (s.app i).fiberArray.length, ((s.app i).published j).isSome)
  | _ => true

end Applications

/-- The orderly runs of processes of `time_triggert_uds.c` at a server. -/
def timeTriggertUds (fiberArrays : Fin n → List FiberElement) :
    LabelledSystem (Applications n) (ApplicationsLabel n) :=
  LabelledSystem.restrict
    ⟨⟨.init plat, fun i => .init (fiberArrays i), fun _ => false⟩,
      Applications.step plat paths limits⟩ fun s a => s.orderly a

variable {plat paths limits}

/-! ### What the others leave of a client -/

/-- What a step other than a call leaves of a client. -/
structure ClientSide.Keeps (c d : ClientSide n) : Prop where
  fiberArray : d.fiberArray = c.fiberArray
  calls : d.calls = c.calls
  returned : ∀ ret, c.client.pc = .returned ret → d.client.pc = .returned ret

theorem ClientSide.Keeps.refl (c : ClientSide n) : c.Keeps c := ⟨rfl, rfl, fun _ => id⟩

namespace Clients

variable {s t : Clients n}

/-- The step of one client is nothing to the others. -/
private theorem keeps_setSide (hsame : t.side = s.side) {i : Fin n} {c : ClientSide n}
    (h : (s.side i).Keeps c) (j : Fin n) : (s.side j).Keeps ((t.setSide i c).side j) := by
  rcases eq_or_ne j i with rfl | hne
  · have hself : (t.setSide j c).side j = c := Function.update_self ..
    rwa [hself]
  · have hother : (t.setSide i c).side j = s.side j :=
      (Function.update_of_ne hne ..).trans (congrFun hsame j)
    exact hother ▸ .refl _

/-- A client that is in its call keeps its array. -/
private theorem keeps_inCall {c d : ClientSide n} (hpc : ∀ ret, c.client.pc ≠ .returned ret)
    (harray : d.fiberArray = c.fiberArray) (hcalls : d.calls = c.calls) : c.Keeps d :=
  ⟨harray, hcalls, fun ret hret => absurd hret (hpc ret)⟩

/-- What the server sends does not move the client it goes to. -/
private theorem keeps_offered (c : ClientSide n) (i : Fin n) (owner : Option (Fin n))
    (reply : ReplyPacket) (sent : ℤ) : c.Keeps (c.offered i owner reply sent) := by
  rw [ClientSide.offered]
  split_ifs
  · exact ⟨rfl, rfl, fun _ => id⟩
  · exact ⟨rfl, rfl, fun _ => id⟩

private theorem keeps_step {a : ClientsLabel n} (hcall : a.isCall = false)
    (hst : s.step plat paths a = some t) (j : Fin n) : (s.side j).Keeps (t.side j) := by
  cases a with
  | call i fiberArray junk ptypeRcv => cases hcall
  | clientSend i sent =>
    rcases hpc : (s.side i).client.pc with _ | _ | ret
    case recvfrom | returned => simp [step, baaSetSchedulePropsViaServer, hpc] at hst
    rcases hfiber : (s.side i).fiberArray[(s.side i).client.i]? with _ | fiber
    · simp [step, hfiber] at hst
    simp only [step, baaSetSchedulePropsViaServer, hpc, hfiber, Option.some.injEq] at hst
    subst hst
    have hgoes : ∀ ret, (s.side i).client.pc ≠ .returned ret := by simp [hpc]
    rw [clientSend]
    split_ifs
    · refine keeps_setSide rfl ?_ j
      exact keeps_inCall hgoes rfl rfl
    · refine keeps_setSide rfl ?_ j
      exact keeps_inCall hgoes rfl rfl
  | clientRecv i =>
    rcases hpc : (s.side i).client.pc with _ | _ | ret
    case sendto | returned => simp [step, baaSetSchedulePropsViaServer, hpc] at hst
    simp only [step] at hst
    split at hst
    · obtain rfl := Option.some.inj hst
      refine keeps_setSide rfl ?_ j
      exact keeps_inCall (by simp [hpc]) rfl rfl
    · cases hst
  | clientTimeout i =>
    rcases hpc : (s.side i).client.pc with _ | _ | ret
    case sendto | returned => simp [step, baaSetSchedulePropsViaServer, hpc] at hst
    simp only [step, baaSetSchedulePropsViaServer, hpc, Option.some.injEq] at hst
    subst hst
    refine keeps_setSide rfl ?_ j
    exact keeps_inCall (by simp [hpc]) rfl rfl
  | stranger d =>
    obtain rfl := Option.some.inj hst
    exact .refl _
  | strangerTo i d =>
    obtain rfl := Option.some.inj hst
    refine keeps_setSide rfl ?_ j
    exact ⟨rfl, rfl, fun _ => id⟩
  | serverRecv =>
    simp only [step] at hst
    split at hst
    · obtain rfl := Option.some.inj hst
      exact .refl _
    · cases hst
  | serverTimeout =>
    simp only [step] at hst
    split at hst
    · obtain rfl := Option.some.inj hst
      exact .refl _
    · cases hst
  | serverStep outcome sent =>
    simp only [step] at hst
    split at hst
    · cases hst
    · obtain rfl := Option.some.inj hst
      rw [serverSend]
      split
      · refine keeps_setSide rfl ?_ j
        exact keeps_offered ..
      · exact .refl _
    · obtain rfl := Option.some.inj hst
      exact .refl _
    · obtain rfl := Option.some.inj hst
      exact .refl _

/-- A call. -/
theorem step_call {i : Fin n} {fiberArray : List FiberElement} {junk : ℕ → ℕ → CInt}
    {ptypeRcv : Byte} (hst : s.step plat paths (.call i fiberArray junk ptypeRcv) = some t) :
    (t.side i).fiberArray = fiberArray ∧ (t.side i).calls = (s.side i).calls + 1 ∧
      ∀ j ≠ i, t.side j = s.side j := by
  rcases hpc : (s.side i).client.pc with _ | _ | ret
  case sendto | recvfrom => simp [step, hpc] at hst
  simp only [step, hpc, Option.some.injEq] at hst
  subst hst
  refine ⟨?_, ?_, fun j hne => side_setSide_of_ne s hne _⟩
  · rw [side_setSide_self]
    rfl
  · rw [side_setSide_self]
    rfl

end Clients

/-! ### An application and its client -/

private theorem MainPc.exists_setProps {pc : MainPc} (h : pc.setsProps) :
    ∃ props, pc = .setProps props := by
  cases pc with
  | setProps props => exact ⟨props, rfl⟩
  | build pc => cases h
  | start pc => cases h
  | failed => cases h

namespace SchedulerState

variable {s t : SchedulerState}

/-- `main` goes on from `setProps`, unnoticed by the fibers. -/
private theorem Inv.goTo (h : s.Inv) (hsets : s.main.setsProps) {pc : MainPc}
    (hpc : pc = .start .lock ∨ pc = .failed) : (s.goTo pc).Inv := by
  obtain ⟨props, hmain⟩ := MainPc.exists_setProps hsets
  refine h.moveMain ?_ ?_ ?_ ?_ <;> rcases hpc with rfl | rfl <;>
    simp [hmain, MainPc.isInside, MainPc.hasLocked, MainPc.hasBroadcast]

/-- When all thread ids are there the array does not change any more. -/
private theorem Inv.array_step (h : s.Inv)
    (hall : ∀ j < s.fiberArray.length, (s.published j).isSome) {a : SchedulerLabel}
    (hst : s.step a = some t) : t.fiberArray = s.fiberArray ∧ t.published = s.published := by
  obtain ⟨hsame | ⟨i, kernelTid, hpc, -⟩, -⟩ := step_frame hst
  · exact hsame
  · have hsome := hall i (h.lt_length (by simp [hpc]))
    rw [h.unpublished i (by simp [hpc, FiberPc.hasPublished])] at hsome
    cases hsome

end SchedulerState

variable (limits) in
/-- How an application and its client belong together. -/
structure ApplicationOk (fiberArray : List FiberElement) (app : SchedulerState) (asked : Bool)
    (c : ClientSide n) : Prop where
  inv : app.Inv
  config : app.fiberArray.map FiberElement.config = fiberArray.map FiberElement.config
  calls : c.calls = asked.toNat
  asks : asked → accepts limits fiberArray ∧ c.fiberArray = app.fiberArray ∧
    ∀ j < app.fiberArray.length, (app.published j).isSome
  starts : app.main.starts → asked ∧ c.client.pc = .returned 0

namespace ApplicationOk

variable {fiberArray : List FiberElement} {app app' : SchedulerState} {asked : Bool}
  {c d : ClientSide n}

/-- A thread of the application moves. -/
theorem thread (h : ApplicationOk limits fiberArray app asked c) {a : SchedulerLabel}
    (horderly : app.orderly a) (hmain : ¬ (a = .main ∧ app.main.setsProps))
    (hst : app.step a = some app') : ApplicationOk limits fiberArray app' asked c := by
  refine ⟨h.inv.step horderly hst, (SchedulerState.config_step hst).trans h.config, h.calls,
    fun hasked => ?_, fun hstarts => ?_⟩
  · obtain ⟨haccepts, harray, hall⟩ := h.asks hasked
    obtain ⟨hsame, hpublished⟩ := h.inv.array_step hall hst
    rw [hsame, hpublished]
    exact ⟨haccepts, harray, hall⟩
  · obtain ⟨-, ⟨-, hkept⟩ | hgate⟩ := SchedulerState.step_frame hst
    · exact h.starts (hkept hstarts)
    · exact absurd hgate hmain

/-- The call is made. -/
private theorem ask (h : ApplicationOk limits fiberArray app false c)
    (hall : ∀ j < app.fiberArray.length, (app.published j).isSome)
    (haccepts : accepts limits app.fiberArray) (harray : d.fiberArray = app.fiberArray)
    (hcalls : d.calls = c.calls + 1) : ApplicationOk limits fiberArray app true d :=
  ⟨h.inv, h.config, by rw [hcalls, h.calls]; rfl,
    fun _ => ⟨accepts_congr h.config ▸ haccepts, harray, hall⟩,
    fun hstarts => absurd (h.starts hstarts).1 Bool.false_ne_true⟩

/-- `main` ends. -/
theorem fail (h : ApplicationOk limits fiberArray app asked c) (hsets : app.main.setsProps) :
    ApplicationOk limits fiberArray (app.goTo .failed) asked c :=
  ⟨h.inv.goTo hsets (.inr rfl), h.config, h.calls, h.asks, fun hstarts => by cases hstarts⟩

/-- The call has returned 0. -/
theorem start (h : ApplicationOk limits fiberArray app true c) (hsets : app.main.setsProps)
    (hret : c.client.pc = .returned 0) :
    ApplicationOk limits fiberArray (app.goTo (.start .lock)) true c :=
  ⟨h.inv.goTo hsets (.inl rfl), h.config, h.calls, h.asks, fun _ => ⟨rfl, hret⟩⟩

/-- The others move, or the client in its call. -/
theorem env (h : ApplicationOk limits fiberArray app asked c) (hkeeps : c.Keeps d) :
    ApplicationOk limits fiberArray app asked d :=
  ⟨h.inv, h.config, hkeeps.calls.trans h.calls, fun hasked => hkeeps.fiberArray ▸ h.asks hasked,
    fun hstarts => (h.starts hstarts).imp_right (hkeeps.returned 0)⟩

end ApplicationOk

namespace Applications

variable {fiberArrays : Fin n → List FiberElement} {s t : Applications n}

variable (limits fiberArrays) in
/-- The applications and their clients. -/
def Ok (s : Applications n) : Prop :=
  ∀ i, ApplicationOk limits (fiberArrays i) (s.app i) (s.asked i) (s.clients.side i)

/-- One application moves. -/
private theorem Ok.setApp (h : s.Ok limits fiberArrays) {i : Fin n} {app : SchedulerState}
    (hi : ApplicationOk limits (fiberArrays i) app (s.asked i) (s.clients.side i)) :
    (s.setApp i app).Ok limits fiberArrays := by
  intro j
  rcases eq_or_ne j i with rfl | hne
  · have hself : (s.setApp j app).app j = app := Function.update_self ..
    rw [hself]
    exact hi
  · have hother : (s.setApp i app).app j = s.app j := Function.update_of_ne hne ..
    rw [hother]
    exact h j

/-- **Every step** of an orderly run. -/
theorem Ok.step (h : s.Ok limits fiberArrays) {a : ApplicationsLabel n} (horderly : s.orderly a)
    (hst : s.step plat paths limits a = some t) : t.Ok limits fiberArrays := by
  cases a with
  | thread i a =>
    simp only [Applications.step] at hst
    split_ifs at hst with hmain
    obtain ⟨app, hstep, rfl⟩ := Option.map_eq_some_iff.mp hst
    exact h.setApp ((h i).thread horderly hmain hstep)
  | ask i junk ptypeRcv =>
    simp only [Applications.step] at hst
    split_ifs at hst with hsets haccepts
    · obtain ⟨clients, hstep, rfl⟩ := Option.map_eq_some_iff.mp hst
      obtain ⟨harray, hcalls, hothers⟩ := Clients.step_call hstep
      intro j
      rcases eq_or_ne j i with rfl | hne
      · have hself : (s.askedBy j clients).asked j = true := Function.update_self ..
        have hbefore := h j
        rw [hsets.2] at hbefore
        rw [hself]
        exact hbefore.ask (of_decide_eq_true horderly) haccepts harray hcalls
      · have hasked : (s.askedBy i clients).asked j = s.asked j := Function.update_of_ne hne ..
        have hside : (s.askedBy i clients).clients.side j = s.clients.side j := hothers j hne
        rw [hasked, hside]
        exact h j
    · obtain rfl := Option.some.inj hst
      exact h.setApp ((h i).fail hsets.1)
  | answered i =>
    simp only [Applications.step] at hst
    split_ifs at hst with hsets
    split at hst
    · rename_i ret hret
      obtain rfl := Option.some.inj hst
      refine h.setApp ?_
      split_ifs with hzero
      · have hbefore := h i
        rw [hsets.2] at hbefore ⊢
        exact hbefore.start hsets.1 (hzero ▸ hret)
      · exact (h i).fail hsets.1
    · cases hst
  | env a =>
    simp only [Applications.step] at hst
    split_ifs at hst with hcall
    obtain ⟨clients, hstep, rfl⟩ := Option.map_eq_some_iff.mp hst
    exact fun j => (h j).env (Clients.keeps_step (Bool.eq_false_iff.mpr hcall) hstep j)

private theorem ok_of_reachable (h : (timeTriggertUds plat paths limits fiberArrays).Reachable s) :
    s.Ok limits fiberArrays := by
  refine h.invariant (P := fun s => s.Ok limits fiberArrays) (fun i => ?_) fun s a t _ hs hst => ?_
  · have hinit : (orderlyScheduler (fiberArrays i)).Reachable (.init (fiberArrays i)) := .init
    exact ⟨SchedulerState.inv_of_reachable hinit, rfl, rfl, fun hasked => (by cases hasked),
      fun hstarts => (by cases hstarts)⟩
  · obtain ⟨horderly, hst⟩ := LabelledSystem.restrict_step_iff.mp hst
    exact hs.step horderly hst

/-- The clients are clients of the server. -/
theorem clients_of_reachable (h : (timeTriggertUds plat paths limits fiberArrays).Reachable s) :
    (clientsSystem plat paths).Reachable s.clients := by
  have R : LabelledSystem.Refinement (timeTriggertUds plat paths limits fiberArrays)
      (clientsSystem plat paths) (fun _ => True) Applications.clients := by
    refine ⟨trivial, rfl, fun _ _ _ _ _ _ => trivial, fun s a t _ hst => ?_⟩
    obtain ⟨-, hst⟩ := LabelledSystem.restrict_step_iff.mp hst
    cases a with
    | thread i a =>
      simp only [Applications.step] at hst
      split_ifs at hst
      obtain ⟨app, -, rfl⟩ := Option.map_eq_some_iff.mp hst
      exact .inl rfl
    | ask i junk ptypeRcv =>
      simp only [Applications.step] at hst
      split_ifs at hst
      · obtain ⟨clients, hstep, rfl⟩ := Option.map_eq_some_iff.mp hst
        exact .inr ⟨.call i (s.app i).fiberArray junk ptypeRcv, hstep⟩
      · obtain rfl := Option.some.inj hst
        exact .inl rfl
    | answered i =>
      simp only [Applications.step] at hst
      split_ifs at hst
      split at hst
      · obtain rfl := Option.some.inj hst
        exact .inl rfl
      · cases hst
    | env a =>
      simp only [Applications.step] at hst
      split_ifs at hst
      obtain ⟨clients, hstep, rfl⟩ := Option.map_eq_some_iff.mp hst
      exact .inr ⟨a, hstep⟩
  exact (R.reachable h).2

end Applications

/-! ### What the server applies for an application -/

section

variable {fiberArrays : Fin n → List FiberElement} {s : Applications n}

/-- What is applied for an application comes from its array, and from an accepted one. -/
theorem applied_fromArray (h : (timeTriggertUds plat paths limits fiberArrays).Reachable s)
    (i : Fin n) : (ownedBy (some i) s.clients.applied).Sublist (s.app i).fiberArray ∧
      (ownedBy (some i) s.clients.applied ≠ [] → s.asked i) := by
  have hok := Applications.ok_of_reachable h i
  obtain ⟨hinv, -⟩ := Clients.inv_of_reachable (Applications.clients_of_reachable h)
  have happlied := hinv.applied_prefix i
  rcases hasked : s.asked i with _ | _
  · have hcalls : (s.clients.side i).calls = 0 := by rw [hok.calls, hasked]; rfl
    rw [((hinv.side i).noCall hcalls).1, List.map_nil, List.prefix_nil] at happlied
    rw [happlied]
    exact ⟨List.nil_sublist _, fun hne => absurd rfl hne⟩
  · have hcalls : (s.clients.side i).calls ≤ 1 := by rw [hok.calls, hasked]; rfl
    have hrequests := ((hinv.side i).firstCall hcalls).trans (List.take_sublist _ _)
    rw [(hok.asks hasked).2.1] at hrequests
    exact ⟨happlied.sublist.trans hrequests, fun _ => rfl⟩

/-- What is applied for an application is for threads of its own. -/
theorem published_of_applied (h : (timeTriggertUds plat paths limits fiberArrays).Reachable s)
    {i : Fin n} {fiber : FiberElement} (hmem : fiber ∈ ownedBy (some i) s.clients.applied) :
    ∃ k, (s.app i).published k = some fiber.kernelTid := by
  have hok := Applications.ok_of_reachable h i
  obtain ⟨hpart, hasked⟩ := applied_fromArray h i
  obtain ⟨k, hk⟩ := List.getElem?_of_mem (hpart.subset hmem)
  have hall := (hok.asks (hasked (List.ne_nil_of_mem hmem))).2.2
  exact ⟨k, hok.inv.published_eq hk (hall k (List.getElem?_eq_some_iff.mp hk).1)⟩

/-- An application that starts its fibers has had its whole array applied, unless its client was
disturbed or a wait of it timed out. -/
theorem applied_of_starts (h : (timeTriggertUds plat paths limits fiberArrays).Reachable s)
    {i : Fin n} (hstarts : (s.app i).main.starts)
    (hquiet : (s.clients.side i).disturbed = false) (hno : (s.clients.side i).timedOut = false) :
    ownedBy (some i) s.clients.applied = (s.app i).fiberArray := by
  have hok := Applications.ok_of_reachable h i
  obtain ⟨hasked, hret⟩ := hok.starts hstarts
  obtain ⟨-, hseen⟩ := Clients.inv_of_reachable (Applications.clients_of_reachable h)
  have hlast : (s.clients.side i).fiberArray <:+ ownedBy (some i) s.clients.applied :=
    ((hseen i hquiet).complete hno hret).2.1
  rw [(hok.asks hasked).2.1] at hlast
  exact (applied_fromArray h i).1.eq_of_length_le hlast.length_le

/-- Nobody else names the threads of an application: the threads that fibers have published are
there and have ids, the application shares none of its own, and nothing the server has applied for
a stranger is for one of them. -/
structure Applications.OwnThreads (s : Applications n) (server : CInt) (table : SchedTable)
    (i : Fin n) : Prop where
  threads : ∀ j k tid, (s.app j).published k = some tid → tid ≠ 0 ∧ (table tid).isSome
  own : ∀ k j l tid, (s.app i).published k = some tid → (s.app j).published l = some tid →
    i = j ∧ k = l
  strangers : ∀ fiber ∈ ownedBy none s.clients.applied, ∀ k,
    (s.app i).published k ≠ some (targetOf server fiber.kernelTid)

/-- **Nothing runs unconfigured**, with a server. In every orderly run of any number of
applications at one server, with strangers, the server applies for an application only elements of
its own array, in order and each once, and only if that is accepted. If the application's client is
undisturbed, no wait of it has timed out, nobody else names its threads and the kernel grants the
server what makes sense, a fiber of it that is behind its wait has the policy, the priority and the
cpu of its element. -/
theorem starts_configured_viaServer
    (h : (timeTriggertUds plat paths limits fiberArrays).Reachable s) (i : Fin n) :
    (ownedBy (some i) s.clients.applied).Sublist (s.app i).fiberArray ∧
      (ownedBy (some i) s.clients.applied ≠ [] → accepts limits (fiberArrays i)) ∧
      ∀ (kernel : SchedKernel) (server : CInt) (table : SchedTable),
        kernel.Grants server limits → (fiberArrays i).length < 2 ^ 31 →
        (∀ fiber ∈ fiberArrays i, CpuOnline kernel fiber) → s.OwnThreads server table i →
        (s.clients.side i).disturbed = false → (s.clients.side i).timedOut = false →
        ∀ k, ((s.app i).fiber k).isPastWait → accepts limits (fiberArrays i) ∧
          ∃ tid fiber, (s.app i).published k = some tid ∧ (fiberArrays i)[k]? = some fiber ∧
          RunsAs kernel server
            (tableAfter kernel server table (s.clients.applied.map Prod.snd)) tid fiber := by
  have hok := Applications.ok_of_reachable h i
  obtain ⟨hpart, hasked⟩ := applied_fromArray h i
  refine ⟨hpart, fun hne => (hok.asks (hasked hne)).1, ?_⟩
  rintro kernel server table hgrants hlen honline ⟨hthreads, hown, hstrangers⟩ hquiet hno k hpast
  obtain ⟨⟨pc, hmain⟩, element, hk⟩ := hok.inv.started hpast
  have hstarts : (s.app i).main.starts := by rw [hmain]; rfl
  obtain ⟨haccepts, -, hall⟩ := hok.asks (hok.starts hstarts).1
  have hpublished : ∀ (j : ℕ) fiber, (s.app i).fiberArray[j]? = some fiber →
      (s.app i).published j = some fiber.kernelTid := fun j fiber hj =>
    hok.inv.published_eq hj (hall j (List.getElem?_eq_some_iff.mp hj).1)
  obtain ⟨fiber, hfiber, hruns⟩ : ∃ fiber, (fiberArrays i)[k]? = some fiber ∧ RunsAs kernel server
      (tableAfter kernel server table (s.app i).fiberArray) element.kernelTid fiber := by
    refine runsAs_of_config hgrants hlen hok.config haccepts honline
      (fun j fiber hj => hthreads i j _ (hpublished j fiber hj))
      (fun j l fiber fiber' hj hl heq => ?_) hk
    exact (hown j i l _ (hpublished j fiber hj) (heq ▸ hpublished l fiber' hl)).2
  refine ⟨haccepts, _, fiber, hpublished k element hk, hfiber, ?_⟩
  -- the entry of the thread is what the elements of the application have made of it
  have hentry : tableAfter kernel server table (s.clients.applied.map Prod.snd) element.kernelTid =
      tableAfter kernel server table (s.app i).fiberArray element.kernelTid := by
    rw [tableAfter_ownedBy (i := i) ?_ table, applied_of_starts h hstarts hquiet hno]
    rintro ⟨owner, other⟩ hp hne heq
    have hmem : other ∈ ownedBy owner s.clients.applied := mem_ownedBy_iff.mpr hp
    rcases owner with _ | j
    · exact hstrangers other hmem k (heq ▸ hpublished k element hk)
    · obtain ⟨l, hl⟩ := published_of_applied h hmem
      rw [targetOf_of_ne (hthreads j l _ hl).1] at heq
      exact hne (congrArg some (hown k j l _ (hpublished k element hk) (heq ▸ hl)).1.symm)
  have htarget : targetOf server element.kernelTid = element.kernelTid :=
    targetOf_of_ne (hthreads i k _ (hpublished k element hk)).1
  simpa only [RunsAs, baaGetSchedPolicy, baaGetSchedPriority, htarget, hentry] using hruns

end

/-- Steps of the threads of one application. -/
def threads (i : Fin n) (steps : List SchedulerLabel) : List (ApplicationsLabel n) :=
  steps.map (.thread i)

/-- One fiber, as far as the check. -/
def built (i : Fin n) (tid : CInt) : List (ApplicationsLabel n) :=
  threads i (.main :: arrive 0 tid ++ [.main, .main])

/-- Two applications ask while the server is busy for a stranger, and the first one goes on. -/
def twoAsk (i j : Fin n) : List (ApplicationsLabel n) :=
  let turn : List (ApplicationsLabel n) :=
    .env .serverRecv :: List.replicate 4 (.env (.serverStep ⟨.ok, .ok⟩ 1))
  built i 71 ++ built j 72 ++
    [.env (.stranger ⟨boundAt [47, 101], [ptypeSchedProps]⟩), .ask j (fun _ _ => 0) 0,
      .env (.clientSend j 17), .ask i (fun _ _ => 0) 0, .env (.clientSend i 17)] ++
    turn ++ turn ++ turn ++ [.env (.clientRecv i), .env (.clientRecv i), .answered i] ++
    threads i [.main, .main, .main, .fiber 0 0, .fiber 0 0]

/-- The fiber of the first application runs as its element says. -/
theorem starts_configured_viaServer_twoAsk :
    ∃ s, (timeTriggertUds .linux64 threeClients twoCpus fun _ => [fifoElement]).exec
        (timeTriggertUds .linux64 threeClients twoCpus fun _ => [fifoElement]).init
        (twoAsk 0 1) = some s ∧ (s.app 0).fiber 0 = .running ∧
      s.clients.applied.map Prod.fst = [none, some 1, some 0] ∧
      (ownedBy (some 0) s.clients.applied).Sublist (s.app 0).fiberArray ∧
      (ownedBy (some 0) s.clients.applied ≠ [] → accepts twoCpus [fifoElement]) ∧
      ∀ k, ((s.app 0).fiber k).isPastWait → accepts twoCpus [fifoElement] ∧
        ∃ tid fiber, (s.app 0).published k = some tid ∧ [fifoElement][k]? = some fiber ∧
          RunsAs twoCpuKernel 7 (tableAfter twoCpuKernel 7 (fun _ => some ⟨[], 0, 0⟩)
            (s.clients.applied.map Prod.snd)) tid fiber := by
  have hrun : ((timeTriggertUds .linux64 threeClients twoCpus fun _ => [fifoElement]).exec
      (timeTriggertUds .linux64 threeClients twoCpus fun _ => [fifoElement]).init
      (twoAsk 0 1)).map (fun s => ((s.app 0).fiber 0, (s.clients.side 0).disturbed,
        (s.clients.side 0).timedOut, s.clients.applied,
        (List.finRange 3).map fun i => ((s.app i).fiberArray.length, (s.app i).published 0))) =
      some (.running, false, false,
        [(none, ⟨0, 0, 0, 0⟩), (some 1, ⟨72, 1, 0, 50⟩), (some 0, ⟨71, 1, 0, 50⟩)],
        [(1, some 71), (1, some 72), (1, none)]) := by
    set_option synthInstance.maxSize 1000 in
    decide +kernel
  obtain ⟨s, hs, hfacts⟩ := Option.map_eq_some_iff.mp hrun
  obtain ⟨hfiber, hquiet, hno, happlied, happs⟩ : _ ∧ _ ∧ _ ∧ _ ∧ _ := by
    simpa only [Prod.mk.injEq] using hfacts
  have hreachable := LabelledSystem.reachable_of_exec hs
  obtain ⟨⟨hlength₀, h₀⟩, ⟨hlength₁, h₁⟩, ⟨hlength₂, h₂⟩⟩ : ((s.app 0).fiberArray.length = 1 ∧
      (s.app 0).published 0 = some 71) ∧ ((s.app 1).fiberArray.length = 1 ∧
      (s.app 1).published 0 = some 72) ∧ (s.app 2).fiberArray.length = 1 ∧
      (s.app 2).published 0 = none := by
    simpa [List.finRange_succ] using happs
  have hpublished : ∀ j k tid, (s.app j).published k = some tid →
      k = 0 ∧ (j = 0 ∧ tid = 71 ∨ j = 1 ∧ tid = 72) := by
    intro j k tid htid
    obtain ⟨fiber, hk, -⟩ := (Applications.ok_of_reachable hreachable j).inv.stored k tid htid
    have hlt := (List.getElem?_eq_some_iff.mp hk).1
    obtain rfl | rfl | rfl := (by decide : ∀ j : Fin 3, j = 0 ∨ j = 1 ∨ j = 2) j
    · obtain rfl : k = 0 := by omega
      exact ⟨rfl, .inl ⟨rfl, Option.some.inj (htid.symm.trans h₀)⟩⟩
    · obtain rfl : k = 0 := by omega
      exact ⟨rfl, .inr ⟨rfl, Option.some.inj (htid.symm.trans h₁)⟩⟩
    · obtain rfl : k = 0 := by omega
      cases htid.symm.trans h₂
  have honline : ∀ fiber ∈ [fifoElement], CpuOnline twoCpuKernel fiber := by
    intro fiber hmem
    obtain rfl : fiber = fifoElement := by simpa using hmem
    exact ⟨0, by decide, by decide⟩
  have hthreads : ∀ j k tid, (s.app j).published k = some tid →
      tid ≠ 0 ∧ (some (⟨[], 0, 0⟩ : ThreadSched)).isSome := by
    intro j k tid htid
    rcases (hpublished j k tid htid).2 with ⟨-, rfl⟩ | ⟨-, rfl⟩
    · exact ⟨by decide, rfl⟩
    · exact ⟨by decide, rfl⟩
  have hown : ∀ k j l tid, (s.app 0).published k = some tid → (s.app j).published l = some tid →
      0 = j ∧ k = l := by
    intro k j l tid hk hl
    obtain ⟨rfl, ⟨-, rfl⟩ | ⟨hne, -⟩⟩ := hpublished 0 k tid hk
    · obtain ⟨rfl, ⟨rfl, -⟩ | ⟨-, hne⟩⟩ := hpublished j l 71 hl
      · exact ⟨rfl, rfl⟩
      · cases hne
    · cases hne
  have hstrangers : ∀ fiber ∈ ownedBy none s.clients.applied, ∀ k,
      (s.app 0).published k ≠ some (targetOf 7 fiber.kernelTid) := by
    intro fiber hmem k hk
    obtain rfl : fiber = ⟨0, 0, 0, 0⟩ := by simpa [happlied, ownedBy] using hmem
    obtain ⟨-, ⟨-, hne⟩ | ⟨hne, -⟩⟩ := hpublished 0 k _ hk
    · cases hne
    · cases hne
  obtain ⟨hpart, haccepts, hruns⟩ := starts_configured_viaServer hreachable 0
  exact ⟨s, hs, hfiber, by simp [happlied], hpart, haccepts,
    hruns twoCpuKernel 7 _ (twoCpuKernel_grants 7) (by decide) honline
      ⟨hthreads, hown, hstrangers⟩ hquiet hno⟩

end Libbaalue
