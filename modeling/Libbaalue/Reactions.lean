import Libbaalue.Device.Thread
import Libbaalue.Fiber.Server

/-!
# The reactions of the servers

Both server threads keep their variables from one turn of the loop to the next, and neither lets
anything of a turn into the one after (`trace_forgets_history`). `baa_device_mgmt_th` clears all
of them at the head of its loop; `baa_schedule_server_th` leaves `protocol_type` and `err`, of
which the one is never read and the other written before it is read (`Server.look`).

The result is about both threads and is proved from `Forgets`, a property of one machine: what
`look` shows determines the next call and what it shows of the state after the answer, and at the
loop head it shows the same whatever happened before. The history is arbitrary on both sides, and so
are the variables the loop was entered with, as the stack holds anything then.
-/

namespace Libbaalue

variable {plat : Platform}

/-- What the scheduling server's behaviour depends on: everything but `protocol_type` and `err`, the
two variables that the head of its loop leaves. -/
def Server.look (s : Server) : Server :=
  { s with vars := { s.vars with protocolType := 0 }, err := 0 }

/-- The stores of `baa_unpack` make the same element, whatever was in `protocol_type`. -/
private theorem fiberElement_storeAll {vars vars' : UnpackVars}
    (h : vars.fiberElement = vars'.fiberElement) (stores : List (Dest × Value plat.abi)) :
    (vars.storeAll plat stores).fiberElement = (vars'.storeAll plat stores).fiberElement := by
  induction stores generalizing vars vars' with
  | nil => exact h
  | cons store stores ih =>
    obtain ⟨dest, v⟩ := store
    cases dest with
    | protocolType => exact ih h
    | fiberElement a =>
      refine ih ?_
      rw [UnpackVars.store, UnpackVars.store, h]

/-- Every turn starts alike. -/
private theorem Server.look_loop (s : Server) : (s.loop plat).look = (Server.start plat).look := rfl

private theorem Server.look_dispatch (s : Server) :
    (s.dispatch plat).look = (s.look.dispatch plat).look := by
  by_cases h : s.buf.bytes.getD 0 0 = ptypeSchedProps
  · have hlook : s.look.buf.bytes.getD 0 0 = ptypeSchedProps := h
    rw [dispatch_of_schedProps h, dispatch_of_schedProps hlook]
    have hvars : s.vars.fiberElement = s.look.vars.fiberElement := rfl
    have hstores := fiberElement_storeAll hvars
      ((schedPropsDests plat.abi).zip (schedPropsValues plat.abi (.ofRecord s.buf.bytes)))
    simp only [Server.look] at hstores ⊢
    rw [hstores]
  · have hlook : s.look.buf.bytes.getD 0 0 ≠ ptypeSchedProps := h
    rw [Server.dispatch, if_neg h, Server.dispatch, if_neg hlook]
    rfl

/-- What `protocol_type` and `err` held does not matter. -/
private theorem Server.look_resume (s : Server) (a : ServerAnswer) :
    ((baaScheduleServerTh plat).resume s a).look =
      ((baaScheduleServerTh plat).resume s.look a).look := by
  have hlook : s.look.pc = s.pc := rfl
  rcases hpc : s.pc with _ | _ | _ | _ | _ | _ | _ <;>
    simp only [baaScheduleServerTh, hlook, hpc]
  · rcases a.received with _ | d
    · rfl
    · exact Server.look_dispatch _
  · rfl
  · rfl
  · rw [afterProps_eq, afterProps_eq]
    rfl
  · rfl
  · rfl
  · rfl

/-- Every way back to the `recvfrom` leads through the head of the loop. -/
private theorem Server.look_resume_of_recvfrom {s : Server} {a : ServerAnswer}
    (h : ((baaScheduleServerTh plat).resume s a).pc = .recvfrom) :
    ((baaScheduleServerTh plat).resume s a).look = (Server.start plat).look := by
  have hdispatch : ∀ s : Server, (s.dispatch plat).pc = .recvfrom →
      (s.dispatch plat).look = (Server.start plat).look := by
    intro s hpc
    by_cases hprops : s.buf.bytes.getD 0 0 = ptypeSchedProps
    · rw [dispatch_of_schedProps hprops] at hpc
      cases hpc
    · rw [Server.dispatch, if_neg hprops]
      exact s.look_loop
  rcases hpc : s.pc with _ | _ | _ | _ | _ | _ | _ <;>
    simp only [baaScheduleServerTh, hpc] at h ⊢
  · rcases hrecv : a.received with _ | d <;> rw [hrecv] at h
    · exact s.look_loop
    · exact hdispatch _ h
  · exact Server.look_loop _
  · cases h
  · rw [afterProps_eq] at h
    cases h
  · exact Server.look_loop _
  · cases h
  · exact s.look_loop

variable (plat) in
/-- The scheduling server forgets all it has received. -/
theorem forgets_baaScheduleServerTh :
    (baaScheduleServerTh plat).Forgets Server.look (fun s => s.pc = .recvfrom)
      (Server.start plat).look where
  call_eq {s t} h := by
    have hcall : ∀ s : Server, (baaScheduleServerTh plat).call s =
        (baaScheduleServerTh plat).call s.look := fun s => rfl
    rw [hcall s, h, ← hcall t]
  resume_eq {s t} h a := by rw [s.look_resume, h, ← t.look_resume]
  fresh_of_home h := Server.look_resume_of_recvfrom h

/-- **Reactions are independent of history.** For each of the two server loops, whatever its
variables held when it was entered and whatever was answered to its calls since, up to a
`recvfrom` of the loop: against the same answers, of which the first is the next datagram or its
absence, the calls that follow and their arguments are the same. -/
theorem trace_forgets_history (plat : Platform) :
    (∀ (s s' : Server) (past past' next : List ServerAnswer),
      ((baaScheduleServerTh plat).run (s.loop plat) past).pc = .recvfrom →
      ((baaScheduleServerTh plat).run (s'.loop plat) past').pc = .recvfrom →
      (baaScheduleServerTh plat).trace ((baaScheduleServerTh plat).run (s.loop plat) past) next =
        (baaScheduleServerTh plat).trace ((baaScheduleServerTh plat).run (s'.loop plat) past')
          next) ∧
    ∀ (s s' : DeviceThread) (past past' next : List DeviceServerAnswer),
      (baaDeviceMgmtThread.run s.clean past).pc = .recvfrom →
      (baaDeviceMgmtThread.run s'.clean past').pc = .recvfrom →
      baaDeviceMgmtThread.trace (baaDeviceMgmtThread.run s.clean past) next =
        baaDeviceMgmtThread.trace (baaDeviceMgmtThread.run s'.clean past') next := by
  constructor
  · intro s s' past past' next hhome hhome'
    exact (forgets_baaScheduleServerTh plat).trace_run_eq s.look_loop s'.look_loop hhome hhome' next
  · intro s s' past past' next hhome hhome'
    exact forgets_baaDeviceMgmtThread.trace_run_eq s.clean_eq s'.clean_eq hhome hhome' next

end Libbaalue
