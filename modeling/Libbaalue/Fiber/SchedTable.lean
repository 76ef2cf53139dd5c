import Libbaalue.Fiber.Barrier
import Libbaalue.Fiber.ServedClients
import Libbaalue.Foundations.KeyedUpdates

/-!
# What the kernel ends up with

The scheduling calls act on a table the kernel keeps: the cpus, the policy and the priority of
every thread. The kernel may refuse a call, for whatever reason it finds in the rights of the
caller, in the call and in what it keeps for the thread, so a table is taken through a run of calls
with an arbitrary kernel.

An application can make the calls itself, or ask the server to make them. The server is there for
its rights: setting a real-time priority takes `CAP_SYS_NICE`, which the application need not have.
So the server's calls are compared with those the application would make *with the rights of the
server*. The two come to the same table if and only if no element has the thread id 0, which names
whoever makes the call; with the application's own rights they do so only where there is nothing to
ask for (`server_matches_direct_iff`). Hence, and whatever other clients and strangers ask for in
between, the kernel keeps for a thread that only one client names what that client's calls alone
would have left (`served_table`).

`baa_get_sched_policy` and `baa_get_sched_priority` read the table. A run of
`baa_set_schedule_props` that logs nothing has configured the last element of every thread, and
that is what they then answer (`getters_of_log_eq_nil`).

The table has an entry for each thread there is, and calls act on the entry of their target alone,
so the library of keyed updates says what a sequence of them leaves for one thread. The kernel is
arbitrary: a comparison of two callers is a statement for all kernels, and where it fails, it fails
for one that accepts a single call (`onlyAccepts`).
-/

namespace Libbaalue

/-! ### The kernel -/

/-- What the kernel keeps for a thread, as far as the two scheduling calls change it and the getters
ask for it. -/
structure ThreadSched where
  affinity : List ℕ
  policy : CInt
  schedPriority : CInt
  deriving DecidableEq, Repr

/-- The threads there are, by their thread ids; a thread that is not there is `none`. -/
abbrev SchedTable := CInt → Option ThreadSched

/-- The cpus that are present, and what the kernel makes of the call of a thread for an existing
thread. It looks at the rights of the caller (`CAP_SYS_NICE`, its user, its limits), at the call
and at what it keeps. -/
structure SchedKernel where
  present : ℕ → Bool
  decide : (caller : CInt) → SchedCall → ThreadSched → Outcome

/-- The kernel if everybody had the rights of one caller. It is used to say what another caller
would get, as a request is made by one process and served by another. -/
def SchedKernel.withRightsOf (kernel : SchedKernel) (caller : CInt) : SchedKernel :=
  { kernel with decide := fun _ => kernel.decide caller }

/-- The thread a thread id names: 0 is the thread that makes the call. -/
def targetOf (self tid : CInt) : CInt := if tid = 0 then self else tid

/-- What a call that is not refused leaves: the cpus that are present of those asked for, or the
policy and the priority as they were asked for. -/
def SchedCall.effect (kernel : SchedKernel) : SchedCall → ThreadSched → ThreadSched
  | setaffinity _ set, thread => { thread with affinity := set.filter kernel.present }
  | setscheduler _ policy schedPriority, thread =>
    { thread with policy := policy, schedPriority := schedPriority }

/-- What a call comes to: `ESRCH` when there is no such thread, and otherwise what the kernel
decides for the caller. -/
def SchedCall.outcome (kernel : SchedKernel) (caller : CInt) (c : SchedCall) :
    Option ThreadSched → Outcome
  | none => .failed (.other 3)
  | some thread => kernel.decide caller c thread

/-- What a call leaves of what the kernel keeps for its thread. -/
def SchedCall.act (kernel : SchedKernel) (caller : CInt) (c : SchedCall)
    (entry : Option ThreadSched) : Option ThreadSched :=
  match c.outcome kernel caller entry with
  | .ok => entry.map (c.effect kernel)
  | .failed _ => entry

/-- The scheduling calls of the thread `self`, on the table. A call is about one thread, which is
the caller where it names the thread id 0. -/
def schedOps (kernel : SchedKernel) (self : CInt) :
    KeyedOps CInt (Option ThreadSched) SchedCall where
  key c := targetOf self c.tid
  act c := c.act kernel self

@[simp]
theorem schedOps_key (kernel : SchedKernel) (self : CInt) (c : SchedCall) :
    (schedOps kernel self).key c = targetOf self c.tid := rfl

@[simp]
theorem schedOps_act (kernel : SchedKernel) (self : CInt) (c : SchedCall) :
    (schedOps kernel self).act c = c.act kernel self := rfl

variable (kernel : SchedKernel) (self : CInt)

/-- What the two calls for an element come to, the second one on the table that the first has
left. -/
def schedOutcome (table : SchedTable) (fiber : FiberElement) : SchedOutcome :=
  let affinity : SchedCall := .setaffinity fiber.kernelTid (cpuSet fiber.cpu)
  let scheduler : SchedCall :=
    .setscheduler fiber.kernelTid fiber.policy fiber.schedPriority
  ⟨affinity.outcome kernel self (table (targetOf self fiber.kernelTid)),
    scheduler.outcome kernel self
      ((schedOps kernel self).apply table affinity (targetOf self fiber.kernelTid))⟩

/-- The table after the calls for an element. -/
def afterElement (table : SchedTable) (fiber : FiberElement) : SchedTable :=
  (schedOps kernel self).run table (schedCalls fiber)

/-- What the calls for the elements of an array come to. -/
def schedOutcomes (table : SchedTable) : List FiberElement → ℕ → SchedOutcome
  | [], _ => ⟨.ok, .ok⟩
  | fiber :: _, 0 => schedOutcome kernel self table fiber
  | fiber :: fiberArray, i + 1 => schedOutcomes (afterElement kernel self table fiber) fiberArray i

/-- A run of `baa_set_schedule_props` by the thread `self`. -/
def schedRun (table : SchedTable) (fiberArray : List FiberElement) : SchedResult :=
  baaSetScheduleProps fiberArray (schedOutcomes kernel self table fiberArray)

/-- The table after a run of `baa_set_schedule_props`, all of whose calls are made, the refused ones
too. -/
def tableAfter (table : SchedTable) (fiberArray : List FiberElement) : SchedTable :=
  (schedOps kernel self).run table (schedRun kernel self table fiberArray).calls

/-- `baa_get_sched_policy`: the policy of a thread, and -1 if there is no such thread. -/
def baaGetSchedPolicy (table : SchedTable) (pid : CInt) : CInt :=
  match table (targetOf self pid) with
  | none => -1
  | some thread => thread.policy

/-- `baa_get_sched_priority`: the priority of a thread, and -1 if there is no such thread. -/
def baaGetSchedPriority (table : SchedTable) (pid : CInt) : CInt :=
  match table (targetOf self pid) with
  | none => -1
  | some thread => thread.schedPriority

/-! ### Runs on the table -/

variable {kernel self}

/-- The table after a run, from the calls of the elements. -/
theorem tableAfter_eq (table : SchedTable) (fiberArray : List FiberElement) :
    tableAfter kernel self table fiberArray =
      (schedOps kernel self).run table (fiberArray.flatMap schedCalls) := by
  rw [tableAfter, schedRun, calls_baaSetScheduleProps]

private theorem tableAfter_cons (table : SchedTable) (fiber : FiberElement)
    (fiberArray : List FiberElement) :
    tableAfter kernel self table (fiber :: fiberArray) =
      tableAfter kernel self (afterElement kernel self table fiber) fiberArray := by
  rw [tableAfter_eq, tableAfter_eq, List.flatMap_cons, KeyedOps.run_append, afterElement]

/-- Both calls of an element name its thread. -/
private theorem tid_of_mem_schedCalls {fiber : FiberElement} {c : SchedCall}
    (h : c ∈ schedCalls fiber) : c.tid = fiber.kernelTid := by
  simp only [schedCalls, List.mem_cons, List.not_mem_nil, or_false] at h
  rcases h with rfl | rfl <;> rfl

/-- What a run leaves of a thread that no element names. -/
theorem tableAfter_of_forall_ne {table : SchedTable} {fiberArray : List FiberElement} {t : CInt}
    (h : ∀ fiber ∈ fiberArray, targetOf self fiber.kernelTid ≠ t) :
    tableAfter kernel self table fiberArray t = table t := by
  rw [tableAfter_eq]
  refine KeyedOps.run_apply_of_forall_ne fun c hc => ?_
  obtain ⟨fiber, hfiber, hc⟩ := List.mem_flatMap.mp hc
  rw [schedOps_key, tid_of_mem_schedCalls hc]
  exact h fiber hfiber

/-! ### Directly, or by the server -/

theorem targetOf_of_ne {tid : CInt} (h : tid ≠ 0) : targetOf self tid = tid := if_neg h

/-- With the same rights a call leaves the same, whoever makes it. -/
private theorem act_withRightsOf (caller caller' : CInt) (c : SchedCall) :
    c.act (kernel.withRightsOf caller) caller' = c.act kernel caller := by
  funext entry
  cases entry <;> cases c <;> rfl

/-- A thread has its own rights. -/
private theorem tableAfter_withRightsOf_self (table : SchedTable)
    (fiberArray : List FiberElement) :
    tableAfter (kernel.withRightsOf self) self table fiberArray =
      tableAfter kernel self table fiberArray := by
  have hops : schedOps (kernel.withRightsOf self) self = schedOps kernel self := by
    simp only [schedOps, act_withRightsOf]
  rw [tableAfter_eq, tableAfter_eq, hops]

/-- Who makes the calls does not matter to elements that name their thread, if the rights are the
same. An element with the thread id 0 is about the caller and is left out. -/
theorem tableAfter_withRightsOf {self' : CInt} {fiberArray : List FiberElement}
    (h : ∀ fiber ∈ fiberArray, fiber.kernelTid ≠ 0) (table : SchedTable) :
    tableAfter (kernel.withRightsOf self) self' table fiberArray =
      tableAfter kernel self table fiberArray := by
  have hkey : ∀ c ∈ fiberArray.flatMap schedCalls, targetOf self' c.tid = targetOf self c.tid := by
    intro c hc
    obtain ⟨fiber, hfiber, hc⟩ := List.mem_flatMap.mp hc
    rw [tid_of_mem_schedCalls hc, targetOf_of_ne (h fiber hfiber), targetOf_of_ne (h fiber hfiber)]
  rw [tableAfter_eq, tableAfter_eq]
  funext t
  rw [KeyedOps.run_apply, KeyedOps.run_apply]
  simp only [schedOps_act, act_withRightsOf]
  refine congrArg (List.foldl _ _) (List.filter_congr fun c hc => ?_)
  rw [schedOps_key, schedOps_key, hkey c hc]

/-- A kernel that accepts one call only, and that of some callers. -/
def onlyAccepts (privileged : CInt → Bool) (c : SchedCall) : SchedKernel where
  present _ := true
  decide caller c' _ :=
    if privileged caller then if c' = c then .ok else .failed .einval
    else .failed (.other 1)

/-- Every other call leaves the table as it is. -/
private theorem act_onlyAccepts_of_ne {privileged : CInt → Bool} {c c' : SchedCall} (h : c' ≠ c)
    (caller : CInt) (entry : Option ThreadSched) :
    c'.act (onlyAccepts privileged c) caller entry = entry := by
  rcases entry with _ | thread
  · rfl
  · simp only [SchedCall.act, SchedCall.outcome, onlyAccepts, if_neg h]
    split_ifs <;> rfl

/-- `EPERM`: a caller without the rights leaves the table as it is. -/
private theorem act_onlyAccepts_of_not {privileged : CInt → Bool} {caller : CInt}
    (h : privileged caller = false) (c c' : SchedCall) (entry : Option ThreadSched) :
    c'.act (onlyAccepts privileged c) caller entry = entry := by
  rcases entry with _ | thread
  · rfl
  · simp only [SchedCall.act, SchedCall.outcome, onlyAccepts, h, Bool.false_eq_true, if_false]

/-- Refused calls leave the table as it is. -/
private theorem foldl_act_of_refused {caller : CInt} {calls : List SchedCall}
    (h : ∀ c ∈ calls, ∀ entry, c.act kernel caller entry = entry) (entry : Option ThreadSched) :
    calls.foldl (fun v c => c.act kernel caller v) entry = entry := by
  induction calls with
  | nil => rfl
  | cons c calls ih =>
    obtain ⟨hhead, hrest⟩ := List.forall_mem_cons.mp h
    rw [List.foldl_cons, hhead]
    exact ih hrest

/-- The one call that is accepted is in force at the end. -/
private theorem foldl_act_onlyAccepts_of_mem {privileged : CInt → Bool} {caller : CInt}
    (hcaller : privileged caller = true) {tid policy schedPriority : CInt} {calls : List SchedCall}
    (h : .setscheduler tid policy schedPriority ∈ calls) (thread : ThreadSched) :
    ∃ affinity, calls.foldl
      (fun v c => c.act (onlyAccepts privileged (.setscheduler tid policy schedPriority)) caller v)
        (some thread) = some ⟨affinity, policy, schedPriority⟩ := by
  induction calls generalizing thread with
  | nil => simp at h
  | cons c calls ih =>
    rw [List.foldl_cons]
    by_cases heq : c = .setscheduler tid policy schedPriority
    · subst heq
      have hact : SchedCall.act (onlyAccepts privileged (.setscheduler tid policy schedPriority))
          caller (.setscheduler tid policy schedPriority) (some thread) =
            some ⟨thread.affinity, policy, schedPriority⟩ := by
        simp [SchedCall.act, SchedCall.outcome, onlyAccepts, SchedCall.effect, hcaller]
      rw [hact]
      by_cases hmem : .setscheduler tid policy schedPriority ∈ calls
      · exact ih hmem _
      · exact ⟨thread.affinity, foldl_act_of_refused
          (fun c hc => act_onlyAccepts_of_ne (ne_of_mem_of_not_mem hc hmem) caller) _⟩
    · rw [act_onlyAccepts_of_ne heq]
      exact ih (List.mem_of_ne_of_mem (Ne.symm heq) h) thread

/-- A kernel that grants a caller the policy of one element and nothing else shows at the thread
of that element whether the caller has been there. -/
private theorem policy_tableAfter_onlyAccepts (privileged : CInt → Bool) (caller : CInt)
    (hcaller : privileged caller = true) {fiber : FiberElement} {fiberArray : List FiberElement}
    (hmem : fiber ∈ fiberArray) (before : CInt) :
    (tableAfter
      (onlyAccepts privileged (.setscheduler fiber.kernelTid fiber.policy fiber.schedPriority))
      caller (fun _ => some ⟨[], before, 0⟩) fiberArray (targetOf caller fiber.kernelTid)).map
        ThreadSched.policy = some fiber.policy := by
  let call : SchedCall := .setscheduler fiber.kernelTid fiber.policy fiber.schedPriority
  have hcall : call ∈ (fiberArray.flatMap schedCalls).filter fun c =>
      (schedOps (onlyAccepts privileged call) caller).key c = targetOf caller fiber.kernelTid :=
    List.mem_filter.mpr ⟨List.mem_flatMap.mpr ⟨fiber, hmem, by simp [schedCalls, call]⟩,
      by simp [call, SchedCall.tid]⟩
  obtain ⟨affinity, hafter⟩ := foldl_act_onlyAccepts_of_mem hcaller hcall ⟨[], before, 0⟩
  rw [tableAfter_eq, KeyedOps.run_apply]
  exact (congrArg (Option.map ThreadSched.policy) hafter :)

/-- **Directly, or by the server.** The calls for an array come to the same table, whatever the
kernel accepts and whatever the table was, whether the server makes them or the client does
*with the rights of the server*, if and only if the two are the same thread or no element has the
thread id 0. With its own rights the client comes to the same table in general only if it is the
server, or has nothing to ask for. -/
theorem server_matches_direct_iff (server client : CInt) (fiberArray : List FiberElement) :
    ((∀ (kernel : SchedKernel) table,
      tableAfter (kernel.withRightsOf server) client table fiberArray =
        tableAfter kernel server table fiberArray) ↔
      server = client ∨ ∀ fiber ∈ fiberArray, fiber.kernelTid ≠ 0) ∧
    ((∀ kernel table, tableAfter kernel client table fiberArray =
        tableAfter kernel server table fiberArray) ↔ server = client ∨ fiberArray = []) := by
  refine ⟨⟨fun hall => ?_, ?_⟩, ⟨fun hall => ?_, ?_⟩⟩
  · by_contra hcon
    obtain ⟨hne, hzero⟩ := not_or.mp hcon
    push Not at hzero
    obtain ⟨fiber, hfiber, htid⟩ := hzero
    -- the client's call is for the client, the server's for the server
    let call : SchedCall := .setscheduler fiber.kernelTid fiber.policy fiber.schedPriority
    have heq := congrFun (hall (onlyAccepts (fun _ => true) call)
      fun _ => some ⟨[], fiber.policy + 1, 0⟩) client
    have hclient := policy_tableAfter_onlyAccepts (fun _ => true) client rfl hfiber
      (fiber.policy + 1)
    have hown : targetOf client fiber.kernelTid = client := if_pos htid
    rw [hown] at hclient
    have hserver : tableAfter (onlyAccepts (fun _ => true) call) server
        (fun _ => some ⟨[], fiber.policy + 1, 0⟩) fiberArray client =
          some ⟨[], fiber.policy + 1, 0⟩ := by
      rw [tableAfter_eq, KeyedOps.run_apply]
      refine foldl_act_of_refused (fun c hc => act_onlyAccepts_of_ne (fun hcall => ?_) _) _
      have hkey := of_decide_eq_true (List.mem_filter.mp hc).2
      rw [hcall, schedOps_key, SchedCall.tid, targetOf, if_pos htid] at hkey
      exact hne hkey
    have hsame : onlyAccepts (fun _ => true) call =
        (onlyAccepts (fun _ => true) call).withRightsOf server := rfl
    rw [← hsame, hserver] at heq
    rw [heq] at hclient
    simp at hclient
  · rintro (rfl | h) kernel table
    · exact tableAfter_withRightsOf_self table fiberArray
    · exact tableAfter_withRightsOf h table
  · by_contra hcon
    obtain ⟨hne, hempty⟩ := not_or.mp hcon
    obtain ⟨fiber, hfiber⟩ := List.exists_mem_of_ne_nil fiberArray hempty
    -- the server has the rights, and the client has none
    let kernel := onlyAccepts (fun caller => caller = server)
      (.setscheduler fiber.kernelTid fiber.policy fiber.schedPriority)
    have heq := congrFun (hall kernel fun _ => some ⟨[], fiber.policy + 1, 0⟩)
      (targetOf server fiber.kernelTid)
    have hserver := policy_tableAfter_onlyAccepts (fun caller => caller = server) server (by simp)
      hfiber (fiber.policy + 1)
    have hclient : tableAfter kernel client (fun _ => some ⟨[], fiber.policy + 1, 0⟩) fiberArray
        (targetOf server fiber.kernelTid) = some ⟨[], fiber.policy + 1, 0⟩ := by
      rw [tableAfter_eq, KeyedOps.run_apply]
      exact foldl_act_of_refused (fun c _ => act_onlyAccepts_of_not (by simp [Ne.symm hne]) _ c) _
    rw [← heq, hclient] at hserver
    simp at hserver
  · rintro (rfl | rfl) kernel table
    · rfl
    · rfl

/-- A thread that nobody else names. -/
theorem tableAfter_ownedBy {n : ℕ} {applied : List (Option (Fin n) × FiberElement)} {i : Fin n}
    {t : CInt} (hothers : ∀ p ∈ applied, p.1 ≠ some i → targetOf self p.2.kernelTid ≠ t)
    (table : SchedTable) :
    tableAfter kernel self table (applied.map Prod.snd) t =
      tableAfter kernel self table (ownedBy (some i) applied) t := by
  rw [tableAfter_eq, tableAfter_eq]
  refine KeyedOps.run_apply_ownedBy _ fun p hp hne c hc => ?_
  rw [schedOps_key, tid_of_mem_schedCalls hc]
  exact hothers p hp hne

/-- **Whatever the others ask for.** When a call of an undisturbed client has returned 0 and no wait
of it ever timed out, the kernel keeps for a thread that nobody else names what the client would
have come to by making all its calls itself, alone, with the rights of the server. -/
theorem served_table (plat : Platform) {n : ℕ} (paths : ClientsPaths n) (kernel : SchedKernel)
    (table : SchedTable) (server client : CInt) {s : Clients n}
    (h : (clientsSystem plat paths).Reachable s) {i : Fin n}
    (hquiet : (s.side i).disturbed = false) (hno : (s.side i).timedOut = false)
    (hret : (s.side i).client.pc = .returned 0)
    (hown : ∀ r ∈ (s.side i).requests, r.fiber.kernelTid ≠ 0) {t : CInt}
    (hothers : ∀ p ∈ s.applied, p.1 ≠ some i → targetOf server p.2.kernelTid ≠ t) :
    tableAfter kernel server table (s.applied.map Prod.snd) t =
      tableAfter (kernel.withRightsOf server) client table
        ((s.side i).requests.map Request.fiber) t := by
  obtain ⟨-, hseen⟩ := Clients.inv_of_reachable h
  obtain ⟨happlied, -⟩ := (hseen i hquiet).complete hno hret
  have happlied : ownedBy (some i) s.applied = (s.side i).requests.map Request.fiber := happlied
  calc tableAfter kernel server table (s.applied.map Prod.snd) t
      = tableAfter kernel server table (ownedBy (some i) s.applied) t :=
        tableAfter_ownedBy hothers table
    _ = tableAfter kernel server table ((s.side i).requests.map Request.fiber) t := by
        rw [happlied]
    _ = tableAfter (kernel.withRightsOf server) client table
          ((s.side i).requests.map Request.fiber) t := by
        refine congrFun (tableAfter_withRightsOf (fun fiber hfiber => ?_) table).symm t
        obtain ⟨r, hr, rfl⟩ := List.mem_map.mp hfiber
        exact hown r hr

/-- A kernel with two cpus that refuses nothing to the thread 7, and everything to the others. -/
def onlySeven : SchedKernel :=
  ⟨fun cpu => cpu < 2, fun caller _ _ => if caller = 7 then .ok else .failed (.other 1)⟩

/-- The thread of the first client, after a run with two other clients and a stranger: the server
has the rights for what the client could not do itself. -/
theorem served_table_busy :
    ∃ s, (clientsSystem .linux64 threeClients).exec (.init .linux64) (busyServer 0 1 2) = some s ∧
      tableAfter onlySeven 7 (fun _ => some ⟨[], 0, 0⟩) (s.applied.map Prod.snd) 101 =
        tableAfter (onlySeven.withRightsOf 7) 8 (fun _ => some ⟨[], 0, 0⟩)
          ((s.side 0).requests.map Request.fiber) 101 := by
  have hrun : ((clientsSystem .linux64 threeClients).exec (.init .linux64)
      (busyServer 0 1 2)).map (fun s => ((s.side 0).disturbed, (s.side 0).timedOut,
        (s.side 0).client.pc, (s.side 0).requests, s.applied)) =
        some (false, false, .returned 0, [⟨⟨0, 0⟩, ⟨101, 1, 0, 50⟩⟩],
          [(none, ⟨0, 0, 0, 0⟩), (some 1, ⟨102, 1, 0, 50⟩), (some 2, ⟨103, 1, 0, 50⟩),
            (some 0, ⟨101, 1, 0, 50⟩)]) := by
    set_option synthInstance.maxSize 400 in
    decide +kernel
  obtain ⟨s, hs, hfacts⟩ := Option.map_eq_some_iff.mp hrun
  obtain ⟨hquiet, hno, hpc, hrequests, happlied⟩ : _ ∧ _ ∧ _ ∧ _ ∧ _ := by
    simpa only [Prod.mk.injEq] using hfacts
  refine ⟨s, hs, served_table _ _ onlySeven _ 7 8 (LabelledSystem.reachable_of_exec hs) hquiet hno
    hpc ?_ ?_⟩
  · rw [hrequests]
    decide
  · rw [happlied]
    decide

/-! ### What a quiet run has configured -/

/-- A call that is not refused. -/
theorem SchedCall.act_of_ok {c : SchedCall} {entry : Option ThreadSched}
    (h : c.outcome kernel self entry = .ok) :
    ∃ thread, entry = some thread ∧ c.act kernel self entry = some (c.effect kernel thread) := by
  rcases entry with _ | thread
  · simp [SchedCall.outcome] at h
  · exact ⟨thread, rfl, by rw [SchedCall.act, h, Option.map_some]⟩

/-- Two calls that are accepted configure their thread. -/
theorem afterElement_of_allOk {table : SchedTable} {fiber : FiberElement}
    (h : (schedOutcome kernel self table fiber).AllOk) :
    afterElement kernel self table fiber (targetOf self fiber.kernelTid) =
      some ⟨(cpuSet fiber.cpu).filter kernel.present, fiber.policy, fiber.schedPriority⟩ := by
  obtain ⟨haffinity, hscheduler⟩ := h
  simp only [schedOutcome] at haffinity hscheduler
  have hkey (c : SchedCall) (hc : c ∈ schedCalls fiber) :
      (schedOps kernel self).key c = targetOf self fiber.kernelTid := by
    rw [schedOps_key, tid_of_mem_schedCalls hc]
  have hfirst := hkey (.setaffinity fiber.kernelTid (cpuSet fiber.cpu)) (by simp [schedCalls])
  have hsecond := hkey (.setscheduler fiber.kernelTid fiber.policy fiber.schedPriority)
    (by simp [schedCalls])
  obtain ⟨thread, hthread, hact⟩ := SchedCall.act_of_ok haffinity
  rw [KeyedOps.apply_of_eq hfirst, schedOps_act, hact] at hscheduler
  obtain ⟨thread', hthread', hact'⟩ := SchedCall.act_of_ok hscheduler
  obtain rfl := Option.some.inj hthread'
  rw [afterElement, schedCalls, KeyedOps.run_cons, KeyedOps.run_cons, KeyedOps.run_nil,
    KeyedOps.apply_of_eq hsecond, KeyedOps.apply_of_eq hfirst, schedOps_act, schedOps_act, hact,
    hact']
  rfl

/-- The log of a run, one element at a time. -/
theorem log_schedRun_cons (table : SchedTable) (fiber : FiberElement)
    (fiberArray : List FiberElement) :
    (schedRun kernel self table (fiber :: fiberArray)).log =
      schedLog fiber (schedOutcome kernel self table fiber) ++
        (schedRun kernel self (afterElement kernel self table fiber) fiberArray).log := rfl

/-- A run that logs nothing leaves every thread as the last element that names it asks for. -/
theorem entry_of_log_eq_nil {table : SchedTable} {fiberArray : List FiberElement}
    (hlog : (schedRun kernel self table fiberArray).log = []) {i : ℕ} {fiber : FiberElement}
    (hi : fiberArray[i]? = some fiber)
    (hlast : ∀ j later, i < j → fiberArray[j]? = some later →
      targetOf self later.kernelTid ≠ targetOf self fiber.kernelTid) :
    tableAfter kernel self table fiberArray (targetOf self fiber.kernelTid) =
      some ⟨(cpuSet fiber.cpu).filter kernel.present, fiber.policy, fiber.schedPriority⟩ := by
  induction fiberArray generalizing table i with
  | nil => simp at hi
  | cons first fiberArray ih =>
    rw [log_schedRun_cons] at hlog
    obtain ⟨hquiet, hrest⟩ := List.append_eq_nil_iff.mp hlog
    rw [tableAfter_cons]
    cases i with
    | zero =>
      obtain rfl : first = fiber := Option.some.inj hi
      have hallOk : (schedOutcome kernel self table first).AllOk :=
        not_not.mp fun hfail => schedLog_ne_nil_of_failed first hfail hquiet
      rw [tableAfter_of_forall_ne fun later hlater => ?_, afterElement_of_allOk hallOk]
      obtain ⟨j, hj⟩ := List.getElem?_of_mem hlater
      exact hlast (j + 1) later (Nat.succ_pos j) hj
    | succ i =>
      exact ih hrest hi fun j later hlt hj =>
        hlast (j + 1) later (Nat.succ_lt_succ hlt) hj

/-- **A quiet run.** When `baa_set_schedule_props` logs nothing, every thread runs as the last
element that names it asks for, and the two getters say so. -/
theorem getters_of_log_eq_nil (kernel : SchedKernel) (self : CInt) (table : SchedTable)
    {fiberArray : List FiberElement} (hlog : (schedRun kernel self table fiberArray).log = [])
    {i : ℕ} {fiber : FiberElement} (hi : fiberArray[i]? = some fiber)
    (hlast : ∀ j later, i < j → fiberArray[j]? = some later →
      targetOf self later.kernelTid ≠ targetOf self fiber.kernelTid) :
    baaGetSchedPolicy self (tableAfter kernel self table fiberArray) fiber.kernelTid =
        fiber.policy ∧
      baaGetSchedPriority self (tableAfter kernel self table fiberArray) fiber.kernelTid =
        fiber.schedPriority ∧
      (tableAfter kernel self table fiberArray (targetOf self fiber.kernelTid)).map
        ThreadSched.affinity = some ((cpuSet fiber.cpu).filter kernel.present) := by
  have hentry := entry_of_log_eq_nil hlog hi hlast
  simp [baaGetSchedPolicy, baaGetSchedPriority, hentry]

/-- Two elements for one thread. -/
def twice : List FiberElement := [⟨101, 1, 0, 50⟩, ⟨101, 2, 1, 40⟩]

/-- The second one counts. -/
theorem getters_of_log_eq_nil_twice :
    let table := tableAfter onlySeven 7 (fun _ => some ⟨[], 0, 0⟩) twice
    baaGetSchedPolicy 7 table 101 = 2 ∧ baaGetSchedPriority 7 table 101 = 40 ∧
      (table (targetOf 7 101)).map ThreadSched.affinity = some [1] :=
  getters_of_log_eq_nil onlySeven 7 (fun _ => some ⟨[], 0, 0⟩) (by decide : _)
    (rfl : twice[1]? = some ⟨101, 2, 1, 40⟩) fun j later hlt hj => by
      rw [List.getElem?_eq_none (show twice.length ≤ j from hlt)] at hj
      cases hj

end Libbaalue
