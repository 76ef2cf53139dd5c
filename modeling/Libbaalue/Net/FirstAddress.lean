import Libbaalue.Net.Inet

/-!
# Which address the internet sockets use

Against an environment in which every address has a fixed outcome, `connect_inet_socket` and
`bind_inet_socket` should end up at the first usable address of the list. The loops advance `rp`
but make every call with `result`: they try the head of the list as often as the list is long.
So they do what they should exactly if the head is usable or no address is
(`usesFirstUsable_iff`).

An environment with fixed outcomes is one in which an address is usable or not, whoever asks and how
often. The two functions are compared with what they should do in such an environment only, since in
another one the first usable address is not defined. An execution is related to the outcomes by its
answers, and every function has one against every assignment (`exists_agreeing`).
-/

namespace Libbaalue

open CallProgram

/-! ### Fixed outcomes -/

/-- What the calls for an address come to: `socket`, and `connect` or `bind`, each time they are
made. -/
structure AddrOutcome where
  socketOk : Bool
  attachOk : Bool
  deriving DecidableEq, Repr

/-- A socket can be opened for the address and attached to it. -/
def AddrOutcome.usable (o : AddrOutcome) : Bool := o.socketOk && o.attachOk

/-- An answer according to the outcomes of the addresses; the look-up and `SO_REUSEADDR`
succeed. -/
def AgreesWith (outcome : AddrInfo → AddrOutcome) : NetCall × SysRet → Prop
  | (.getaddrinfo _ _ _, r) => r.isOk = true
  | (.socketInet ai, r) => r.isOk = (outcome ai).socketOk
  | (.connectInet _ ai, r) => r.isOk = (outcome ai).attachOk
  | (.bindInet _ ai, r) => r.isOk = (outcome ai).attachOk
  | (.setReuseAddr _ _, r) => r.isOk = true
  | _ => True

/-- The answers of an environment with these outcomes, which hands out one descriptor. -/
def answerOf (outcome : AddrInfo → AddrOutcome) (sfd : ℕ) : NetCall → SysRet
  | .socketInet ai => if (outcome ai).socketOk then .ok sfd else .failed .einval
  | .connectInet _ ai => if (outcome ai).attachOk then .ok 0 else .failed (.other 111)
  | .bindInet _ ai => if (outcome ai).attachOk then .ok 0 else .failed (.other 98)
  | _ => .ok 0

private theorem agreesWith_answerOf (outcome : AddrInfo → AddrOutcome) (sfd : ℕ) (c : NetCall) :
    AgreesWith outcome (c, answerOf outcome sfd c) := by
  cases c with
  | socketInet ai =>
    cases hok : (outcome ai).socketOk <;> simp [AgreesWith, answerOf, SysRet.isOk, hok]
  | connectInet _ ai =>
    cases hok : (outcome ai).attachOk <;> simp [AgreesWith, answerOf, SysRet.isOk, hok]
  | bindInet _ ai =>
    cases hok : (outcome ai).attachOk <;> simp [AgreesWith, answerOf, SysRet.isOk, hok]
  | _ => simp [AgreesWith, answerOf, SysRet.isOk]

/-- Every function has an execution against every assignment of outcomes. -/
theorem exists_agreeing {α : Type} (p : NetProgram α) (outcome : AddrInfo → AddrOutcome) :
    ∃ tr a, p.Exec tr a ∧ ∀ e ∈ tr, AgreesWith outcome e := by
  obtain ⟨tr, a, hexec, henv⟩ := p.exists_exec (answerOf outcome 3)
  refine ⟨tr, a, hexec, fun e he => ?_⟩
  have hagrees := agreesWith_answerOf outcome 3 e.1
  rwa [← henv e he] at hagrees

/-- What an answered call does to the address a descriptor is connected or bound to. -/
def attach (peer : ℕ → Option AddrInfo) : NetCall × SysRet → ℕ → Option AddrInfo
  | (.socketInet _, .ok sfd) => Function.update peer sfd none
  | (.connectInet sfd ai, .ok _) => Function.update peer sfd (some ai)
  | (.bindInet sfd ai, .ok _) => Function.update peer sfd (some ai)
  | (.close sfd, _) => Function.update peer sfd none
  | _ => peer

/-- The addresses the descriptors are attached to after a trace; closing a descriptor gives its
address up. -/
def attachedTo (tr : List (NetCall × SysRet)) : ℕ → Option AddrInfo :=
  tr.foldl attach fun _ => none

/-- The value returned is a socket attached to the first usable address of the list, and -1 if
there is none. -/
def UsesFirstUsable (outcome : AddrInfo → AddrOutcome) (addresses : List AddrInfo)
    (tr : List (NetCall × SysRet)) (ret : Option ℕ) : Prop :=
  match addresses.find? fun ai => (outcome ai).usable with
  | some ai => ∃ sfd, ret = some sfd ∧ attachedTo tr sfd = some ai
  | none => ret = none

/-! ### What the loops do -/

variable {outcome : AddrInfo → AddrOutcome} {result : AddrInfo}

/-- What an execution of a loop comes to, if its answers agree with the outcomes: the head of
the list decides. -/
def UsesHead (outcome : AddrInfo → AddrOutcome) (result : AddrInfo)
    (tr : List (NetCall × SysRet)) (ret : Option ℕ) : Prop :=
  (∀ e ∈ tr, AgreesWith outcome e) → ∀ peer,
    if (outcome result).usable then
      ∃ sfd, ret = some sfd ∧ tr.foldl attach peer sfd = some result
    else ret = none

/-- Calls that attach nothing may stand in front. -/
theorem UsesHead.cons {tr : List (NetCall × SysRet)} {ret : Option ℕ} {e : NetCall × SysRet}
    (h : UsesHead outcome result tr ret) : UsesHead outcome result (e :: tr) ret :=
  fun hagrees peer => h (List.forall_mem_cons.mp hagrees).2 (attach peer e)

/-- The calls for the head do not fail when it is usable. -/
private theorem UsesHead.of_refused {tr : List (NetCall × SysRet)} {ret : Option ℕ}
    (husable : (outcome result).usable = true) (c : NetCall) (errno : Errno)
    (hc : c = .socketInet result ∨ ∃ sfd, c = .connectInet sfd result ∨ c = .bindInet sfd result)
    (hmem : (c, .failed errno) ∈ tr) : UsesHead outcome result tr ret := by
  obtain ⟨hsocket, hattach⟩ := Bool.and_eq_true_iff.mp husable
  intro hagrees
  have hfail : AgreesWith outcome (c, .failed errno) := hagrees _ hmem
  rcases hc with rfl | ⟨sfd, rfl | rfl⟩
  · exact absurd (hfail.trans hsocket) Bool.false_ne_true
  · exact absurd (hfail.trans hattach) Bool.false_ne_true
  · exact absurd (hfail.trans hattach) Bool.false_ne_true

/-- A head whose calls succeed is usable. -/
private theorem usable_of_ok {tr : List (NetCall × SysRet)} {sfd v : ℕ} {c : NetCall}
    (hagrees : ∀ e ∈ tr, AgreesWith outcome e)
    (hc : c = .connectInet sfd result ∨ c = .bindInet sfd result)
    (hsocket : (.socketInet result, .ok sfd) ∈ tr) (hattach : (c, .ok v) ∈ tr) :
    (outcome result).usable = true := by
  have hsocket' : AgreesWith outcome (.socketInet result, .ok sfd) := hagrees _ hsocket
  have hattach' : AgreesWith outcome (c, .ok v) := hagrees _ hattach
  rw [AddrOutcome.usable, Bool.and_eq_true_iff]
  rcases hc with rfl | rfl
  · exact ⟨hsocket'.symm, hattach'.symm⟩
  · exact ⟨hsocket'.symm, hattach'.symm⟩

/-- With an unusable head, to use it is to fail. -/
private theorem usesHead_of_unusable {p : NetProgram (Option ℕ)}
    (husable : (outcome result).usable = false)
    (hp : p.Ensures fun tr ret => (∀ e ∈ tr, AgreesWith outcome e) → ret = none) :
    p.Ensures (UsesHead outcome result) := by
  refine hp.mono fun tr ret hret hagrees peer => ?_
  rw [husable, if_neg Bool.false_ne_true]
  exact hret hagrees

/-- With an unusable head, the loop fails however long the list is. -/
private theorem connectInetLoop_unusable (h : (outcome result).usable = false)
    (rp : List AddrInfo) :
    (connectInetLoop result rp).Ensures fun tr ret =>
      (∀ e ∈ tr, AgreesWith outcome e) → ret = none := by
  induction rp with
  | nil =>
    rw [connectInetLoop, ensures_pure]
    exact fun _ => rfl
  | cons _ aiNext ih =>
    rw [connectInetLoop, ensures_perform_bind]
    rintro (sfd | errno)
    · refine ensures_setTimeout_bind fun _ _ => ensures_setTimeout_bind fun _ _ => ?_
      rw [ensures_perform_bind]
      rintro (v | errno)
      · rw [ensures_pure]
        intro hagrees
        have husable := usable_of_ok hagrees (.inl rfl) List.mem_cons_self (v := v) (by simp)
        exact absurd (h.symm.trans husable) Bool.false_ne_true
      · rw [ensures_perform_bind]
        intro closed
        refine ih.mono fun tr ret hret hagrees => hret ?_
        simp only [List.forall_mem_cons] at hagrees
        exact hagrees.2.2.2.2.2
    · refine ih.mono fun tr ret hret hagrees => hret ?_
      exact (List.forall_mem_cons.mp hagrees).2

/-- The loop of `connect_inet_socket` over a list that is not empty. -/
private theorem connectInetLoop_usesHead (outcome : AddrInfo → AddrOutcome) (result rp : AddrInfo)
    (aiNext : List AddrInfo) :
    (connectInetLoop result (rp :: aiNext)).Ensures (UsesHead outcome result) := by
  by_cases husable : (outcome result).usable
  · rw [connectInetLoop, ensures_perform_bind]
    rintro (sfd | errno)
    · refine ensures_setTimeout_bind fun _ _ => ensures_setTimeout_bind fun _ _ => ?_
      rw [ensures_perform_bind]
      rintro (v | errno)
      · rw [ensures_pure]
        intro _ peer
        rw [if_pos husable]
        exact ⟨sfd, rfl, by simp [attach]⟩
      · rw [ensures_perform_bind]
        intro closed tr ret _
        exact UsesHead.of_refused husable (.connectInet sfd result) errno
          (.inr ⟨sfd, .inl rfl⟩) (by simp)
    · intro tr ret _
      exact UsesHead.of_refused husable (.socketInet result) errno (.inl rfl)
        List.mem_cons_self
  · have hunusable := eq_false_of_ne_true husable
    exact usesHead_of_unusable hunusable (connectInetLoop_unusable hunusable _)

/-- If `SO_REUSEADDR` is set, `bind_inet_socket` goes on. -/
private theorem inetReuseAddr_goesOn (outcome : AddrInfo → AddrOutcome) (sfd : ℕ) (flags : Byte) :
    (inetReuseAddr sfd flags).Ensures fun tr goesOn =>
      (∀ e ∈ tr, AgreesWith outcome e) → goesOn = true := by
  rw [inetReuseAddr]
  split_ifs
  · rw [ensures_perform_bind]
    rintro (v | errno)
    · simp
    · simp [AgreesWith, SysRet.isOk]
  · simp

/-- With an unusable head, the loop fails however long the list is. -/
private theorem bindInetLoop_unusable (flags : Byte) (h : (outcome result).usable = false)
    (rp : List AddrInfo) :
    (bindInetLoop flags result rp).Ensures fun tr ret =>
      (∀ e ∈ tr, AgreesWith outcome e) → ret = none := by
  induction rp with
  | nil =>
    rw [bindInetLoop, ensures_perform_bind]
    intro freed
    rw [ensures_pure]
    exact fun _ => rfl
  | cons _ aiNext ih =>
    rw [bindInetLoop, ensures_perform_bind]
    rintro (sfd | errno)
    · rw [ensures_bind]
      refine (inetReuseAddr_goesOn outcome sfd flags).mono fun tr₀ reuse hreuse => ?_
      cases reuse with
      | true =>
        rw [if_pos rfl]
        refine ensures_setTimeout_bind fun _ _ => ensures_setTimeout_bind fun _ _ => ?_
        rw [ensures_perform_bind]
        rintro (v | errno)
        · rw [ensures_perform_bind]
          intro freed
          rw [ensures_pure]
          intro hagrees
          have husable := usable_of_ok hagrees (.inr rfl) List.mem_cons_self (v := v) (by simp)
          exact absurd (h.symm.trans husable) Bool.false_ne_true
        · rw [ensures_perform_bind]
          intro closed
          refine ih.mono fun tr ret hret hagrees => hret ?_
          simp only [List.forall_mem_cons, List.forall_mem_append] at hagrees
          exact hagrees.2.2.2.2.2.2
      | false =>
        rw [if_neg Bool.false_ne_true]
        simp
    · refine ih.mono fun tr ret hret hagrees => hret ?_
      exact (List.forall_mem_cons.mp hagrees).2

/-- The loop of `bind_inet_socket` over a list that is not empty. -/
private theorem bindInetLoop_usesHead (outcome : AddrInfo → AddrOutcome) (flags : Byte)
    (result rp : AddrInfo) (aiNext : List AddrInfo) :
    (bindInetLoop flags result (rp :: aiNext)).Ensures (UsesHead outcome result) := by
  by_cases husable : (outcome result).usable
  · rw [bindInetLoop, ensures_perform_bind]
    rintro (sfd | errno)
    · rw [ensures_bind]
      refine (inetReuseAddr_goesOn outcome sfd flags).mono fun tr₀ reuse hreuse => ?_
      cases reuse with
      | true =>
        rw [if_pos rfl]
        refine ensures_setTimeout_bind fun _ _ => ensures_setTimeout_bind fun _ _ => ?_
        rw [ensures_perform_bind]
        rintro (v | errno)
        · rw [ensures_perform_bind]
          intro freed
          rw [ensures_pure]
          intro _ peer
          rw [if_pos husable]
          exact ⟨sfd, rfl, by simp [attach]⟩
        · rw [ensures_perform_bind]
          intro closed tr ret _
          exact UsesHead.of_refused husable (.bindInet sfd result) errno
            (.inr ⟨sfd, .inr rfl⟩) (by simp)
      | false =>
        -- `SO_REUSEADDR` was refused
        rw [if_neg Bool.false_ne_true]
        simp only [ensures_perform_bind, ensures_pure]
        intro freed closed hagrees
        simp only [List.forall_mem_cons, List.forall_mem_append] at hagrees
        exact absurd (hreuse hagrees.2.1) Bool.false_ne_true
    · intro tr ret _
      exact UsesHead.of_refused husable (.socketInet result) errno (.inl rfl)
        List.mem_cons_self
  · have hunusable := eq_false_of_ne_true husable
    exact usesHead_of_unusable hunusable (bindInetLoop_unusable flags hunusable _)

/-! ### What the functions do -/

theorem connectInetSocket_usesHead (outcome : AddrInfo → AddrOutcome) (result : AddrInfo)
    (aiNext : List AddrInfo) (host service : Option (List Byte)) (type : SockType) :
    (connectInetSocket (result :: aiNext) host service type).Ensures
      (UsesHead outcome result) := by
  rw [connectInetSocket, ensures_perform_bind]
  rintro (v | errno)
  · simp only [ensures_perform_bind]
    intro old set
    rw [ensures_bind]
    refine (connectInetLoop_usesHead outcome result result aiNext).mono fun tr ret h => ?_
    simp only [ensures_perform_bind, ensures_pure]
    intro off back freed
    refine UsesHead.cons (UsesHead.cons (UsesHead.cons ?_))
    intro hagrees peer
    -- the calls behind the loop attach nothing
    rw [List.foldl_append]
    exact h (fun e he => hagrees e (List.mem_append_left _ he)) peer
  · rw [ensures_pure]
    intro hagrees
    simp [AgreesWith, SysRet.isOk] at hagrees

theorem bindInetSocket_usesHead (outcome : AddrInfo → AddrOutcome) (result : AddrInfo)
    (aiNext : List AddrInfo) (service : Option (List Byte)) (type : SockType) (flags : Byte) :
    (bindInetSocket (result :: aiNext) service type flags).Ensures
      (UsesHead outcome result) := by
  rw [bindInetSocket, ensures_perform_bind]
  rintro (v | errno)
  · exact (bindInetLoop_usesHead outcome flags result result aiNext).mono fun tr ret h => h.cons
  · rw [ensures_pure]
    intro hagrees
    simp [AgreesWith, SysRet.isOk] at hagrees

/-- To use the head is to use the first usable address if the head is usable, or none is. This is
where the two loops, which use the head, are compared with what they are for. -/
theorem UsesHead.meets_iff {aiNext : List AddrInfo} {tr : List (NetCall × SysRet)}
    {ret : Option ℕ} (h : UsesHead outcome result tr ret)
    (hagrees : ∀ e ∈ tr, AgreesWith outcome e) :
    UsesFirstUsable outcome (result :: aiNext) tr ret ↔
      (outcome result).usable = true ∨ ∀ ai ∈ aiNext, (outcome ai).usable = false := by
  have hhead := h hagrees fun _ => none
  by_cases husable : (outcome result).usable
  · rw [if_pos husable] at hhead
    have hfind : (result :: aiNext).find? (fun ai => (outcome ai).usable) = some result := by
      rw [List.find?_cons, husable]
    rw [UsesFirstUsable, hfind]
    exact iff_of_true hhead (.inl husable)
  · rw [if_neg husable] at hhead
    have hfind : (result :: aiNext).find? (fun ai => (outcome ai).usable) =
        aiNext.find? fun ai => (outcome ai).usable := by
      rw [List.find?_cons, eq_false_of_ne_true husable]
    rw [UsesFirstUsable, hfind, hhead]
    rcases hlater : aiNext.find? fun ai => (outcome ai).usable with _ | ai
    · refine iff_of_true rfl (.inr fun ai hai => ?_)
      exact eq_false_of_ne_true (List.find?_eq_none.mp hlater ai hai)
    · -- a later address is usable and was not tried
      refine iff_of_false (by simp) ?_
      rintro (hcontra | hnone)
      · exact husable hcontra
      · have hai : (outcome ai).usable = true := by simpa using List.find?_some hlater
        exact absurd (hnone ai (List.mem_of_find?_eq_some hlater)) (by simp [hai])

/-- **When the internet sockets use the first usable address.** For every address list that is
not empty and every assignment of fixed outcomes: an execution of `connect_inet_socket`, and one
of `bind_inet_socket`, ends at the first usable address, and with -1 if there is none, if and
only if the head of the list is usable or no other address is. -/
theorem usesFirstUsable_iff (outcome : AddrInfo → AddrOutcome) (result : AddrInfo)
    (aiNext : List AddrInfo) :
    (∀ host service type tr ret,
      (connectInetSocket (result :: aiNext) host service type).Exec tr ret →
      (∀ e ∈ tr, AgreesWith outcome e) →
        (UsesFirstUsable outcome (result :: aiNext) tr ret ↔
          (outcome result).usable = true ∨ ∀ ai ∈ aiNext, (outcome ai).usable = false)) ∧
    ∀ service type flags tr ret,
      (bindInetSocket (result :: aiNext) service type flags).Exec tr ret →
      (∀ e ∈ tr, AgreesWith outcome e) →
        (UsesFirstUsable outcome (result :: aiNext) tr ret ↔
          (outcome result).usable = true ∨ ∀ ai ∈ aiNext, (outcome ai).usable = false) := by
  refine ⟨fun host service type tr ret hexec hagrees => ?_,
    fun service type flags tr ret hexec hagrees => ?_⟩
  · have hhead := connectInetSocket_usesHead outcome result aiNext host service type
    exact (hhead tr ret hexec).meets_iff hagrees
  · have hhead := bindInetSocket_usesHead outcome result aiNext service type flags
    exact (hhead tr ret hexec).meets_iff hagrees

/-- An IPv6 and an IPv4 address. -/
def twoAddresses : List AddrInfo := [⟨10, 1, 6, [6]⟩, ⟨2, 1, 6, [4]⟩]

/-- Only the IPv4 address can be connected to. -/
def onlyIpv4 (ai : AddrInfo) : AddrOutcome := ⟨true, ai.family = 2⟩

/-- An execution of `connect_inet_socket` and one of `bind_inet_socket` on the two addresses, with
the outcomes of these. -/
theorem usesFirstUsable_iff_onlyIpv4 :
    (∃ tr ret, (connectInetSocket twoAddresses none none .stream).Exec tr ret ∧
      (∀ e ∈ tr, AgreesWith onlyIpv4 e) ∧
      (UsesFirstUsable onlyIpv4 twoAddresses tr ret ↔
        (onlyIpv4 ⟨10, 1, 6, [6]⟩).usable = true ∨
          ∀ ai ∈ [(⟨2, 1, 6, [4]⟩ : AddrInfo)], (onlyIpv4 ai).usable = false)) ∧
    ∃ tr ret, (bindInetSocket twoAddresses none .stream useListen).Exec tr ret ∧
      (∀ e ∈ tr, AgreesWith onlyIpv4 e) ∧
      (UsesFirstUsable onlyIpv4 twoAddresses tr ret ↔
        (onlyIpv4 ⟨10, 1, 6, [6]⟩).usable = true ∨
          ∀ ai ∈ [(⟨2, 1, 6, [4]⟩ : AddrInfo)], (onlyIpv4 ai).usable = false) := by
  have hiff := usesFirstUsable_iff onlyIpv4 ⟨10, 1, 6, [6]⟩ [⟨2, 1, 6, [4]⟩]
  constructor
  · obtain ⟨tr, ret, hexec, hagrees⟩ :=
      exists_agreeing (connectInetSocket twoAddresses none none .stream) onlyIpv4
    exact ⟨tr, ret, hexec, hagrees, hiff.1 none none .stream tr ret hexec hagrees⟩
  · obtain ⟨tr, ret, hexec, hagrees⟩ :=
      exists_agreeing (bindInetSocket twoAddresses none .stream useListen) onlyIpv4
    exact ⟨tr, ret, hexec, hagrees, hiff.2 none .stream useListen tr ret hexec hagrees⟩

/-- `connect_inet_socket` tries the IPv6 address twice and returns -1. -/
theorem not_usesFirstUsable_onlyIpv4 :
    ∃ tr, (connectInetSocket twoAddresses none none .stream).Exec tr none ∧
      (∀ e ∈ tr, AgreesWith onlyIpv4 e) ∧ ¬ UsesFirstUsable onlyIpv4 twoAddresses tr none := by
  obtain ⟨tr, ret, hexec, hagrees⟩ :=
    exists_agreeing (connectInetSocket twoAddresses none none .stream) onlyIpv4
  have hhead := connectInetSocket_usesHead onlyIpv4 ⟨10, 1, 6, [6]⟩
    [⟨2, 1, 6, [4]⟩] none none .stream tr ret hexec
  obtain rfl : ret = none := hhead hagrees fun _ => none
  exact ⟨tr, hexec, hagrees, fun h => (hhead.meets_iff hagrees).mp h |>.elim
    (by decide) (by decide)⟩

end Libbaalue
