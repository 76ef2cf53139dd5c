import Libbaalue.Foundations.LabelledSystem
import Libbaalue.Foundations.UnixSockets
import Libbaalue.Net.UdsPath

/-!
# A stream client and its server

`baa_uds_stream_server` leaves a listening stream socket at its path (`serverUp_of_success`).
`baa_uds_stream_client` of the same name opens a datagram socket and connects to the path with
its own process id, so that under the rules of Unix domain sockets it meets no stream server,
whatever the state of the file system (`streamClient_not_meets`). The server stays where it is: its
path is that of its socket before the client's call and after it (`server_keeps_path`).

They miss each other for two reasons, each of which would be enough: the path the client connects to
is its own, and its socket is of the other type. The proof needs one of them at a time. That the
types of a connected pair agree is part of the structure of the sockets, so that a client that
returned a socket connected to the server would be a stream socket, and it is not.
-/

namespace Libbaalue

open CallProgram

/-! ### The calls and the sockets -/

/-- The sockets of a machine. -/
abbrev UnixWorld := UnixSockets (List Byte) SockType

/-- Stream sockets are connection-oriented. -/
def SockType.oriented : SockType → Bool
  | dgram => false
  | stream => true

/-- The sockets after an answered call; `none` for an answer that breaks the rules. -/
def unixStep (s : UnixWorld) : NetCall × SysRet → Option UnixWorld
  | (.unlink path, .ok _) => s.unlink path
  | (.unlink path, .failed errno) =>
    if errno = .enoent ∧ (s.file path).isSome then none else some s
  | (.socketUnix type, .ok sfd) => s.socket sfd type
  | (.bindUnix sfd addr, .ok _) => s.bind sfd addr.path
  | (.connectUnix sfd addr, .ok _) => s.connect SockType.oriented sfd addr.path
  -- what can be reached is reached
  | (.connectUnix sfd addr, .failed _) =>
    if (s.connect SockType.oriented sfd addr.path).isSome then none else some s
  | (.listen sfd _, .ok _) => s.listen sfd
  | (.close sfd, _) => some (s.close sfd)
  | _ => some s

/-- The sockets of a machine under the calls of a process: a call that the rules do not allow cannot
have come to what the trace says. -/
def unixSockets : LabelledSystem UnixWorld (NetCall × SysRet) := ⟨.empty, unixStep⟩

/-- The sockets after a trace that obeys the rules. -/
def afterCalls (s : UnixWorld) (tr : List (NetCall × SysRet)) : Option UnixWorld :=
  unixSockets.exec s tr

variable {s s' t : UnixWorld} {text : List Byte} {flags : Byte} {sfd : ℕ}

/-! ### What configuring a socket leaves alone -/

/-- The paths that name a socket keep it; types, descriptors and listeners stay. So it is where a
socket is named or configured, and nothing else happens. -/
structure SameSockets (s t : UnixWorld) : Prop where
  file : ∀ path c, s.file path = some c → t.file path = some c
  type : t.type = s.type
  descr : t.descr = s.descr
  listening : t.listening = s.listening

theorem SameSockets.rfl : SameSockets s s := ⟨fun _ _ h => h, by rfl, by rfl, by rfl⟩

theorem SameSockets.trans (h : SameSockets s t) (h' : SameSockets t s') : SameSockets s s' :=
  ⟨fun path c hc => h'.file path c (h.file path c hc), h'.type.trans h.type,
    h'.descr.trans h.descr, h'.listening.trans h.listening⟩

/-- A path that is bound did not name a socket, so that none is lost. -/
theorem SameSockets.bind {path : List Byte} (h : s.bind sfd path = some t) : SameSockets s t := by
  obtain ⟨c, -, hnone, hfile, htype, hdescr, hlistening⟩ := UnixSockets.bind_eq_some h
  refine ⟨fun path' c' hc' => ?_, htype, hdescr, hlistening⟩
  have hne : path' ≠ path := by
    rintro rfl
    rw [hnone] at hc'
    cases hc'
  rwa [hfile, Function.update_of_ne hne]

/-- One call made with a socket. -/
private theorem sameSockets_of_configure {e : NetCall × SysRet}
    (he : UdsConfigureCall text flags sfd e.1) (h : unixStep s e = some t) : SameSockets s t := by
  obtain ⟨c, r⟩ := e
  have hsame : some s = some t → SameSockets s t := by
    rintro ⟨⟩
    exact .rfl
  cases c with
  | bindUnix fd addr =>
    cases r with
    | ok v => exact SameSockets.bind h
    | failed errno => exact hsame h
  | connectUnix fd addr =>
    cases r with
    | ok v =>
      obtain ⟨hfile, htype, hdescr, hlistening⟩ := UnixSockets.connect_frame h
      exact ⟨fun path c hc => by rwa [hfile], htype, hdescr, hlistening⟩
    | failed errno =>
      rw [unixStep] at h
      split_ifs at h
      exact hsame h
  | setTimeout => exact hsame h
  | signalAlrm => exact hsame h
  | alarm => exact hsame h
  | malloc => exact hsame h
  | _ => exact absurd he id

/-- Any number of them. -/
private theorem sameSockets_of_calls {tr : List (NetCall × SysRet)}
    (hcalls : ∀ e ∈ tr, UdsConfigureCall text flags sfd e.1) (h : afterCalls s tr = some t) :
    SameSockets s t :=
  LabelledSystem.exec_stable (P := SameSockets s)
    (fun _ _ _ hs he hstep => hs.trans (sameSockets_of_configure he hstep)) .rfl hcalls h

/-- An `unlink` that fails changes nothing. -/
private theorem eq_of_failed_unlink {path : List Byte} {errno : Errno}
    (h : unixStep s (.unlink path, .failed errno) = some t) : t = s := by
  rw [unixStep] at h
  split_ifs at h
  exact (Option.some.inj h).symm

/-- An `unlink` changes the paths at most. -/
private theorem type_unlink {path : List Byte} {r : SysRet}
    (h : unixStep s (.unlink path, r) = some t) : t.type = s.type := by
  cases r with
  | ok v => exact (UnixSockets.unlink_frame h).2.1
  | failed errno => rw [eq_of_failed_unlink h]

/-- The socket of a success: it has the type asked for and the descriptor returned. -/
private theorem exists_socket {pid : ℕ} {name : List Byte} {dir : Option (List Byte)}
    {type : SockType} {tr : List (NetCall × SysRet)} {made : UdsResult}
    (hexec : (udsSocket pid (some name) dir type flags).Exec tr made)
    (hmade : made.sfd = some sfd) (h : afterCalls s tr = some t) :
    ∃ c, t.descr sfd = some c ∧ t.type c = some type := by
  obtain ⟨-, unlinked, tr₁, rfl, hrest⟩ :=
    udsSocket_success pid name dir type flags tr made hexec sfd hmade
  obtain ⟨s₁, -, h₁⟩ := Option.bind_eq_some_iff.mp h
  obtain ⟨s₂, hsocket, h₂⟩ := Option.bind_eq_some_iff.mp h₁
  obtain ⟨-, hdescr, htype, -, -⟩ := UnixSockets.socket_eq_some hsocket
  have hsame : SameSockets s₂ t :=
    sameSockets_of_calls ((udsConfigure_makes sfd _ _ flags).of_mem hrest) h₂
  refine ⟨s₁.fresh, ?_, ?_⟩
  · rw [hsame.descr, hdescr, Function.update_self]
  · rw [hsame.type, htype, Function.update_self]

/-- A success leaves the types of all sockets alone. -/
private theorem type_of_success {pid : ℕ} {name : List Byte} {dir : Option (List Byte)}
    {type : SockType} {tr : List (NetCall × SysRet)} {made : UdsResult}
    (hexec : (udsSocket pid (some name) dir type flags).Exec tr made)
    (hmade : made.sfd = some sfd) (h : afterCalls s tr = some t) {o : ℕ} {u : SockType}
    (ho : s.type o = some u) : t.type o = some u := by
  obtain ⟨-, unlinked, tr₁, rfl, hrest⟩ :=
    udsSocket_success pid name dir type flags tr made hexec sfd hmade
  obtain ⟨s₁, hunlink, h₁⟩ := Option.bind_eq_some_iff.mp h
  obtain ⟨s₂, hsocket, h₂⟩ := Option.bind_eq_some_iff.mp h₁
  have hsame : SameSockets s₂ t :=
    sameSockets_of_calls ((udsConfigure_makes sfd _ _ flags).of_mem hrest) h₂
  have ho₁ : s₁.type o = some u := by
    rwa [type_unlink hunlink]
  rw [hsame.type]
  exact UnixSockets.type_socket hsocket ho₁

/-! ### The server -/

/-- The path of a server. -/
def serverPath (name : List Byte) : Option (List Byte) → List Byte
  | none => name ++ [46] ++ udsNameAdd
  | some dir => dir ++ [47] ++ name ++ [46] ++ udsNameAdd

private theorem udsText_server (pid : ℕ) (name : List Byte) (dir : Option (List Byte)) :
    udsText pid name dir useBind = serverPath name dir := by
  cases dir <;> rfl

/-- A path names a stream socket that listens, so that a stream client could connect to it. -/
structure ServerUp (s : UnixWorld) (path : List Byte) (o : ℕ) : Prop where
  file : s.file path = some o
  type : s.type o = some .stream
  listening : s.listening o = true

/-- A success of the stream server is one of `uds_socket`, and of `listen`. -/
theorem baaUdsStreamServer_success (pid : ℕ) (name dir : Option (List Byte)) :
    (baaUdsStreamServer pid name dir).Ensures fun tr made => ∀ sfd, made.sfd = some sfd →
      ∃ tr₀ v, tr = tr₀ ++ [(.listen sfd backlog, .ok v)] ∧
        (udsSocket pid name dir .stream useBind).Exec tr₀ made := by
  rw [baaUdsStreamServer, ensures_bind]
  rintro tr₀ ⟨_ | sfd, socketF⟩ hexec
  · simp
  · simp only [ensures_perform_bind]
    rintro (v | errno)
    · rw [ensures_pure]
      rintro _ ⟨⟩
      exact ⟨tr₀, v, rfl, hexec⟩
    · simp

/-- The path a success of `uds_socket` has bound names its socket. -/
theorem file_of_bound {pid : ℕ} {name : List Byte} {dir : Option (List Byte)} {type : SockType}
    (hflag : flags &&& useBind ≠ 0) (hnul : (0 : Byte) ∉ udsText pid name dir flags)
    {tr : List (NetCall × SysRet)} {made : UdsResult}
    (hexec : (udsSocket pid (some name) dir type flags).Exec tr made) (hmade : made.sfd = some sfd)
    (h : afterCalls s tr = some t) : t.file (udsText pid name dir flags) = t.descr sfd := by
  obtain ⟨hle, unlinked, tr₁, rfl, hrest⟩ :=
    udsSocket_success pid name dir type flags tr made hexec sfd hmade
  obtain ⟨addr, v, hmem⟩ := udsConfigure_bound sfd _ _ hflag tr₁ made hrest hmade
  have hcalls := (udsConfigure_makes sfd _ _ flags).of_mem hrest
  obtain ⟨-, -, rfl⟩ := hcalls _ hmem
  -- before the `bind`, the `bind`, and what follows it
  obtain ⟨before, behind, rfl⟩ := List.append_of_mem hmem
  obtain ⟨s₁, -, h₁⟩ := Option.bind_eq_some_iff.mp h
  obtain ⟨s₂, -, h₂⟩ := Option.bind_eq_some_iff.mp h₁
  rw [LabelledSystem.exec_append] at h₂
  obtain ⟨s₃, -, h₃⟩ := Option.bind_eq_some_iff.mp h₂
  obtain ⟨s₄, hbind, h₄⟩ := Option.bind_eq_some_iff.mp h₃
  have hbehind : SameSockets s₄ t :=
    sameSockets_of_calls (fun e he => hcalls e (by simp [he])) h₄
  obtain ⟨c, hc, -, hfile, -, hdescr, -⟩ := UnixSockets.bind_eq_some hbind
  rw [path_sunLen hnul hle] at hfile
  have hnamed : s₄.file (udsText pid name dir flags) = some c := by
    rw [hfile, Function.update_self]
  rw [hbehind.file _ _ hnamed, hbehind.descr, hdescr, hc]

/-- **A stream server that succeeds is up**, at its path, whatever there was before. -/
theorem serverUp_of_success {pid : ℕ} {name : List Byte} {dir : Option (List Byte)}
    (hnul : (0 : Byte) ∉ serverPath name dir) {tr : List (NetCall × SysRet)} {made : UdsResult}
    (hexec : (baaUdsStreamServer pid (some name) dir).Exec tr made) (hmade : made.sfd = some sfd)
    (h : afterCalls s tr = some t) : ∃ o, ServerUp t (serverPath name dir) o := by
  obtain ⟨tr₀, v, rfl, hmake⟩ :=
    baaUdsStreamServer_success pid (some name) dir tr made hexec sfd hmade
  rw [afterCalls, LabelledSystem.exec_append] at h
  obtain ⟨s₁, h₁, h₂⟩ := Option.bind_eq_some_iff.mp h
  obtain ⟨s₂, hlisten, h₃⟩ := Option.bind_eq_some_iff.mp h₂
  obtain rfl : s₂ = t := Option.some.inj h₃
  obtain ⟨o, hdescr, htype⟩ := exists_socket hmake hmade h₁
  have hfile := file_of_bound (by decide) (udsText_server pid name dir ▸ hnul) hmake hmade h₁
  rw [udsText_server, hdescr] at hfile
  obtain ⟨c, hc, hlistening, hfile₂, htype₂, -⟩ := UnixSockets.listen_eq_some hlisten
  obtain rfl : o = c := Option.some.inj (hdescr.symm.trans hc)
  refine ⟨o, ?_, ?_, ?_⟩
  · rw [hfile₂, hfile]
  · rw [htype₂, htype]
  · rw [hlistening, Function.update_self]

/-! ### The client -/

/-- The socket returned is connected to the server `o`, whose file is still there. -/
def Meets (s : UnixWorld) (path : List Byte) (o : ℕ) (made : UdsResult) : Prop :=
  (∃ sfd c, made.sfd = some sfd ∧ s.descr sfd = some c ∧ s.peer c = some o) ∧
    s.file path = some o

/-- **A stream client meets no stream server.** For every name, directory and process, from
every state in which a stream socket listens at the path of the server: a call of
`baa_uds_stream_client` whose calls obey the rules does not return a socket connected to it. -/
theorem streamClient_not_meets {pid : ℕ} {name : List Byte} {dir : Option (List Byte)} {o : ℕ}
    (hup : ServerUp s (serverPath name dir) o) {tr : List (NetCall × SysRet)} {made : UdsResult}
    (hexec : (baaUdsStreamClient pid (some name) dir).Exec tr made)
    (h : afterCalls s tr = some t) : ¬ Meets t (serverPath name dir) o made := by
  rintro ⟨⟨sfd, c, hmade, hdescr, hpeer⟩, -⟩
  -- the client's socket is a datagram socket, and a peer has the type of its socket
  obtain ⟨c', hdescr', htype⟩ := exists_socket hexec hmade h
  obtain rfl : c = c' := Option.some.inj (hdescr.symm.trans hdescr')
  obtain ⟨u, hc, ho⟩ := t.type_of_peer c o hpeer
  obtain rfl : u = .dgram := Option.some.inj (hc.symm.trans htype)
  have hstream : t.type o = some .stream := type_of_success hexec hmade h hup.type
  rw [ho] at hstream
  cases hstream

/-- The path of a client is not that of the server. -/
theorem udsText_client_ne (pid : ℕ) (name : List Byte) (dir : Option (List Byte)) :
    udsText pid name dir (usePid ||| useConnect) ≠ serverPath name dir := by
  intro h
  have hsuffix : pidText pid = udsNameAdd := by
    cases dir with
    | none => exact List.append_cancel_left h
    | some dir => exact List.append_cancel_left h
  have hdigit : (115 : Byte) ∈ pidText pid := hsuffix ▸ List.mem_cons_self
  exact absurd (digit_of_mem_pidText hdigit).2 (by decide)

/-- Not even where it is cut, as long as the server's fits `sun_path`. -/
private theorem snprintf_client_ne (pid : ℕ) {name : List Byte} {dir : Option (List Byte)}
    (hfits : (serverPath name dir).length ≤ sizeofSunPath - 1) :
    snprintfMaxLine (udsText pid name dir (usePid ||| useConnect)) ≠ serverPath name dir := by
  intro h
  have hshort : ¬ (snprintfMaxLine (udsText pid name dir (usePid ||| useConnect))).length >
      sizeofSunPath - 1 := by
    rw [h]
    exact Nat.not_lt.mpr hfits
  rw [(snprintfMaxLine_of_length_le hshort).1] at h
  exact udsText_client_ne pid name dir h

/-- Removing another path leaves a path where it is. -/
private theorem file_unlink_of_ne {path path' : List Byte} (hne : path' ≠ path) {r : SysRet}
    (h : unixStep s (.unlink path, r) = some t) : t.file path' = s.file path' := by
  cases r with
  | ok v => rw [(UnixSockets.unlink_frame h).1, Function.update_of_ne hne]
  | failed errno => rw [eq_of_failed_unlink h]

/-- **The client leaves the server's file where it is**, in every run. -/
theorem file_streamClient {pid : ℕ} {name : List Byte} {dir : Option (List Byte)} {o : ℕ}
    (hfits : (serverPath name dir).length ≤ sizeofSunPath - 1)
    (hfile : s.file (serverPath name dir) = some o) {tr : List (NetCall × SysRet)}
    {made : UdsResult} (hexec : (baaUdsStreamClient pid (some name) dir).Exec tr made)
    (h : afterCalls s tr = some t) : t.file (serverPath name dir) = some o := by
  have hne := snprintf_client_ne pid hfits
  rcases udsSocket_cases pid name dir .dgram (usePid ||| useConnect) tr made hexec with
    ⟨-, hcalls⟩ | ⟨-, unlinked, sfd, tr₁, rfl, hrest⟩
  · refine LabelledSystem.exec_stable (P := fun s => s.file (serverPath name dir) = some o)
      (fun s e t hs he hstep => ?_) hfile hcalls h
    rcases he with hunlink | ⟨errno, rfl⟩
    · obtain ⟨c, r⟩ := e
      obtain rfl : c = _ := hunlink
      rwa [file_unlink_of_ne hne.symm hstep]
    · obtain rfl := Option.some.inj hstep
      exact hs
  · obtain ⟨s₁, hunlink, h₁⟩ := Option.bind_eq_some_iff.mp h
    obtain ⟨s₂, hsocket, h₂⟩ := Option.bind_eq_some_iff.mp h₁
    obtain ⟨-, -, -, hfile₂, -⟩ := UnixSockets.socket_eq_some hsocket
    have hsame : SameSockets s₂ t :=
      sameSockets_of_calls ((udsConfigure_makes sfd _ _ _).of_mem hrest) h₂
    refine hsame.file _ o ?_
    rw [hfile₂, file_unlink_of_ne (udsText_client_ne pid name dir).symm hunlink, hfile]

/-- **A server that is up stays there**: a stream server that has succeeded names its path, and a
call of a client of its name, whatever it comes to, leaves the path to it. -/
theorem server_keeps_path {u : UnixWorld} {pid pid' : ℕ} {name : List Byte}
    {dir : Option (List Byte)} (hnul : (0 : Byte) ∉ serverPath name dir)
    (hfits : (serverPath name dir).length ≤ sizeofSunPath - 1) {tr tr' : List (NetCall × SysRet)}
    {made made' : UdsResult} (hserver : (baaUdsStreamServer pid (some name) dir).Exec tr made)
    (hmade : made.sfd = some sfd) (h : afterCalls s tr = some t)
    (hclient : (baaUdsStreamClient pid' (some name) dir).Exec tr' made')
    (h' : afterCalls t tr' = some u) :
    ∃ o, ServerUp t (serverPath name dir) o ∧ u.file (serverPath name dir) = some o := by
  obtain ⟨o, hup⟩ := serverUp_of_success hnul hserver hmade h
  exact ⟨o, hup, file_streamClient hfits hup.file hclient h'⟩

/-! ### A server and a client of the name `"s"` -/

/-- The outcomes of the server: everything succeeds, and there is no old file. -/
def serverOutcomes : List SysRet :=
  [.failed .enoent, .ok 3, .ok 0, .ok 0, .ok 0, .ok 1, .ok 0]

/-- The outcomes of the client: there is no file to connect to. -/
def clientOutcomes : List SysRet := [.failed .enoent, .ok 4, .ok 0, .ok 0, .failed .enoent]

/-- The sockets after the server's call. -/
def serverWorld : Option UnixWorld :=
  ((baaUdsStreamServer 5 (some [115]) none).eval serverOutcomes).bind fun e =>
    afterCalls .empty e.1

/-- The sockets and the value returned after the client's call. -/
def clientWorld (s : UnixWorld) : Option (List (NetCall × SysRet) × UdsResult × UnixWorld) :=
  ((baaUdsStreamClient 7 (some [115]) none).eval clientOutcomes).bind fun e =>
    (afterCalls s e.1).map fun t => (e.1, e.2, t)

/-- The server succeeds, the client is refused. -/
private theorem exists_refusedClient :
    ∃ s t tr, ServerUp s (serverPath [115] none) 0 ∧
      (baaUdsStreamClient 7 (some [115]) none).Exec tr .fail ∧ afterCalls s tr = some t := by
  have hval : (serverWorld.bind fun s => (clientWorld s).map fun e =>
      ((s.file (serverPath [115] none), s.type 0, s.listening 0), e.2.1)) =
      some ((some 0, some .stream, true), .fail) := by decide +kernel
  obtain ⟨s, -, hclient⟩ := Option.bind_eq_some_iff.mp hval
  obtain ⟨⟨tr, made, t⟩, hworld, hpair⟩ := Option.map_eq_some_iff.mp hclient
  simp only [Prod.mk.injEq] at hpair
  obtain ⟨⟨hfile, htype, hlistening⟩, rfl⟩ := hpair
  obtain ⟨e, heval, hcalls⟩ := Option.bind_eq_some_iff.mp hworld
  obtain ⟨t', ht', heq⟩ := Option.map_eq_some_iff.mp hcalls
  simp only [Prod.mk.injEq] at heq
  obtain ⟨rfl, hmade, rfl⟩ := heq
  exact ⟨s, t', e.1, ⟨hfile, htype, hlistening⟩, hmade ▸ exec_of_eval heval, ht'⟩

/-- The two do not meet. -/
theorem not_meets_refusedClient :
    ∃ s t tr made, ServerUp s (serverPath [115] none) 0 ∧
      (baaUdsStreamClient 7 (some [115]) none).Exec tr made ∧ afterCalls s tr = some t ∧
      ¬ Meets t (serverPath [115] none) 0 made := by
  obtain ⟨s, t, tr, hup, hexec, hcalls⟩ := exists_refusedClient
  exact ⟨s, t, tr, .fail, hup, hexec, hcalls, streamClient_not_meets hup hexec hcalls⟩

/-- So a stream client does not always connect to the stream server of its name. -/
theorem not_forall_meets :
    ¬ ∀ (pid : ℕ) (name : List Byte) (dir : Option (List Byte)) (s t : UnixWorld) (o : ℕ)
        (tr : List (NetCall × SysRet)) (made : UdsResult),
      (0 : Byte) ∉ serverPath name dir → (serverPath name dir).length ≤ sizeofSunPath - 1 →
      ServerUp s (serverPath name dir) o →
      (baaUdsStreamClient pid (some name) dir).Exec tr made → afterCalls s tr = some t →
      Meets t (serverPath name dir) o made := by
  intro h
  obtain ⟨s, t, tr, hup, hexec, hcalls⟩ := exists_refusedClient
  obtain ⟨⟨sfd, c, hmade, -⟩, -⟩ :=
    h 7 [115] none s t 0 tr .fail (by decide) (by decide) hup hexec hcalls
  cases hmade

end Libbaalue
