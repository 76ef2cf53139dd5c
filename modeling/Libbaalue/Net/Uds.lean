import Libbaalue.Helper.PidFile
import Libbaalue.Net.Socket

/-!
# Unix domain sockets

`uds_socket` with its four constructors, and `baa_create_uds_name_string`, as programs over
their calls. A null pointer is `none`, a string its bytes without the NUL.

`udsSocket_cases` says once what an execution of `uds_socket` can come to, and
`udsConfigure_makes` which calls it makes with its socket.

The paths are followed as texts. `snprintf` cuts what it prints to the buffer, and `strncpy` cuts
what it copies to `sun_path`, each in its own way, and between the two stands the check of the
length; in which order the function prints, removes, checks and opens is kept, since the results
about files depend on it. The flags are bits of a byte, as in the source, and the four constructors
are the one function with their own.

A call that connects does so under an alarm, which is a matter of its own (`Alarm`); here its calls
are among the others.
-/

namespace Libbaalue

open CallProgram

/-- `UDS_NAME_ADD`: `"socket"`. -/
def udsNameAdd : List Byte := [115, 111, 99, 107, 101, 116]

/-- `"%ld"` of a process id. -/
def pidText (pid : ℕ) : List Byte :=
  (toString pid).toList.map fun c => BitVec.ofNat 8 c.toNat

/-- A process id is printed in digits. -/
theorem digit_of_mem_pidText {pid : ℕ} {b : Byte} (h : b ∈ pidText pid) :
    48 ≤ b.toNat ∧ b.toNat ≤ 57 := by
  rw [pidText, List.mem_map] at h
  obtain ⟨c, hc, rfl⟩ := h
  have hdigit : c.isDigit = true := by
    refine Nat.isDigit_of_mem_toDigits (b := 10) (n := pid) (by decide) (by decide) ?_
    rw [← Nat.toList_repr]
    exact hc
  simp only [Char.isDigit, Bool.and_eq_true, decide_eq_true_eq] at hdigit
  have hle : 48 ≤ c.toNat ∧ c.toNat ≤ 57 := hdigit
  rw [BitVec.toNat_ofNat]
  omega

/-- The text `uds_socket` prints into `str`: directory, name, and the process id or the word
`socket` behind a dot. Without a directory the path is relative. -/
def udsText (pid : ℕ) (name : List Byte) (dir : Option (List Byte)) (flags : Byte) : List Byte :=
  match dir with
  | none =>
    if flags &&& usePid ≠ 0 then name ++ [46] ++ pidText pid
    else name ++ [46] ++ udsNameAdd
  | some dir =>
    if flags &&& usePid ≠ 0 then dir ++ [47] ++ name ++ [46] ++ pidText pid
    else dir ++ [47] ++ name ++ [46] ++ udsNameAdd

/-- `strncpy` of a string into a zeroed `sun_path`, of which the last byte is never written. -/
def strncpySunPath (str : List Byte) : List Byte :=
  Block.overlay (List.replicate sizeofSunPath 0) (str.take (sizeofSunPath - 1))

/-- The value returned, `none` for -1, and `*socket_f`, `none` while it is not written. -/
structure UdsResult where
  sfd : Option ℕ
  socketF : Option (List Byte)
  deriving DecidableEq, Repr

/-- The failure of a call that has not written `*socket_f`. -/
def UdsResult.fail : UdsResult := ⟨none, none⟩

/-- The `bind` of `uds_socket`, with `SUN_LEN`; whether the function goes on. -/
def udsBind (sfd : ℕ) (str : List Byte) (flags : Byte) : NetProgram Bool :=
  if flags &&& useBind ≠ 0 then do
    match ← perform (.bindUnix sfd ⟨strncpySunPath str, sunPathOffset + str.length⟩) with
    | .failed _ => return false
    | .ok _ => return true
  else return true

/-- The `connect` of `uds_socket`, under an alarm; whether the function goes on. -/
def udsConnect (sfd : ℕ) (str : List Byte) (flags : Byte) : NetProgram Bool :=
  if flags &&& useConnect ≠ 0 then do
    let _ ← perform (.signalAlrm .handleAlarm)
    let _ ← perform (.alarm connectTimeout)
    match ← perform (.connectUnix sfd ⟨strncpySunPath str, sizeofSockaddrUn⟩) with
    -- neither the alarm nor the handler is set back
    | .failed _ => return false
    | .ok _ =>
      let _ ← perform (.alarm 0)
      let _ ← perform (.signalAlrm .oldHandler)
      return true
  else return true

/-- What `uds_socket` does with its socket; `n` is what `snprintf` returned. -/
def udsConfigure (sfd : ℕ) (str : List Byte) (n : ℕ) (flags : Byte) : NetProgram UdsResult := do
  -- the socket stays open where the function gives up
  if ← udsBind sfd str flags then
    if ← udsConnect sfd str flags then
      let _ ← setSndTimeout sfd
      let _ ← setRcvTimeout sfd
      match ← perform (.malloc (n + 1)) with
      | .failed _ => return .fail
      | .ok _ => return ⟨some sfd, some (str.take n)⟩
    else return .fail
  else return .fail

/-- `uds_socket`, in the process `pid`. The file is removed before the length of the path is looked
at, and the path was cut before that. -/
def udsSocket (pid : ℕ) (name dir : Option (List Byte)) (type : SockType) (flags : Byte) :
    NetProgram UdsResult :=
  match name with
  | none => return .fail
  | some name => do
    let text := udsText pid name dir flags
    let str := snprintfMaxLine text
    let unlinked ← perform (.unlink str)
    if unlinked.failedOtherThan .enoent then return .fail
    else if str.length > sizeofSunPath - 1 then return .fail
    else
      match ← perform (.socketUnix type) with
      | .failed _ => return .fail
      | .ok sfd => udsConfigure sfd str text.length flags

/-! ### The calls of `uds_socket` -/

/-- The calls made with the socket `sfd`: the address it is bound or connected to is not
truncated. -/
def UdsConfigureCall (text : List Byte) (flags : Byte) (sfd : ℕ) : NetCall → Prop
  | .bindUnix fd addr => flags &&& useBind ≠ 0 ∧ fd = sfd ∧
    addr = ⟨strncpySunPath text, sunPathOffset + text.length⟩
  | .connectUnix fd addr => flags &&& useConnect ≠ 0 ∧ fd = sfd ∧
    addr = ⟨strncpySunPath text, sizeofSockaddrUn⟩
  | .setTimeout _ _ _ | .signalAlrm _ | .alarm _ | .malloc _ => True
  | .unlink _ | .socketUnix _ | .getaddrinfo _ _ _ | .freeaddrinfo | .socketInet _ => False
  | .bindInet _ _ | .connectInet _ _ | .setReuseAddr _ _ | .listen _ _ | .close _ => False

theorem udsBind_makes {P : NetCall → Prop} {sfd : ℕ} {str : List Byte} {flags : Byte}
    (h : flags &&& useBind ≠ 0 →
      P (.bindUnix sfd ⟨strncpySunPath str, sunPathOffset + str.length⟩)) :
    (udsBind sfd str flags).Makes P := by
  rw [udsBind]
  split_ifs with hflag
  · rw [makes_perform_bind]
    refine ⟨h hflag, ?_⟩
    rintro (v | errno) <;> exact makes_pure
  · exact makes_pure

theorem udsConfigure_makes (sfd : ℕ) (text : List Byte) (n : ℕ) (flags : Byte) :
    (udsConfigure sfd text n flags).Makes (UdsConfigureCall text flags sfd) := by
  have hbind : (udsBind sfd text flags).Makes (UdsConfigureCall text flags sfd) :=
    udsBind_makes fun hflag => ⟨hflag, rfl, rfl⟩
  have hconnect : (udsConnect sfd text flags).Makes (UdsConfigureCall text flags sfd) := by
    rw [udsConnect]
    split_ifs with hflag
    · simp only [makes_perform_bind]
      refine ⟨trivial, fun _ => ⟨trivial, fun _ => ⟨⟨hflag, rfl, rfl⟩, ?_⟩⟩⟩
      rintro (v | errno)
      · exact ⟨trivial, fun _ => ⟨trivial, fun _ => makes_pure⟩⟩
      · exact makes_pure
    · exact makes_pure
  have htimeout (optval : TimeoutOpt) (nsec : ℕ) :
      (setTimeout sfd optval nsec).Makes (UdsConfigureCall text flags sfd) :=
    setTimeout_makes trivial
  rw [udsConfigure]
  refine hbind.bind fun bound => ?_
  split_ifs
  · refine hconnect.bind fun connected => ?_
    split_ifs
    · refine (htimeout _ _).bind fun _ => (htimeout _ _).bind fun _ => ?_
      rw [makes_perform_bind]
      refine ⟨trivial, ?_⟩
      rintro (v | errno) <;> exact makes_pure
    · exact makes_pure
  · exact makes_pure

/-- The socket is returned, or nothing is. -/
theorem udsConfigure_sfd (sfd : ℕ) (str : List Byte) (n : ℕ) (flags : Byte) :
    (udsConfigure sfd str n flags).Ensures fun _ made => made.sfd = none ∨ made.sfd = some sfd := by
  rw [udsConfigure, ensures_bind]
  rintro tr₁ (_ | _) -
  · simp [UdsResult.fail]
  · rw [if_pos rfl, ensures_bind]
    rintro tr₂ (_ | _) -
    · simp [UdsResult.fail]
    · rw [if_pos rfl]
      refine ensures_setTimeout_bind fun _ _ => ensures_setTimeout_bind fun _ _ => ?_
      rw [ensures_perform_bind]
      rintro (_ | _) <;> simp [UdsResult.fail]

/-- And it was bound, if it was to be. -/
theorem udsConfigure_bound (sfd : ℕ) (str : List Byte) (n : ℕ) {flags : Byte}
    (hflag : flags &&& useBind ≠ 0) :
    (udsConfigure sfd str n flags).Ensures fun tr made =>
      made.sfd = some sfd → ∃ addr v, (.bindUnix sfd addr, .ok v) ∈ tr := by
  rw [udsConfigure, udsBind, if_pos hflag, ensures_bind, ensures_perform_bind]
  rintro (v | errno)
  · rw [ensures_pure]
    intro tr made _ _
    exact ⟨_, v, List.mem_cons_self⟩
  · simp [UdsResult.fail]

/-- A string short enough for `sun_path` was not cut by `snprintf`. -/
theorem snprintfMaxLine_of_length_le {text : List Byte}
    (h : ¬ (snprintfMaxLine text).length > sizeofSunPath - 1) :
    snprintfMaxLine text = text ∧ text.length ≤ sizeofSunPath - 1 := by
  rw [snprintfMaxLine, List.length_take] at h
  have hle : text.length ≤ sizeofSunPath - 1 := by
    simp only [sizeofSunPath, baaMaxLine] at h ⊢
    omega
  refine ⟨List.take_of_length_le (hle.trans ?_), hle⟩
  decide

/-- **What `uds_socket` can come to.** It fails without a socket, having removed at most the
file of the path that is printed; or the path was not cut, and what is left is to configure the
socket. -/
theorem udsSocket_cases (pid : ℕ) (name : List Byte) (dir : Option (List Byte)) (type : SockType)
    (flags : Byte) :
    (udsSocket pid (some name) dir type flags).Ensures fun tr made =>
      (made = .fail ∧ ∀ e ∈ tr, e.1 = .unlink (snprintfMaxLine (udsText pid name dir flags)) ∨
        ∃ errno, e = (.socketUnix type, .failed errno)) ∨
      (udsText pid name dir flags).length ≤ sizeofSunPath - 1 ∧
        ∃ unlinked sfd tr₁, tr = (.unlink (udsText pid name dir flags), unlinked) ::
            (.socketUnix type, .ok sfd) :: tr₁ ∧
          (udsConfigure sfd (udsText pid name dir flags) (udsText pid name dir flags).length
            flags).Exec tr₁ made := by
  rw [udsSocket, ensures_perform_bind]
  intro unlinked
  split_ifs with _ hlen
  · simp
  · simp
  · obtain ⟨hstr, hle⟩ := snprintfMaxLine_of_length_le hlen
    rw [ensures_perform_bind]
    rintro (sfd | errno)
    · rw [hstr]
      intro tr made hexec
      exact .inr ⟨hle, unlinked, sfd, tr, rfl, hexec⟩
    · simp

/-- What a success of `uds_socket` has done. -/
theorem udsSocket_success (pid : ℕ) (name : List Byte) (dir : Option (List Byte))
    (type : SockType) (flags : Byte) :
    (udsSocket pid (some name) dir type flags).Ensures fun tr made =>
      ∀ sfd, made.sfd = some sfd → (udsText pid name dir flags).length ≤ sizeofSunPath - 1 ∧
        ∃ unlinked tr₁, tr = (.unlink (udsText pid name dir flags), unlinked) ::
            (.socketUnix type, .ok sfd) :: tr₁ ∧
          (udsConfigure sfd (udsText pid name dir flags) (udsText pid name dir flags).length
            flags).Exec tr₁ made := by
  refine (udsSocket_cases pid name dir type flags).mono ?_
  rintro tr made (⟨rfl, -⟩ | ⟨hle, unlinked, sfd, tr₁, rfl, hexec⟩) s hs
  · cases hs
  · obtain rfl : s = sfd := by simpa [hs] using udsConfigure_sfd sfd _ _ flags tr₁ made hexec
    exact ⟨hle, unlinked, tr₁, rfl, hexec⟩

/-! ### The constructors -/

/-- `baa_uds_dgram_server`. -/
def baaUdsDgramServer (pid : ℕ) (name dir : Option (List Byte)) : NetProgram UdsResult :=
  udsSocket pid name dir .dgram useBind

/-- `baa_uds_stream_server`. -/
def baaUdsStreamServer (pid : ℕ) (name dir : Option (List Byte)) : NetProgram UdsResult := do
  let made ← udsSocket pid name dir .stream useBind
  match made.sfd with
  | none => return made
  | some sfd =>
    match ← perform (.listen sfd backlog) with
    | .failed _ => return { made with sfd := none }
    | .ok _ => return made

/-- `baa_uds_dgram_client`. -/
def baaUdsDgramClient (pid : ℕ) (name dir : Option (List Byte)) : NetProgram UdsResult :=
  udsSocket pid name dir .dgram (usePid ||| useBind)

/-- `baa_uds_stream_client`: the type is `SOCK_DGRAM`, and the flags are those of a client that
connects to a path with its own process id. -/
def baaUdsStreamClient (pid : ℕ) (name dir : Option (List Byte)) : NetProgram UdsResult :=
  udsSocket pid name dir .dgram (usePid ||| useConnect)

/-- `baa_create_uds_name_string`: the path of a name in a directory, which both have to be given. -/
def baaCreateUdsNameString (file dir : Option (List Byte)) : NetProgram (Option (List Byte)) :=
  match file, dir with
  | some file, some dir => do
    let text := dir ++ [47] ++ file
    let tmpStr := snprintfMaxLine text
    -- the bound is `sizeof(sun_path)`, where `uds_socket` has one less
    if tmpStr.length > sizeofSunPath then return none
    else
      match ← perform (.malloc (text.length + 1)) with
      | .failed _ => return none
      | .ok _ => return some (tmpStr.take text.length)
  | some _, none => return none
  | none, _ => return none

end Libbaalue
