import Libbaalue.Fiber.Clients
import Libbaalue.Net.FullName
import Libbaalue.Net.UdsPath
import Libbaalue.Net.UdsProcesses

/-!
# The addresses of a server and its clients

A server tells its clients apart by their paths, and answers to the path a datagram came from
(`ClientsPaths`). The paths are made by `uds_socket`: behind the last dot a client has its process
id and a server the word `socket`. Whatever the names and the directories are, the files of
different processes therefore have different names, and are different files wherever the
directories lead (`UdsEndpoints.clientFile_injective`, `UdsEndpoints.clientFile_ne`).

Whether a path leads to the file that was bound at it is another matter. A path without a
directory, or with a relative one, is looked up in the working directory of whoever sends, and that
may have changed since the `bind`, as it does in `baa_daemonize`. So the lookups of the server and
of each client are given as they are, and where they find what was bound (`UdsEndpoints.Found`),
the paths are those of a server and its clients: a reply to one of them reaches it alone
(`endpoints`).

A client finds the server by `baa_create_uds_name_string`. What it sends to is the name cut to one
byte less than `sun_path` holds, while the check lets a name of the whole length through: it finds
the server under its path, and under a name that is one byte too long.

Nothing is proved here about who answers whom. The module closes a gap: the sessions assume paths
that belong to one party each, and the constructors make paths out of whatever names they are given.
That the files differ follows from the last component of the path alone; that they are found again
depends on where a path leads, which no function of the library decides, and is a condition.
-/

namespace Libbaalue

open CallProgram

variable {n : ℕ}

/-! ### What a constructor binds -/

/-- A constructor that binds and returns a socket has bound the path it has printed. -/
private theorem udsSocket_binds (pid : ℕ) {name : List Byte} {dir : Option (List Byte)}
    (hname : (0 : Byte) ∉ name) (hdir : ∀ d ∈ dir, (0 : Byte) ∉ d) (type : SockType) {flags : Byte}
    (hflag : flags &&& useBind ≠ 0) :
    (udsSocket pid (some name) dir type flags).Ensures fun tr made => ∀ sfd, made.sfd = some sfd →
      (udsText pid name dir flags).length ≤ sizeofSunPath - 1 ∧
        ∃ addr v, (.bindUnix sfd addr, .ok v) ∈ tr ∧ addr.path = udsText pid name dir flags := by
  intro tr made hexec sfd hmade
  obtain ⟨hle, unlinked, tr₁, rfl, hrest⟩ :=
    udsSocket_success pid name dir type flags tr made hexec sfd hmade
  obtain ⟨addr, v, hmem⟩ := udsConfigure_bound sfd _ _ hflag tr₁ made hrest hmade
  have hbind := List.mem_cons_of_mem (.socketUnix type, .ok sfd) hmem
  have hbind := List.mem_cons_of_mem (.unlink (udsText pid name dir flags), unlinked) hbind
  refine ⟨hle, addr, v, hbind, ?_⟩
  have huse : (⟨addr.path, true⟩ : FileUse) ∈ List.filterMap netFileUse _ :=
    List.mem_filterMap.mpr ⟨_, hbind, rfl⟩
  exact udsSocket_path_eq hname hdir type flags hle _ _ hexec _ huse

/-- A file bound at a text has a name that ends as the text does, whatever the directory. -/
private theorem exists_lastPart_udsText (pid : ℕ) (name : List Byte) (dir : Option (List Byte))
    (flags : Byte) :
    ∃ stem, lastPart slash (udsText pid name dir flags) = stem ++ 46 :: udsSuffix pid flags := by
  obtain ⟨stem, hstem⟩ := exists_udsText_eq pid name dir flags
  exact ⟨lastPart slash stem, hstem ▸ lastPart_append (slash_notMem_udsSuffix pid flags) stem⟩

/-- Files of one name end alike. -/
private theorem udsSuffix_eq_of_lastPart_eq {p q : ℕ} {name name' : List Byte}
    {dir dir' : Option (List Byte)} {flags flags' : Byte}
    (h : lastPart slash (udsText p name dir flags) =
      lastPart slash (udsText q name' dir' flags')) :
    udsSuffix p flags = udsSuffix q flags' := by
  obtain ⟨stem, hstem⟩ := exists_lastPart_udsText p name dir flags
  obtain ⟨stem', hstem'⟩ := exists_lastPart_udsText q name' dir' flags'
  rw [hstem, hstem'] at h
  exact eq_of_append_cons_eq (dot_notMem_udsSuffix _ _) (dot_notMem_udsSuffix _ _) h

/-! ### Server and clients -/

/-- A server and the processes of its clients: what they call the constructors with, the
directories their paths led to then, and the files that paths lead to when they send. -/
structure UdsEndpoints (n : ℕ) where
  serverPid : ℕ
  serverName : List Byte
  serverDir : Option (List Byte)
  pid : Fin n → ℕ
  name : Fin n → List Byte
  dir : Fin n → Option (List Byte)
  pid_injective : Function.Injective pid
  nul_notMem_server : (0 : Byte) ∉ serverName ∧ ∀ d ∈ serverDir, (0 : Byte) ∉ d
  nul_notMem : ∀ i, (0 : Byte) ∉ name i ∧ ∀ d ∈ dir i, (0 : Byte) ∉ d
  serverIn : ℕ
  clientIn : Fin n → ℕ
  serverLooks : List Byte → Option (DirEntry Byte)
  clientLooks : Fin n → List Byte → Option (DirEntry Byte)

namespace UdsEndpoints

/-- The path of the server. -/
def serverText (e : UdsEndpoints n) : List Byte :=
  udsText e.serverPid e.serverName e.serverDir useBind

/-- The path of a client. -/
def clientText (e : UdsEndpoints n) (i : Fin n) : List Byte :=
  udsText (e.pid i) (e.name i) (e.dir i) (usePid ||| useBind)

/-- The file of the server's socket. -/
def serverFile (e : UdsEndpoints n) : DirEntry Byte := .ofPath slash e.serverIn e.serverText

/-- The file of a client's socket. -/
def clientFile (e : UdsEndpoints n) (i : Fin n) : DirEntry Byte :=
  .ofPath slash (e.clientIn i) (e.clientText i)

/-- The server finds its clients at their paths, and each of them finds the server at its path. It
says that the two work in the same directories; the paths themselves are made by the code. -/
structure Found (e : UdsEndpoints n) : Prop where
  clients : ∀ i, e.serverLooks (e.clientText i) = some (e.clientFile i)
  server : ∀ i, e.clientLooks i e.serverText = some e.serverFile

/-- No two clients have one file. -/
theorem clientFile_injective (e : UdsEndpoints n) : Function.Injective e.clientFile := by
  intro i j h
  have hsuffix := udsSuffix_eq_of_lastPart_eq (congrArg DirEntry.name h)
  have hpid : (usePid ||| useBind) &&& usePid ≠ 0 := by decide
  rw [udsSuffix, if_pos hpid, udsSuffix, if_pos hpid] at hsuffix
  exact e.pid_injective (pidText_injective hsuffix)

/-- No client has the file of the server. -/
theorem clientFile_ne (e : UdsEndpoints n) (i : Fin n) : e.clientFile i ≠ e.serverFile := by
  intro h
  have hsuffix := udsSuffix_eq_of_lastPart_eq (congrArg DirEntry.name h)
  rw [udsSuffix, if_pos (by decide), udsSuffix, if_neg (by decide)] at hsuffix
  exact udsNameAdd_ne_pidText _ hsuffix.symm

/-- The client whose file a path leads the server to, if it leads to the file of one: the path is
looked up from where the server works. -/
def clientAt (e : UdsEndpoints n) (path : List Byte) : Option (Fin n) :=
  (e.serverLooks path).bind (memberAt e.clientFile)

theorem clientAt_eq_some_iff (e : UdsEndpoints n) {path : List Byte} {i : Fin n} :
    e.clientAt path = some i ↔ e.serverLooks path = some (e.clientFile i) := by
  simp only [clientAt, Option.bind_eq_some_iff, memberAt_eq_some_iff e.clientFile_injective]
  constructor
  · rintro ⟨file, hfile, rfl⟩
    exact hfile
  · exact fun h => ⟨_, h, rfl⟩

/-- The paths of a server and its clients, where the lookups find what was bound. -/
def paths (e : UdsEndpoints n) (hserver : e.serverText.length < sizeofSunPath)
    (hclient : ∀ i, (e.clientText i).length < sizeofSunPath) (hfound : e.Found) :
    ClientsPaths n where
  kdoF := e.serverText
  retF := e.clientText
  kdoF_fits := hserver
  retF_fits := hclient
  nul_notMem_kdoF := nul_notMem_udsText e.nul_notMem_server.1 e.nul_notMem_server.2 _ _
  nul_notMem_retF i := nul_notMem_udsText (e.nul_notMem i).1 (e.nul_notMem i).2 _ _
  leadsTo := e.clientAt
  reaches i path := e.clientLooks i path = some e.serverFile
  leadsTo_retF i := e.clientAt_eq_some_iff.mpr (hfound.clients i)
  reaches_kdoF i := decide_eq_true (hfound.server i)

end UdsEndpoints

/-- A name that the check lets through loses its last byte, or nothing. -/
private theorem take_eq_of_length_le {str : List Byte} (hlen : str.length ≤ sizeofSunPath) :
    str.take (sizeofSunPath - 1) = if str.length = sizeofSunPath then str.dropLast else str := by
  split_ifs with heq
  · rw [List.dropLast_eq_take, heq]
  · exact List.take_of_length_le (Nat.le_sub_one_of_lt (lt_of_le_of_ne hlen heq))

/-- **The addresses.** For any names and directories, a datagram server and datagram clients in
different processes, all of whose constructors have returned a socket, have bound files that are
different ones, wherever the directories led. If the server's lookups find the files of the clients
and theirs that of the server, the paths they have bound are those of a server and its clients: an
address leads the server to the client whose file it finds there, and a client to the server if it
finds the server's. The name that `baa_create_uds_name_string` returns is looked up without its
last byte when it has as many as `sun_path`, and whole otherwise; it leads to the server wherever
that is the server's path. -/
theorem endpoints (e : UdsEndpoints n) {tr : List (NetCall × SysRet)} {made : UdsResult} {sfd : ℕ}
    (hserver : (baaUdsDgramServer e.serverPid (some e.serverName) e.serverDir).Exec tr made)
    (hmade : made.sfd = some sfd)
    {trs : Fin n → List (NetCall × SysRet)} {mades : Fin n → UdsResult} {sfds : Fin n → ℕ}
    (hclients : ∀ i, (baaUdsDgramClient (e.pid i) (some (e.name i)) (e.dir i)).Exec (trs i)
      (mades i))
    (hmades : ∀ i, (mades i).sfd = some (sfds i)) :
    (∃ addr v, (.bindUnix sfd addr, .ok v) ∈ tr ∧ addr.path = e.serverText) ∧
    (∀ i, ∃ addr v, (.bindUnix (sfds i) addr, .ok v) ∈ trs i ∧ addr.path = e.clientText i) ∧
    (Function.Injective e.clientFile ∧ ∀ i, e.clientFile i ≠ e.serverFile) ∧
    (e.Found → ∃ paths : ClientsPaths n,
      paths.kdoF = e.serverText ∧ paths.retF = e.clientText ∧
      (∀ path i, paths.leadsTo path = some i ↔ e.serverLooks path = some (e.clientFile i)) ∧
      (∀ i path, paths.reaches i path = true ↔ e.clientLooks i path = some e.serverFile) ∧
      ∀ (file dir : List Byte) (tr' : List (NetCall × SysRet)) (str : List Byte),
        (0 : Byte) ∉ file → (0 : Byte) ∉ dir →
        (baaCreateUdsNameString (some file) (some dir)).Exec tr' (some str) →
        ∃ path, BuildsPath str path ∧
          path = (if (dir ++ [47] ++ file).length = sizeofSunPath
            then (dir ++ [47] ++ file).dropLast else dir ++ [47] ++ file) ∧
          (path = paths.kdoF → ∀ i, paths.reaches i path = true)) := by
  obtain ⟨hserverLen, hbind⟩ : e.serverText.length ≤ sizeofSunPath - 1 ∧
      ∃ addr v, (NetCall.bindUnix sfd addr, SysRet.ok v) ∈ tr ∧ addr.path = e.serverText :=
    udsSocket_binds e.serverPid e.nul_notMem_server.1 e.nul_notMem_server.2 .dgram (by decide) tr
      made hserver sfd hmade
  have hclient : ∀ i, (e.clientText i).length ≤ sizeofSunPath - 1 ∧
      ∃ addr v, (.bindUnix (sfds i) addr, .ok v) ∈ trs i ∧ addr.path = e.clientText i := fun i =>
    udsSocket_binds (e.pid i) (e.nul_notMem i).1 (e.nul_notMem i).2 .dgram (by decide) (trs i)
      (mades i) (hclients i) (sfds i) (hmades i)
  refine ⟨hbind, fun i => (hclient i).2, ⟨e.clientFile_injective, e.clientFile_ne⟩, fun hfound =>
    ⟨e.paths (Nat.lt_of_le_sub_one (by decide) hserverLen)
      (fun i => Nat.lt_of_le_sub_one (by decide) (hclient i).1) hfound,
      rfl, rfl, fun path i => e.clientAt_eq_some_iff, fun i path => decide_eq_true_iff, ?_⟩⟩
  intro file dir tr' str hfile hdir hcreate
  have hret := baaCreateUdsNameString_ensures file dir tr' (some str) hcreate
  beta_reduce at hret
  split_ifs at hret with hok
  obtain rfl := Option.some.inj hret
  have hnul : (0 : Byte) ∉ dir ++ [47] ++ file := by simpa using ⟨hdir, hfile⟩
  refine ⟨_, buildsPath_take hnul, take_eq_of_length_le hok.1, ?_⟩
  rintro hpath i
  rw [hpath]
  exact ClientsPaths.reaches_kdoF _ i

/-- A server, and clients that all have one name, without a directory; nobody changes its working
directory. -/
def sameName : UdsEndpoints n where
  serverPid := 1
  serverName := [115]
  serverDir := none
  pid i := i.val + 2
  name _ := [99]
  dir _ := none
  pid_injective i j h := Fin.ext (Nat.add_right_cancel h)
  nul_notMem_server := by decide
  nul_notMem _ := by decide
  serverIn := 0
  clientIn _ := 0
  serverLooks path := some (.ofPath slash 0 path)
  clientLooks _ path := some (.ofPath slash 0 path)

/-- Every call of a constructor succeeds, and the socket is the descriptor 3. -/
def udsAllSucceed : List SysRet := [.ok 0, .ok 3, .ok 0, .ok 0, .ok 0, .ok 0]

/-- The constructors return sockets that are bound at the paths of a server and its clients. -/
theorem endpoints_sameName :
    ∃ (tr : List (NetCall × SysRet)) (made : UdsResult) (trs : Fin 2 → List (NetCall × SysRet))
      (mades : Fin 2 → UdsResult) (paths : ClientsPaths 2),
      (baaUdsDgramServer 1 (some [115]) none).Exec tr made ∧ made.sfd = some 3 ∧
      (∀ i : Fin 2, (baaUdsDgramClient (i.val + 2) (some [99]) none).Exec (trs i) (mades i) ∧
        (mades i).sfd = some 3) ∧
      (∃ addr v, (.bindUnix 3 addr, .ok v) ∈ tr ∧ addr.path = paths.kdoF) ∧
      (∀ i, ∃ addr v, (.bindUnix 3 addr, .ok v) ∈ trs i ∧ addr.path = paths.retF i) ∧
      ∀ path i, paths.leadsTo path = some i ↔
        some (.ofPath slash 0 path) = some ((sameName : UdsEndpoints 2).clientFile i) := by
  have hserver : ((baaUdsDgramServer 1 (some [115]) none).eval udsAllSucceed).map
      (fun e => e.2.sfd) = some (some 3) := by decide +kernel
  have hclient : ∀ i : Fin 2, ((baaUdsDgramClient (i.val + 2) (some [99]) none).eval
      udsAllSucceed).map (fun e => e.2.sfd) = some (some 3) := by decide +kernel
  obtain ⟨e, he, hmade⟩ := Option.map_eq_some_iff.mp hserver
  have hclients := fun i => Option.map_eq_some_iff.mp (hclient i)
  choose es hes hmades using hclients
  obtain ⟨hbind, hbinds, -, hpaths⟩ := endpoints (sameName : UdsEndpoints 2)
    (exec_of_eval he) hmade (fun i => exec_of_eval (hes i)) hmades
  obtain ⟨paths, hkdoF, hretF, hleads, -⟩ := hpaths ⟨fun _ => rfl, fun _ => rfl⟩
  exact ⟨e.1, e.2, fun i => (es i).1, fun i => (es i).2, paths, exec_of_eval he, hmade,
    fun i => ⟨exec_of_eval (hes i), hmades i⟩, hkdoF ▸ hbind, hretF ▸ hbinds, hleads⟩

end Libbaalue
