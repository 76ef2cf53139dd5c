import Libbaalue.Fiber.Client
import Libbaalue.Net.Uds
import Mathlib.Data.List.TakeWhile

/-!
# Where a Unix domain server and its senders meet

A server binds the path `uds_socket` prints and checks against `sizeof(sun_path) - 1`; a sender
gets the name of that path from `baa_create_uds_name_string`, which checks against
`sizeof(sun_path)`, and copies `sizeof(sun_path) - 1` bytes of it. The two agree on every path
the server can bind (`serverMeetsSender`), and the sender's own two steps agree on every name
except those of exactly 108 bytes (`paths_agree_iff`).

The length of a path decides everything here, and the cases are three: a path with room for its NUL,
one of exactly the size of `sun_path`, and a longer one. The server refuses the second and the
third, and `baa_create_uds_name_string` the third only. So a server and its senders never disagree,
as the server is the stricter of the two, while a name may be returned that no server can have.
-/

namespace Libbaalue

open CallProgram

/-! ### The address of a sender -/

/-- The address of the server that `baa_set_schedule_props_via_server` builds from `kdo_f`. -/
def kdoAddr (kdoF : List Byte) : AddrArg := ⟨strncpySunPath kdoF, sizeofSockaddrUn⟩

/-- It is the address the client starts with. -/
private theorem addr_start (args : ClientArgs) (ptypeRcv : Byte) :
    (Client.start args ptypeRcv).addr = kdoAddr args.kdoF := by
  rcases hfiber : args.fiberArray[0]? with _ | fiber
  · rw [Client.start, Client.next, hfiber]
    rfl
  · rw [Client.start, next_of_getElem? _ hfiber]
    rfl

/-- The `sun_path` the client builds from a string is a path, with its NUL. -/
def BuildsPath (str path : List Byte) : Prop :=
  ∀ (args : ClientArgs) (ptypeRcv : Byte), args.kdoF = str →
    boundAt path <+: (Client.start args ptypeRcv).addr.sunPath ∧
      (Client.start args ptypeRcv).addr.path = path

variable {str : List Byte}

/-- `strncpy` copies all but the last byte. -/
theorem buildsPath_take (hnul : (0 : Byte) ∉ str) :
    BuildsPath str (str.take (sizeofSunPath - 1)) := by
  have hcut : strncpySunPath str = strncpySunPath (str.take (sizeofSunPath - 1)) := by
    rw [strncpySunPath, strncpySunPath, List.take_take, min_self]
  have hlt : (str.take (sizeofSunPath - 1)).length < sizeofSunPath :=
    (List.length_take_le _ _).trans_lt (by decide)
  have hfront : boundAt (str.take (sizeofSunPath - 1)) <+: strncpySunPath str := by
    rw [hcut]
    exact boundAt_prefix_strncpy hlt
  rintro args ptypeRcv rfl
  rw [addr_start]
  refine ⟨hfront, AddrArg.path_eq_of_prefix (fun h => hnul (List.mem_of_mem_take h)) hfront ?_⟩
  rwa [kdoAddr, sizeofSockaddrUn, Nat.add_sub_cancel_left]

/-- A string is built as it is if and only if it leaves room for the NUL. -/
theorem buildsPath_self_iff (hnul : (0 : Byte) ∉ str) :
    BuildsPath str str ↔ str.length ≤ sizeofSunPath - 1 := by
  constructor
  · intro h
    -- the path in any such address is the cut one
    have hself := (h ⟨.lp64, fun _ _ => 0, [], str⟩ 0 rfl).2
    have htake := (buildsPath_take hnul ⟨.lp64, fun _ _ => 0, [], str⟩ 0 rfl).2
    rw [← hself, htake]
    exact List.length_take_le _ _
  · intro hle
    have htake := buildsPath_take hnul
    rwa [List.take_of_length_le hle] at htake

/-! ### The address of a server -/

/-- The path a server binds, with `SUN_LEN`. -/
theorem path_sunLen (hnul : (0 : Byte) ∉ str) (hfits : str.length ≤ sizeofSunPath - 1) :
    AddrArg.path ⟨strncpySunPath str, sunPathOffset + str.length⟩ = str := by
  have hlt : str.length < sizeofSunPath := Nat.lt_of_le_sub_one (by decide) hfits
  obtain ⟨rest, hrest⟩ := boundAt_prefix_strncpy hlt
  have htake : (strncpySunPath str).take str.length = str := by
    rw [strncpySunPath, ← hrest, boundAt, List.append_assoc, List.take_left]
  have hall : ∀ b ∈ str, decide (b ≠ 0) = true := fun b hb =>
    decide_eq_true fun hzero => hnul (hzero ▸ hb)
  rw [AddrArg.path, Nat.add_sub_cancel_left, htake, List.takeWhile_eq_self_iff.mpr hall]

/-- A datagram server that succeeds has bound its whole path. -/
theorem baaUdsDgramServer_binds (pid : ℕ) (name dir : List Byte) {tr : List (NetCall × SysRet)}
    {made : UdsResult} {sfd : ℕ}
    (hexec : (baaUdsDgramServer pid (some name) (some dir)).Exec tr made)
    (hmade : made.sfd = some sfd) :
    (dir ++ [47] ++ name ++ [46] ++ udsNameAdd).length ≤ sizeofSunPath - 1 ∧
      ∃ v, (.bindUnix sfd ⟨strncpySunPath (dir ++ [47] ++ name ++ [46] ++ udsNameAdd),
        sunPathOffset + (dir ++ [47] ++ name ++ [46] ++ udsNameAdd).length⟩, .ok v) ∈ tr := by
  obtain ⟨hle, unlinked, tr₁, rfl, hrest⟩ :=
    udsSocket_success pid name (some dir) .dgram useBind tr made hexec sfd hmade
  obtain ⟨addr, v, hmem⟩ := udsConfigure_bound sfd _ _ (by decide) tr₁ made hrest hmade
  obtain ⟨-, -, rfl⟩ := (udsConfigure_makes sfd _ _ useBind).of_mem hrest _ hmem
  exact ⟨hle, v, List.mem_cons_of_mem _ (List.mem_cons_of_mem _ hmem)⟩

/-! ### The name of a path -/

/-- **What `baa_create_uds_name_string` returns**: the path, if it has no more bytes than `sun_path`
and there is memory for it. -/
theorem baaCreateUdsNameString_ensures (file dir : List Byte) :
    (baaCreateUdsNameString (some file) (some dir)).Ensures fun tr ret =>
      ret = if (dir ++ [47] ++ file).length ≤ sizeofSunPath ∧ ∀ e ∈ tr, e.2.isOk = true
        then some (dir ++ [47] ++ file) else none := by
  generalize htext : dir ++ [47] ++ file = text
  have hiff : (snprintfMaxLine text).length > sizeofSunPath ↔ ¬ text.length ≤ sizeofSunPath := by
    rw [snprintfMaxLine, List.length_take, sizeofSunPath, baaMaxLine]
    omega
  rw [baaCreateUdsNameString, htext]
  split_ifs with hlong
  · rw [ensures_pure, if_neg fun h => hiff.mp hlong h.1]
  · have hle : text.length ≤ sizeofSunPath := not_not.mp fun h => hlong (hiff.mpr h)
    have hcopy : (snprintfMaxLine text).take text.length = text := by
      rw [snprintfMaxLine, List.take_take, List.take_of_length_le]
      rw [baaMaxLine]
      rw [sizeofSunPath] at hle
      omega
    rw [ensures_perform_bind]
    rintro (v | errno)
    · simp [hle, hcopy, SysRet.isOk]
    · simp [SysRet.isOk]

/-! ### Agreement -/

/-- The path a server has bound is the one the client builds from the name of its socket. -/
def ServerMeetsSender (name dir : List Byte) : Prop :=
  ∀ (pid : ℕ) (tr : List (NetCall × SysRet)) (made : UdsResult) (sfd : ℕ),
    (baaUdsDgramServer pid (some name) (some dir)).Exec tr made → made.sfd = some sfd →
    ∀ (tr' : List (NetCall × SysRet)) (ret : Option (List Byte)),
      (baaCreateUdsNameString (some (name ++ [46] ++ udsNameAdd)) (some dir)).Exec tr' ret →
      (∀ e ∈ tr', e.2.isOk = true) →
      ∃ str addr v, ret = some str ∧ (.bindUnix sfd addr, .ok v) ∈ tr ∧ BuildsPath str addr.path

/-- A name that is returned is the whole path, and the client builds that path from it. -/
def NameStringAgrees (file dir : List Byte) : Prop :=
  ∀ (tr : List (NetCall × SysRet)) (str : List Byte),
    (baaCreateUdsNameString (some file) (some dir)).Exec tr (some str) →
      str = dir ++ [47] ++ file ∧ BuildsPath str str

/-- Every server meets its senders: its check is the stricter one. -/
theorem serverMeetsSender {name dir : List Byte} (hname : (0 : Byte) ∉ name)
    (hdir : (0 : Byte) ∉ dir) : ServerMeetsSender name dir := by
  intro pid tr made sfd hserver hmade tr' ret hcreate hok
  obtain ⟨hle, v, hmem⟩ := baaUdsDgramServer_binds pid name dir hserver hmade
  have hnul : (0 : Byte) ∉ dir ++ [47] ++ name ++ [46] ++ udsNameAdd := by
    simpa [udsNameAdd] using ⟨hdir, hname⟩
  have hassoc : dir ++ [47] ++ (name ++ [46] ++ udsNameAdd) =
      dir ++ [47] ++ name ++ [46] ++ udsNameAdd := by simp
  have hret := baaCreateUdsNameString_ensures _ dir tr' ret hcreate
  beta_reduce at hret
  rw [hassoc, if_pos ⟨hle.trans (Nat.sub_le _ _), hok⟩] at hret
  refine ⟨_, _, v, hret, hmem, ?_⟩
  rw [path_sunLen hnul hle]
  exact (buildsPath_self_iff hnul).mpr hle

/-- The name of a path of exactly `sizeof(sun_path)` bytes is returned and then cut. For all others
what is returned is what a sender uses. -/
theorem nameStringAgrees_iff {file dir : List Byte} (hfile : (0 : Byte) ∉ file)
    (hdir : (0 : Byte) ∉ dir) :
    NameStringAgrees file dir ↔ (dir ++ [47] ++ file).length ≠ sizeofSunPath := by
  have hnul : (0 : Byte) ∉ dir ++ [47] ++ file := by simpa using ⟨hdir, hfile⟩
  constructor
  · intro h hlen
    obtain ⟨tr, ret, hexec, henv⟩ :=
      (baaCreateUdsNameString (some file) (some dir)).exists_exec fun _ => .ok 0
    have hret := baaCreateUdsNameString_ensures file dir tr ret hexec
    beta_reduce at hret
    rw [if_pos ⟨hlen.le, fun e he => (henv e he).symm ▸ rfl⟩] at hret
    have hle := (buildsPath_self_iff hnul).mp (h tr _ (hret ▸ hexec)).2
    rw [hlen] at hle
    exact absurd hle (by decide)
  · intro hne tr str hexec
    have hret := baaCreateUdsNameString_ensures file dir tr (some str) hexec
    beta_reduce at hret
    split_ifs at hret with hok
    obtain rfl := Option.some.inj hret
    refine ⟨rfl, (buildsPath_self_iff hnul).mpr ?_⟩
    exact Nat.le_sub_one_of_lt (lt_of_le_of_ne hok.1 hne)

/-- **Where the path agrees.** For every name, file and directory: a datagram server that
succeeds has bound the path the client builds from its name, and a name that is returned is the
whole path and the one the client builds, if and only if the path of the file does not have
exactly 108 bytes. -/
theorem paths_agree_iff {name file dir : List Byte} (hname : (0 : Byte) ∉ name)
    (hfile : (0 : Byte) ∉ file) (hdir : (0 : Byte) ∉ dir) :
    ServerMeetsSender name dir ∧ NameStringAgrees file dir ↔
      (dir ++ [47] ++ file).length ≠ sizeofSunPath := by
  rw [nameStringAgrees_iff hfile hdir]
  exact and_iff_right (serverMeetsSender hname hdir)

/-- The name `"s"` in the directory `"/"`. -/
theorem paths_agree_short :
    ServerMeetsSender [115] [47] ∧ NameStringAgrees [115] [47] ↔
      ([47] ++ [47] ++ [115] : List Byte).length ≠ sizeofSunPath :=
  paths_agree_iff (by decide) (by decide) (by decide)

/-- A file name of 106 bytes in the directory `"/"`. -/
theorem not_nameStringAgrees_long :
    ¬ ∀ name file dir : List Byte, (0 : Byte) ∉ name → (0 : Byte) ∉ file → (0 : Byte) ∉ dir →
      ServerMeetsSender name dir ∧ NameStringAgrees file dir := by
  intro h
  have hagrees := (h [115] (List.replicate 106 97) [47] (by decide) (by decide) (by decide)).2
  exact (nameStringAgrees_iff (by decide) (by decide)).mp hagrees (by decide)

end Libbaalue
