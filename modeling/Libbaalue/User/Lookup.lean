import Libbaalue.Foundations.Buffer
import Libbaalue.Platform
import Mathlib.Data.List.GetD

/-!
# Look-ups of users and groups

`get_user_infos` and `baa_get_groupname`: a text of the user or group data base is copied into the
buffer of the caller. The check in front of the copy and the copy itself go by `size - 1`, and
`strncpy` ends its copy with a NUL only where there is room for one. So the caller gets the whole
string unless `size` is 0 and wraps around, or the text fits exactly and its NUL was not there
before (`lookups_returnText_iff`).

The data base is a parameter, a function from numbers to entries, and an entry that is missing is an
error with its own message. The four look-ups are one copy with a check in front, and differ in the
field and the message; they are proved from one lemma about the copy (`copyText_returnsText_iff`).
The buffer has no end in the model, so that a write behind what `size` says is seen where it is
made.
-/

namespace Libbaalue

/-- A C string: no byte of it is NUL, and its length is a `size_t`. -/
structure CString (abi : Abi) where
  bytes : List Byte
  nul_notMem : 0 ∉ bytes
  length_lt : bytes.length < 2 ^ abi.longBits

/-- The fields of `struct passwd` that are looked up: the name, the directory and the information
about the user. -/
structure Passwd (abi : Abi) where
  pwName : CString abi
  pwDir : CString abi
  pwGecos : CString abi

/-- The field of `struct group` that is looked up. -/
structure Group (abi : Abi) where
  grName : CString abi

/-- A message: its format and the arguments that are passed. -/
structure ErrorMsg where
  format : String
  args : List CInt
  deriving DecidableEq, Repr

/-- What a look-up comes to; a null pointer for a buffer is `none`. The messages are in the order in
which they are logged. -/
structure LookupRet where
  ret : CInt
  buf : Option (Buffer Byte)
  msgs : List ErrorMsg

variable {abi : Abi}

/-- `strlen`. -/
def strlen (s : CString abi) : CLong abi := BitVec.ofNat abi.longBits s.bytes.length

/-- `strncpy`: behind the end of the string NULs are written. -/
def strncpy (dst : Buffer Byte) (src : CString abi) (n : CLong abi) : Buffer Byte :=
  dst.fill (fun i => src.bytes.getD i 0) n.toNat

/-- `GET_USERNAME`. -/
def getUsername : Byte := 0x01

/-- `GET_USERDIR`. -/
def getUserdir : Byte := 0x02

/-- `GET_USERINFO`. -/
def getUserinfo : Byte := 0x03

/-- `CHECK_BUF`, with the message of the caller. -/
def checkBuf (msg : String) (buf : Option (Buffer Byte)) (k : Buffer Byte → LookupRet) :
    LookupRet :=
  match buf with
  | none => ⟨-1, none, [⟨msg, []⟩]⟩
  | some buf => k buf

/-- Check the length of the text and copy it. Both go by `size - 1`, which wraps around for a size
of 0; the numbers of the message are not passed. -/
def copyText (text : CString abi) (buf : Buffer Byte) (size : CLong abi) : LookupRet :=
  let len := strlen text
  let size := size - 1
  if size < len then ⟨-1, some buf, [⟨"len(%d) > size(%d)", []⟩]⟩
  else ⟨0, some (strncpy buf text size), []⟩

/-- `get_user_infos`: the field that is asked for, of the entry of a user, if there is one. -/
def getUserInfos (getpwuid : CInt → Option (Passwd abi)) (uid : CInt)
    (buf : Option (Buffer Byte)) (size : CLong abi) (what : Byte) : LookupRet :=
  match getpwuid uid with
  | none => ⟨-1, buf, [⟨"struct passwd == NULL", []⟩]⟩
  | some pwd =>
    if what = getUsername then
      checkBuf "buffer for user-name == NULL" buf fun buf => copyText pwd.pwName buf size
    else if what = getUserdir then
      checkBuf "buffer for user-name == NULL" buf fun buf => copyText pwd.pwDir buf size
    else if what = getUserinfo then
      checkBuf "buffer for user-name == NULL" buf fun buf => copyText pwd.pwGecos buf size
    else ⟨0, buf, [⟨"unknown type: %d", [what.setWidth 32]⟩]⟩

/-- `baa_get_username`. -/
def baaGetUsername (getpwuid : CInt → Option (Passwd abi)) (uid : CInt)
    (buf : Option (Buffer Byte)) (size : CLong abi) : LookupRet :=
  getUserInfos getpwuid uid buf size getUsername

/-- `baa_get_homedir`. -/
def baaGetHomedir (getpwuid : CInt → Option (Passwd abi)) (uid : CInt)
    (buf : Option (Buffer Byte)) (size : CLong abi) : LookupRet :=
  getUserInfos getpwuid uid buf size getUserdir

/-- `baa_get_userinfo`. -/
def baaGetUserinfo (getpwuid : CInt → Option (Passwd abi)) (uid : CInt)
    (buf : Option (Buffer Byte)) (size : CLong abi) : LookupRet :=
  getUserInfos getpwuid uid buf size getUserinfo

/-- `baa_get_groupname`. -/
def baaGetGroupname (getgrgid : CInt → Option (Group abi)) (gid : CInt)
    (buf : Option (Buffer Byte)) (size : CLong abi) : LookupRet :=
  checkBuf "buffer for group name == NULL" buf fun buf =>
    match getgrgid gid with
    | none => ⟨-1, some buf, [⟨"struct group == NULL", []⟩]⟩
    | some grp => copyText grp.grName buf size

/-! ### What a look-up returns -/

/-- The text is returned, or refused: with -1 the memory is as it was before, with 0 it holds the
text and a NUL, inside the buffer. It is returned if it fits, and nothing is written behind the
buffer. -/
def ReturnsText (text : CString abi) (size : CLong abi) (mem : ℕ → Byte) (r : LookupRet) : Prop :=
  ∃ buf, r.buf = some buf ∧ buf.WritesBelow size.toNat ∧
    (text.bytes.length < size.toNat → r.ret = 0) ∧
    (r.ret = -1 ∧ buf.cell = mem ∨
      r.ret = 0 ∧ text.bytes.length < size.toNat ∧
        buf.front (text.bytes.length + 1) = text.bytes ++ [0])

/-- There is a buffer, and a NUL in it already where the text fits exactly. -/
def NulIfExact (text : CString abi) (size : CLong abi) (mem : ℕ → Byte) : Prop :=
  size ≠ 0 ∧ (text.bytes.length + 1 = size.toNat → mem text.bytes.length = 0)

variable {text : CString abi} {size : CLong abi} {mem : ℕ → Byte}

@[simp]
theorem toNat_strlen (s : CString abi) : (strlen s).toNat = s.bytes.length := by
  rw [strlen, BitVec.toNat_ofNat, Nat.mod_eq_of_lt s.length_lt]

/-- A copy that is long enough starts with the text. -/
private theorem front_strncpy {buf : Buffer Byte} {n : CLong abi}
    (h : text.bytes.length ≤ n.toNat) :
    (strncpy buf text n).front text.bytes.length = text.bytes := by
  rw [strncpy, Buffer.front_fill_of_le _ _ h]
  refine List.ext_getElem (by simp) fun i hi hi' => ?_
  rw [List.getElem_map, List.getElem_range, List.getD_eq_getElem _ _ hi']

/-- What stands behind the text: a NUL if the copy goes on, and the old byte otherwise. -/
private theorem cell_strncpy {buf : Buffer Byte} {n : CLong abi} (h : text.bytes.length ≤ n.toNat) :
    (strncpy buf text n).cell text.bytes.length =
      if text.bytes.length = n.toNat then buf.cell text.bytes.length else 0 := by
  rw [strncpy, Buffer.cell_fill]
  split_ifs with hlt heq heq
  · exact absurd hlt heq.not_lt
  · exact List.getD_eq_default _ _ le_rfl
  · rfl
  · omega

/-- With `size` 0 the copy starts behind the buffer. -/
private theorem not_returnsText_zero (text : CString abi) (mem : ℕ → Byte) :
    ¬ ReturnsText text 0 mem (copyText text (.fresh mem) 0) := by
  rintro ⟨buf, hbuf, hbelow, -⟩
  have hmax : (0 - 1 : CLong abi).toNat = 2 ^ abi.longBits - 1 := by cases abi <;> rfl
  have hfits : ¬ (0 - 1 : CLong abi) < strlen text := by
    rw [BitVec.lt_def, hmax, toNat_strlen]
    have := text.length_lt
    omega
  rw [copyText] at hbuf
  simp only [if_neg hfits] at hbuf
  obtain rfl := Option.some.inj hbuf
  have hfirst : 0 ∈ (strncpy (.fresh mem) text (0 - 1)).written := by
    rw [strncpy, Buffer.written_fill, hmax]
    have hpos : 2 ≤ 2 ^ abi.longBits := by cases abi <;> decide
    exact List.mem_append_right _ (List.mem_range.mpr (by omega))
  exact absurd (hbelow 0 hfirst) (by simp)

/-- Otherwise it ends in front of the last byte. -/
private theorem writesBelow_strncpy (text : CString abi) (h : size ≠ 0) :
    (strncpy (.fresh mem) text (size - 1)).WritesBelow size.toNat := by
  intro i hi
  rw [strncpy, Buffer.written_fill, toNat_sub_one_of_ne_zero h] at hi
  have hlt : i < size.toNat - 1 := List.mem_range.mp hi
  omega

/-- The string is there if its NUL is written, or was there before. -/
private theorem front_strncpy_eq_iff (h : size ≠ 0) (hlen : text.bytes.length ≤ (size - 1).toNat) :
    (strncpy (.fresh mem) text (size - 1)).front (text.bytes.length + 1) = text.bytes ++ [0] ↔
      (text.bytes.length + 1 = size.toNat → mem text.bytes.length = 0) := by
  have hpos : size.toNat ≠ 0 := fun hzero => h (BitVec.eq_of_toNat_eq hzero)
  have hexact : text.bytes.length = (size - 1).toNat ↔ text.bytes.length + 1 = size.toNat := by
    rw [toNat_sub_one_of_ne_zero h]
    omega
  rw [Buffer.front_succ, front_strncpy hlen, List.append_cancel_left_eq, List.singleton_inj,
    cell_strncpy hlen]
  simp only [hexact]
  split_ifs with heq
  · exact ⟨fun hnul _ => hnul, fun hnul => hnul heq⟩
  · exact iff_of_true rfl fun hexact => absurd hexact heq

/-- **One copy**: the caller gets the whole text if and only if its NUL is written, or there
already. -/
theorem copyText_returnsText_iff (text : CString abi) (size : CLong abi) (mem : ℕ → Byte) :
    ReturnsText text size mem (copyText text (.fresh mem) size) ↔ NulIfExact text size mem := by
  rcases eq_or_ne size 0 with rfl | hsize
  · exact iff_of_false (not_returnsText_zero text mem) fun h => h.1 rfl
  have hlast : (size - 1).toNat = size.toNat - 1 := toNat_sub_one_of_ne_zero hsize
  have hpos : size.toNat ≠ 0 := fun hzero => hsize (BitVec.eq_of_toNat_eq hzero)
  rw [NulIfExact, and_iff_right hsize, copyText]
  by_cases hlong : size - 1 < strlen text
  · -- refused, and rightly so
    have hlen : size.toNat - 1 < text.bytes.length := by
      rwa [BitVec.lt_def, hlast, toNat_strlen] at hlong
    simp only [if_pos hlong]
    have hbelow : (Buffer.fresh mem).WritesBelow size.toNat := List.forall_mem_nil _
    refine iff_of_true ⟨_, rfl, hbelow, fun hfits => ?_, .inl ⟨rfl, rfl⟩⟩ fun hexact => ?_
    · omega
    · omega
  · have hlen : text.bytes.length ≤ (size - 1).toNat := by
      rwa [BitVec.lt_def, toNat_strlen, not_lt] at hlong
    rw [← front_strncpy_eq_iff hsize hlen]
    simp only [if_neg hlong]
    constructor
    · rintro ⟨buf, hbuf, -, -, hret | ⟨-, -, hfront⟩⟩
      · cases hret.1
      · obtain rfl := Option.some.inj hbuf
        exact hfront
    · intro hfront
      exact ⟨_, rfl, writesBelow_strncpy text hsize, fun _ => rfl, .inr ⟨rfl, by omega, hfront⟩⟩

/-! ### The four look-ups -/

variable {getpwuid : CInt → Option (Passwd abi)} {getgrgid : CInt → Option (Group abi)}
  {uid gid : CInt} {pwd : Passwd abi} {grp : Group abi} {buf : Buffer Byte}

theorem baaGetUsername_of_some (hpwd : getpwuid uid = some pwd) :
    baaGetUsername getpwuid uid (some buf) size = copyText pwd.pwName buf size := by
  rw [baaGetUsername, getUserInfos, hpwd]
  rfl

theorem baaGetHomedir_of_some (hpwd : getpwuid uid = some pwd) :
    baaGetHomedir getpwuid uid (some buf) size = copyText pwd.pwDir buf size := by
  rw [baaGetHomedir, getUserInfos, hpwd]
  rfl

theorem baaGetUserinfo_of_some (hpwd : getpwuid uid = some pwd) :
    baaGetUserinfo getpwuid uid (some buf) size = copyText pwd.pwGecos buf size := by
  rw [baaGetUserinfo, getUserInfos, hpwd]
  rfl

theorem baaGetGroupname_of_some (hgrp : getgrgid gid = some grp) :
    baaGetGroupname getgrgid gid (some buf) size = copyText grp.grName buf size := by
  rw [baaGetGroupname, checkBuf, hgrp]

/-- **When a look-up returns a string.** For a user and a group, whatever `size` is and whatever
the buffer holds: the name, the home directory, the information and the name of the group are
returned or refused as they should if and only if `size` is not 0 and, where the text fits exactly,
its NUL is in the buffer before. -/
theorem lookups_returnText_iff (hpwd : getpwuid uid = some pwd) (hgrp : getgrgid gid = some grp)
    (size : CLong abi) (mem : ℕ → Byte) :
    (ReturnsText pwd.pwName size mem (baaGetUsername getpwuid uid (some (.fresh mem)) size) ↔
      NulIfExact pwd.pwName size mem) ∧
    (ReturnsText pwd.pwDir size mem (baaGetHomedir getpwuid uid (some (.fresh mem)) size) ↔
      NulIfExact pwd.pwDir size mem) ∧
    (ReturnsText pwd.pwGecos size mem (baaGetUserinfo getpwuid uid (some (.fresh mem)) size) ↔
      NulIfExact pwd.pwGecos size mem) ∧
    (ReturnsText grp.grName size mem (baaGetGroupname getgrgid gid (some (.fresh mem)) size) ↔
      NulIfExact grp.grName size mem) := by
  rw [baaGetUsername_of_some hpwd, baaGetHomedir_of_some hpwd, baaGetUserinfo_of_some hpwd,
    baaGetGroupname_of_some hgrp]
  exact ⟨copyText_returnsText_iff _ _ _, copyText_returnsText_iff _ _ _,
    copyText_returnsText_iff _ _ _, copyText_returnsText_iff _ _ _⟩

/-- The string `"root"`. -/
def rootString : CString .lp64 := ⟨[114, 111, 111, 116], by decide, by decide⟩

/-- The string `"/root"`. -/
def rootDir : CString .lp64 := ⟨[47, 114, 111, 111, 116], by decide, by decide⟩

/-- The entry of the user `root`. -/
def rootPasswd : Passwd .lp64 := ⟨rootString, rootDir, rootString⟩

/-- A data base with the user `root`. -/
def rootUser (_ : CInt) : Option (Passwd .lp64) := some rootPasswd

/-- A data base with the group `root`. -/
def rootGroup (_ : CInt) : Option (Group .lp64) := some ⟨rootString⟩

theorem lookups_returnText_iff_root :
    (ReturnsText rootPasswd.pwName 254 (fun _ => 88)
      (baaGetUsername rootUser 0 (some (.fresh fun _ => 88)) 254) ↔
        NulIfExact rootPasswd.pwName 254 fun _ => 88) ∧
    (ReturnsText rootPasswd.pwDir 254 (fun _ => 88)
      (baaGetHomedir rootUser 0 (some (.fresh fun _ => 88)) 254) ↔
        NulIfExact rootPasswd.pwDir 254 fun _ => 88) ∧
    (ReturnsText rootPasswd.pwGecos 254 (fun _ => 88)
      (baaGetUserinfo rootUser 0 (some (.fresh fun _ => 88)) 254) ↔
        NulIfExact rootPasswd.pwGecos 254 fun _ => 88) ∧
    (ReturnsText (Group.mk rootString).grName 254 (fun _ => 88)
      (baaGetGroupname rootGroup 0 (some (.fresh fun _ => 88)) 254) ↔
        NulIfExact (Group.mk rootString).grName 254 fun _ => 88) :=
  have hpwd : rootUser 0 = some rootPasswd := rfl
  have hgrp : rootGroup 0 = some ⟨rootString⟩ := rfl
  lookups_returnText_iff hpwd hgrp 254 fun _ => 88

/-- The name `root` comes without its NUL in a buffer of five bytes, and is written behind one of
none. -/
theorem not_returnsText_root :
    ¬ ReturnsText rootPasswd.pwName 5 (fun _ => 88)
      (baaGetUsername rootUser 0 (some (.fresh fun _ => 88)) 5) ∧
    ¬ ReturnsText rootPasswd.pwName 0 (fun _ => 88)
      (baaGetUsername rootUser 0 (some (.fresh fun _ => 88)) 0) := by
  have hpwd : rootUser 0 = some rootPasswd := rfl
  rw [baaGetUsername_of_some hpwd, baaGetUsername_of_some hpwd, copyText_returnsText_iff,
    copyText_returnsText_iff]
  refine ⟨fun h => ?_, fun h => h.1 rfl⟩
  have hexact : rootPasswd.pwName.bytes.length + 1 = (5 : CLong .lp64).toNat := by decide
  have hnul : (88 : Byte) = 0 := h.2 hexact
  exact absurd hnul (by decide)

end Libbaalue
