import Libbaalue.Foundations.Buffer
import Libbaalue.Foundations.CallMachine
import Libbaalue.Platform

/-!
# `baa_read_line`

The call as the machine of its reads: a byte at a time, with a jump back after a signal and after
every byte that is not the last one. The buffer is the memory behind the caller's pointer, and
`n_bytes` is what the caller says of it.

The variables hold what has been read so far, cut at `n_bytes - 1` bytes (`Filled`): so nothing is
written behind the buffer, unless `n_bytes` is 0 and this bound wraps around (`writesBelow_iff`).

The buffer is the caller's memory behind a pointer and has no end; that a store is inside of what
`n_bytes` says is a statement about the indexes that were written. The count that bounds the stores
is a `size_t`, as in the code, and so is the difference that it is compared with, which is why the
case of 0 is different. The reads may come to anything, in any order.
-/

namespace Libbaalue

open CallMachine

/-- `BAA_FILE_EMPTY`. -/
def baaFileEmpty (abi : Abi) : CLong abi := -2

/-- `'\n'`. -/
def newline : Byte := 10

/-- What `read` of one byte comes to: 1 and the byte, 0, or -1 and `errno`. -/
inductive ReadRet
  | byte (b : Byte)
  | eof
  | failed (errno : Errno)
  deriving DecidableEq, Repr

/-- The variables of `baa_read_line`; `tmp_buf` as an offset of `buf`. `ch` keeps the byte of the
read before. -/
structure ReadLineVars (abi : Abi) where
  count : CLong abi
  tmpBuf : ℕ
  ch : Byte
  buf : Buffer Byte

/-- At the label `read_cmd`, or behind a `return`. -/
inductive ReadLineState (abi : Abi)
  | readCmd (v : ReadLineVars abi)
  | returned (ret : CLong abi) (v : ReadLineVars abi)

/-- The calls of `baa_read_line`. -/
inductive ReadLineCall
  | read (fd : CInt)
  | returned

variable {abi : Abi} (nBytes : CLong abi)

/-- Store `ch` unless the buffer is full, by the count of the code. -/
def ReadLineVars.storeCh (v : ReadLineVars abi) : ReadLineVars abi :=
  if v.count.toNat < (nBytes - 1).toNat then
    { v with count := v.count + 1, tmpBuf := v.tmpBuf + 1, buf := v.buf.store v.tmpBuf v.ch }
  else v

/-- Terminate the string and return the count. The NUL goes behind the last byte that was stored,
whether there is room for it or not. -/
def ReadLineVars.finish (v : ReadLineVars abi) : ReadLineState abi :=
  .returned v.count { v with buf := v.buf.store v.tmpBuf 0 }

/-- From a `read` to the next one, or to a `return`. At the end of the file the code stores `ch` as
if it had been read just now. -/
def ReadLineVars.afterRead (v : ReadLineVars abi) : ReadRet → ReadLineState abi
  | .failed errno => if errno = .eintr then .readCmd v else .returned (-1) v
  | .eof =>
    if v.count = 0 then .returned (baaFileEmpty abi) v
    -- `ch` is still the byte of the read before
    else (v.storeCh nBytes).finish
  | .byte b =>
    if b ≠ newline then .readCmd ({ v with ch := b }.storeCh nBytes)
    else ({ v with ch := b }.storeCh nBytes).finish

/-- `baa_read_line`, as the machine of its reads. It does not look further than the answer to the
last one. -/
def baaReadLine (fd : CInt) : CallMachine (ReadLineState abi) ReadLineCall ReadRet where
  call
    | .readCmd _ => .read fd
    | .returned _ _ => .returned
  resume
    | .readCmd v, r => v.afterRead nBytes r
    | .returned ret v, _ => .returned ret v

/-- The entry of the call, with what is in the caller's memory. -/
def ReadLineState.start (mem : ℕ → Byte) : ReadLineState abi :=
  .readCmd ⟨0, 0, 0, .fresh mem⟩

/-- The variables, in the call and behind it. -/
def ReadLineState.vars : ReadLineState abi → ReadLineVars abi
  | readCmd v => v
  | returned _ v => v

/-! ### What the variables hold -/

/-- The variables after the bytes `bs`, of which the first `cap` are stored; what is behind them is
read and dropped. -/
structure Filled (cap : ℕ) (bs : List Byte) (v : ReadLineVars abi) : Prop where
  count_eq : v.count.toNat = min bs.length cap
  tmpBuf_eq : v.tmpBuf = min bs.length cap
  front_eq : v.buf.front v.tmpBuf = bs.take cap
  ch_eq : v.ch = bs.getLast?.getD 0
  written_eq : v.buf.written = List.range v.tmpBuf

variable {nBytes} {bs : List Byte} {v : ReadLineVars abi}

theorem filled_start (cap : ℕ) (mem : ℕ → Byte) :
    Filled cap [] (ReadLineState.start mem : ReadLineState abi).vars := by
  constructor <;> simp [ReadLineState.start, ReadLineState.vars, Buffer.front, Buffer.fresh]

/-- A byte more. -/
theorem Filled.storeCh (h : Filled (nBytes - 1).toNat bs v) (b : Byte) :
    Filled (nBytes - 1).toNat (bs ++ [b]) ({ v with ch := b }.storeCh nBytes) := by
  obtain ⟨hcount, htmp, hfront, -, hwritten⟩ := h
  have hcap : (nBytes - 1).toNat < 2 ^ abi.longBits := (nBytes - 1).isLt
  rw [ReadLineVars.storeCh]
  split_ifs with hroom
  · have hlen : bs.length < (nBytes - 1).toNat := by
      change v.count.toNat < _ at hroom
      omega
    rw [min_eq_left hlen.le] at hcount htmp
    rw [List.take_of_length_le hlen.le] at hfront
    have hlen' : (bs ++ [b]).length ≤ (nBytes - 1).toNat := by
      rw [List.length_append, List.length_singleton]
      exact hlen
    have hmin : min (bs ++ [b]).length (nBytes - 1).toNat = bs.length + 1 := by
      rw [min_eq_left hlen', List.length_append, List.length_singleton]
    refine ⟨?_, by rw [hmin, htmp], ?_, by simp, ?_⟩
    · rw [hmin, BitVec.toNat_add, toNat_one, hcount, Nat.mod_eq_of_lt (by omega)]
    · rw [Buffer.front_store_succ, hfront, List.take_of_length_le hlen']
    · rw [Buffer.written_store, hwritten, List.range_succ]
  · have hlen : (nBytes - 1).toNat ≤ bs.length := by
      change ¬ v.count.toNat < _ at hroom
      omega
    rw [min_eq_right hlen] at hcount htmp
    have hmin : min (bs ++ [b]).length (nBytes - 1).toNat = (nBytes - 1).toNat :=
      min_eq_right (hlen.trans (by simp))
    refine ⟨by rw [hmin, ← hcount], by rw [hmin, ← htmp], ?_, by simp, hwritten⟩
    rw [List.take_append_of_le_length hlen, ← hfront]

/-- The string is terminated behind what is stored, and nothing else was written. -/
structure Finished (cap : ℕ) (text : List Byte) (ret : CLong abi) (v : ReadLineVars abi) :
    Prop where
  ret_eq : ret.toNat = min text.length cap
  front_eq : v.buf.front (min text.length cap + 1) = text.take cap ++ [0]
  written_eq : v.buf.written = List.range (min text.length cap + 1)

theorem Filled.finish {cap : ℕ} (h : Filled cap bs v) :
    ∃ ret v', v.finish = .returned ret v' ∧ Finished cap bs ret v' := by
  refine ⟨_, _, rfl, h.count_eq, ?_, ?_⟩
  · rw [← h.tmpBuf_eq, Buffer.front_store_succ, h.front_eq]
  · rw [Buffer.written_store, h.written_eq, ← h.tmpBuf_eq, List.range_succ]

/-! ### Which indexes are written -/

variable {fd : CInt}

/-- What holds of a call whose `n_bytes` is not zero. -/
def ReadLineState.InBounds (nBytes : CLong abi) : ReadLineState abi → Prop
  | readCmd v => ∃ bs, Filled (nBytes - 1).toNat bs v
  | returned _ v => v.buf.WritesBelow nBytes.toNat

theorem Filled.writesBelow (h : nBytes ≠ 0) (hfilled : Filled (nBytes - 1).toNat bs v) :
    v.buf.WritesBelow nBytes.toNat := by
  intro i hi
  rw [hfilled.written_eq, List.mem_range, hfilled.tmpBuf_eq, toNat_sub_one_of_ne_zero h] at hi
  omega

theorem Finished.writesBelow {ret : CLong abi} (h : nBytes ≠ 0)
    (hfinished : Finished (nBytes - 1).toNat bs ret v) : v.buf.WritesBelow nBytes.toNat := by
  intro i hi
  have hpos : nBytes.toNat ≠ 0 := fun hzero => h (BitVec.eq_of_toNat_eq hzero)
  rw [hfinished.written_eq, List.mem_range, toNat_sub_one_of_ne_zero h] at hi
  omega

/-- The terminating NUL stays inside as well. -/
private theorem Filled.inBounds_finish (h : nBytes ≠ 0) (hfilled : Filled (nBytes - 1).toNat bs v) :
    v.finish.InBounds nBytes := by
  obtain ⟨ret, v', hfinish, hfinished⟩ := hfilled.finish
  rw [hfinish]
  exact hfinished.writesBelow h

/-- A read keeps what holds, whatever it comes to. -/
theorem inBounds_resume (h : nBytes ≠ 0) (s : ReadLineState abi) (r : ReadRet)
    (hs : s.InBounds nBytes) : ((baaReadLine nBytes fd).resume s r).InBounds nBytes := by
  cases s with
  | returned ret v => exact hs
  | readCmd v =>
    obtain ⟨bs, hfilled⟩ := hs
    change (v.afterRead nBytes r).InBounds nBytes
    cases r with
    | byte b =>
      rw [ReadLineVars.afterRead]
      split_ifs
      · exact ⟨_, hfilled.storeCh b⟩
      · exact (hfilled.storeCh b).inBounds_finish h
    | eof =>
      rw [ReadLineVars.afterRead]
      split_ifs
      · exact hfilled.writesBelow h
      · exact (hfilled.storeCh v.ch).inBounds_finish h
    | failed errno =>
      rw [ReadLineVars.afterRead]
      split_ifs
      · exact ⟨bs, hfilled⟩
      · exact hfilled.writesBelow h

/-- What is written stays written. -/
private theorem mem_written_resume (s : ReadLineState abi) (r : ReadRet) {i : ℕ}
    (hi : i ∈ s.vars.buf.written) : i ∈ ((baaReadLine nBytes fd).resume s r).vars.buf.written := by
  have hstore : ∀ v : ReadLineVars abi, i ∈ v.buf.written → i ∈ (v.storeCh nBytes).buf.written :=
    fun v hv => by
      rw [ReadLineVars.storeCh]
      split_ifs
      · exact List.mem_append_left _ hv
      · exact hv
  cases s with
  | returned ret v => exact hi
  | readCmd v =>
    change i ∈ (v.afterRead nBytes r).vars.buf.written
    cases r with
    | byte b =>
      rw [ReadLineVars.afterRead]
      split_ifs
      · exact hstore _ hi
      · exact List.mem_append_left _ (hstore _ hi)
    | eof =>
      rw [ReadLineVars.afterRead]
      split_ifs
      · exact hi
      · exact List.mem_append_left _ (hstore _ hi)
    | failed errno =>
      rw [ReadLineVars.afterRead]
      split_ifs <;> exact hi

/-- A call that has returned stays as it is. -/
private theorem run_returned (ret : CLong abi) (v : ReadLineVars abi) (answers : List ReadRet) :
    (baaReadLine nBytes fd).run (.returned ret v) answers = .returned ret v := by
  induction answers with
  | nil => rfl
  | cons r answers ih => exact ih

/-- Interruptions leave the call where it starts. -/
private theorem run_start_of_find?_eq_none {mem : ℕ → Byte} {answers : List ReadRet}
    (h : answers.find? (· ≠ .failed .eintr) = none) :
    (baaReadLine nBytes fd).run (.start mem) answers = .start mem := by
  induction answers with
  | nil => rfl
  | cons r answers ih =>
    obtain ⟨hr, hrest⟩ := List.forall_mem_cons.mp (List.find?_eq_none.mp h)
    obtain rfl : r = .failed .eintr := by simpa using hr
    exact ih (List.find?_eq_none.mpr hrest)

/-- The first answer that is no interruption is the first one to matter. -/
private theorem exists_run_start_of_find? {mem : ℕ → Byte} {answers : List ReadRet} {r : ReadRet}
    (h : answers.find? (· ≠ .failed .eintr) = some r) :
    ∃ rest, (baaReadLine nBytes fd).run (.start mem) answers =
      (baaReadLine nBytes fd).run (.start mem) (r :: rest) := by
  induction answers with
  | nil => cases h
  | cons r' answers ih =>
    by_cases hr : r' = .failed .eintr
    · rw [List.find?_cons_of_neg (by simpa using hr)] at h
      subst hr
      exact ih h
    · rw [List.find?_cons_of_pos (by simpa using hr)] at h
      obtain rfl := Option.some.inj h
      exact ⟨answers, rfl⟩

/-- Nothing is written where no byte is read. -/
private theorem written_run_of_no_byte {mem : ℕ → Byte} {answers : List ReadRet}
    (h : ∀ b, answers.find? (· ≠ .failed .eintr) ≠ some (.byte b)) :
    ((baaReadLine nBytes fd).run (.start mem) answers).vars.buf.written = [] := by
  rcases hfind : answers.find? (· ≠ .failed .eintr) with _ | r
  · rw [run_start_of_find?_eq_none hfind]
    rfl
  obtain ⟨rest, hrun⟩ : ∃ rest, (baaReadLine nBytes fd).run (.start mem) answers = _ :=
    exists_run_start_of_find? hfind
  rw [hrun]
  cases r with
  | byte b => exact absurd hfind (h b)
  | eof =>
    have hempty : (baaReadLine nBytes fd).resume (.start mem) .eof =
        .returned (baaFileEmpty abi) ⟨0, 0, 0, .fresh mem⟩ := by
      change ReadLineVars.afterRead nBytes ⟨0, 0, 0, .fresh mem⟩ .eof = _
      rw [ReadLineVars.afterRead, if_pos rfl]
    rw [run, hempty, run_returned]
    rfl
  | failed errno =>
    have herrno : errno ≠ .eintr := by simpa using List.find?_some hfind
    have hfail : (baaReadLine nBytes fd).resume (.start mem) (.failed errno) =
        .returned (-1) ⟨0, 0, 0, .fresh mem⟩ := if_neg herrno
    rw [run, hfail, run_returned]
    rfl

/-- With `n_bytes` 0 the first byte is stored. -/
private theorem mem_written_run_of_byte {mem : ℕ → Byte} {answers : List ReadRet} {b : Byte}
    (h : answers.find? (· ≠ .failed .eintr) = some (.byte b)) :
    0 ∈ ((baaReadLine (0 : CLong abi) fd).run (.start mem) answers).vars.buf.written := by
  obtain ⟨rest, hrun⟩ :
      ∃ rest, (baaReadLine (0 : CLong abi) fd).run (.start mem) answers = _ :=
    exists_run_start_of_find? h
  rw [hrun]
  refine run_invariant (P := fun s : ReadLineState abi => 0 ∈ s.vars.buf.written)
    (fun s a => mem_written_resume s a) ?_ rest
  have hroom : (0 : CLong abi).toNat < (0 - 1 : CLong abi).toNat := by cases abi <;> decide
  change 0 ∈ (ReadLineVars.afterRead 0 _ (.byte b)).vars.buf.written
  rw [ReadLineVars.afterRead, ReadLineVars.storeCh, if_pos hroom]
  split_ifs
  · exact List.mem_singleton_self 0
  · exact List.mem_append_left _ (List.mem_singleton_self 0)

/-- **Which indexes are written.** For every `n_bytes`, 0 included, and whatever the reads come
to: every index written is below `n_bytes`, if and only if `n_bytes` is not 0 or no byte is read
to begin with. -/
theorem writesBelow_iff (nBytes : CLong abi) (fd : CInt) (mem : ℕ → Byte)
    (answers : List ReadRet) :
    ((baaReadLine nBytes fd).run (.start mem) answers).vars.buf.WritesBelow nBytes.toNat ↔
      nBytes ≠ 0 ∨ ∀ b, answers.find? (· ≠ .failed .eintr) ≠ some (.byte b) := by
  by_cases h : nBytes = 0
  · subst h
    rw [or_iff_right (not_not.mpr rfl)]
    constructor
    · intro hbelow b hb
      exact Nat.not_lt_zero 0 (hbelow 0 (mem_written_run_of_byte hb))
    · intro hnone i hi
      rw [written_run_of_no_byte hnone] at hi
      cases hi
  · refine iff_of_true ?_ (.inl h)
    have hstart : (ReadLineState.start mem).InBounds nBytes := ⟨[], filled_start _ mem⟩
    have hrun : ((baaReadLine nBytes fd).run (.start mem) answers).InBounds nBytes :=
      run_invariant (inBounds_resume h) hstart answers
    rcases hs : (baaReadLine nBytes fd).run (.start mem) answers with v | ⟨ret, v⟩
    · rw [hs] at hrun
      obtain ⟨bs, hfilled⟩ := hrun
      exact hfilled.writesBelow h
    · rwa [hs] at hrun

/-- With `n_bytes` 0 the byte that is read is written to index 0. -/
theorem not_writesBelow_zero :
    ¬ ((baaReadLine (0 : CLong .lp64) 3).run (.start fun _ => 0) [.byte 97]).vars.buf.WritesBelow
      (0 : CLong .lp64).toNat :=
  fun h => absurd (h 0 (by decide)) (by decide)

end Libbaalue
