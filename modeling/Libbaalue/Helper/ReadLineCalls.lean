import Libbaalue.Foundations.CallReturn
import Libbaalue.Foundations.CheckedInt
import Libbaalue.Foundations.Lines
import Libbaalue.Helper.ReadLine
import Mathlib.Data.Set.Finite.Lattice

/-!
# Calls of `baa_read_line` on a stream

The descriptor delivers a stream, whose reads may be interrupted at any time. A call that returns
has read the line at the position of the stream and nothing else (`returns_line`), and it returns
if there is a line and the interruptions end (`exists_reads`). So the calls stay in step with the
lines (`calls_in_step`).

What a call stores is another matter. At the end of the file the byte of the read before is stored
once more, so that a last line without a newline comes with its last byte doubled, unless it
fills the buffer (`readsLine_iff`).

The stream is a function of the position, so that several calls can be followed on one; which reads
are interrupted is told by their number, so that an interruption belongs to the source and not to a
call. That a call has read a line and no more is an equality of positions. The results are about
calls that return, and that they do is proved apart, from the two things it depends on.
-/

namespace Libbaalue

open CallMachine

variable {abi : Abi} {nBytes : CLong abi} {bs : List Byte} {v : ReadLineVars abi}

/-! ### The stream behind the descriptor -/

/-- The bytes that are still to be read, and the reads that are interrupted, by their number. Where
the stream ends it is `none`. -/
structure ByteSource where
  stream : ℕ → Option Byte
  interrupted : ℕ → Bool

/-- How many reads there were, and how many bytes they delivered. -/
structure Cursor where
  time : ℕ
  pos : ℕ
  deriving DecidableEq, Repr

/-- What the source answers. -/
def ByteSource.answer (d : ByteSource) (c : Cursor) : ReadLineCall → ReadRet × Cursor
  | .read _ =>
    if d.interrupted c.time then (.failed .eintr, ⟨c.time + 1, c.pos⟩)
    else
      match d.stream c.pos with
      | some b => (.byte b, ⟨c.time + 1, c.pos + 1⟩)
      | none => (.eof, ⟨c.time + 1, c.pos⟩)
  | .returned => (.eof, c)

/-- The call has returned. -/
def ReadLineState.IsReturned : ReadLineState abi → Prop
  | readCmd _ => False
  | returned _ _ => True

/-- A call of `baa_read_line` on the source, from one state to another. -/
def ByteSource.Reads (d : ByteSource) (fd : CInt) (nBytes : CLong abi) :
    ReadLineState abi → Cursor → ReadLineState abi → Cursor → Prop :=
  (baaReadLine nBytes fd).Returns d.answer ReadLineState.IsReturned

variable {d : ByteSource} {fd : CInt} {c c' : Cursor} {s : ReadLineState abi} {ret : CLong abi}

private theorem reads_returned :
    d.Reads fd nBytes (.returned ret v) c s c' ↔ s = .returned ret v ∧ c' = c :=
  returns_of_final trivial

private theorem reads_readCmd :
    d.Reads fd nBytes (.readCmd v) c s c' ↔
      d.Reads fd nBytes (v.afterRead nBytes (d.answer c (.read fd)).1)
        (d.answer c (.read fd)).2 s c' :=
  returns_of_not_final not_false

private theorem answer_of_interrupted (h : d.interrupted c.time = true) :
    d.answer c (.read fd) = (.failed .eintr, ⟨c.time + 1, c.pos⟩) := by
  rw [ByteSource.answer, if_pos h]

private theorem answer_of_byte (h : d.interrupted c.time = false) {b : Byte}
    (hb : d.stream c.pos = some b) :
    d.answer c (.read fd) = (.byte b, ⟨c.time + 1, c.pos + 1⟩) := by
  simp [ByteSource.answer, h, hb]

private theorem answer_of_eof (h : d.interrupted c.time = false) (hend : d.stream c.pos = none) :
    d.answer c (.read fd) = (.eof, ⟨c.time + 1, c.pos⟩) := by
  simp [ByteSource.answer, h, hend]

/-! ### What a call comes to -/

/-- The result for the bytes `line` of the stream, in three cases: a line with its newline, nothing
that could be counted, and a last line, whose last byte is stored twice. -/
inductive LineResult (cap : ℕ) (line : List Byte) : ReadLineState abi → Prop
  | whole {ret : CLong abi} {v : ReadLineVars abi} :
    line.getLast? = some newline → Finished cap line ret v → LineResult cap line (.returned ret v)
  | nothing {v : ReadLineVars abi} :
    line.getLast? ≠ some newline → min line.length cap = 0 →
    LineResult cap line (.returned (baaFileEmpty abi) v)
  | doubled {ret : CLong abi} {v : ReadLineVars abi} :
    line.getLast? ≠ some newline → min line.length cap ≠ 0 →
    Finished cap (line ++ [line.getLast?.getD 0]) ret v → LineResult cap line (.returned ret v)

/-- **What a call comes to.** A call that returns has read the line at the position of the
source and nothing else, however often it was interrupted. -/
theorem returns_line (hread : d.Reads fd nBytes (.readCmd v) c s c')
    (hfilled : Filled (nBytes - 1).toNat bs v) (hbs : bs.getLast? ≠ some newline) :
    ∃ line, LineAt newline d.stream c.pos line ∧ c'.pos = c.pos + line.length ∧
      LineResult (nBytes - 1).toNat (bs ++ line) s := by
  generalize hs : ReadLineState.readCmd v = s₀ at hread
  induction hread generalizing bs v with
  | ret hfinal =>
    subst hs
    exact hfinal.elim
  | @call _ _ c _ _ hrest ih =>
    subst hs
    change d.Reads fd nBytes (v.afterRead nBytes (d.answer c (.read fd)).1)
      (d.answer c (.read fd)).2 _ _ at hrest
    change ∀ {bs v'}, _ → _ → ReadLineState.readCmd v' =
      v.afterRead nBytes (d.answer c (.read fd)).1 → ∃ line,
        LineAt newline d.stream (d.answer c (.read fd)).2.pos line ∧
        _ = (d.answer c (.read fd)).2.pos + line.length ∧ _ at ih
    -- end of file, a byte, or an interrupted call
    rcases hint : d.interrupted c.time with _ | _
    · rcases hb : d.stream c.pos with _ | b
      · rw [answer_of_eof hint hb, ReadLineVars.afterRead] at hrest
        refine ⟨[], .ended hb, ?_⟩
        rw [List.append_nil]
        split_ifs at hrest with hcount
        · obtain ⟨rfl, rfl⟩ := reads_returned.mp hrest
          refine ⟨rfl, .nothing hbs ?_⟩
          rw [← hfilled.count_eq, hcount]
          rfl
        · -- at the end of the file the last byte is stored once more
          obtain ⟨ret, v', hfinish, hfinished⟩ := (hfilled.storeCh v.ch).finish
          rw [hfilled.ch_eq] at hfinished
          change d.Reads fd nBytes ({ v with ch := v.ch }.storeCh nBytes).finish _ _ _ at hrest
          rw [hfinish] at hrest
          obtain ⟨rfl, rfl⟩ := reads_returned.mp hrest
          refine ⟨rfl, .doubled hbs (fun hzero => hcount ?_) hfinished⟩
          rw [← hfilled.count_eq] at hzero
          exact BitVec.eq_of_toNat_eq hzero
      · rw [answer_of_byte hint hb] at hrest ih
        -- the newline ends the line, any other byte is followed by the rest of it
        by_cases hnl : b = newline
        · obtain ⟨ret, v', hfinish, hfinished⟩ := (hfilled.storeCh b).finish
          rw [ReadLineVars.afterRead, if_neg (not_not.mpr hnl), hfinish] at hrest
          obtain ⟨rfl, rfl⟩ := reads_returned.mp hrest
          exact ⟨[b], hnl ▸ .newline (hnl ▸ hb), rfl, .whole (by simp [hnl]) hfinished⟩
        · obtain ⟨line, hline, hpos, hresult⟩ :=
            ih (hfilled.storeCh b) (by simpa using hnl) (by rw [ReadLineVars.afterRead, if_pos hnl])
          refine ⟨b :: line, .item hb hnl hline, ?_, ?_⟩
          · rw [hpos, List.length_cons, Nat.add_right_comm, Nat.add_assoc]
          · rwa [List.append_assoc, List.singleton_append] at hresult
    · rw [answer_of_interrupted hint] at ih
      -- the call is made again, with nothing changed
      exact ih hfilled hbs rfl

/-! ### A call returns -/

/-- No interruptions go on for ever. -/
def ByteSource.Delivers (d : ByteSource) : Prop := ∀ time, ∃ n, d.interrupted (time + n) = false

/-- Finitely many interruptions end. -/
theorem delivers_of_finite (hfin : {t | d.interrupted t = true}.Finite) : d.Delivers := by
  intro t
  obtain ⟨bound, hbound⟩ := hfin.bddAbove
  refine ⟨bound + 1, ?_⟩
  by_contra hint
  have hle : t + (bound + 1) ≤ bound := hbound (Bool.eq_true_of_not_eq_false hint)
  omega

/-- Interruptions only pass the time. -/
private theorem reads_of_uninterrupted {n : ℕ} (hint : d.interrupted (c.time + n) = false)
    (hreads : ∀ time, d.interrupted time = false →
      ∃ s c', d.Reads fd nBytes (.readCmd v) ⟨time, c.pos⟩ s c') :
    ∃ s c', d.Reads fd nBytes (.readCmd v) c s c' := by
  induction n generalizing c with
  | zero => exact hreads c.time hint
  | succ n ih =>
    rcases hnow : d.interrupted c.time with _ | _
    · exact hreads c.time hnow
    · have hlater : d.interrupted ((⟨c.time + 1, c.pos⟩ : Cursor).time + n) = false := by
        rwa [Nat.add_right_comm]
      obtain ⟨s, c', hread⟩ := ih hlater hreads
      refine ⟨s, c', reads_readCmd.mpr ?_⟩
      rw [answer_of_interrupted hnow]
      exact hread

/-- A call returns at the end of the stream. -/
private theorem afterRead_eof (nBytes : CLong abi) (v : ReadLineVars abi) :
    ∃ ret v', v.afterRead nBytes .eof = .returned ret v' := by
  rw [ReadLineVars.afterRead]
  split_ifs <;> exact ⟨_, _, rfl⟩

/-- **A call returns** if there is a line and the interruptions end. Without the one it would read
for ever, without the other it would be interrupted for ever. -/
theorem exists_reads (hdelivers : d.Delivers) {pos : ℕ} {line : List Byte}
    (hline : LineAt newline d.stream pos line) (time : ℕ) (v : ReadLineVars abi) :
    ∃ s c', d.Reads fd nBytes (.readCmd v) ⟨time, pos⟩ s c' := by
  induction hline generalizing time v with
  | @ended pos hend =>
    obtain ⟨n, hn⟩ := hdelivers time
    refine reads_of_uninterrupted hn fun time hint => ?_
    obtain ⟨ret, v', hreturned⟩ := afterRead_eof nBytes v
    refine ⟨.returned ret v', ⟨time + 1, pos⟩, reads_readCmd.mpr ?_⟩
    rw [answer_of_eof hint hend, hreturned]
    exact reads_returned.mpr ⟨rfl, rfl⟩
  | @newline pos hnl =>
    obtain ⟨n, hn⟩ := hdelivers time
    refine reads_of_uninterrupted hn fun time hint => ?_
    refine ⟨({ v with ch := newline }.storeCh nBytes).finish, ⟨time + 1, pos + 1⟩,
      reads_readCmd.mpr ?_⟩
    rw [answer_of_byte hint hnl, ReadLineVars.afterRead, if_neg (not_not.mpr rfl)]
    exact reads_returned.mpr ⟨rfl, rfl⟩
  | @item pos b line hb hne _ ih =>
    obtain ⟨n, hn⟩ := hdelivers time
    refine reads_of_uninterrupted hn fun time hint => ?_
    obtain ⟨s, c', hread⟩ := ih (time + 1) ({ v with ch := b }.storeCh nBytes)
    refine ⟨s, c', reads_readCmd.mpr ?_⟩
    rw [answer_of_byte hint hb, ReadLineVars.afterRead, if_pos hne]
    exact hread

/-! ### Successive calls -/

/-- Before call `k`, with its own size and memory, the source is at `c`. The calls are made one
after the other, each to its return. -/
inductive Calls (d : ByteSource) (fd : CInt) (sizes : ℕ → CLong abi) (mems : ℕ → ℕ → Byte) :
    ℕ → Cursor → Prop
  | start : Calls d fd sizes mems 0 ⟨0, 0⟩
  | call {k : ℕ} {c c' : Cursor} {s : ReadLineState abi} : Calls d fd sizes mems k c →
    d.Reads fd (sizes k) (.start (mems k)) c s c' → Calls d fd sizes mems (k + 1) c'

variable {sizes : ℕ → CLong abi} {mems : ℕ → ℕ → Byte} {k : ℕ}

private theorem reads_start {mem : ℕ → Byte} (hread : d.Reads fd nBytes (.start mem) c s c') :
    ∃ line, LineAt newline d.stream c.pos line ∧ c'.pos = c.pos + line.length ∧
      LineResult (nBytes - 1).toNat line s :=
  returns_line hread (filled_start _ mem) (by simp)

/-- Call `k` starts at line `k`. -/
theorem Calls.lineStart (h : Calls d fd sizes mems k c) : LineStart newline d.stream k c.pos := by
  induction h with
  | start => exact .first
  | call _ hread ih =>
    obtain ⟨line, hline, hpos, -⟩ := reads_start hread
    rw [hpos]
    exact .next ih hline

/-- **The calls stay in step with the lines.** For every stream, every sequence of buffer sizes and
however the reads are interrupted: call `k` starts at line `k`, and when it returns it has
consumed this line; and it returns if the interruptions are finitely many and the stream ends or
contains a newline. -/
theorem calls_in_step (hcalls : Calls d fd sizes mems k c) :
    LineStart newline d.stream k c.pos ∧
      (∀ s c', d.Reads fd (sizes k) (.start (mems k)) c s c' →
        ∃ line, LineAt newline d.stream c.pos line ∧ c'.pos = c.pos + line.length) ∧
      ({t | d.interrupted t = true}.Finite →
        (∃ i ≥ c.pos, d.stream i = none ∨ d.stream i = some newline) →
        ∃ s c', d.Reads fd (sizes k) (.start (mems k)) c s c') := by
  refine ⟨hcalls.lineStart, fun s c' hread => ?_, fun hfin hend => ?_⟩
  · obtain ⟨line, hline, hpos, -⟩ := reads_start hread
    exact ⟨line, hline, hpos⟩
  · obtain ⟨line, hline⟩ := exists_lineAt_iff.mpr hend
    exact exists_reads (delivers_of_finite hfin) hline c.time _

/-- The stream `"a\nb"`, whose second read is interrupted. -/
def twoLines : ByteSource := ⟨fun i => [97, 10, 98][i]?, fun time => time == 1⟩

private theorem delivers_twoLines : twoLines.Delivers := by
  refine delivers_of_finite ((Set.finite_singleton 1).subset fun t ht => ?_)
  exact beq_iff_eq.mp ht

/-- The first call reads three times and leaves the second line. -/
private theorem calls_twoLines :
    Calls twoLines 3 (fun _ => (2 : CLong .lp64)) (fun _ _ => 0) 1 ⟨3, 2⟩ :=
  .call .start (.call id (.call id (.call id (.ret trivial))))

theorem calls_in_step_twoLines :
    LineStart newline twoLines.stream 1 2 ∧
      (∀ s c', twoLines.Reads 3 (2 : CLong .lp64) (.start fun _ => 0) ⟨3, 2⟩ s c' →
        ∃ line, LineAt newline twoLines.stream 2 line ∧ c'.pos = 2 + line.length) ∧
      ({t | twoLines.interrupted t = true}.Finite →
        (∃ i ≥ 2, twoLines.stream i = none ∨ twoLines.stream i = some newline) →
        ∃ s c', twoLines.Reads 3 (2 : CLong .lp64) (.start fun _ => 0) ⟨3, 2⟩ s c') :=
  calls_in_step calls_twoLines

/-! ### The next line -/

/-- What a call is to come to: the line, cut to the size of the buffer, with its length. -/
def ReadsLine (nBytes : CLong abi) (line : List Byte) : ReadLineState abi → Prop
  | .readCmd _ => False
  | .returned ret v =>
    if line = [] then ret = baaFileEmpty abi
    else
      ret.toInt = (min line.length (nBytes.toNat - 1) : ℕ) ∧
        v.buf.front (min line.length (nBytes.toNat - 1) + 1) =
          line.take (nBytes.toNat - 1) ++ [0]

/-- With one byte too many, the string is the line if there is no room for this byte. -/
private theorem Finished.readsLine_of_append_iff {line : List Byte} {b : Byte} {ret : CLong abi}
    (hne : line ≠ []) (h : Finished (nBytes.toNat - 1) (line ++ [b]) ret v) :
    ReadsLine nBytes line (.returned ret v) ↔
      min line.length (nBytes.toNat - 1) < 2 ^ (abi.longBits - 1) ∧
        nBytes.toNat - 1 ≤ line.length := by
  have hret := h.ret_eq
  have hfront := h.front_eq
  rw [List.length_append, List.length_singleton] at hret hfront
  rw [ReadsLine, if_neg hne, toInt_eq_natCast_iff abi.longBits_pos]
  rcases Nat.lt_or_ge line.length (nBytes.toNat - 1) with hlt | hle
  · -- the byte is counted
    refine iff_of_false (fun hreads => ?_) fun hfull => ?_
    · omega
    · omega
  · have hmin : min (line.length + 1) (nBytes.toNat - 1) =
        min line.length (nBytes.toNat - 1) := by omega
    rw [hmin] at hret hfront
    rw [List.take_append_of_le_length hle] at hfront
    rw [and_iff_right hret, and_iff_left hfront, and_iff_left hle]

/-- Of the three results, the first is the line, the second is one if there is none left, and the
third is one if it fills the buffer. -/
private theorem LineResult.returned_line_iff {line : List Byte} {s : ReadLineState abi}
    (h : LineResult (nBytes.toNat - 1) line s) :
    ReadsLine nBytes line s ↔
      line = [] ∨
        min line.length (nBytes.toNat - 1) < 2 ^ (abi.longBits - 1) ∧
          (line.getLast? = some newline ∨
            2 ≤ nBytes.toNat ∧ nBytes.toNat - 1 ≤ line.length) := by
  cases h with
  | @whole ret v hlast hfinished =>
    have hne : line ≠ [] := by
      rintro rfl
      cases hlast
    rw [ReadsLine, if_neg hne, or_iff_right hne, and_iff_left hfinished.front_eq,
      toInt_eq_natCast_iff abi.longBits_pos, and_iff_right hfinished.ret_eq,
      and_iff_left (.inl hlast)]
  | @nothing v hlast hzero =>
    rcases eq_or_ne line [] with rfl | hne
    · exact iff_of_true (by rw [ReadsLine, if_pos rfl]) (.inl rfl)
    · -- the result is that of an empty file, with a line that is not empty
      have hlen : line.length ≠ 0 := fun hlen => hne (List.length_eq_zero_iff.mp hlen)
      rw [ReadsLine, if_neg hne, or_iff_right hne]
      refine iff_of_false (fun hreads => ?_) (fun hfull => ?_)
      · rw [hzero] at hreads
        have hempty : (baaFileEmpty abi).toInt = -2 := by cases abi <;> rfl
        rw [hempty] at hreads
        exact absurd hreads.1 (by decide)
      · rcases hfull.2 with hnl | ⟨hsize, -⟩
        · exact hlast hnl
        · omega
  | @doubled ret v hlast hcount hfinished =>
    have hne : line ≠ [] := by
      rintro rfl
      simp at hcount
    rw [hfinished.readsLine_of_append_iff hne, or_iff_right hne, or_iff_right hlast]
    refine and_congr_right fun _ => (and_iff_right ?_).symm
    omega

/-- **When a call returns exactly the next line.** For every stream, every `n_bytes` but 0 and
however the reads are interrupted: the call returns, and with the line, if and only if there is
none left, or its length is in range and it ends in a newline or fills the buffer. -/
theorem readsLine_iff (d : ByteSource) (fd : CInt) (nBytes : CLong abi) (mem : ℕ → Byte)
    (c : Cursor) (hpos : 1 ≤ nBytes.toNat) (hdelivers : d.Delivers)
    {line : List Byte} (hline : LineAt newline d.stream c.pos line) :
    (∃ s c', d.Reads fd nBytes (.start mem) c s c' ∧ ReadsLine nBytes line s) ↔
      d.stream c.pos = none ∨
        min line.length (nBytes.toNat - 1) < 2 ^ (abi.longBits - 1) ∧
          (line.getLast? = some newline ∨
            2 ≤ nBytes.toNat ∧ nBytes.toNat - 1 ≤ line.length) := by
  have hne : nBytes ≠ 0 := by
    rintro rfl
    simp at hpos
  obtain ⟨s, c', hread⟩ : ∃ s c', d.Reads fd nBytes (.start mem) c s c' :=
    exists_reads hdelivers hline c.time _
  have hunique : (∃ s c', d.Reads fd nBytes (.start mem) c s c' ∧ ReadsLine nBytes line s) ↔
      ReadsLine nBytes line s := by
    constructor
    · rintro ⟨s', c'', hread', hreads⟩
      exact (hread'.unique hread).1 ▸ hreads
    · exact fun hreads => ⟨s, c', hread, hreads⟩
  obtain ⟨line', hline', -, hresult⟩ := reads_start hread
  obtain rfl := hline.unique hline'
  rw [toNat_sub_one_of_ne_zero hne] at hresult
  rw [hunique, hresult.returned_line_iff, hline.eq_nil_iff]

theorem readsLine_iff_twoLines :
    (∃ s c', twoLines.Reads 3 (2 : CLong .lp64) (.start fun _ => 0) ⟨0, 0⟩ s c' ∧
        ReadsLine 2 [97, 10] s) ↔
      twoLines.stream 0 = none ∨
        min 2 ((2 : CLong .lp64).toNat - 1) < 2 ^ (Abi.lp64.longBits - 1) ∧
          (([97, 10] : List Byte).getLast? = some newline ∨
            2 ≤ (2 : CLong .lp64).toNat ∧ (2 : CLong .lp64).toNat - 1 ≤ 2) :=
  readsLine_iff twoLines 3 2 (fun _ => 0) ⟨0, 0⟩ (by decide) delivers_twoLines
    (.item rfl (by decide) (.newline rfl))

/-- The stream `"a"`, without a newline. -/
def lastLine : ByteSource := ⟨fun i => [97][i]?, fun _ => false⟩

/-- With room for ten bytes, the last line is read as `"aa"`; with `n_bytes` 1, it is read and
the file said to be empty. -/
theorem not_readsLine :
    LineAt newline lastLine.stream 0 [97] ∧
      (¬ ∃ s c', lastLine.Reads 3 (10 : CLong .lp64) (.start fun _ => 0) ⟨0, 0⟩ s c' ∧
        ReadsLine 10 [97] s) ∧
      ¬ ∃ s c', lastLine.Reads 3 (1 : CLong .lp64) (.start fun _ => 0) ⟨0, 0⟩ s c' ∧
        ReadsLine 1 [97] s := by
  have hline : LineAt newline lastLine.stream 0 [97] :=
    .item rfl (by decide) (.ended rfl)
  have hnot : ∀ nBytes : CLong .lp64,
      ¬ (([97] : List Byte) = [] ∨
        min ([97] : List Byte).length (nBytes.toNat - 1) < 2 ^ (Abi.lp64.longBits - 1) ∧
          (([97] : List Byte).getLast? = some newline ∨
            2 ≤ nBytes.toNat ∧ nBytes.toNat - 1 ≤ ([97] : List Byte).length)) →
      nBytes ≠ 0 →
      ¬ ∃ s c', lastLine.Reads 3 nBytes (.start fun _ => 0) ⟨0, 0⟩ s c' ∧
        ReadsLine nBytes [97] s := by
    rintro nBytes hcond hne ⟨s, c', hread, hreads⟩
    obtain ⟨line, hline', -, hresult⟩ := reads_start hread
    obtain rfl := hline.unique hline'
    rw [toNat_sub_one_of_ne_zero hne] at hresult
    exact hcond (hresult.returned_line_iff.mp hreads)
  exact ⟨hline, hnot 10 (by decide) (by decide), hnot 1 (by decide) (by decide)⟩

end Libbaalue
