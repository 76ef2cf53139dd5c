import Libbaalue.Foundations.CheckedInt
import Libbaalue.Foundations.LabelledSystem
import Libbaalue.Foundations.StringBuffer
import Libbaalue.Helper.ReadLine
import Libbaalue.Net.Daytime

/-!
# The daytime service and its clients

The thread `baa_daytime_server_th` and any number of processes of `inet_daytime_client.c`, which
connect, read a line, print it without its newline and close, over and over. A connection is a
stream of bytes; the server may write only a part of its line, and its process may end at any
time, with which its connections end.

What a client prints is the time the server has read for this very connection, or what there is
of it where the server has ended (`daytime_served`). The number of bytes that `baa_read_line`
returns is where the client writes the NUL: that is inside of `recvline` if and only if a byte has
come over the connection. And as the server closes no connection, it serves no more of them than
it had descriptors left.

A client is the machine of `baa_read_line` with a loop around it, and its invariant is the one of
that machine, stated for the stream of its connection: what has been read is a first part of what
was sent. Since connections only grow, what is known of one stays true while others move
(`DaytimeNet.Grows`), and each step is checked for the party that makes it.
-/

namespace Libbaalue

variable {abi : Abi}

/-! ### The client -/

/-- What a client prints: for which connection, the value of `num_read`, and the string. -/
structure DaytimeShown where
  conn : ℕ
  numRead : ℤ
  text : List Byte
  deriving DecidableEq, Repr

/-- Where a client is: `pos` bytes have been read from its connection. It exits when it cannot
connect, or when a read fails. -/
inductive DaytimeClientPc (abi : Abi)
  | connect
  | readLine (conn pos : ℕ) (line : ReadLineState abi)
  | exited

/-- A process of `inet_daytime_client.c`, with what it has printed so far. -/
structure DaytimeClient (abi : Abi) where
  pc : DaytimeClientPc abi
  shown : List DaytimeShown

/-- `BAA_MAXLINE` as the argument of `baa_read_line`; `recvline` has one byte more. -/
def recvlineBytes (abi : Abi) : CLong abi := BitVec.ofNat _ baaMaxLine

/-- `recvline[num_read - 1] = '\0'`; a store in front of the array leaves it as it is. -/
def eliminateNewline (recvline : Buffer Byte) (numRead : ℤ) : Buffer Byte :=
  if 0 < numRead then recvline.store (numRead - 1).toNat 0 else recvline

/-- Print what was read, close and go on; or exit. -/
def DaytimeClient.finish (client : DaytimeClient abi) (conn : ℕ) (ret : CLong abi)
    (v : ReadLineVars abi) : DaytimeClient abi :=
  if ret = -1 then { client with pc := .exited }
  else
    let recvline := eliminateNewline v.buf ret.toInt
    { pc := .connect
      shown := client.shown ++ [⟨conn, ret.toInt, recvline.string (baaMaxLine + 1)⟩] }

/-- How many bytes a `read` has delivered. -/
def ReadRet.length : ReadRet → ℕ
  | byte _ => 1
  | eof | failed _ => 0

/-! ### The network -/

/-- A connection; what `ctime` has returned for it and what was written to it. The owner is the
client that has made it. -/
structure DaytimeConn where
  owner : ℕ
  stamp : Option (List Byte)
  sent : List Byte
  deriving DecidableEq, Repr

/-- The server, its clients, and the connections between them. A connection waits in the queue of
the listening socket until it is accepted. -/
structure DaytimeNet (abi : Abi) where
  server : Daytime
  /-- The process of the server has not ended. -/
  alive : Bool
  fds : Finset ℕ
  /-- The connection behind a descriptor of the server. -/
  connOf : ℕ → ℕ
  pending : List ℕ
  accepted : List ℕ
  conn : ℕ → DaytimeConn
  fresh : ℕ
  client : ℕ → DaytimeClient abi

/-- A process that serves: its listening socket, what it has open, and how much it may have. -/
structure DaytimeSetup where
  sfd : ℕ
  fds : Finset ℕ
  limit : ℕ

/-- The text of `ctime` has 24 characters before its newline. -/
def IsCtime (ctime : List Byte) : Prop :=
  24 ≤ ctime.length ∧ ∀ b ∈ ctime.take 24, b ≠ 0 ∧ b ≠ newline

instance (ctime : List Byte) : Decidable (IsCtime ctime) := inferInstanceAs (Decidable (_ ∧ _))

/-- What happens next. A `connect` may fail, the server's calls come to anything they can come to,
its process may die, and a `read` may fail or be interrupted. -/
inductive DaytimeLabel
  | connect (i : ℕ) (succeeds : Bool)
  | server (a : DaytimeAnswer)
  | die
  | read (i : ℕ) (failed : Option Errno)
  | print (i : ℕ)

namespace DaytimeNet

/-- Nobody is connected. -/
def init (setup : DaytimeSetup) : DaytimeNet abi :=
  ⟨.start, true, setup.fds, fun _ => 0, [], [], fun _ => ⟨0, none, []⟩, 0,
    fun _ => ⟨.connect, []⟩⟩

/-- Client `i` has become `client`. -/
def setClient (s : DaytimeNet abi) (i : ℕ) (client : DaytimeClient abi) : DaytimeNet abi :=
  { s with client := Function.update s.client i client }

/-- Connection `c` has become `conn`. -/
def setConn (s : DaytimeNet abi) (c : ℕ) (conn : DaytimeConn) : DaytimeNet abi :=
  { s with conn := Function.update s.conn c conn }

/-- Client `i` has connected. -/
def addConn (s : DaytimeNet abi) (i : ℕ) : DaytimeNet abi :=
  { s with
    conn := Function.update s.conn s.fresh ⟨i, none, []⟩
    pending := s.pending ++ [s.fresh]
    fresh := s.fresh + 1 }

/-- The server goes on with an answer. -/
def resume (setup : DaytimeSetup) (s : DaytimeNet abi) (a : DaytimeAnswer) : DaytimeNet abi :=
  { s with
    server := (baaDaytimeServerTh setup.sfd).resume s.server a
    fds := (daytimeEffect ((baaDaytimeServerTh setup.sfd).call s.server, a)).apply s.fds }

/-- A call of the server comes to `a`; `none` if it cannot. -/
def serverStep (setup : DaytimeSetup) (s : DaytimeNet abi) (a : DaytimeAnswer) :
    Option (DaytimeNet abi) :=
  match (baaDaytimeServerTh setup.sfd).call s.server, a.ret with
  | .accept _, .failed _ => some (s.resume setup a)
  | .accept _, .ok confd =>
    match s.pending with
    | [] => none
    | c :: pending =>
      -- the number is free, and there are descriptors left
      if confd ∉ s.fds ∧ s.fds.card < setup.limit then
        some { s.resume setup a with
          connOf := Function.update s.connOf confd c
          pending := pending
          accepted := s.accepted ++ [c] }
      else none
  | .time, _ =>
    match s.server.confd with
    | some fd =>
      if IsCtime a.ctime then
        some ((s.resume setup a).setConn (s.connOf fd)
          { s.conn (s.connOf fd) with stamp := some a.ctime })
      else none
    | none => none
  | .write (some fd) buf, .ok len =>
    if len ≤ buf.length then
      some ((s.resume setup a).setConn (s.connOf fd)
        { s.conn (s.connOf fd) with sent := (s.conn (s.connOf fd)).sent ++ buf.take len })
    else none
  | .write _ _, _ => some (s.resume setup a)

/-- What a `read` of a client comes to; `none` where it has to wait. -/
def readAnswer (s : DaytimeNet abi) (c pos : ℕ) : Option Errno → Option ReadRet
  | some errno => some (.failed errno)
  | none =>
    match (s.conn c).sent[pos]? with
    | some b => some (.byte b)
    | none => if s.alive then none else some .eof

/-- One step. -/
def step (setup : DaytimeSetup) (s : DaytimeNet abi) : DaytimeLabel → Option (DaytimeNet abi)
  | .connect i succeeds =>
    match (s.client i).pc with
    | .connect =>
      if succeeds then
        if s.alive then
          some ((s.addConn i).setClient i
            { s.client i with pc := .readLine s.fresh 0 (.start fun _ => 0) })
        else none
      else some (s.setClient i { s.client i with pc := .exited })
    | _ => none
  | .server a => if s.alive then s.serverStep setup a else none
  | .die => some { s with alive := false }
  | .read i failed =>
    match (s.client i).pc with
    | .readLine c pos (.readCmd v) =>
      (s.readAnswer c pos failed).map fun r =>
        s.setClient i { s.client i with
          pc := .readLine c (pos + r.length) (v.afterRead (recvlineBytes abi) r) }
    | _ => none
  | .print i =>
    match (s.client i).pc with
    | .readLine c _ (.returned ret v) => some (s.setClient i ((s.client i).finish c ret v))
    | _ => none

end DaytimeNet

/-- The daytime service, from a state in which nobody is connected. -/
def daytimeSystem (abi : Abi) (setup : DaytimeSetup) :
    LabelledSystem (DaytimeNet abi) DaytimeLabel where
  init := .init setup
  step := DaytimeNet.step setup

/-! ### Lines -/

section Lines

variable {ctime sent : List Byte}

/-- The line of the server before its newline. -/
def daytimeText (ctime : List Byte) : List Byte := ctime.take 24 ++ [13]

private theorem IsCtime.daytimeLine_eq (h : IsCtime ctime) :
    daytimeLine ctime = daytimeText ctime ++ [newline] := by
  have hlen : (ctime.take 24 ++ [13, 10]).length ≤ baaMaxLine - 1 := by
    rw [List.length_append, List.length_take, min_eq_left h.1]
    decide
  rw [daytimeLine, snprintfMaxLine, List.take_of_length_le hlen, daytimeText, newline,
    List.append_assoc]
  rfl

private theorem IsCtime.length_daytimeText (h : IsCtime ctime) :
    (daytimeText ctime).length = 25 := by
  rw [daytimeText, List.length_append, List.length_take, min_eq_left h.1]
  rfl

private theorem IsCtime.notMem_daytimeText (h : IsCtime ctime) :
    (0 : Byte) ∉ daytimeText ctime ∧ newline ∉ daytimeText ctime := by
  constructor
  · intro hmem
    rcases List.mem_append.mp hmem with hmem | hmem
    · exact (h.2 _ hmem).1 rfl
    · exact absurd hmem (by decide)
  · intro hmem
    rcases List.mem_append.mp hmem with hmem | hmem
    · exact (h.2 _ hmem).2 rfl
    · exact absurd hmem (by decide)

/-- What was sent of the line is the whole line, or contains no newline. -/
theorem IsCtime.prefix_cases (h : IsCtime ctime) (hsent : sent <+: daytimeLine ctime) :
    sent = daytimeLine ctime ∨ sent <+: daytimeText ctime ∧ newline ∉ sent := by
  rw [h.daytimeLine_eq] at hsent ⊢
  rcases List.prefix_concat_iff.mp hsent with heq | hpre
  · exact .inl heq
  · exact .inr ⟨hpre, fun hmem => h.notMem_daytimeText.2 (hpre.subset hmem)⟩

/-- The string that is left when the last byte has been replaced. -/
theorem string_eliminateNewline {body : List Byte} {b : Byte} {ret : CLong abi}
    {v : ReadLineVars abi} {cap : ℕ} (h : Finished cap (body ++ [b]) ret v)
    (hlen : body.length < cap) (hcap : cap < baaMaxLine) (hnul : (0 : Byte) ∉ body) :
    ret.toInt = body.length + 1 ∧
      (eliminateNewline v.buf ret.toInt).string (baaMaxLine + 1) = body := by
  have hmin : min (body ++ [b]).length cap = body.length + 1 := by
    rw [List.length_append, List.length_singleton, min_eq_left hlen]
  have hret : ret.toInt = ((body.length + 1 : ℕ) : ℤ) := by
    rw [toInt_eq_natCast_iff abi.longBits_pos, h.ret_eq, hmin]
    refine ⟨rfl, ?_⟩
    have hbits : 2 ^ 31 ≤ 2 ^ (abi.longBits - 1) := by cases abi <;> decide
    rw [baaMaxLine] at hcap
    omega
  have hfront : v.buf.front body.length = body := by
    have hfull := h.front_eq
    rw [hmin, List.take_of_length_le (by simpa using Nat.succ_le_of_lt hlen)] at hfull
    rw [← Buffer.front_take v.buf (Nat.le_add_right body.length 2), hfull, List.append_assoc,
      List.take_left]
  have hholds : (eliminateNewline v.buf ret.toInt).Holds body := by
    rw [hret, eliminateNewline, if_pos (by exact_mod_cast Nat.succ_pos _)]
    refine ⟨?_, hnul⟩
    have hindex : (((body.length + 1 : ℕ) : ℤ) - 1).toNat = body.length := by omega
    rw [hindex, Buffer.front_store_succ, hfront]
  refine ⟨by exact_mod_cast hret, Buffer.string_of_holds hholds ?_⟩
  omega

end Lines

/-! ### What a client reads -/

/-- The line of the server, as far as it was sent. -/
def DaytimeConn.Sound (conn : DaytimeConn) : Prop :=
  match conn.stamp with
  | none => conn.sent = []
  | some ctime => IsCtime ctime ∧ conn.sent <+: daytimeLine ctime

/-- How many bytes `baa_read_line` stores. -/
def recvlineCap : ℕ := baaMaxLine - 1

private theorem toNat_recvlineBytes_sub_one (abi : Abi) :
    (recvlineBytes abi - 1).toNat = recvlineCap := by
  cases abi <;> rfl

/-- What `baa_read_line` has returned for a connection, in three cases: the line; what there is of
it when the server has ended, with its last byte doubled; or nothing. -/
inductive LineReturned (alive : Bool) (conn : DaytimeConn) : CLong abi → ReadLineVars abi → Prop
  | whole {ctime : List Byte} {ret : CLong abi} {v : ReadLineVars abi} :
    conn.stamp = some ctime → IsCtime ctime → conn.sent = daytimeLine ctime →
    Finished recvlineCap conn.sent ret v → LineReturned alive conn ret v
  | cut {ret : CLong abi} {v : ReadLineVars abi} :
    alive = false → conn.sent ≠ [] → newline ∉ conn.sent →
    Finished recvlineCap (conn.sent ++ [conn.sent.getLast?.getD 0]) ret v →
    LineReturned alive conn ret v
  | nothing {v : ReadLineVars abi} :
    alive = false → conn.sent = [] → LineReturned alive conn (baaFileEmpty abi) v

/-- The state of `baa_read_line` when `pos` bytes of a connection have been read. -/
def LineOk (alive : Bool) (conn : DaytimeConn) (pos : ℕ) : ReadLineState abi → Prop
  | .readCmd v => Filled recvlineCap (conn.sent.take pos) v ∧ newline ∉ conn.sent.take pos
  | .returned ret v => ret = -1 ∨ LineReturned alive conn ret v

private theorem DaytimeConn.Sound.of_newline {conn : DaytimeConn} (h : conn.Sound)
    (hmem : newline ∈ conn.sent) :
    ∃ ctime, conn.stamp = some ctime ∧ IsCtime ctime ∧ conn.sent = daytimeLine ctime := by
  rw [DaytimeConn.Sound] at h
  rcases hstamp : conn.stamp with _ | ctime
  · rw [hstamp] at h
    rw [h] at hmem
    cases hmem
  · rw [hstamp] at h
    obtain ⟨hctime, hsent⟩ := h
    refine ⟨ctime, rfl, hctime, (hctime.prefix_cases hsent).resolve_right ?_⟩
    rintro ⟨-, hno⟩
    exact hno hmem

/-- The newline ends the line. -/
private theorem take_eq_sent {conn : DaytimeConn} (h : conn.Sound) {pos : ℕ}
    (hb : conn.sent[pos]? = some newline) : conn.sent.take pos ++ [newline] = conn.sent := by
  obtain ⟨ctime, -, hctime, hsent⟩ := h.of_newline (List.mem_of_getElem? hb)
  have htake : conn.sent.take pos ++ [newline] = conn.sent.take (pos + 1) := by
    rw [List.take_add_one, hb, Option.toList_some]
  have hpre : conn.sent.take (pos + 1) <+: daytimeLine ctime := hsent ▸ List.take_prefix _ _
  rcases hctime.prefix_cases hpre with heq | ⟨-, hno⟩
  · rw [htake, heq, hsent]
  · rw [← htake] at hno
    exact absurd (List.mem_append_right _ (List.mem_singleton_self newline)) hno

/-- **A read of a client.** It is answered with the next byte of what was sent, and with the end of
the file once the server has ended and all was read. -/
theorem LineOk.read {s : DaytimeNet abi} {c pos : ℕ} {v : ReadLineVars abi}
    {failed : Option Errno} {r : ReadRet} (hsound : (s.conn c).Sound)
    (hpos : pos ≤ (s.conn c).sent.length) (h : LineOk s.alive (s.conn c) pos (.readCmd v))
    (hr : s.readAnswer c pos failed = some r) :
    pos + r.length ≤ (s.conn c).sent.length ∧
      LineOk s.alive (s.conn c) (pos + r.length) (v.afterRead (recvlineBytes abi) r) := by
  obtain ⟨hfilled, hno⟩ := h
  have hcap := toNat_recvlineBytes_sub_one abi
  rw [← hcap] at hfilled
  cases failed with
  | some errno =>
    obtain rfl := Option.some.inj hr
    refine ⟨hpos, ?_⟩
    rw [ReadLineVars.afterRead]
    split_ifs
    · exact ⟨hcap ▸ hfilled, hno⟩
    · exact .inl rfl
  -- a byte of the line, or the end of the connection
  | none =>
    simp only [DaytimeNet.readAnswer] at hr
    split at hr
    · rename_i b hb
      obtain rfl := Option.some.inj hr
      obtain ⟨hlt, -⟩ := List.getElem?_eq_some_iff.mp hb
      refine ⟨hlt, ?_⟩
      have htake : (s.conn c).sent.take (pos + 1) = (s.conn c).sent.take pos ++ [b] := by
        rw [List.take_add_one, hb, Option.toList_some]
      have hstored := hfilled.storeCh b
      rw [ReadLineVars.afterRead]
      split_ifs with hnl
      · refine ⟨?_, ?_⟩
        · rw [ReadRet.length, htake, ← hcap]
          exact hstored
        · rw [ReadRet.length, htake]
          intro hmem
          rcases List.mem_append.mp hmem with hmem | hmem
          · exact hno hmem
          · exact hnl (List.mem_singleton.mp hmem).symm
      · -- the newline is the last byte of what was written, so the line is whole
        obtain rfl := not_not.mp hnl
        obtain ⟨ctime, hstamp, hctime, hsent⟩ := hsound.of_newline (List.mem_of_getElem? hb)
        obtain ⟨ret, v', hfinish, hfinished⟩ := hstored.finish
        rw [hfinish]
        rw [take_eq_sent hsound hb, hcap] at hfinished
        exact .inr (.whole hstamp hctime hsent hfinished)
    · rename_i hend
      split_ifs at hr with halive
      obtain rfl := Option.some.inj hr
      refine ⟨hpos, ?_⟩
      -- no byte is left and no more will come: the server has ended
      have hdead : s.alive = false := by simpa using halive
      have hall : (s.conn c).sent.take pos = (s.conn c).sent :=
        List.take_of_length_le (List.getElem?_eq_none_iff.mp hend)
      rw [hall] at hfilled hno
      rw [ReadLineVars.afterRead]
      split_ifs with hcount
      · refine .inr (.nothing hdead (List.eq_nil_of_length_eq_zero ?_))
        have hmin := hfilled.count_eq
        rw [hcount, hcap, recvlineCap, baaMaxLine] at hmin
        have hzero : (0 : CLong abi).toNat = 0 := by simp
        omega
      · obtain ⟨ret, v', hfinish, hfinished⟩ := (hfilled.storeCh v.ch).finish
        have hvars : ({ v with ch := v.ch } : ReadLineVars abi) = v := rfl
        rw [hvars] at hfinish
        rw [hfinish]
        rw [hfilled.ch_eq, hcap] at hfinished
        refine .inr (.cut hdead (fun hnil => hcount ?_) hno hfinished)
        have hmin := hfilled.count_eq
        rw [hnil, List.length_nil, Nat.zero_min] at hmin
        exact BitVec.eq_of_toNat_eq (hmin.trans (by simp))

/-! ### What a client prints -/

/-- What a client prints for a connection, in three cases: the time of this connection, what there
is of it when the server has ended, or nothing that it could cut the newline off. -/
inductive DaytimeShown.Sound (alive : Bool) (conn : DaytimeConn) (e : DaytimeShown) : Prop
  | whole {ctime : List Byte} (hstamp : conn.stamp = some ctime)
    (hsent : conn.sent = daytimeText ctime ++ [newline]) (hnum : e.numRead = 26)
    (htext : e.text = daytimeText ctime)
  | cut (hdead : alive = false) (hne : conn.sent ≠ []) (hno : newline ∉ conn.sent)
    (hnum : e.numRead = conn.sent.length + 1) (htext : e.text = conn.sent)
  | nothing (hdead : alive = false) (hsent : conn.sent = []) (hnum : e.numRead = -2)

/-- What was sent without the newline. -/
private theorem DaytimeConn.Sound.of_notMem {conn : DaytimeConn} (h : conn.Sound)
    (hno : newline ∉ conn.sent) : conn.sent.length ≤ 25 ∧ (0 : Byte) ∉ conn.sent := by
  rw [DaytimeConn.Sound] at h
  rcases hstamp : conn.stamp with _ | ctime
  · rw [hstamp] at h
    simp [h]
  · rw [hstamp] at h
    obtain ⟨hctime, hsent⟩ := h
    rcases hctime.prefix_cases hsent with heq | ⟨hpre, -⟩
    · rw [heq, hctime.daytimeLine_eq] at hno
      exact absurd (List.mem_append_right _ (List.mem_singleton_self newline)) hno
    · exact ⟨hctime.length_daytimeText ▸ hpre.length_le,
        fun hmem => hctime.notMem_daytimeText.1 (hpre.subset hmem)⟩

/-- **A client prints** what was sent to it, less the newline. -/
theorem LineReturned.sound {alive : Bool} {conn : DaytimeConn} {ret : CLong abi}
    {v : ReadLineVars abi} (h : LineReturned alive conn ret v) (hsound : conn.Sound) (c : ℕ) :
    DaytimeShown.Sound alive conn
      ⟨c, ret.toInt, (eliminateNewline v.buf ret.toInt).string (baaMaxLine + 1)⟩ := by
  cases h with
  | @whole ctime _ _ hstamp hctime hsent hfinished =>
    rw [hctime.daytimeLine_eq] at hsent
    rw [hsent] at hfinished
    obtain ⟨hnum, htext⟩ := string_eliminateNewline hfinished
      (by rw [hctime.length_daytimeText]; decide) (by decide) hctime.notMem_daytimeText.1
    rw [hctime.length_daytimeText] at hnum
    exact .whole hstamp hsent hnum htext
  | cut hdead hne hno hfinished =>
    obtain ⟨hlen, hnul⟩ := hsound.of_notMem hno
    obtain ⟨hnum, htext⟩ := string_eliminateNewline hfinished
      (hlen.trans_lt (by decide)) (by decide) hnul
    exact .cut hdead hne hno hnum htext
  | nothing hdead hsent =>
    exact .nothing hdead hsent (by cases abi <;> rfl)

/-! ### How connections change -/

/-- A connection gets its time, and then its bytes, once; nothing is taken back. -/
inductive DaytimeConn.Grows (conn : DaytimeConn) : DaytimeConn → Prop
  | same : Grows conn conn
  | stamped (h : conn.stamp = none) (ctime : List Byte) :
    Grows conn { conn with stamp := some ctime }
  | written (h : conn.sent = []) (bytes : List Byte) : Grows conn { conn with sent := bytes }

/-- What becomes of the connections there are. -/
structure DaytimeNet.Grows (s t : DaytimeNet abi) : Prop where
  fresh : s.fresh ≤ t.fresh
  conn : ∀ c < s.fresh, (s.conn c).Grows (t.conn c)
  /-- Nothing is written when the server has ended. -/
  dead : s.alive = false → t.alive = false ∧ ∀ c < s.fresh, t.conn c = s.conn c

variable {s t : DaytimeNet abi}

private theorem DaytimeConn.Grows.owner_eq {c c' : DaytimeConn} (h : c.Grows c') :
    c'.owner = c.owner := by
  cases h <;> rfl

/-- What is there to be read stays. -/
private theorem DaytimeConn.Grows.take_eq {c c' : DaytimeConn} (h : c.Grows c') {pos : ℕ}
    (hpos : pos ≤ c.sent.length) : pos ≤ c'.sent.length ∧ c'.sent.take pos = c.sent.take pos := by
  cases h with
  | same => exact ⟨hpos, rfl⟩
  | stamped => exact ⟨hpos, rfl⟩
  | written h =>
    rw [h, List.length_nil, Nat.le_zero] at hpos
    subst hpos
    exact ⟨Nat.zero_le _, rfl⟩

private theorem DaytimeShown.Sound.grows {e : DaytimeShown} {c : ℕ} (hgrows : s.Grows t)
    (hc : c < s.fresh) (h : e.Sound s.alive (s.conn c)) : e.Sound t.alive (t.conn c) := by
  cases h with
  | whole hstamp hsent hnum htext =>
    have hconn := hgrows.conn c hc
    revert hconn
    generalize t.conn c = conn'
    intro hconn
    cases hconn with
    | same => exact .whole hstamp hsent hnum htext
    | stamped h =>
      rw [hstamp] at h
      cases h
    | written h =>
      rw [hsent] at h
      simp at h
  | cut hdead hne hno hnum htext =>
    obtain ⟨hdead', hsame⟩ := hgrows.dead hdead
    rw [hsame c hc]
    exact .cut hdead' hne hno hnum htext
  | nothing hdead hsent hnum =>
    obtain ⟨hdead', hsame⟩ := hgrows.dead hdead
    rw [hsame c hc]
    exact .nothing hdead' hsent hnum

private theorem LineReturned.grows {ret : CLong abi} {v : ReadLineVars abi} {c : ℕ}
    (hgrows : s.Grows t) (hc : c < s.fresh) (h : LineReturned s.alive (s.conn c) ret v) :
    LineReturned t.alive (t.conn c) ret v := by
  cases h with
  | whole hstamp hctime hsent hfinished =>
    have hconn := hgrows.conn c hc
    revert hconn
    generalize t.conn c = conn'
    intro hconn
    cases hconn with
    | same => exact .whole hstamp hctime hsent hfinished
    | stamped h =>
      rw [hstamp] at h
      cases h
    | written h =>
      rw [hsent, hctime.daytimeLine_eq] at h
      simp at h
  | cut hdead hne hno hfinished =>
    obtain ⟨hdead', hsame⟩ := hgrows.dead hdead
    rw [hsame c hc]
    exact .cut hdead' hne hno hfinished
  | nothing hdead hsent =>
    obtain ⟨hdead', hsame⟩ := hgrows.dead hdead
    rw [hsame c hc]
    exact .nothing hdead' hsent

/-! ### The invariant -/

/-- What is known of a client. -/
structure DaytimeNet.ClientOk (s : DaytimeNet abi) (i : ℕ) (client : DaytimeClient abi) : Prop where
  shown : ∀ e ∈ client.shown, e.conn < s.fresh ∧ (s.conn e.conn).owner = i ∧
    e.Sound s.alive (s.conn e.conn)
  once : (client.shown.map DaytimeShown.conn).Nodup
  reading : ∀ c pos line, client.pc = .readLine c pos line → c < s.fresh ∧
    (s.conn c).owner = i ∧ c ∉ client.shown.map DaytimeShown.conn ∧
    pos ≤ (s.conn c).sent.length ∧ LineOk s.alive (s.conn c) pos line

/-- What the server has in hand. -/
def DaytimeNet.ServerOk (s : DaytimeNet abi) : Prop :=
  match s.server.pc with
  | .accept => True
  | .time => ∃ fd, s.server.confd = some fd ∧ s.connOf fd ∈ s.accepted ∧
    (s.conn (s.connOf fd)).stamp = none
  | .write => ∃ fd ctime, s.server.confd = some fd ∧ s.connOf fd ∈ s.accepted ∧
    (s.conn (s.connOf fd)).stamp = some ctime ∧ IsCtime ctime ∧
    (s.conn (s.connOf fd)).sent = [] ∧ s.server.buf.take s.server.len = daytimeLine ctime

/-- **The invariant.** It speaks of what the server has in hand, of the connections and who has
accepted them, of the descriptors, and of each client by itself. -/
structure DaytimeNet.Inv (setup : DaytimeSetup) (s : DaytimeNet abi) : Prop where
  server : s.ServerOk
  sound : ∀ c, (s.conn c).Sound
  stamped : ∀ c, (s.conn c).stamp ≠ none → c ∈ s.accepted
  pending : (s.accepted ++ s.pending).Nodup ∧ ∀ c ∈ s.accepted ++ s.pending, c < s.fresh
  card : s.fds.card = setup.fds.card + s.accepted.length
  room : s.accepted.length ≤ setup.limit - setup.fds.card
  client : ∀ i, s.ClientOk i (s.client i)

variable {setup : DaytimeSetup}

private theorem DaytimeNet.ClientOk.grows {i : ℕ} {client : DaytimeClient abi}
    (h : s.ClientOk i client) (hgrows : s.Grows t) : t.ClientOk i client := by
  refine ⟨fun e he => ?_, h.once, fun c pos line hpc => ?_⟩
  · obtain ⟨hlt, howner, hsound⟩ := h.shown e he
    refine ⟨hlt.trans_le hgrows.fresh, ?_, hsound.grows hgrows hlt⟩
    rw [(hgrows.conn _ hlt).owner_eq, howner]
  · obtain ⟨hlt, howner, hnew, hpos, hline⟩ := h.reading c pos line hpc
    obtain ⟨hpos', htake⟩ := (hgrows.conn c hlt).take_eq hpos
    have howner' : (t.conn c).owner = i := by rw [(hgrows.conn c hlt).owner_eq, howner]
    refine ⟨hlt.trans_le hgrows.fresh, howner', hnew, hpos', ?_⟩
    cases line with
    | readCmd v =>
      rw [LineOk, htake]
      exact hline
    | returned ret v => exact hline.imp_right fun hret => hret.grows hgrows hlt

/-- A client moves. -/
private theorem DaytimeNet.Inv.setClient (h : s.Inv setup) {i : ℕ} {client : DaytimeClient abi}
    (hclient : s.ClientOk i client) : (s.setClient i client).Inv setup := by
  refine ⟨h.server, h.sound, h.stamped, h.pending, h.card, h.room, fun j => ?_⟩
  rcases eq_or_ne j i with rfl | hne
  · have hnew : (s.setClient j client).client j = client := Function.update_self ..
    rw [hnew]
    exact ⟨hclient.shown, hclient.once, hclient.reading⟩
  · have hold : (s.setClient i client).client j = s.client j := Function.update_of_ne hne _ _
    rw [hold]
    exact ⟨(h.client j).shown, (h.client j).once, (h.client j).reading⟩

theorem DaytimeNet.Inv.exit (h : s.Inv setup) (i : ℕ) :
    (s.setClient i { s.client i with pc := .exited }).Inv setup :=
  h.setClient ⟨(h.client i).shown, (h.client i).once, fun c pos line hpc => by cases hpc⟩

/-- What the server has in hand is of the connections it has accepted. -/
private theorem DaytimeNet.ServerOk.of_accepted (h : s.ServerOk) (hserver : t.server = s.server)
    (hconnOf : t.connOf = s.connOf) (haccepted : t.accepted = s.accepted)
    (hconn : ∀ c ∈ s.accepted, t.conn c = s.conn c) : t.ServerOk := by
  simp only [DaytimeNet.ServerOk, hserver, hconnOf, haccepted] at h ⊢
  cases hpc : s.server.pc with
  | accept => trivial
  | time =>
    simp only [hpc] at h ⊢
    obtain ⟨fd, hconfd, hmem, hstamp⟩ := h
    exact ⟨fd, hconfd, hmem, by rw [hconn _ hmem]; exact hstamp⟩
  | write =>
    simp only [hpc] at h ⊢
    obtain ⟨fd, ctime, hconfd, hmem, hrest⟩ := h
    exact ⟨fd, ctime, hconfd, hmem, by rw [hconn _ hmem]; exact hrest⟩

private theorem DaytimeNet.conn_addConn_of_ne {c i : ℕ} (hne : c ≠ s.fresh) :
    (s.addConn i).conn c = s.conn c := Function.update_of_ne hne _ _

private theorem DaytimeNet.conn_addConn_fresh (i : ℕ) :
    (s.addConn i).conn s.fresh = ⟨i, none, []⟩ := Function.update_self ..

private theorem DaytimeNet.grows_addConn (halive : s.alive = true) (i : ℕ) :
    s.Grows (s.addConn i) := by
  refine ⟨Nat.le_succ _, fun c hc => ?_, fun hdead => ?_⟩
  · rw [DaytimeNet.conn_addConn_of_ne hc.ne]
    exact .same
  · rw [halive] at hdead
    cases hdead

/-- There is a connection more. -/
private theorem DaytimeNet.Inv.addConn (h : s.Inv setup) (halive : s.alive = true) (i : ℕ) :
    (s.addConn i).Inv setup := by
  -- nobody knows the number of the new connection yet
  have hnotfresh : s.fresh ∉ s.accepted ++ s.pending := fun hmem =>
    absurd (h.pending.2 _ hmem) (lt_irrefl _)
  have hlist : (s.addConn i).accepted ++ (s.addConn i).pending =
      (s.accepted ++ s.pending) ++ [s.fresh] := (List.append_assoc ..).symm
  refine ⟨h.server.of_accepted rfl rfl rfl fun c hc => ?_, fun c => ?_, fun c hc => ?_,
    ⟨?_, fun c hc => ?_⟩, h.card, h.room, fun j => (h.client j).grows (s.grows_addConn halive i)⟩
  · refine DaytimeNet.conn_addConn_of_ne ?_
    rintro rfl
    exact hnotfresh (List.mem_append_left _ hc)
  · rcases eq_or_ne c s.fresh with rfl | hne
    · rw [DaytimeNet.conn_addConn_fresh]
      rfl
    · rw [DaytimeNet.conn_addConn_of_ne hne]
      exact h.sound c
  · rcases eq_or_ne c s.fresh with rfl | hne
    · rw [DaytimeNet.conn_addConn_fresh] at hc
      exact absurd rfl hc
    · rw [DaytimeNet.conn_addConn_of_ne hne] at hc
      exact h.stamped c hc
  · rw [hlist, List.nodup_append]
    refine ⟨h.pending.1, List.nodup_singleton _, fun a ha b hb => ?_⟩
    obtain rfl := List.mem_singleton.mp hb
    exact ne_of_mem_of_not_mem ha hnotfresh
  · rw [hlist] at hc
    rcases List.mem_append.mp hc with hc | hc
    · exact Nat.lt_succ_of_lt (h.pending.2 c hc)
    · obtain rfl := List.mem_singleton.mp hc
      exact Nat.lt_succ_self _

/-- A client connects. -/
theorem DaytimeNet.Inv.connect (h : s.Inv setup) (halive : s.alive = true) (i : ℕ) :
    ((s.addConn i).setClient i
      { s.client i with pc := .readLine s.fresh 0 (.start fun _ => 0) }).Inv setup := by
  have hok := (h.client i).grows (s.grows_addConn halive i)
  refine (h.addConn halive i).setClient ⟨hok.shown, hok.once, fun c pos line hpc => ?_⟩
  obtain ⟨rfl, rfl, rfl⟩ := DaytimeClientPc.readLine.inj hpc
  rw [DaytimeNet.conn_addConn_fresh]
  refine ⟨Nat.lt_succ_self _, rfl, fun hmem => ?_, Nat.zero_le _, filled_start _ _, by simp⟩
  obtain ⟨e, he, heq⟩ := List.mem_map.mp hmem
  exact absurd ((h.client i).shown e he).1 (by rw [heq]; exact lt_irrefl _)

/-- A client prints, or exits. -/
private theorem DaytimeNet.Inv.print (h : s.Inv setup) {i c pos : ℕ} {ret : CLong abi}
    {v : ReadLineVars abi} (hpc : (s.client i).pc = .readLine c pos (.returned ret v)) :
    (s.setClient i ((s.client i).finish c ret v)).Inv setup := by
  rw [DaytimeClient.finish]
  split_ifs with hret
  · exact h.exit i
  · obtain ⟨hlt, howner, hnew, -, hline⟩ := (h.client i).reading c pos _ hpc
    have hsound := (hline.resolve_left hret).sound (h.sound c) c
    refine h.setClient ⟨fun e he => ?_, ?_, fun c' pos' line' hpc' => by cases hpc'⟩
    · rcases List.mem_append.mp he with he | he
      · exact (h.client i).shown e he
      · obtain rfl := List.mem_singleton.mp he
        exact ⟨hlt, howner, hsound⟩
    · rw [List.map_append, List.nodup_append]
      refine ⟨(h.client i).once, List.nodup_singleton _, fun a ha b hb => ?_⟩
      obtain rfl := List.mem_singleton.mp hb
      exact fun heq => hnew (heq ▸ ha)

/-- A client reads. -/
theorem DaytimeNet.Inv.read (h : s.Inv setup) {i c pos : ℕ} {v : ReadLineVars abi}
    (hpc : (s.client i).pc = .readLine c pos (.readCmd v)) {failed : Option Errno} {r : ReadRet}
    (hr : s.readAnswer c pos failed = some r) :
    (s.setClient i { s.client i with
      pc := .readLine c (pos + r.length) (v.afterRead (recvlineBytes abi) r) }).Inv setup := by
  obtain ⟨hlt, howner, hnew, hpos, hline⟩ := (h.client i).reading c pos _ hpc
  refine h.setClient ⟨(h.client i).shown, (h.client i).once, fun c' pos' line' hpc' => ?_⟩
  obtain ⟨rfl, rfl, rfl⟩ := DaytimeClientPc.readLine.inj hpc'
  obtain ⟨hpos', hline'⟩ := hline.read (h.sound c) hpos hr
  exact ⟨hlt, howner, hnew, hpos', hline'⟩

/-- The process of the server ends. -/
private theorem DaytimeNet.Inv.die (h : s.Inv setup) :
    DaytimeNet.Inv setup { s with alive := false } := by
  have hgrows : s.Grows { s with alive := false } :=
    ⟨le_rfl, fun _ _ => .same, fun _ => ⟨rfl, fun _ _ => rfl⟩⟩
  exact ⟨h.server.of_accepted rfl rfl rfl fun _ _ => rfl, h.sound, h.stamped, h.pending, h.card,
    h.room, fun i => (h.client i).grows hgrows⟩

/-- The server goes on with nothing in hand. -/
theorem DaytimeNet.Inv.idle (h : s.Inv setup) {server : Daytime} (hpc : server.pc = .accept) :
    DaytimeNet.Inv setup { s with server := server } := by
  have hgrows : s.Grows { s with server := server } :=
    ⟨le_rfl, fun _ _ => .same, fun hdead => ⟨hdead, fun _ _ => rfl⟩⟩
  refine ⟨?_, h.sound, h.stamped, h.pending, h.card, h.room, fun i => (h.client i).grows hgrows⟩
  simp only [DaytimeNet.ServerOk, hpc]

/-- The server goes on with an accepted connection, which gets its time or its bytes. -/
private theorem DaytimeNet.Inv.setConn (h : s.Inv setup) (halive : s.alive = true) {c : ℕ}
    (hc : c ∈ s.accepted) {conn : DaytimeConn} (hconn : (s.conn c).Grows conn)
    (hsound : conn.Sound) {server : Daytime}
    (hserver : (DaytimeNet.setConn { s with server := server } c conn).ServerOk) :
    (DaytimeNet.setConn { s with server := server } c conn).Inv setup := by
  have hnew : (DaytimeNet.setConn { s with server := server } c conn).conn c = conn :=
    Function.update_self ..
  have hold : ∀ c' ≠ c, (DaytimeNet.setConn { s with server := server } c conn).conn c' =
      s.conn c' := fun c' hne => Function.update_of_ne hne _ _
  -- for the clients the connection has grown, and no other one has changed
  have hgrows : s.Grows (DaytimeNet.setConn { s with server := server } c conn) := by
    refine ⟨le_rfl, fun c' _ => ?_, fun hdead => ?_⟩
    · rcases eq_or_ne c' c with rfl | hne
      · rw [hnew]
        exact hconn
      · rw [hold c' hne]
        exact .same
    · rw [halive] at hdead
      cases hdead
  refine ⟨hserver, fun c' => ?_, fun c' hstamp => ?_, h.pending, h.card, h.room,
    fun i => (h.client i).grows hgrows⟩
  · rcases eq_or_ne c' c with rfl | hne
    · rw [hnew]
      exact hsound
    · rw [hold c' hne]
      exact h.sound c'
  · rcases eq_or_ne c' c with rfl | hne
    · exact hc
    · rw [hold c' hne] at hstamp
      exact h.stamped c' hstamp

/-- The server accepts. -/
theorem DaytimeNet.Inv.accept (h : s.Inv setup) {c confd : ℕ} {pending : List ℕ}
    (hpending : s.pending = c :: pending) (hfd : confd ∉ s.fds)
    (hroom : s.fds.card < setup.limit) {server : Daytime} (hpc : server.pc = .time)
    (hconfd : server.confd = some confd) :
    DaytimeNet.Inv setup
      { s with
        server := server
        fds := insert confd s.fds
        connOf := Function.update s.connOf confd c
        pending := pending
        accepted := s.accepted ++ [c] } := by
  have hlist : s.accepted ++ [c] ++ pending = s.accepted ++ s.pending := by
    rw [hpending, List.append_assoc, List.singleton_append]
  -- a connection waits to be accepted, or was accepted, and not both
  have hnotaccepted : c ∉ s.accepted := by
    have hnodup := h.pending.1
    rw [hpending] at hnodup
    exact fun hmem => (List.nodup_append.mp hnodup).2.2 c hmem c List.mem_cons_self rfl
  refine ⟨?_, h.sound, fun c' hstamp => List.mem_append_left _ (h.stamped c' hstamp), ?_, ?_, ?_,
    fun i => ?_⟩
  · simp only [DaytimeNet.ServerOk, hpc]
    refine ⟨confd, hconfd, ?_⟩
    rw [Function.update_self]
    exact ⟨List.mem_append_right _ (List.mem_singleton_self c),
      not_not.mp fun hstamp => hnotaccepted (h.stamped c hstamp)⟩
  · rw [hlist]
    exact h.pending
  · rw [Finset.card_insert_of_notMem hfd, h.card, List.length_append, List.length_singleton,
      Nat.add_assoc]
  · have hcard := h.card
    rw [List.length_append, List.length_singleton]
    omega
  · exact (h.client i).grows ⟨le_rfl, fun _ _ => .same, fun hdead => ⟨hdead, fun _ _ => rfl⟩⟩

/-- **A call of the server.** -/
theorem DaytimeNet.Inv.serverStep (h : s.Inv setup) (halive : s.alive = true) {a : DaytimeAnswer}
    (hst : s.serverStep setup a = some t) : t.Inv setup := by
  have hserver := h.server
  obtain ⟨ret, ctime⟩ := a
  cases hpc : s.server.pc with
  | accept =>
    simp only [DaytimeNet.serverStep, baaDaytimeServerTh, hpc] at hst
    cases ret with
    | failed errno =>
      obtain rfl := Option.some.inj hst
      simp only [DaytimeNet.resume, baaDaytimeServerTh, hpc, daytimeEffect, FdEffect.apply]
      exact h.idle rfl
    | ok confd =>
      simp only at hst
      split at hst
      · cases hst
      · rename_i c pending hpending
        split_ifs at hst with hok
        obtain rfl := Option.some.inj hst
        simp only [DaytimeNet.resume, baaDaytimeServerTh, hpc, daytimeEffect, FdEffect.apply]
        -- the new descriptor is one that the server does not use
        exact h.accept hpending hok.1 hok.2 rfl rfl
  | time =>
    simp only [DaytimeNet.ServerOk, hpc] at hserver
    obtain ⟨fd, hconfd, hmem, hstamp⟩ := hserver
    simp only [DaytimeNet.serverStep, baaDaytimeServerTh, hpc, hconfd] at hst
    split_ifs at hst with hctime
    obtain rfl := Option.some.inj hst
    simp only [DaytimeNet.resume, baaDaytimeServerTh, hpc, daytimeEffect, FdEffect.apply]
    -- nothing was written before the time was read
    have hsent : (s.conn (s.connOf fd)).sent = [] := by
      have hsound := h.sound (s.connOf fd)
      rw [DaytimeConn.Sound, hstamp] at hsound
      exact hsound
    refine h.setConn halive hmem (.stamped hstamp ctime) ?_ ?_
    · refine ⟨hctime, ?_⟩
      rw [hsent]
      exact List.nil_prefix
    · refine ⟨fd, ctime, hconfd, hmem, ?_⟩
      simp only [DaytimeNet.setConn, Function.update_self]
      exact ⟨trivial, hctime, hsent, List.take_length⟩
  | write =>
    simp only [DaytimeNet.ServerOk, hpc] at hserver
    obtain ⟨fd, ctime', hconfd, hmem, hstamp, hctime, hsent, hbuf⟩ := hserver
    simp only [DaytimeNet.serverStep, baaDaytimeServerTh, hpc, hconfd] at hst
    cases ret with
    | failed errno =>
      obtain rfl := Option.some.inj hst
      simp only [DaytimeNet.resume, baaDaytimeServerTh, hpc, daytimeEffect, FdEffect.apply]
      exact h.idle rfl
    | ok len =>
      simp only at hst
      split_ifs at hst with hlen
      obtain rfl := Option.some.inj hst
      simp only [DaytimeNet.resume, baaDaytimeServerTh, hpc, daytimeEffect, FdEffect.apply]
      refine h.setConn halive hmem (.written hsent _) ?_ ?_
      · -- a part of the line may have been written
        rw [DaytimeConn.Sound, hstamp]
        refine ⟨hctime, ?_⟩
        rw [hsent, List.nil_append, hbuf]
        exact List.take_prefix _ _
      · trivial

/-- **One step.** -/
theorem DaytimeNet.Inv.step (h : s.Inv setup) {label : DaytimeLabel}
    (hst : s.step setup label = some t) : t.Inv setup := by
  cases label with
  | connect i succeeds =>
    simp only [DaytimeNet.step] at hst
    split at hst
    · split_ifs at hst with hsucceeds halive
      · obtain rfl := Option.some.inj hst
        exact h.connect halive i
      · obtain rfl := Option.some.inj hst
        exact h.exit i
    · cases hst
  | server a =>
    simp only [DaytimeNet.step] at hst
    split_ifs at hst with halive
    exact h.serverStep halive hst
  | die =>
    obtain rfl := Option.some.inj hst
    exact h.die
  | read i failed =>
    simp only [DaytimeNet.step] at hst
    split at hst
    · rename_i c pos v hpc
      obtain ⟨r, hr, rfl⟩ := Option.map_eq_some_iff.mp hst
      exact h.read hpc hr
    · cases hst
  | print i =>
    simp only [DaytimeNet.step] at hst
    split at hst
    · rename_i c pos ret v hpc
      obtain rfl := Option.some.inj hst
      exact h.print hpc
    · cases hst

/-- The invariant holds along every interleaving. -/
theorem DaytimeNet.inv_of_reachable (h : (daytimeSystem abi setup).Reachable s) : s.Inv setup := by
  refine h.invariant (P := DaytimeNet.Inv setup) ?_ fun _ _ _ _ hs hst => hs.step hst
  have hnone : ∀ c ∈ (DaytimeNet.init setup : DaytimeNet abi).accepted ++ [],
      c < (DaytimeNet.init setup : DaytimeNet abi).fresh := by simp [DaytimeNet.init]
  refine ⟨trivial, fun c => rfl, fun c hc => absurd rfl hc, ⟨List.nodup_nil, hnone⟩, rfl,
    Nat.zero_le _, fun i => ⟨by simp [daytimeSystem, DaytimeNet.init], List.nodup_nil, ?_⟩⟩
  intro c pos line hpc
  cases hpc

/-! ### The service -/

/-- What a client can rely on: what it prints is of its own connections, once for each, and is what
was sent over it. -/
structure DaytimeNet.Served (s : DaytimeNet abi) (i : ℕ) : Prop where
  /-- It prints something for connections of its own only. -/
  own : ∀ e ∈ (s.client i).shown, (s.conn e.conn).owner = i ∧
    DaytimeShown.Sound s.alive (s.conn e.conn) e
  once : ((s.client i).shown.map DaytimeShown.conn).Nodup
  /-- `recvline[num_read - 1]` is a byte of `recvline`, if a byte has come. -/
  in_bounds_iff : ∀ e ∈ (s.client i).shown,
    (0 ≤ e.numRead - 1 ∧ e.numRead - 1 < baaMaxLine + 1 ↔ (s.conn e.conn).sent ≠ [])

/-- **What the daytime service does.** In every state of every interleaving of a server that may
write a part of a line and end at any time, and any number of clients: each client prints the time
of its own connections, or what was sent of it before the server ended; and no more connections
get their time than the server had descriptors left. -/
theorem daytime_served (setup : DaytimeSetup) (h : (daytimeSystem abi setup).Reachable s) :
    (∀ i, s.Served i) ∧
      ∃ accepted : List ℕ, accepted.length ≤ setup.limit - setup.fds.card ∧
        ∀ c, (s.conn c).sent ≠ [] → c ∈ accepted := by
  have hinv := DaytimeNet.inv_of_reachable h
  refine ⟨fun i => ⟨fun e he => ((hinv.client i).shown e he).2, (hinv.client i).once, ?_⟩,
    s.accepted, hinv.room, fun c hc => hinv.stamped c ?_⟩
  · intro e he
    cases ((hinv.client i).shown e he).2.2 with
    | whole hstamp hsent hnum htext =>
      refine iff_of_true ?_ (by simp [hsent])
      rw [hnum]
      decide
    | cut hdead hne hno hnum htext =>
      refine iff_of_true ?_ hne
      have hlen := ((hinv.sound e.conn).of_notMem hno).1
      rw [hnum, baaMaxLine]
      omega
    | nothing hdead hsent hnum =>
      refine iff_of_false ?_ (not_not_intro hsent)
      rw [hnum]
      decide
  · -- nothing is sent over a connection that has no time
    intro hnone
    have hsound := hinv.sound c
    rw [DaytimeConn.Sound, hnone] at hsound
    exact hc hsound

/-- A server with room for one more descriptor. -/
def smallSetup : DaytimeSetup := ⟨3, {0, 1, 2, 3}, 5⟩

/-- Two clients connect; the server writes two bytes for the first one, and ends. -/
def cutOff : List DaytimeLabel :=
  [.connect 1 true, .connect 2 true, .server ⟨.ok 4, []⟩,
    .server ⟨.ok 0, List.replicate 24 65 ++ [10]⟩, .server ⟨.ok 2, []⟩, .read 1 none, .die,
    .read 1 (some .eintr), .read 1 none, .read 1 none, .print 1, .read 2 none, .print 2]

/-- The first client prints the two bytes; the second one writes in front of its array. -/
theorem daytime_served_cutOff :
    ∃ s, (daytimeSystem .lp64 smallSetup).exec (.init smallSetup) cutOff = some s ∧
      (s.client 1).shown = [⟨0, 3, [65, 65]⟩] ∧ (s.client 2).shown = [⟨1, -2, []⟩] ∧
      (∀ i, s.Served i) ∧
      ∃ accepted : List ℕ, accepted.length ≤ smallSetup.limit - smallSetup.fds.card ∧
        ∀ c, (s.conn c).sent ≠ [] → c ∈ accepted := by
  have hrun : ((daytimeSystem .lp64 smallSetup).exec (.init smallSetup) cutOff).map
      (fun s => ((s.client 1).shown, (s.client 2).shown)) =
        some ([⟨0, 3, [65, 65]⟩], [⟨1, -2, []⟩]) := by
    decide +kernel
  obtain ⟨s, hs, hfacts⟩ := Option.map_eq_some_iff.mp hrun
  obtain ⟨hfirst, hsecond⟩ : _ ∧ _ := by simpa only [Prod.mk.injEq] using hfacts
  exact ⟨s, hs, hfirst, hsecond,
    daytime_served smallSetup (LabelledSystem.reachable_of_exec hs)⟩

end Libbaalue
