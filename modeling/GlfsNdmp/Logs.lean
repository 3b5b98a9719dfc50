import GlfsNdmp.Commands
import GlfsNdmp.Buffers
import GlfsNdmp.Lib.Lines

/-!
# The logs of the clients

`logs.c`, and what the main loop and the handlers have it write: a line for each message, with the
time and the client's address and port, at the end of the file of that address. The line is put
together in a buffer of 256 bytes. Most messages are fixed texts; the makefiles build the server
with `DEBUG`, so that the mount and the copies of the transfers are messages, too. The main loop
says when a connection is accepted and when it is closed, at any point of the run.

`logsFit_iff`: no buffer of the logs is overrun in a run if and only if no such command is longer
than 211 characters, with the address and the port.

`logsReadBack_iff`: the file of a client reads back as the messages that were written for it, if
and only if no such command has a newline in it. A message may end with a newline, as that of a
closed connection does: it leaves an empty line.
-/

namespace GlfsNdmp

open Lines

/-! ## The formats -/

/-- Decimal digits, with zeros in front of them up to a width. -/
def padded (width n : Nat) : CString :=
  List.replicate (width - (Nat.toDigits 10 n).length) '0' ++ Nat.toDigits 10 n

/-- What `gettimeofday` and `localtime` make of the time. -/
structure Tm where
  year : Nat
  mon : Nat
  mday : Nat
  hour : Nat
  min : Nat
  sec : Nat
  usec : Nat
  year_ge : 1000 ≤ year
  year_lt : year < 10000
  mon_lt : mon < 100
  mday_lt : mday < 100
  hour_lt : hour < 100
  min_lt : min < 100
  sec_lt : sec < 100
  usec_lt : usec < 1000000

/-- `strftime` with `"%Y-%m-%d %H:%M:%S"`. -/
def Tm.date (tm : Tm) : CString :=
  Nat.toDigits 10 tm.year ++ "-".toList ++ padded 2 tm.mon ++ "-".toList ++ padded 2 tm.mday ++
    " ".toList ++ padded 2 tm.hour ++ ":".toList ++ padded 2 tm.min ++ ":".toList ++
    padded 2 tm.sec

/-- `get_timestamp`: `"%s.%06d"`. -/
def getTimestamp (tm : Tm) : CString := tm.date ++ ".".toList ++ padded 6 tm.usec

/-- `inet_ntoa`. -/
def inetNtoa (a b c d : UInt8) : CString :=
  Nat.toDigits 10 a.toNat ++ ".".toList ++ Nat.toDigits 10 b.toNat ++ ".".toList ++
    Nat.toDigits 10 c.toNat ++ ".".toList ++ Nat.toDigits 10 d.toNat

/-- An address as `inet_ntoa` writes it. -/
def IsAddress (s : CString) : Prop := ∃ a b c d, s = inetNtoa a b c d

/-- `%d` of `ntohs(socket.sin_port)`. -/
def portText (port : UInt16) : CString := Nat.toDigits 10 port.toNat

/-- A call of `write_client_log`, and the time it is made at. -/
structure LogCall where
  time : Tm
  address : CString
  port : UInt16
  message : CString

/-- `"/ndmp_server/log/%s.txt"` -/
def logFileName (address : CString) : CString :=
  "/ndmp_server/log/".toList ++ address ++ ".txt".toList

namespace LogCall

/-- `"[%s] [Client (%s:%d)]: %s\n"`, up to the newline. -/
def line (call : LogCall) : CString :=
  "[".toList ++ getTimestamp call.time ++ "] [Client (".toList ++ call.address ++ ":".toList ++
    portText call.port ++ ")]: ".toList ++ call.message

/-- `tmbuf`, `buf` and `timestamp`, `log_file_name`, and `write_buf`. -/
def buffers (call : LogCall) : List Buffer :=
  [⟨64, call.time.date⟩, ⟨64, getTimestamp call.time⟩, ⟨64, getTimestamp call.time⟩,
    ⟨64, logFileName call.address⟩, ⟨256, call.line ++ "\n".toList⟩]

end LogCall

/-- The files of the logs by their names. -/
abbrev LogFiles := CString → CString

/-- `write_client_log`: one `write` at the end of a file opened with `O_APPEND`. -/
def writeClientLog (files : LogFiles) (call : LogCall) : LogFiles :=
  Function.update files (logFileName call.address)
    (files (logFileName call.address) ++ (call.line ++ "\n".toList))

/-! ## Reading a log -/

/-- The fields of a line. -/
structure LogLine where
  timestamp : CString
  address : CString
  port : CString
  message : CString
  deriving DecidableEq, Repr

/-- A line, cut at the brackets and the colon. -/
def readLine (line : CString) : Option LogLine := do
  let (_, line) ← cut '[' line
  let (timestamp, line) ← cut ']' line
  let (_, line) ← cut '(' line
  let (address, line) ← cut ':' line
  let (port, line) ← cut ')' line
  let (_, message) ← cut ' ' line
  some ⟨timestamp, address, port, message⟩

/-- A log, without its empty lines. -/
def readLog (file : CString) : Option (List LogLine) :=
  (fullLines '\n' file).mapM readLine

/-- A message without the newline at its end. -/
def chomp (message : CString) : CString :=
  if message.getLast? = some '\n' then message.dropLast else message

def LogCall.fields (call : LogCall) : LogLine :=
  ⟨getTimestamp call.time, call.address, portText call.port, chomp call.message⟩

/-! ## The messages -/

/-- The message of a handler that has encoded the body of its reply. -/
def bodyMessage : NdmpMessageHandler → List CString
  | .ndmpConfigGetHostInfo => ["Sent HOST INFO to client".toList]
  | .ndmpConfigGetAuthAttr => ["Sent authentication attributes to client".toList]
  | .ndmpConfigGetTapeInfo => ["Sent TAPE INFO to client".toList]
  | .ndmpConfigGetScsiInfo => ["Sent SCSI INFO to client".toList]
  | .ndmpConfigGetServerInfo => ["Sent server info to client".toList]
  | .ndmpDataListen => ["Listening for backup/recover requests".toList]
  | .ndmpDataConnect => ["Connected for backup/recover operations".toList]
  | .ndmpDataAbort => ["Backup/recover operation aborted".toList]
  | .ndmpDataStop => ["Backup/recover operation stopped".toList]
  | .ndmpDataGetEnv => ["Sent backup ENV to client".toList]
  | _ => []

/-- The message of a handler that writes one in any case. -/
def anyMessage : NdmpMessageHandler → List CString
  | .ndmpAcceptNotify => ["Sent CONNECT_NOTIFY to client".toList]
  | .ndmpConnectOpen => ["Sent CONNECT_OPEN to client".toList]
  | .ndmpConnectClose => ["Sent CONNECT_CLOSE to client".toList]
  | .ndmpConfigGetConnectionType => ["Sent CONNECTION TYPES to client".toList]
  | .ndmpConfigGetButypeInfo => ["Sent BACKUP TYPE INFO to client".toList]
  | .ndmpConfigGetFsInfo => ["Sent FILE SYSTEM INFO to client".toList]
  | _ => []

/-- What a transfer says about the file. -/
def fileMessage (e : ServerEvent) : List CString :=
  match e.input.request with
  | .dataStartBackup request =>
    [if (targetOf e request).isItNew then "Client info was NOT found in the config file".toList
      else "Client info was found in the config file".toList]
  | .dataStartRecover _ => ["vol_usage file opened successfully".toList]
  | _ => []

/-- The commands a transfer logs before it runs them. -/
def loggedCommands (e : ServerEvent) : List Command :=
  match e.input.request with
  | .dataStartBackup request =>
    let target := targetOf e request
    (if target.isItNew then [.mount target.hostIp target.buPoint target.volName] else []) ++
      if mountFailed target.isItNew e.input.answers then []
      else [.backup target.user e.input.client target.path target.buPoint target.volName]
  | .dataStartRecover request =>
    let target := recoverTarget request e.input.client e.input.locals e.before.world
    [.recover target.buPoint target.volName e.input.client target.path target.name.originalPath
      target.user target.name.destinationDir]
  | _ => []

/-- The handler encodes a body. -/
def TxnReply.hasBody : TxnReply → Bool
  | .message reply => reply.body.isSome
  | _ => false

/-- What is written while a request is handled: by `xdr_decode_encode`, and by the handler. -/
def messagesOf (e : ServerEvent) : List CString :=
  ["Received request from client".toList] ++
    (if e.input.isTcpConnect then [] else ["Decoded NDMP header from client request".toList]) ++
    ["Dispatched client request to appropriate message handler".toList] ++
    fileMessage e ++ (loggedCommands e).map Command.text ++
    (if ((e.before.addJobToSession e.input).dispatch e.input).2.hasBody then
      bodyMessage e.input.request.handler else []) ++
    anyMessage e.input.request.handler

/-- The calls for a request, with the times of its messages and the port of its connection. -/
def callsOf (port : ClientTxn → UInt16) (clock : Nat → Tm) (e : ServerEvent) : List LogCall :=
  (messagesOf e).mapIdx fun i message => ⟨clock i, e.input.client, port e.input, message⟩

/-- The calls of the worker. -/
def workerCalls (port : ClientTxn → UInt16) (clock : Nat → Nat → Tm) (srv : Server)
    (txns : List ClientTxn) : List LogCall :=
  ((Mealy.trace xdrDecodeEncode srv txns).mapIdx fun k e => callsOf port (clock k) e).flatten

/-- What the main loop says about a connection. -/
inductive MainMessage
  | accepted
  | closed
  deriving DecidableEq, Repr

/-- The second text has a newline of its own. -/
def MainMessage.text : MainMessage → CString
  | accepted => "Client connection accepted".toList
  | closed => "Connection closed by client\n".toList

/-- A call of the main loop. -/
structure MainCall where
  time : Tm
  address : CString
  port : UInt16
  message : MainMessage

def MainCall.call (m : MainCall) : LogCall := ⟨m.time, m.address, m.port, m.message.text⟩

/-- The calls of the main loop among those of the worker, in any order the threads are scheduled
in: `none` is the worker's turn. -/
def interleave : List LogCall → List (Option MainCall) → List LogCall
  | calls, [] => calls
  | calls, some m :: schedule => m.call :: interleave calls schedule
  | [], none :: schedule => interleave [] schedule
  | call :: calls, none :: schedule => call :: interleave calls schedule

/-- The calls of a run. -/
def callsOfRun (port : ClientTxn → UInt16) (clock : Nat → Nat → Tm) (srv : Server)
    (txns : List ClientTxn) (schedule : List (Option MainCall)) : List LogCall :=
  interleave (workerCalls port clock srv txns) schedule

/-! ## What is in a line -/

theorem length_padded {width n : Nat} (h : (Nat.toDigits 10 n).length ≤ width) :
    (padded width n).length = width := by
  rw [padded, List.length_append, List.length_replicate]
  omega

theorem isDigit_of_mem_padded {width n : Nat} {c : Char} (h : c ∈ padded width n) : c.isDigit := by
  rcases List.mem_append.1 h with h | h
  · rw [List.eq_of_mem_replicate h]
    rfl
  · exact Nat.isDigit_of_mem_toDigits (by decide) (by decide) h

theorem isDigit_of_mem_toDigits {n : Nat} {c : Char} (h : c ∈ Nat.toDigits 10 n) : c.isDigit :=
  Nat.isDigit_of_mem_toDigits (by decide) (by decide) h

theorem length_date (tm : Tm) : tm.date.length = 19 := by
  have hyear : (Nat.toDigits 10 tm.year).length = 4 := by
    have hle := (Nat.length_toDigits_le_iff (k := 4) (by decide : 1 < 10) (by decide)).2 tm.year_lt
    have hgt := mt (Nat.length_toDigits_le_iff (k := 3) (by decide : 1 < 10) (by decide)).1
      (Nat.not_lt.2 tm.year_ge)
    omega
  have htwo {n : Nat} (h : n < 100) : (padded 2 n).length = 2 :=
    length_padded ((Nat.length_toDigits_le_iff (k := 2) (by decide) (by decide)).2 h)
  rw [Tm.date]
  simp only [List.length_append, hyear, htwo tm.mon_lt, htwo tm.mday_lt, htwo tm.hour_lt,
    htwo tm.min_lt, htwo tm.sec_lt]
  rfl

theorem length_getTimestamp (tm : Tm) : (getTimestamp tm).length = 26 := by
  have husec : (padded 6 tm.usec).length = 6 :=
    length_padded ((Nat.length_toDigits_le_iff (k := 6) (by decide) (by decide)).2 tm.usec_lt)
  rw [getTimestamp, List.length_append, List.length_append, length_date, husec]
  rfl

/-- A timestamp is made of digits and four other symbols. -/
theorem mem_getTimestamp (tm : Tm) :
    ∀ c ∈ getTimestamp tm, c.isDigit ∨ c ∈ "- :.".toList := by
  have hdigits {n : Nat} : ∀ c ∈ Nat.toDigits 10 n, c.isDigit ∨ c ∈ "- :.".toList :=
    fun c hc => Or.inl (isDigit_of_mem_toDigits hc)
  have hpadded {width n : Nat} : ∀ c ∈ padded width n, c.isDigit ∨ c ∈ "- :.".toList :=
    fun c hc => Or.inl (isDigit_of_mem_padded hc)
  have hdash : "-".toList = ['-'] := by decide
  have hspace : " ".toList = [' '] := by decide
  have hcolon : ":".toList = [':'] := by decide
  have hdot : ".".toList = ['.'] := by decide
  simp only [getTimestamp, Tm.date, List.forall_mem_append, hdash, hspace, hcolon, hdot,
    List.forall_mem_singleton]
  exact ⟨⟨⟨⟨⟨⟨⟨⟨⟨⟨⟨⟨hdigits, by decide⟩, hpadded⟩, by decide⟩, hpadded⟩, by decide⟩, hpadded⟩,
    by decide⟩, hpadded⟩, by decide⟩, hpadded⟩, by decide⟩, hpadded⟩

theorem length_inetNtoa_le {s : CString} (h : IsAddress s) : s.length ≤ 15 := by
  obtain ⟨a, b, c, d, rfl⟩ := h
  have hbyte (a : UInt8) : (Nat.toDigits 10 a.toNat).length ≤ 3 :=
    (Nat.length_toDigits_le_iff (by decide) (by decide)).2
      (Nat.lt_of_lt_of_le a.toNat_lt (by decide))
  have ha := hbyte a
  have hb := hbyte b
  have hc := hbyte c
  have hd := hbyte d
  have hdot : ".".toList.length = 1 := rfl
  rw [inetNtoa]
  simp only [List.length_append, hdot]
  omega

theorem mem_inetNtoa {s : CString} (h : IsAddress s) : ∀ c ∈ s, c.isDigit ∨ c ∈ ".".toList := by
  obtain ⟨a, b, c, d, rfl⟩ := h
  have hdigits {n : Nat} : ∀ c ∈ Nat.toDigits 10 n, c.isDigit ∨ c ∈ ".".toList :=
    fun c hc => Or.inl (isDigit_of_mem_toDigits hc)
  have hdot : ∀ c ∈ ".".toList, c.isDigit ∨ c ∈ ".".toList := fun _ hc => Or.inr hc
  simp only [inetNtoa, List.forall_mem_append]
  exact ⟨⟨⟨⟨⟨⟨hdigits, hdot⟩, hdigits⟩, hdot⟩, hdigits⟩, hdot⟩, hdigits⟩

theorem length_portText_le (port : UInt16) : (portText port).length ≤ 5 :=
  (Nat.length_toDigits_le_iff (by decide) (by decide)).2
    (Nat.lt_of_lt_of_le port.toNat_lt (by decide))

/-! ## The buffers of a line -/

theorem length_line (call : LogCall) :
    call.line.length = 43 + call.address.length + (portText call.port).length +
      call.message.length := by
  have hopen : "[".toList.length = 1 := rfl
  have hclient : "] [Client (".toList.length = 11 := rfl
  have hcolon : ":".toList.length = 1 := rfl
  have hclose : ")]: ".toList.length = 4 := rfl
  unfold LogCall.line
  simp only [List.length_append, length_getTimestamp, hopen, hclient, hcolon, hclose]
  omega

/-- Only the message can be too long. -/
theorem fits_buffers_iff {call : LogCall} (hshort : call.address.length ≤ 42) :
    (∀ b ∈ call.buffers, b.Fits) ↔
      call.message.length + call.address.length + (portText call.port).length ≤ 211 := by
  have hname : (logFileName call.address).length = 17 + call.address.length + 4 := by
    unfold logFileName
    simp only [List.length_append]
    rfl
  have hnewline : "\n".toList.length = 1 := rfl
  have hend : (call.line ++ "\n".toList).length = call.line.length + 1 := by
    rw [List.length_append, hnewline]
  have hline := length_line call
  simp only [LogCall.buffers, List.forall_mem_cons, Buffer.fits_mk, length_date,
    length_getTimestamp, hname, hend]
  constructor
  · intro ⟨_, _, _, _, hfits, _⟩
    omega
  · intro h
    refine ⟨by decide, by decide, by decide, by omega, by omega, ?_⟩
    exact fun b hb => (List.not_mem_nil hb).elim

/-! ## The messages of a run -/

/-- A fixed text: short, and in one line. -/
def IsShort (m : CString) : Prop := m.length ≤ 57 ∧ '\n' ∉ m

instance (m : CString) : Decidable (IsShort m) := inferInstanceAs (Decidable (_ ∧ _))

theorem isShort_bodyMessage (handler : NdmpMessageHandler) :
    ∀ m ∈ bodyMessage handler, IsShort m := by
  cases handler <;> decide

theorem isShort_anyMessage (handler : NdmpMessageHandler) :
    ∀ m ∈ anyMessage handler, IsShort m := by
  cases handler <;> decide

theorem isShort_fileMessage (e : ServerEvent) : ∀ m ∈ fileMessage e, IsShort m := by
  unfold fileMessage
  split
  · split <;> decide
  · decide
  · decide

/-- The messages are the commands, and fixed texts. -/
theorem mem_messagesOf {e : ServerEvent} {m : CString} (h : m ∈ messagesOf e) :
    IsShort m ∨ ∃ c ∈ loggedCommands e, c.text = m := by
  simp only [messagesOf, List.mem_append] at h
  rcases h with (((((h | h) | h) | h) | h) | h) | h
  · obtain rfl := List.mem_singleton.1 h
    exact .inl (by decide)
  · split at h
    · exact (List.not_mem_nil h).elim
    · obtain rfl := List.mem_singleton.1 h
      exact .inl (by decide)
  · obtain rfl := List.mem_singleton.1 h
    exact .inl (by decide)
  · exact .inl (isShort_fileMessage e m h)
  · exact .inr (List.mem_map.1 h)
  · split at h
    · exact .inl (isShort_bodyMessage _ m h)
    · exact (List.not_mem_nil h).elim
  · exact .inl (isShort_anyMessage _ m h)

theorem text_mem_messagesOf {e : ServerEvent} {c : Command} (h : c ∈ loggedCommands e) :
    c.text ∈ messagesOf e := by
  simp only [messagesOf, List.mem_append]
  exact .inl (.inl (.inr (List.mem_map_of_mem h)))

theorem MainMessage.newline_not_mem_chomp (message : MainMessage) :
    '\n' ∉ chomp message.text := by
  cases message <;> decide

theorem MainMessage.length_text_le (message : MainMessage) : message.text.length ≤ 57 := by
  cases message <;> decide

/-- What holds of every short text holds of all messages if it holds of the commands. -/
theorem forall_messagesOf_iff {P : CString → Prop} (hshort : ∀ m, IsShort m → P m)
    (e : ServerEvent) : (∀ m ∈ messagesOf e, P m) ↔ ∀ c ∈ loggedCommands e, P c.text := by
  constructor
  · exact fun h c hc => h _ (text_mem_messagesOf hc)
  · intro h m hm
    rcases mem_messagesOf hm with hm | ⟨c, hc, rfl⟩
    · exact hshort m hm
    · exact h c hc

theorem mem_interleave {calls : List LogCall} {schedule : List (Option MainCall)}
    {call : LogCall} : call ∈ interleave calls schedule ↔
      call ∈ calls ∨ ∃ m, some m ∈ schedule ∧ m.call = call := by
  fun_induction interleave calls schedule with
  | case1 => simp
  | case2 calls m schedule ih =>
    rw [List.mem_cons, ih]
    simp only [List.mem_cons, Option.some_inj]
    constructor
    · rintro (rfl | h | ⟨m', hm', rfl⟩)
      · exact .inr ⟨m, .inl rfl, rfl⟩
      · exact .inl h
      · exact .inr ⟨m', .inr hm', rfl⟩
    · rintro (h | ⟨m', rfl | hm', rfl⟩)
      · exact .inr (.inl h)
      · exact .inl rfl
      · exact .inr (.inr ⟨m', hm', rfl⟩)
  | case3 schedule ih => simpa using ih
  | case4 call' calls schedule ih =>
    rw [List.mem_cons, ih]
    simp [or_assoc]

section

variable {port : ClientTxn → UInt16} {clock : Nat → Nat → Tm} {srv : Server}
  {txns : List ClientTxn} {schedule : List (Option MainCall)}

/-- The calls of the worker are those for the messages of the run, whatever the time. -/
theorem forall_workerCalls_iff {P : CString → UInt16 → CString → Prop} :
    (∀ call ∈ workerCalls port clock srv txns, P call.address call.port call.message) ↔
      ∀ e ∈ Mealy.trace xdrDecodeEncode srv txns, ∀ m ∈ messagesOf e,
        P e.input.client (port e.input) m := by
  constructor
  · intro h e he m hm
    obtain ⟨k, hk, rfl⟩ := List.getElem_of_mem he
    obtain ⟨i, hi, rfl⟩ := List.getElem_of_mem hm
    refine h ⟨clock k i, _, _, _⟩ (List.mem_flatten.2 ⟨_, List.mem_mapIdx.2 ⟨k, hk, rfl⟩, ?_⟩)
    exact List.mem_mapIdx.2 ⟨i, hi, rfl⟩
  · intro h call hcall
    obtain ⟨calls, hcalls, hcall⟩ := List.mem_flatten.1 hcall
    obtain ⟨k, hk, rfl⟩ := List.mem_mapIdx.1 hcalls
    obtain ⟨i, hi, rfl⟩ := List.mem_mapIdx.1 hcall
    exact h _ (List.getElem_mem hk) _ (List.getElem_mem hi)

/-- The calls of a run are these, and those of the main loop. -/
theorem forall_callsOfRun_iff {P : CString → UInt16 → CString → Prop}
    (hmain : ∀ m, some m ∈ schedule → P m.address m.port m.message.text) :
    (∀ call ∈ callsOfRun port clock srv txns schedule, P call.address call.port call.message) ↔
      ∀ e ∈ Mealy.trace xdrDecodeEncode srv txns, ∀ m ∈ messagesOf e,
        P e.input.client (port e.input) m := by
  rw [← @forall_workerCalls_iff port clock]
  constructor
  · exact fun h call hcall => h call (mem_interleave.2 (.inl hcall))
  · intro h call hcall
    rcases mem_interleave.1 hcall with hcall | ⟨m, hm, rfl⟩
    · exact h call hcall
    · exact hmain m hm

theorem input_mem {e : ServerEvent} (he : e ∈ Mealy.trace xdrDecodeEncode srv txns) :
    e.input ∈ txns := by
  obtain ⟨pre, post, hsplit⟩ := List.append_of_mem he
  obtain ⟨as, bs, rfl, -⟩ := Mealy.trace_eq_append_cons xdrDecodeEncode hsplit
  exact List.mem_append_cons_self

/-- The addresses are those of the clients. -/
theorem isAddress_of_mem_callsOfRun (h : ∀ txn ∈ txns, IsAddress txn.client)
    (hmain : ∀ m, some m ∈ schedule → IsAddress m.address) :
    ∀ call ∈ callsOfRun port clock srv txns schedule, IsAddress call.address :=
  (forall_callsOfRun_iff (P := fun address _ _ => IsAddress address) hmain).2 fun _ he _ _ =>
    h _ (input_mem he)

/-- **The buffers of the logs.** In every run, none is overrun if and only if no command that is
logged has, with the address and the port of the client, more than 211 characters. -/
theorem logsFit_iff (haddress : ∀ txn ∈ txns, IsAddress txn.client)
    (hmain : ∀ m, some m ∈ schedule → IsAddress m.address) :
    (∀ call ∈ callsOfRun port clock srv txns schedule, ∀ b ∈ call.buffers, b.Fits) ↔
      ∀ e ∈ Mealy.trace xdrDecodeEncode srv txns, ∀ c ∈ loggedCommands e,
        c.text.length + e.input.client.length + (portText (port e.input)).length ≤ 211 := by
  have hfits : (∀ call ∈ callsOfRun port clock srv txns schedule, ∀ b ∈ call.buffers, b.Fits) ↔
      ∀ call ∈ callsOfRun port clock srv txns schedule,
        call.message.length + call.address.length + (portText call.port).length ≤ 211 :=
    forall₂_congr fun call hcall =>
      fits_buffers_iff ((length_inetNtoa_le
        (isAddress_of_mem_callsOfRun haddress hmain call hcall)).trans (by decide))
  -- with the longest address and port there are, a fixed text fits
  have hfixed {address m : CString} (port : UInt16) (h : IsAddress address) (hm : m.length ≤ 57) :
      m.length + address.length + (portText port).length ≤ 211 := by
    have hclient := length_inetNtoa_le h
    have hport := length_portText_le port
    omega
  rw [hfits]
  refine (forall_callsOfRun_iff (P := fun address port m =>
    m.length + address.length + (portText port).length ≤ 211)
      fun m hm => hfixed m.port (hmain m hm) m.message.length_text_le).trans ?_
  exact forall₂_congr fun e he => forall_messagesOf_iff
    (fun m hm => hfixed _ (haddress _ (input_mem he)) hm.1) e

end

/-- The first second of 1970. -/
def epoch : Tm where
  year := 1970
  mon := 1
  mday := 1
  hour := 0
  min := 0
  sec := 0
  usec := 0
  year_ge := by decide
  year_lt := by decide
  mon_lt := by decide
  mday_lt := by decide
  hour_lt := by decide
  min_lt := by decide
  sec_lt := by decide
  usec_lt := by decide

/-- A backup of a directory, on a connection that is open. -/
def backupOf (path : CString) : ClientTxn :=
  .receive 0 4 "10.0.0.2".toList
    (.dataStartBackup ⟨[], [⟨"FILESYSTEM".toList, path⟩, ⟨"USER".toList, "bob".toList⟩]⟩)
    { (default : Answers) with volName := some "vol".toList }

theorem isAddress_backupOf (path : CString) : ∀ txn ∈ [backupOf path], IsAddress txn.client := by
  intro txn htxn
  obtain rfl := List.mem_singleton.1 htxn
  exact ⟨10, 0, 0, 2, (by decide : "10.0.0.2".toList = inetNtoa 10 0 0 2)⟩

/-- A recovery of a name below `path`, in the directory `path`, to `path`. -/
def recoverOf (path : CString) : ClientTxn :=
  .receive 1 4 "10.0.0.2".toList
    (.dataStartRecover ⟨[⟨"FILESYSTEM".toList, path⟩, ⟨"USER".toList, "bob".toList⟩],
      [⟨path, path, [], []⟩], []⟩) default

/-- Three strings of 61 bytes fit in their slots of 64, but not together in a line. -/
theorem not_logsFit_longPath : ¬ ∀ call ∈ callsOfRun (fun _ => 1024) (fun _ _ => epoch)
    (Server.start (World.boot ("10.0.0.2 /bu\nvol 10.0.0.2/".toList ++
      (List.replicate 60 'a' ++ " bob\n".toList))))
    [recoverOf ('/' :: List.replicate 60 'a')] [], ∀ b ∈ call.buffers, b.Fits := by
  have haddress : ∀ txn ∈ [recoverOf ('/' :: List.replicate 60 'a')], IsAddress txn.client := by
    intro txn htxn
    obtain rfl := List.mem_singleton.1 htxn
    exact ⟨10, 0, 0, 2, (by decide : "10.0.0.2".toList = inetNtoa 10 0 0 2)⟩
  rw [logsFit_iff haddress (by rintro m ⟨⟩)]
  decide +kernel

/-! ## Reading the logs back -/

/-- A symbol that is in no number and none of some others is in no text of digits and these. -/
theorem not_mem_of_forall {s others : CString} (h : ∀ c ∈ s, c.isDigit ∨ c ∈ others) {c : Char}
    (hdigit : c.isDigit = false) (hothers : c ∉ others) : c ∉ s := by
  intro hc
  rcases h c hc with hc | hc
  · rw [hdigit] at hc
    cases hc
  · exact hothers hc

theorem not_mem_portText {c : Char} (h : c.isDigit = false) (port : UInt16) :
    c ∉ portText port := by
  have hdigits : ∀ c ∈ portText port, c.isDigit ∨ c ∈ ([] : CString) :=
    fun _ hc => Or.inl (isDigit_of_mem_toDigits hc)
  exact not_mem_of_forall hdigits h List.not_mem_nil

/-- A line, by its fields. -/
theorem line_eq (call : LogCall) :
    call.line = '[' :: (getTimestamp call.time ++ ']' :: (" [Client ".toList ++ '(' ::
      (call.address ++ ':' :: (portText call.port ++ ')' :: ("]:".toList ++ ' ' ::
        call.message))))) := by
  have hopen : "[".toList = ['['] := by decide
  have hclient : "] [Client (".toList = ']' :: (" [Client ".toList ++ ['(']) := by decide
  have hcolon : ":".toList = [':'] := by decide
  have hclose : ")]: ".toList = ')' :: ("]:".toList ++ [' ']) := by decide
  rw [LogCall.line, hopen, hclient, hcolon, hclose]
  simp only [List.append_assoc, List.cons_append, List.nil_append]

theorem readLine_line (call : LogCall) (haddress : IsAddress call.address) :
    readLine call.line =
      some ⟨getTimestamp call.time, call.address, portText call.port, call.message⟩ := by
  have htime : ']' ∉ getTimestamp call.time :=
    not_mem_of_forall (mem_getTimestamp call.time) (by decide) (by decide)
  have hcolon : ':' ∉ call.address :=
    not_mem_of_forall (mem_inetNtoa haddress) (by decide) (by decide)
  have hport : ')' ∉ portText call.port := not_mem_portText (by decide) call.port
  have hclient : '(' ∉ " [Client ".toList := by decide
  have hend : ' ' ∉ "]:".toList := by decide
  rw [readLine, line_eq, cut, if_pos rfl]
  simp only [Option.bind_eq_bind, Option.bind_some, cut_append htime, cut_append hclient,
    cut_append hcolon, cut_append hport, cut_append hend]

/-- What is read as a message is part of the line. -/
theorem mem_of_readLine {line : CString} {l : LogLine} (h : readLine line = some l) :
    ∀ c ∈ l.message, c ∈ line := by
  simp only [readLine, Option.bind_eq_bind, Option.bind_eq_some_iff, Option.some_inj] at h
  obtain ⟨x₁, h₁, x₂, h₂, x₃, h₃, x₄, h₄, x₅, h₅, x₆, h₆, rfl⟩ := h
  intro c hc
  exact mem_of_cut h₁ <| mem_of_cut h₂ <| mem_of_cut h₃ <| mem_of_cut h₄ <| mem_of_cut h₅ <|
    mem_of_cut h₆ hc

/-- The newlines of a line are those of its message. -/
theorem newline_not_mem_line (call : LogCall) (haddress : IsAddress call.address) :
    '\n' ∉ call.line ↔ '\n' ∉ call.message := by
  have htime : '\n' ∉ getTimestamp call.time :=
    not_mem_of_forall (mem_getTimestamp call.time) (by decide) (by decide)
  have hclient : '\n' ∉ " [Client ".toList := by decide
  have hclientAddress : '\n' ∉ call.address :=
    not_mem_of_forall (mem_inetNtoa haddress) (by decide) (by decide)
  have hport : '\n' ∉ portText call.port := not_mem_portText (by decide) call.port
  have hend : '\n' ∉ "]:".toList := by decide
  rw [line_eq]
  simp only [List.mem_cons, List.mem_append, htime, hclient, hclientAddress, hport, hend, false_or]
  simp

/-- The call for the message without the newline at its end. -/
def LogCall.chomped (call : LogCall) : LogCall := { call with message := chomp call.message }

theorem chomp_eq (m : CString) : m = chomp m ∨ m = chomp m ++ ['\n'] := by
  unfold chomp
  split
  · rename_i hlast
    exact .inr (List.dropLast_append_getLast? '\n' hlast).symm
  · exact .inl rfl

theorem mem_of_mem_chomp {c : Char} {m : CString} (h : c ∈ chomp m) : c ∈ m := by
  rcases chomp_eq m with hm | hm
  · rwa [← hm] at h
  · rw [hm]
    exact List.mem_append_left _ h

/-- The newline at the end of a message stands at the end of its line. -/
theorem LogCall.line_chomped (call : LogCall) :
    call.line = call.chomped.line ∨ call.line = call.chomped.line ++ ['\n'] := by
  rcases chomp_eq call.message with h | h
  · exact .inl (congrArg (fun m => LogCall.line { call with message := m }) h)
  · refine .inr ?_
    have hline : call.line = _ := congrArg (fun m => LogCall.line { call with message := m }) h
    exact hline.trans (List.append_assoc _ (chomp call.message) ['\n']).symm

/-- The lines of a log are those of the messages without their newlines. -/
theorem fullLines_unlines {calls : List LogCall}
    (h : ∀ call ∈ calls, '\n' ∉ call.chomped.line) :
    fullLines '\n' (unlines '\n' (calls.map LogCall.line)) =
      calls.map fun call => call.chomped.line := by
  induction calls with
  | nil => rfl
  | cons call calls ih =>
    rw [List.forall_mem_cons] at h
    have hfull : call.chomped.line ≠ [] := by
      rw [line_eq]
      exact List.cons_ne_nil _ _
    rw [List.map_cons, List.map_cons, unlines_cons, ← ih h.2]
    rcases call.line_chomped with hline | hline
    · rw [hline, fullLines_append h.1 hfull]
    · -- the second newline ends an empty line
      rw [hline, List.append_assoc, List.singleton_append, fullLines_append h.1 hfull,
        fullLines_stop]

theorem mapM_readLine {calls : List LogCall} (haddress : ∀ call ∈ calls, IsAddress call.address) :
    (calls.map fun call => call.chomped.line).mapM readLine = some (calls.map LogCall.fields) := by
  induction calls with
  | nil => rfl
  | cons call calls ih =>
    rw [List.forall_mem_cons] at haddress
    rw [List.map_cons, List.mapM_cons, readLine_line call.chomped haddress.1,
      ih haddress.2]
    rfl

/-- A log reads back as the calls that have written it, if and only if no message has a newline
before its end. -/
theorem readLog_unlines_iff {calls : List LogCall}
    (haddress : ∀ call ∈ calls, IsAddress call.address) :
    readLog (unlines '\n' (calls.map LogCall.line)) = some (calls.map LogCall.fields) ↔
      ∀ call ∈ calls, '\n' ∉ chomp call.message := by
  constructor
  · intro h call hcall hnewline
    -- whatever is read as a message is read from one line
    obtain ⟨line, hline, hread⟩ := exists_of_mem_mapM h (List.mem_map_of_mem hcall)
    exact not_mem_of_mem_fullLines hline (mem_of_readLine hread _ hnewline)
  · intro h
    rw [readLog, fullLines_unlines, mapM_readLine haddress]
    exact fun call hcall =>
      (newline_not_mem_line call.chomped (haddress call hcall)).2 (h call hcall)

/-! ## The files of a run -/

theorem logFileName_inj {address address' : CString} :
    logFileName address = logFileName address' ↔ address = address' := by
  constructor
  · intro h
    exact List.append_cancel_left (List.append_cancel_right h)
  · rintro rfl
    rfl

/-- The file of an address holds the lines of its calls. -/
theorem foldl_writeClientLog (files : LogFiles) (calls : List LogCall) (address : CString) :
    calls.foldl writeClientLog files (logFileName address) = files (logFileName address) ++
      unlines '\n' ((calls.filter fun call => call.address = address).map LogCall.line) := by
  induction calls generalizing files with
  | nil => exact (List.append_nil _).symm
  | cons call calls ih =>
    rw [List.foldl_cons, ih, writeClientLog]
    by_cases haddress : call.address = address
    · rw [haddress, Function.update_self, List.filter_cons_of_pos (by simpa using haddress),
        List.map_cons, unlines_cons, List.append_assoc, List.append_assoc]
      rfl
    · have hne : logFileName address ≠ logFileName call.address :=
        fun h => haddress (logFileName_inj.1 h).symm
      rw [Function.update_of_ne hne, List.filter_cons_of_neg (by simpa using haddress)]

section

variable {port : ClientTxn → UInt16} {clock : Nat → Nat → Tm} {srv : Server}
  {txns : List ClientTxn} {schedule : List (Option MainCall)}

/-- **The logs read back.** The file of an address, empty before the run, reads back as the
messages that were written for it, in their order, with their times and ports, if and only if no
command that is logged for it has a newline before its end. -/
theorem logsReadBack_iff (haddress : ∀ txn ∈ txns, IsAddress txn.client)
    (hmain : ∀ m, some m ∈ schedule → IsAddress m.address) (address : CString) :
    readLog ((callsOfRun port clock srv txns schedule).foldl writeClientLog (fun _ => [])
        (logFileName address)) =
      some (((callsOfRun port clock srv txns schedule).filter fun call =>
        call.address = address).map LogCall.fields) ↔
      ∀ e ∈ Mealy.trace xdrDecodeEncode srv txns, e.input.client = address →
        ∀ c ∈ loggedCommands e, '\n' ∉ chomp c.text := by
  have hcalls : ∀ call ∈ (callsOfRun port clock srv txns schedule).filter fun call =>
      call.address = address, IsAddress call.address := fun call hcall =>
    isAddress_of_mem_callsOfRun haddress hmain call (List.mem_of_mem_filter hcall)
  rw [foldl_writeClientLog, List.nil_append, readLog_unlines_iff hcalls]
  have hfile : (∀ call ∈ (callsOfRun port clock srv txns schedule).filter fun call =>
      call.address = address, '\n' ∉ chomp call.message) ↔
        ∀ call ∈ callsOfRun port clock srv txns schedule, call.address = address →
          '\n' ∉ chomp call.message := by
    simp only [List.mem_filter, decide_eq_true_eq, and_imp]
  rw [hfile]
  refine (forall_callsOfRun_iff (P := fun client _ m => client = address → '\n' ∉ chomp m)
    fun m _ _ => m.message.newline_not_mem_chomp).trans (forall₂_congr fun e _ => ?_)
  exact (forall_messagesOf_iff (P := fun m => e.input.client = address → '\n' ∉ chomp m)
    (fun _ hm _ hnewline => hm.2 (mem_of_mem_chomp hnewline)) e).trans
      ⟨fun h haddress c hc => h c hc haddress, fun h c hc haddress => h haddress c hc⟩

end

/-- A path of two lines, of a client that hangs up when its backup has begun. -/
theorem not_logsReadBack_newline :
    let calls := callsOfRun (fun _ => 1024) (fun _ _ => epoch)
      (Server.start (World.boot "10.0.0.2 /bu\n".toList)) [backupOf "/a\nb".toList]
      [none, some ⟨epoch, "10.0.0.2".toList, 1024, .closed⟩]
    ¬ readLog (calls.foldl writeClientLog (fun _ => []) (logFileName "10.0.0.2".toList)) =
      some ((calls.filter fun call => call.address = "10.0.0.2".toList).map LogCall.fields) := by
  intro calls
  have hmain : ∀ m : MainCall,
      some m ∈ [none, some ⟨epoch, "10.0.0.2".toList, 1024, .closed⟩] → IsAddress m.address := by
    intro m hm
    obtain rfl : m = ⟨epoch, "10.0.0.2".toList, 1024, .closed⟩ := by simpa using hm
    exact ⟨10, 0, 0, 2, (by decide : "10.0.0.2".toList = inetNtoa 10 0 0 2)⟩
  rw [logsReadBack_iff (isAddress_backupOf _) hmain]
  decide +kernel

end GlfsNdmp
