import GlfsNdmp.Handlers
import GlfsNdmp.Lib.Mealy

/-!
# The server, one request at a time

`xdr_decode_encode` and `terminate_session` of `ndmp_msg.c` on the whole server state, for the one
worker thread the server starts: a request is handled to its end before the next one. (The steps
of several threads are taken apart in `GlfsNdmp.Pipeline`.)

A run is a list of transactions, `xdrDecodeEncode` its step, and `Mealy.trace xdrDecodeEncode` the
list of what happened.
-/

namespace GlfsNdmp

/-! ## Transactions -/

/-- A request as the handler `ndmp_dispatch` picks sees it. -/
inductive NdmpRequest
  | acceptNotify
  | connectOpen (request : NdmpConnectOpenRequest)
  | connectClose
  | config (request : NdmpConfigRequest)
  | dataGetState
  | dataStartBackup (request : NdmpDataStartBackupRequest)
  | dataStartRecover (request : NdmpDataStartRecoverRequest)
  | dataAbort
  | dataGetEnv
  | dataStop
  | dataListen (request : NdmpDataListenRequest)
  | dataConnect (request : NdmpDataConnectRequest)
  | errorMessage

def NdmpConfigRequest.handler : NdmpConfigRequest → NdmpMessageHandler
  | .getHostInfo => .ndmpConfigGetHostInfo
  | .getConnectionType => .ndmpConfigGetConnectionType
  | .getAuthAttr _ => .ndmpConfigGetAuthAttr
  | .getButypeInfo => .ndmpConfigGetButypeInfo
  | .getFsInfo => .ndmpConfigGetFsInfo
  | .getTapeInfo => .ndmpConfigGetTapeInfo
  | .getScsiInfo => .ndmpConfigGetScsiInfo
  | .getServerInfo => .ndmpConfigGetServerInfo

/-- The handler a request is for. -/
def NdmpRequest.handler : NdmpRequest → NdmpMessageHandler
  | .acceptNotify => .ndmpAcceptNotify
  | .connectOpen _ => .ndmpConnectOpen
  | .connectClose => .ndmpConnectClose
  | .config request => request.handler
  | .dataGetState => .ndmpDataGetState
  | .dataStartBackup _ => .ndmpDataStartBackup
  | .dataStartRecover _ => .ndmpDataStartRecover
  | .dataAbort => .ndmpDataAbort
  | .dataGetEnv => .ndmpDataGetEnv
  | .dataStop => .ndmpDataStop
  | .dataListen _ => .ndmpDataListen
  | .dataConnect _ => .ndmpDataConnect
  | .errorMessage => .ndmpErrorMessage

/-- A write to something that was allocated with a fixed size. -/
inductive PreallocatedWrite
  /-- To an element of an array of so many. -/
  | slot (i slots : Nat)
  /-- Of so many bytes to the beginning of a buffer. -/
  | text (bytes size : Nat)

def PreallocatedWrite.Inside : PreallocatedWrite → Prop
  | .slot i slots => i < slots
  | .text bytes size => bytes ≤ size

instance : DecidablePred PreallocatedWrite.Inside
  | .slot i slots => inferInstanceAs (Decidable (i < slots))
  | .text bytes size => inferInstanceAs (Decidable (bytes ≤ size))

/-- `strcpy`. -/
def strcpyWrite (size : Nat) (s : CString) : PreallocatedWrite := .text (s.length + 1) size

/-- A loop over the elements of an array of so many slots. -/
def eachSlot {α : Type} (slots : Nat) (writes : α → List PreallocatedWrite) (as : List α) :
    List PreallocatedWrite :=
  as.zipIdx.flatMap fun p => .slot p.2 slots :: writes p.1

/-- The strings of a pair. -/
def pvalWrites (p : NdmpPval) : List PreallocatedWrite :=
  [strcpyWrite 64 p.name, strcpyWrite 64 p.value]

/-- The strings of a name. -/
def nameWrites (name : NdmpName) : List PreallocatedWrite :=
  [strcpyWrite 64 name.originalPath, strcpyWrite 64 name.destinationDir,
    strcpyWrite 64 name.newName, strcpyWrite 64 name.otherName]

/-- What decoding a request to start a transfer writes, if no string holds a zero. -/
def NdmpRequest.decoderWrites : NdmpRequest → List PreallocatedWrite
  | .dataStartBackup request => strcpyWrite 8 request.buType :: eachSlot 8 pvalWrites request.env
  | .dataStartRecover request =>
    eachSlot 8 pvalWrites request.env ++ eachSlot 5 nameWrites request.nlist ++
      [strcpyWrite 8 request.buType]
  | _ => []

/-- `struct client_txn` with its request decoded: the address of the transaction, the session it
came in on, the client's address, the header, and the request the header's number selects. Decoding
has written the strings in the length they were sent with, of which the handler sees what is before
the first zero, and the bytes of an address of the last arm, of which it sees nothing. -/
structure ClientTxn where
  address : Nat
  sessionId : Nat
  client : CString
  isTcpConnect : Bool
  header : NdmpHeader
  request : NdmpRequest
  decoderWrites : List PreallocatedWrite
  commDataLen : Nat
  locals : Locals
  answers : Answers
  dispatched : request.handler = ndmpDispatch header.message

/-- The number a request is sent under. -/
def NdmpRequest.message : NdmpRequest → Int
  | .acceptNotify => tcpConnectMessage
  | .connectOpen _ => 0x900
  | .connectClose => 0x902
  | .config .getHostInfo => 0x100
  | .config .getConnectionType => 0x102
  | .config (.getAuthAttr _) => 0x103
  | .config .getButypeInfo => 0x104
  | .config .getFsInfo => 0x105
  | .config .getTapeInfo => 0x106
  | .config .getScsiInfo => 0x107
  | .config .getServerInfo => 0x108
  | .dataGetState => 0x400
  | .dataStartBackup _ => 0x401
  | .dataStartRecover _ => 0x402
  | .dataAbort => 0x403
  | .dataGetEnv => 0x404
  | .dataStop => 0x407
  | .dataListen _ => 0x409
  | .dataConnect _ => 0x40A
  | .errorMessage => 0

theorem NdmpRequest.handler_eq_ndmpDispatch (request : NdmpRequest) :
    request.handler = ndmpDispatch request.message := by
  cases request with
  | config request => cases request <;> rfl
  | _ => rfl

/-- A request that arrives on a session, its header filled in. -/
def ClientTxn.receive (address sessionId : Nat) (client : CString) (request : NdmpRequest)
    (answers : Answers) : ClientTxn where
  address := address
  sessionId := sessionId
  client := client
  isTcpConnect := false
  header :=
    { sequence := 0
      timeStamp := answers.timeStamp
      messageType := NdmpHeaderMessageType.request
      message := request.message
      replySequence := 0
      error := NdmpError.noErr }
  request := request
  decoderWrites := request.decoderWrites
  commDataLen := 0
  locals := default
  answers := answers
  dispatched := request.handler_eq_ndmpDispatch

/-! ## Replies -/

/-- The bodies of replies; each starts with the error, which is `NDMP_NO_ERR` when it is sent. -/
inductive NdmpReplyBody
  | connectOpen
  | dataListen (addrType : Int)
  | dataConnect
  | dataStartBackup
  | dataStartRecover
  | dataAbort
  | dataStop
  | dataGetEnv (env : List NdmpPval)
  | config (reply : NdmpConfigReply)
  | notifyConnected (reason : Int) (protocolVersion : Nat) (textReason : CString)

/-- A message for the client: the header, and the body unless the header carries an error. -/
structure NdmpReply where
  header : NdmpHeader
  body : Option NdmpReplyBody

/-- What a handler leaves in `txn->reply`. -/
inductive TxnReply
  /-- `reply.length` set to 0. -/
  | empty
  /-- `reply.length` never set. -/
  | unset (length : Nat)
  | message (reply : NdmpReply)

/-- `txn->reply.length == 0`. -/
def TxnReply.isEmpty : TxnReply → Bool
  | .empty => true
  | .unset length => length == 0
  | .message _ => false

/-- The error in the header of the reply. -/
def TxnReply.error : TxnReply → Option Int
  | .message reply => some reply.header.error
  | _ => none

/-! ## The server state -/

/-- The statics of the process and the world outside it. -/
structure Server where
  registry : List SessionInfo
  environment : List NdmpPval
  sequenceNumber : Nat
  world : World

/-- The record of a session, as the next lookup finds it. -/
def Server.session (srv : Server) (id : Nat) : SessionInfo := sessionOf srv.registry id

/-- Write through the pointer to a session's record. -/
def Server.update (srv : Server) (id : Nat) (f : SessionInfo → SessionInfo) : Server :=
  { srv with registry := updateSession id f srv.registry }

/-- `set_header` and the encoding that follows it: the reply, with the body if there is no error. -/
def Server.reply (srv : Server) (txn : ClientTxn) (error : Int) (body : NdmpReplyBody) :
    Server × TxnReply :=
  ({ srv with sequenceNumber := srv.sequenceNumber + 1 },
    .message
      { header := setHeader txn.header srv.sequenceNumber txn.answers.timeStamp error
        body := if error = NdmpError.noErr then some body else none })

/-- `ndmp_error_message`: a header alone. -/
def Server.errorMessage (srv : Server) (txn : ClientTxn) (error : Int) : Server × TxnReply :=
  ({ srv with sequenceNumber := srv.sequenceNumber + 1 },
    .message
      { header := setHeader txn.header srv.sequenceNumber txn.answers.timeStamp error
        body := none })

/-- `ndmp_accept_notify`: a request of the server's own to the client. -/
def Server.acceptNotify (srv : Server) (txn : ClientTxn) : Server × TxnReply :=
  ({ srv with sequenceNumber := srv.sequenceNumber + 1 },
    .message
      { header :=
          { sequence := srv.sequenceNumber
            timeStamp := txn.answers.timeStamp
            messageType := NdmpHeaderMessageType.request
            message := ndmpNotifyConnected
            replySequence := 0
            error := NdmpError.noErr }
        body := some (.notifyConnected 0 3 []) })

/-- The handler of a transaction. The handlers that use the session look its record up by the id
in the transaction. `ndmp_data_start_backup` copies the environment of every request it decodes,
before anything is checked. -/
def Server.dispatch (srv : Server) (txn : ClientTxn) : Server × TxnReply :=
  let id := txn.sessionId
  let s := srv.session id
  match txn.request with
  | .acceptNotify => srv.acceptNotify txn
  | .connectOpen request =>
    (srv.update id fun s => (ndmpConnectOpen request txn.locals s).1).reply txn
      (ndmpConnectOpen request txn.locals s).2 .connectOpen
  | .connectClose => (srv.update id ndmpConnectClose, .empty)
  | .config request =>
    match ndmpConfig txn.answers.config request with
    | .ok reply => srv.reply txn NdmpError.noErr (.config reply)
    | .error e => srv.errorMessage txn e
  | .dataGetState => (srv, .unset txn.locals.replyLength)
  | .dataStartBackup request =>
    let run s := ndmpDataStartBackup request txn.client txn.locals txn.answers s srv.world
    let srv := { srv with environment := request.env, world := (run s).world }
    (srv.update id fun s => (run s).session).reply txn (run s).error .dataStartBackup
  | .dataStartRecover request =>
    let run s := ndmpDataStartRecover request txn.client txn.locals txn.answers s srv.world
    let srv := { srv with world := (run s).world }
    (srv.update id fun s => (run s).session).reply txn (run s).error .dataStartRecover
  | .dataAbort =>
    (srv.update id fun s => (ndmpDataAbort s).1).reply txn (ndmpDataAbort s).2 .dataAbort
  | .dataGetEnv =>
    let (error, env) := ndmpDataGetEnv s srv.environment
    (srv.update id fun s => s.enterCriticalSection.exitCriticalSection).reply txn error
      (.dataGetEnv env)
  | .dataStop =>
    let srv := { srv with environment := environmentAfterStop s srv.environment }
    (srv.update id fun s => (ndmpDataStop s).1).reply txn (ndmpDataStop s).2 .dataStop
  | .dataListen request =>
    (srv.update id fun s => (ndmpDataListen request s).1).reply txn
      (ndmpDataListen request s).2 (.dataListen NdmpAddrType.addrLocal)
  | .dataConnect request =>
    (srv.update id fun s => (ndmpDataConnect request s).1).reply txn
      (ndmpDataConnect request s).2 .dataConnect
  | .errorMessage => srv.errorMessage txn NdmpError.notSupportedErr

/-- `add_job_to_session`. -/
def Server.addJobToSession (srv : Server) (txn : ClientTxn) : Server :=
  srv.update txn.sessionId (·.addJob txn.address)

/-- `cleanup_session`: the job leaves the record, a terminated record with no job left leaves the
registry, and the result says whether the session is terminated. -/
def Server.cleanupSession (srv : Server) (txn : ClientTxn) : Server × Bool :=
  let srv := srv.update txn.sessionId (·.removeJob txn.address)
  let s := srv.session txn.sessionId
  if s.isTerminated then
    if s.jobs = [] then
      ({ srv with registry := srv.registry.eraseP (sessionInfoCmp s.sessionId) }, true)
    else (srv, true)
  else (srv, false)

/-- `xdr_decode_encode`, and what it puts on `reply_jobs`. -/
def xdrDecodeEncode (srv : Server) (txn : ClientTxn) : Server × Option TxnReply :=
  let srv := srv.addJobToSession txn
  let (srv, reply) := srv.dispatch txn
  let (srv, terminated) := srv.cleanupSession txn
  (srv, if terminated || reply.isEmpty then none else some reply)

/-- `terminate_session`. -/
def terminateSession (srv : Server) (id : Nat) : Server :=
  srv.update id (·.terminate)

/-- The process when it starts. -/
def Server.start (w : World) : Server where
  registry := []
  environment := []
  sequenceNumber := 1
  world := w

end GlfsNdmp
