import GlfsNdmp.Harmless
import GlfsNdmp.Decoding

/-!
# Truncated requests

`decodedSafely_iff` says for which results of `recv` it does no harm that nobody asks the decoders
whether they have succeeded: none but those with a complete request, and those cut so late that the
message number is there, if its handler does nothing in the state the session is in and no address
is put where a pointer nobody has set points.
-/

namespace GlfsNdmp

open Xdr

/-! ## Harm -/

/-- How many bytes of the stream decoding has taken. A body that fails to decode may have been read
to the end. -/
def Received.taken (recv : Received) (memory : Memory) : Nat :=
  let decoded := xdrNdmpHeader memory.header (recv.stream memory)
  let left := match (Wire.body (ndmpDispatch decoded.1.message)).decode decoded.2.2 with
    | some (_, rest) => rest.length
    | none => 0
  (recv.stream memory).length - left

/-- All bytes that are decoded have been received: those from the fifth on. -/
def Received.ReadsReceived (recv : Received) (memory : Memory) : Prop :=
  ∀ i, 4 ≤ i → i < 4 + recv.taken memory → i < recv.bytes.length

/-- What `handle_a_client_request` and the worker make of a result of `recv`. If it is 0, the session
is marked as terminated, and there is nothing to decode. -/
def DecodedSafely (srv : Server) (sessionId : Nat) (recv : Received) : Prop :=
  if recv.length = 0 then LeavesAlone srv (terminateSession srv sessionId) sessionId none
  else ∀ arrival : Arrival, arrival.sessionId = sessionId →
    recv.ReadsReceived arrival.memory ∧ (¬ recv.Complete → HandledSafely srv (recv.txn arrival))

/-- The message number, if the bytes go that far. -/
def Received.message (recv : Received) : Option Int :=
  (Codec.int.decode (recv.bytes.drop 16)).map Prod.fst

/-- The address type of a request to connect is there. -/
def Received.AddrTypeDecoded (recv : Received) : Prop :=
  (Codec.int.decode (recv.bytes.drop 28)).isSome

/-- It is one of the last arm, and all its bytes are there, if not their padding. -/
def Received.IpcDecoded (recv : Received) : Prop := commDataPut (recv.bytes.drop 28) ≠ 0

/-- What is known of an incomplete request is enough: the handler of its number is inert, and no
address goes where it should not. -/
def Received.CutLate (recv : Received) (srv : Server) (sessionId : Nat) : Prop :=
  ∃ message, recv.message = some message ∧
    Inert (srv.session sessionId) srv.environment recv.AddrTypeDecoded (ndmpDispatch message) ∧
      ¬ (ndmpDispatch message = .ndmpDataConnect ∧ recv.IpcDecoded)

/-! ## Short results of `recv` -/

theorem Received.neg_one_le_length (recv : Received) : -1 ≤ recv.length := by
  unfold Received.length
  split <;> omega

/-- Decoding takes at least what the header takes. -/
theorem Received.le_taken (recv : Received) (memory : Memory) :
    (recv.stream memory).length - (xdrNdmpHeader memory.header (recv.stream memory)).2.2.length ≤
      recv.taken memory := by
  simp only [Received.taken]
  split
  · rename_i body rest hbody
    have hlength := (Wire.body _).length_of_decode hbody
    omega
  · exact Nat.sub_le_sub_left (Nat.zero_le _) _

/-- With fewer than four bytes the header is read from memory that was not received. -/
theorem Received.not_readsReceived {recv : Received} (h : recv.length < 4) (memory : Memory) :
    ¬ recv.ReadsReceived memory := by
  intro hreads
  have hbytes := recv.bytes_length_of_lt h
  obtain ⟨rest, hstream⟩ :=
    requestStream_of_lt recv.neg_one_le_length h hbytes memory.message
  have hlong : ∃ n, getLong (recv.stream memory) = some (n, rest) :=
    ⟨_, by rw [Received.stream, hstream]; rfl⟩
  obtain ⟨n, hlong⟩ := hlong
  have hrest : (xdrNdmpHeader memory.header (recv.stream memory)).2.2.length ≤ rest.length := by
    rw [xdrNdmpHeader, headerFields, fill_of_some _ _ _ hlong]
    exact length_fill_le _ _ _
  have hlength : (recv.stream memory).length = rest.length + 4 := by
    rw [Received.stream, hstream]
    rfl
  have htaken := recv.le_taken memory
  have hread := hreads 4 (Nat.le_refl 4) (by omega)
  omega

/-! ## Results of four bytes and more -/

theorem Received.readsReceived {recv : Received} (h : 4 ≤ recv.length) (memory : Memory) :
    recv.ReadsReceived memory := by
  intro i hi htaken
  have hlength := Received.length_of_le h
  have hstream : (recv.stream memory).length = recv.bytes.length - 4 := by
    rw [Received.stream_of_le h, List.length_drop]
  have hle : recv.taken memory ≤ (recv.stream memory).length := Nat.sub_le _ _
  omega

/-! ## Incomplete requests -/

theorem Received.header_message (recv : Received) (memory : Memory) :
    (xdrNdmpHeader memory.header (recv.bytes.drop 4)).1.message =
      recv.message.getD memory.header.message := by
  rw [xdrNdmpHeader_message, List.drop_drop]
  rfl

section
variable {recv : Received} (h : 4 ≤ recv.length) (hincomplete : ¬ recv.Complete)
include h hincomplete

/-- What an incomplete request is taken for is one of the requests the handler can see. -/
theorem Received.canSee_txn (arrival : Arrival) :
    CanSee recv.AddrTypeDecoded (ndmpDispatch (recv.message.getD arrival.memory.header.message))
      (recv.txn arrival).request := by
  have hmessage := recv.header_message arrival.memory
  refine ⟨?_, fun hdecoded addrType hrequest => ?_⟩
  · rw [Received.txn_request h, seenRequest_handler, hmessage]
  · have hhandler : ndmpDispatch
        (xdrNdmpHeader arrival.memory.header (recv.bytes.drop 4)).1.message =
        .ndmpDataConnect := by
      have hsame := congrArg NdmpRequest.handler hrequest
      rw [Received.txn_request h, seenRequest_handler] at hsame
      exact hsame
    obtain ⟨addrType', hne, hseen⟩ := seenRequest_of_addrType arrival.memory
      (Option.not_isSome_iff_eq_none.1 hincomplete) hhandler (by rw [List.drop_drop]; exact hdecoded)
    rw [Received.txn_request h, hhandler, hseen] at hrequest
    cases hrequest
    exact hne

/-- Every request a handler can see is what an incomplete request may be taken for, but for the
address type if it is there. -/
theorem Received.exists_arrival (sessionId : Nat) (header : NdmpHeader) (locals : Locals)
    (answers : Answers) {request : NdmpRequest}
    (hrequest : request.handler = ndmpDispatch (recv.message.getD header.message))
    (hundecoded : ¬ (request.handler = .ndmpDataConnect ∧ recv.AddrTypeDecoded)) :
    ∃ arrival : Arrival, arrival.sessionId = sessionId ∧ arrival.memory.locals = locals ∧
      arrival.answers = answers ∧ (recv.txn arrival).request = request := by
  obtain ⟨memory, rfl, hmemory, rfl⟩ := exists_memory header request locals
  refine ⟨⟨0, sessionId, [], memory, answers⟩, rfl, rfl, rfl, ?_⟩
  have hmessage := recv.header_message memory
  rw [Received.txn_request h, hmessage, ← hrequest,
    seenRequest_of_incomplete memory (Option.not_isSome_iff_eq_none.1 hincomplete)]
  · exact hmemory
  · rw [hmessage, hrequest]
  · rintro ⟨hconnect, hdecoded⟩
    rw [List.drop_drop] at hdecoded
    exact hundecoded ⟨hconnect, hdecoded⟩

end

theorem commDataPut_of_short {stream : Bytes} (h : stream.length < 4) :
    commDataPut stream = 0 := by
  rw [commDataPut, Codec.int_decode_eq_none.2 h]

/-- An address is put somewhere only behind a whole header. -/
theorem Received.txn_commDataLen {recv : Received} (h : 4 ≤ recv.length) (arrival : Arrival) :
    (recv.txn arrival).commDataLen =
      if ndmpDispatch (recv.message.getD arrival.memory.header.message) = .ndmpDataConnect then
        commDataPut (recv.bytes.drop 28)
      else 0 := by
  have hdrop : (recv.bytes.drop 4).drop 24 = recv.bytes.drop 28 := List.drop_drop
  have hput : commDataPut (xdrNdmpHeader arrival.memory.header (recv.bytes.drop 4)).2.2 =
      commDataPut (recv.bytes.drop 28) := by
    rcases xdrNdmpHeader_rest arrival.memory.header (recv.bytes.drop 4) with
      ⟨hlt, hshort⟩ | ⟨-, hrest⟩
    · rw [← hdrop, List.drop_eq_nil_of_le (Nat.le_of_lt hlt), commDataPut_of_short hshort]
      rfl
    · rw [hrest, hdrop]
  rw [← recv.header_message arrival.memory, ← hput, ← Received.stream_of_le h arrival.memory]
  rfl

/-- With `comm_data_val` pointing somewhere, no byte of an address may be put there. -/
theorem not_ipcDecoded_of_handledSafely {srv : Server} {sessionId : Nat} {recv : Received}
    (h : 4 ≤ recv.length) (hincomplete : ¬ recv.Complete) {message : Int}
    (hmessage : recv.message = some message)
    (hall : ∀ arrival : Arrival, arrival.sessionId = sessionId →
      HandledSafely srv (recv.txn arrival)) :
    ¬ (ndmpDispatch message = .ndmpDataConnect ∧ recv.IpcDecoded) := by
  rintro ⟨hconnect, hdecoded⟩
  obtain ⟨memory, -, -, hlocals⟩ := exists_memory default .errorMessage dirty
  let arrival : Arrival := ⟨0, sessionId, [], memory, default⟩
  have hdispatch : ndmpDispatch (recv.message.getD memory.header.message) = .ndmpDataConnect := by
    rw [hmessage, Option.getD_some, hconnect]
  have hhandler : (recv.txn arrival).request.handler = .ndmpDataConnect :=
    (Received.canSee_txn h hincomplete arrival).1.trans hdispatch
  have hwithin : WithinLimits (srv.addJobToSession (recv.txn arrival)) (recv.txn arrival) :=
    (contained_iff _ _).1 (hall arrival rfl).contained
  unfold WithinLimits at hwithin
  cases hreq : (recv.txn arrival).request with
  | dataConnect request =>
    rw [hreq] at hwithin
    rcases hwithin with hzero | hnull
    · rw [Received.txn_commDataLen h, if_pos hdispatch] at hzero
      exact hdecoded hzero
    · have hother : memory.locals.commDataVal = .null := hnull
      rw [hlocals] at hother
      cases hother
  | config request =>
    rw [hreq] at hhandler
    cases request <;> cases hhandler
  | _ =>
    rw [hreq] at hhandler
    cases hhandler

/-- Of an incomplete request, the handler it is taken to be for has to be inert, and nothing may be
put where `comm_data_val` points. -/
theorem forall_handledSafely_iff (srv : Server) (sessionId : Nat) {recv : Received}
    (h : 4 ≤ recv.length) (hincomplete : ¬ recv.Complete) :
    (∀ arrival : Arrival, arrival.sessionId = sessionId →
        HandledSafely srv (recv.txn arrival)) ↔ recv.CutLate srv sessionId := by
  constructor
  · intro hall
    -- a number that is not there may be that of START_BACKUP
    obtain ⟨header, hheader⟩ : ∃ header : NdmpHeader, header.message = 0x401 :=
      ⟨⟨0, 0, 0, 0x401, 0, 0⟩, rfl⟩
    have hinert : Inert (srv.session sessionId) srv.environment recv.AddrTypeDecoded
        (ndmpDispatch (recv.message.getD header.message)) := by
      by_cases haddr : ndmpDispatch (recv.message.getD header.message) = .ndmpDataConnect ∧
          recv.AddrTypeDecoded
      · rw [haddr.1]
        exact .inr haddr.2
      · refine inert_of_handledSafely fun request hrequest locals answers => ?_
        obtain ⟨arrival, hsession, hlocals, hanswers, hseen⟩ := Received.exists_arrival h
          hincomplete sessionId header locals answers hrequest.1 (by rwa [hrequest.1])
        exact ⟨recv.txn arrival, hsession, hseen, hlocals, hanswers, hall arrival hsession⟩
    cases hmessage : recv.message with
    | none =>
      rw [hmessage, Option.getD_none, hheader] at hinert
      exact hinert.elim
    | some message =>
      rw [hmessage, Option.getD_some] at hinert
      exact ⟨message, hmessage, hinert,
        not_ipcDecoded_of_handledSafely h hincomplete hmessage hall⟩
  · rintro ⟨message, hmessage, hinert, haddr⟩ arrival rfl
    have hsee := Received.canSee_txn h hincomplete arrival
    rw [hmessage, Option.getD_some] at hsee
    obtain ⟨hhandler, hseen⟩ := hsee
    rw [← hhandler] at hinert
    refine handledSafely_of_inert hinert ⟨rfl, hseen⟩ ?_
    rw [Received.txn_commDataLen h, hmessage, Option.getD_some]
    by_contra hput
    split at hput
    · rename_i hconnect
      exact haddr ⟨hconnect, hput⟩
    · exact hput rfl

/-- **Truncated requests.** What `recv` returns is decoded from received bytes, and does no harm
where it is incomplete, if and only if it is empty, or complete, or cut so late that the message
number is there and its handler does nothing. -/
theorem decodedSafely_iff (srv : Server) (sessionId : Nat) (recv : Received) :
    DecodedSafely srv sessionId recv ↔
      recv.length = 0 ∨ 4 ≤ recv.length ∧ (recv.Complete ∨ recv.CutLate srv sessionId) := by
  unfold DecodedSafely
  split
  · rename_i hzero
    refine iff_of_true ?_ (.inl hzero)
    have hsession : (terminateSession srv sessionId).session sessionId =
        (srv.session sessionId).terminate :=
      Server.session_update SessionInfo.terminate_sessionId srv sessionId
    exact ⟨by rw [hsession]; rfl, by rw [hsession]; rfl, by rw [hsession]; rfl, rfl,
      fun _ h => by cases h⟩
  · rename_i hzero
    rw [or_iff_right hzero]
    rcases Int.lt_or_le recv.length 4 with hlt | hle
    · refine iff_of_false (fun hall => ?_) fun h => by omega
      obtain ⟨memory, -⟩ := exists_memory default .errorMessage default
      exact recv.not_readsReceived hlt memory (hall ⟨0, sessionId, [], memory, default⟩ rfl).1
    · rw [and_iff_right hle]
      by_cases hcomplete : recv.Complete
      · refine iff_of_true (fun arrival _ => ?_) (.inl hcomplete)
        exact ⟨Received.readsReceived hle _, fun h => absurd hcomplete h⟩
      · rw [or_iff_right hcomplete, ← forall_handledSafely_iff srv sessionId hle hcomplete]
        constructor
        · exact fun hall arrival hsession => (hall arrival hsession).2 hcomplete
        · exact fun hall arrival hsession =>
            ⟨Received.readsReceived hle _, fun _ => hall arrival hsession⟩

/-- `recv` has failed. -/
def failedRecv : Received := ⟨[], true, by decide, fun _ => rfl⟩

/-- `CONNECT_OPEN`, cut behind its header. -/
def cutConnectOpen : Received :=
  ⟨[0x80, 0, 0, 24] ++ Wire.header.encode ⟨1, 0, 0, 0x900, 0, 0⟩, false, by decide, by decide⟩

/-- Neither is harmless on a fresh session: of the one, nothing that is decoded was received, and the
version in the other may be any. -/
theorem not_decodedSafely_cut :
    ¬ DecodedSafely (Server.start (World.boot [])) 4 failedRecv ∧
      ¬ DecodedSafely (Server.start (World.boot [])) 4 cutConnectOpen := by
  constructor
  · intro hall
    obtain ⟨memory, -⟩ := exists_memory default .errorMessage default
    rw [DecodedSafely, if_neg (by decide)] at hall
    exact failedRecv.not_readsReceived (by decide) memory (hall ⟨0, 4, [], memory, default⟩ rfl).1
  · intro hall
    have hincomplete : ¬ cutConnectOpen.Complete := by
      unfold Received.Complete
      decide +kernel
    rw [DecodedSafely, if_neg (by decide)] at hall
    obtain ⟨message, hmessage, hinert, -⟩ :=
      (forall_handledSafely_iff _ 4 (by decide) hincomplete).1
        fun arrival hsession => (hall arrival hsession).2 hincomplete
    have hnumber : cutConnectOpen.message = some 0x900 := by decide
    cases hnumber.symm.trans hmessage
    exact hinert rfl

end GlfsNdmp
