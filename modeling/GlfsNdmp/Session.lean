import GlfsNdmp.Protocol
import GlfsNdmp.Lib.Fifo

/-!
# Session records

`struct ndmp_session_info` and the registry of sessions. The registry is the queue behind
`get_session_queue`: a record is found by its id, and `get_session_info` appends a fresh one when
there is none.

The three states are declared `enum ndmp_state`, but the data handlers store `ndmp_data_state`
codes there; the fields hold the stored words.
-/

namespace GlfsNdmp

/-- `struct ndmp_session_info`. `sLock` says whether the mutex is held; `jobs` holds the addresses
of the transactions being handled. -/
structure SessionInfo where
  sessionId : Nat
  connectionState : Int
  dataState : Int
  moverState : Int
  sLock : Bool
  jobs : List Nat
  isTerminated : Bool
  deriving DecidableEq, Repr

namespace SessionInfo

/-- The record `get_session_info` creates. -/
def fresh (sessionId : Nat) : SessionInfo where
  sessionId := sessionId
  connectionState := NdmpState.listen
  dataState := NdmpState.idle
  moverState := NdmpState.idle
  sLock := false
  jobs := []
  isTerminated := false

def enterCriticalSection (s : SessionInfo) : SessionInfo := { s with sLock := true }

def exitCriticalSection (s : SessionInfo) : SessionInfo := { s with sLock := false }

/-- `enqueue(session->jobs, txn)`. -/
def addJob (address : Nat) (s : SessionInfo) : SessionInfo :=
  { s with jobs := s.jobs ++ [address] }

/-- `remove_elem(session->jobs, txn, job_cmp)`. -/
def removeJob (address : Nat) (s : SessionInfo) : SessionInfo :=
  { s with jobs := s.jobs.erase address }

/-- `session->is_terminated = 1`. -/
def terminate (s : SessionInfo) : SessionInfo := { s with isTerminated := true }

theorem addJob_sessionId (address : Nat) (s : SessionInfo) :
    (s.addJob address).sessionId = s.sessionId := rfl

theorem removeJob_sessionId (address : Nat) (s : SessionInfo) :
    (s.removeJob address).sessionId = s.sessionId := rfl

theorem terminate_sessionId (s : SessionInfo) : s.terminate.sessionId = s.sessionId := rfl

@[simp] theorem fresh_sessionId (id : Nat) : (fresh id).sessionId = id := rfl

end SessionInfo

/-! ## The registry -/

/-- `session_info_cmp`. -/
def sessionInfoCmp (id : Nat) (s : SessionInfo) : Bool := s.sessionId == id

/-- `get_session_info`: the record with the id and the registry afterwards. -/
def getSessionInfo (id : Nat) (registry : List SessionInfo) : SessionInfo × List SessionInfo :=
  match registry.find? (sessionInfoCmp id) with
  | some s => (s, registry)
  | none => (SessionInfo.fresh id, registry ++ [SessionInfo.fresh id])

/-- The record a lookup of `id` yields. -/
def sessionOf (registry : List SessionInfo) (id : Nat) : SessionInfo :=
  (getSessionInfo id registry).1

/-- Write through the pointer a lookup of `id` yields. -/
def updateSession (id : Nat) (f : SessionInfo → SessionInfo) (registry : List SessionInfo) :
    List SessionInfo :=
  Fifo.modifyFirst (sessionInfoCmp id) f (getSessionInfo id registry).2

theorem sessionOf_eq (registry : List SessionInfo) (id : Nat) :
    sessionOf registry id =
      (registry.find? (sessionInfoCmp id)).getD (SessionInfo.fresh id) := by
  unfold sessionOf getSessionInfo
  cases registry.find? (sessionInfoCmp id) <;> rfl

/-- After a lookup the record is there. -/
theorem find?_getSessionInfo (registry : List SessionInfo) (id : Nat) :
    (getSessionInfo id registry).2.find? (sessionInfoCmp id) =
      some (sessionOf registry id) := by
  unfold sessionOf getSessionInfo
  cases h : registry.find? (sessionInfoCmp id) with
  | some s => simpa using h
  | none => simp [List.find?_append, h, sessionInfoCmp]

theorem find?_getSessionInfo_other {id id' : Nat} (registry : List SessionInfo) (h : id ≠ id') :
    (getSessionInfo id registry).2.find? (sessionInfoCmp id') =
      registry.find? (sessionInfoCmp id') := by
  unfold getSessionInfo
  cases registry.find? (sessionInfoCmp id) with
  | some s => rfl
  | none => simp [List.find?_append, sessionInfoCmp, h]

theorem find?_updateSession {id : Nat} {f : SessionInfo → SessionInfo}
    (hf : ∀ s, (f s).sessionId = s.sessionId) (registry : List SessionInfo) :
    (updateSession id f registry).find? (sessionInfoCmp id) =
      some (f (sessionOf registry id)) := by
  rw [updateSession, Fifo.find?_modifyFirst_self (fun s => by simp [sessionInfoCmp, hf]),
    find?_getSessionInfo, Option.map_some]

theorem find?_updateSession_other {id id' : Nat} {f : SessionInfo → SessionInfo}
    (hf : ∀ s, (f s).sessionId = s.sessionId) (h : id ≠ id') (registry : List SessionInfo) :
    (updateSession id f registry).find? (sessionInfoCmp id') =
      registry.find? (sessionInfoCmp id') := by
  rw [updateSession, Fifo.find?_modifyFirst_other (fun s => by simp [sessionInfoCmp, hf])
    (fun s hs => ?_), find?_getSessionInfo_other registry h]
  simp only [sessionInfoCmp, beq_iff_eq] at hs
  simp [sessionInfoCmp, hs, h]

theorem sessionOf_updateSession {id : Nat} {f : SessionInfo → SessionInfo}
    (hf : ∀ s, (f s).sessionId = s.sessionId) (registry : List SessionInfo) :
    sessionOf (updateSession id f registry) id = f (sessionOf registry id) := by
  rw [sessionOf_eq, find?_updateSession hf, Option.getD_some]

theorem sessionOf_updateSession_other {id id' : Nat} {f : SessionInfo → SessionInfo}
    (hf : ∀ s, (f s).sessionId = s.sessionId) (h : id ≠ id') (registry : List SessionInfo) :
    sessionOf (updateSession id f registry) id' = sessionOf registry id' := by
  rw [sessionOf_eq, sessionOf_eq, find?_updateSession_other hf h]

/-- The record found under an id carries that id. -/
theorem sessionOf_sessionId (registry : List SessionInfo) (id : Nat) :
    (sessionOf registry id).sessionId = id := by
  rw [sessionOf_eq]
  cases h : registry.find? (sessionInfoCmp id) with
  | none => rfl
  | some s => simpa [sessionInfoCmp] using List.find?_some h

end GlfsNdmp
