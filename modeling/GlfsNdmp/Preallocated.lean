import GlfsNdmp.ReplySizes

/-!
# Preallocated structures

`ndmp_data_start_backup` and `ndmp_data_start_recover` allocate the structures their request is
decoded into beforehand: eight pairs, five names, eight bytes for the type and 64 for every other
string. The decoder takes a pointer that is not null as it is, whatever the message goes on to
say, and nothing checks afterwards.

`writes_inside_iff`: in a run, every write stays inside what was allocated if and only if no message
has more pairs or names than that, and no string fills its buffer.
-/

namespace GlfsNdmp

open Xdr

/-! ## Writes -/

/-- The environment a backup stores. -/
def storedEnvironment (r : Wire.NdmpDataStartBackupRequest) : List NdmpPval :=
  r.env.map Wire.NdmpPval.toPval

/-- The loop of `ndmp_data_start_backup` that copies the pairs to `data_env`. -/
def copyEnvironment (env : List NdmpPval) : List PreallocatedWrite :=
  eachSlot 8 (fun p => [strcpyWrite 64 p.name, strcpyWrite 64 p.value]) env

/-- The loops of `ndmp_data_get_env`: of each slot, the two pointers are set. -/
def fillGetEnv (env : List NdmpPval) : List PreallocatedWrite := eachSlot 8 (fun _ => []) env

/-- The writes a decoded request to start a transfer leads to. -/
def bodyWrites : (handler : NdmpMessageHandler) → Wire.Body handler → List PreallocatedWrite
  | .ndmpDataStartBackup, (r : Wire.NdmpDataStartBackupRequest) =>
    decodeStartBackup r ++ copyEnvironment (storedEnvironment r)
  | .ndmpDataStartRecover, (r : Wire.NdmpDataStartRecoverRequest) => decodeStartRecover r
  | _, _ => []

/-- The message, as far as it can be decoded. -/
def Received.request (recv : Received) : Option Wire.Request :=
  (Wire.Request.decode (recv.bytes.drop 4)).map Prod.fst

/-- The writes while a message is handled. -/
def Received.writes (srv : Server) (recv : Received) (arrival : Arrival) : List PreallocatedWrite :=
  (match recv.request with
    | some request => bodyWrites _ request.body
    | none => []) ++
  if (recv.txn arrival).request.isGetEnv then fillGetEnv srv.environment else []

/-- The writes while messages are handled one after another. -/
def writes (srv : Server) : List (Received × Arrival) → List PreallocatedWrite
  | [] => []
  | (recv, arrival) :: sent =>
    recv.writes srv arrival ++ writes (xdrDecodeEncode srv (recv.txn arrival)).1 sent

/-! ## Limits -/

/-- Strings that leave room for a zero in their buffers. -/
def Wire.NdmpPval.Short (p : Wire.NdmpPval) : Prop := p.name.length < 64 ∧ p.value.length < 64

def Wire.NdmpName.Short (n : Wire.NdmpName) : Prop :=
  n.originalPath.length < 64 ∧ n.destinationDir.length < 64 ∧ n.newName.length < 64 ∧
    n.otherName.length < 64

/-- The limits of what is preallocated. -/
def BodyWithin : (handler : NdmpMessageHandler) → Wire.Body handler → Prop
  | .ndmpDataStartBackup, (r : Wire.NdmpDataStartBackupRequest) =>
    r.buType.length < 8 ∧ r.env.length ≤ 8 ∧ ∀ p ∈ r.env, p.Short
  | .ndmpDataStartRecover, (r : Wire.NdmpDataStartRecoverRequest) =>
    r.buType.length < 8 ∧ r.env.length ≤ 8 ∧ (∀ p ∈ r.env, p.Short) ∧ r.nlist.length ≤ 5 ∧
      ∀ n ∈ r.nlist, n.Short
  | _, _ => True

/-- The limits, if the message can be decoded. -/
def Received.Within (recv : Received) : Prop :=
  ∀ request, recv.request = some request → BodyWithin _ request.body

theorem decodeString_inside (size : Nat) (s : Bytes) :
    (∀ w ∈ decodeString size s, w.Inside) ↔ s.length < size := by
  rw [decodeString, List.forall_mem_singleton]
  exact Nat.succ_le_iff

/-- From element `k` on, a loop stays inside if the slots last and each element stays inside. -/
theorem zipIdx_inside {α : Type} (slots : Nat) (writes : α → List PreallocatedWrite)
    (as : List α) (k : Nat) :
    (∀ w ∈ (as.zipIdx k).flatMap fun p => .slot p.2 slots :: writes p.1, w.Inside) ↔
      (as = [] ∨ k + as.length ≤ slots) ∧ ∀ a ∈ as, ∀ w ∈ writes a, w.Inside := by
  induction as generalizing k with
  | nil => simp
  | cons a as ih =>
    rw [List.zipIdx_cons, List.flatMap_cons, List.cons_append, List.forall_mem_cons,
      List.forall_mem_append, ih (k + 1), List.forall_mem_cons]
    show (k < slots ∧ _) ↔ _
    have hlength : (k < slots ∧ (as = [] ∨ k + 1 + as.length ≤ slots)) ↔
        (a :: as = [] ∨ k + (a :: as).length ≤ slots) := by
      cases as with
      | nil =>
        simp only [List.length_singleton, reduceCtorEq, false_or, true_or, and_true]
        exact Nat.succ_le_iff.symm
      | cons b bs =>
        simp only [List.length_cons, reduceCtorEq, false_or]
        omega
    rw [← hlength]
    constructor
    · intro ⟨hslot, ha, hlast, has⟩
      exact ⟨⟨hslot, hlast⟩, ha, has⟩
    · intro ⟨⟨hslot, hlast⟩, ha, has⟩
      exact ⟨hslot, ha, hlast, has⟩

theorem eachSlot_inside {α : Type} (slots : Nat) (writes : α → List PreallocatedWrite)
    (as : List α) :
    (∀ w ∈ eachSlot slots writes as, w.Inside) ↔
      as.length ≤ slots ∧ ∀ a ∈ as, ∀ w ∈ writes a, w.Inside := by
  have hnil : (as = [] ∨ 0 + as.length ≤ slots) ↔ as.length ≤ slots := by
    cases as with
    | nil => simp
    | cons a as => simp
  rw [eachSlot, zipIdx_inside, hnil]

theorem decodePval_inside (p : Wire.NdmpPval) : (∀ w ∈ decodePval p, w.Inside) ↔ p.Short := by
  rw [decodePval, List.forall_mem_append, decodeString_inside, decodeString_inside]
  rfl

theorem decodeName_inside (n : Wire.NdmpName) : (∀ w ∈ decodeName n, w.Inside) ↔ n.Short := by
  simp only [decodeName, List.forall_mem_append, decodeString_inside, and_assoc]
  rfl

theorem decodeStartBackup_inside (r : Wire.NdmpDataStartBackupRequest) :
    (∀ w ∈ decodeStartBackup r, w.Inside) ↔ BodyWithin .ndmpDataStartBackup r := by
  simp only [decodeStartBackup, List.forall_mem_append, decodeString_inside, eachSlot_inside,
    decodePval_inside]
  rfl

theorem decodeStartRecover_inside (r : Wire.NdmpDataStartRecoverRequest) :
    (∀ w ∈ decodeStartRecover r, w.Inside) ↔ BodyWithin .ndmpDataStartRecover r := by
  simp only [decodeStartRecover, List.forall_mem_append, decodeString_inside, eachSlot_inside,
    decodePval_inside, decodeName_inside]
  show _ ↔ r.buType.length < 8 ∧ r.env.length ≤ 8 ∧ (∀ p ∈ r.env, p.Short) ∧ r.nlist.length ≤ 5 ∧
    ∀ n ∈ r.nlist, n.Short
  tauto

/-- What the decoder had room for, there is room for in the stored environment: the strings end at
their first zero now. -/
theorem copyEnvironment_inside {r : Wire.NdmpDataStartBackupRequest}
    (h : BodyWithin .ndmpDataStartBackup r) :
    ∀ w ∈ copyEnvironment (storedEnvironment r), w.Inside := by
  obtain ⟨-, hslots, hshort⟩ := h
  refine (eachSlot_inside _ _ _).2 ⟨by rwa [storedEnvironment, List.length_map], ?_⟩
  intro p hp
  obtain ⟨sent, hsent, rfl⟩ := List.mem_map.1 hp
  have hname : (cString sent.name).length < 64 :=
    (length_cString_le sent.name).trans_lt (hshort sent hsent).1
  have hvalue : (cString sent.value).length < 64 :=
    (length_cString_le sent.value).trans_lt (hshort sent hsent).2
  simp only [List.forall_mem_cons]
  exact ⟨hname, hvalue, List.forall_mem_nil _⟩

theorem fillGetEnv_inside (env : List NdmpPval) :
    (∀ w ∈ fillGetEnv env, w.Inside) ↔ env.length ≤ 8 := by
  rw [fillGetEnv, eachSlot_inside]
  exact and_iff_left fun _ _ => List.forall_mem_nil _

theorem bodyWrites_inside (handler : NdmpMessageHandler) (body : Wire.Body handler) :
    (∀ w ∈ bodyWrites handler body, w.Inside) ↔ BodyWithin handler body := by
  cases handler with
  | ndmpDataStartBackup =>
    exact (List.forall_mem_append).trans ((and_congr_left' (decodeStartBackup_inside body)).trans
      (and_iff_left_of_imp copyEnvironment_inside))
  | ndmpDataStartRecover => exact decodeStartRecover_inside body
  | _ => exact iff_of_true (List.forall_mem_nil _) trivial

/-! ## A run -/

/-- There are slots for the reply to `DATA_GET_ENV`. -/
def Server.EnvironmentSlots (srv : Server) : Prop := srv.environment.length ≤ 8

theorem Received.writes_inside {srv : Server} (h : srv.EnvironmentSlots) (recv : Received)
    (arrival : Arrival) : (∀ w ∈ recv.writes srv arrival, w.Inside) ↔ recv.Within := by
  have hget : ∀ w ∈ if (recv.txn arrival).request.isGetEnv then fillGetEnv srv.environment else [],
      w.Inside := by
    split
    · exact (fillGetEnv_inside _).2 h
    · exact List.forall_mem_nil _
  rw [Received.writes, List.forall_mem_append, and_iff_left hget, Received.Within]
  cases recv.request with
  | none => simp
  | some request => simp [bodyWrites_inside]

theorem BodyWithin.length_env_le {handler : NdmpMessageHandler} {body : Wire.Body handler}
    (h : BodyWithin handler body) {r : NdmpDataStartBackupRequest}
    (hrequest : toRequest handler body = .dataStartBackup r) : r.env.length ≤ 8 := by
  have hhandler : handler = .ndmpDataStartBackup := by
    rw [← toRequest_handler handler body, hrequest]
    rfl
  subst hhandler
  cases hrequest
  exact (List.length_map _).trans_le h.2.1

/-- A backup stores the pairs of its message. -/
theorem Received.Within.length_env_le {recv : Received} (h : recv.Within)
    (hcomplete : recv.Complete) (arrival : Arrival) {r : NdmpDataStartBackupRequest}
    (hrequest : (recv.txn arrival).request = .dataStartBackup r) : r.env.length ≤ 8 := by
  obtain ⟨request, rest, hdecode, htxn⟩ := Received.txn_of_complete hcomplete arrival
  have hwithin := h request (by rw [Received.request, hdecode]; rfl)
  exact hwithin.length_env_le (htxn.symm.trans hrequest)

/-- A message that came in one buffer, if it starts a backup. -/
def BackupComplete (recv : Received) (arrival : Arrival) : Prop :=
  (recv.txn arrival).request.handler = .ndmpDataStartBackup → recv.Complete

theorem xdrDecodeEncode_environmentSlots {srv : Server} (h : srv.EnvironmentSlots)
    {recv : Received} {arrival : Arrival} (hbackup : BackupComplete recv arrival)
    (hin : recv.Within) : (xdrDecodeEncode srv (recv.txn arrival)).1.EnvironmentSlots := by
  unfold Server.EnvironmentSlots
  rw [xdrDecodeEncode_environment]
  unfold environmentEffect environmentAfterStop
  split
  · rename_i r hrequest
    refine hin.length_env_le (hbackup ?_) arrival hrequest
    rw [hrequest]
    rfl
  · split
    · exact Nat.zero_le _
    · exact h
  · exact h

theorem writes_inside {srv : Server} (h : srv.EnvironmentSlots) {sent : List (Received × Arrival)}
    (hsent : ∀ r ∈ sent, BackupComplete r.1 r.2) :
    (∀ w ∈ writes srv sent, w.Inside) ↔ ∀ r ∈ sent, r.1.Within := by
  induction sent generalizing srv with
  | nil => simp [writes]
  | cons r sent ih =>
    obtain ⟨recv, arrival⟩ := r
    rw [List.forall_mem_cons] at hsent
    obtain ⟨hbackup, hsent⟩ := hsent
    rw [writes, List.forall_mem_append, Received.writes_inside h, List.forall_mem_cons]
    refine and_congr_right fun hin => ?_
    exact ih (xdrDecodeEncode_environmentSlots h hbackup hin) hsent

theorem within_of_writes_inside {srv : Server} (h : srv.EnvironmentSlots) {recv : Received}
    {arrival : Arrival} (hinside : ∀ w ∈ writes srv [(recv, arrival)], w.Inside) : recv.Within :=
  (Received.writes_inside h recv arrival).1 (List.forall_mem_append.1 hinside).1

/-- **The preallocated structures.** In every run in which each backup came in one buffer and was
decoded, all writes stay inside if and only if the messages are within the limits the structures
were allocated with. -/
theorem writes_inside_iff (w : World) {sent : List (Received × Arrival)}
    (hsent : ∀ r ∈ sent, BackupComplete r.1 r.2) :
    (∀ write ∈ writes (.start w) sent, write.Inside) ↔ ∀ r ∈ sent, r.1.Within :=
  writes_inside (Nat.zero_le _) hsent

theorem writes_inside_startBackup : ∃ arrival : Arrival,
    (∀ write ∈ writes (.start (.boot [])) [(startBackup, arrival)], write.Inside) ↔
      ∀ r ∈ [(startBackup, arrival)], r.1.Within := by
  obtain ⟨memory, -⟩ := exists_memory default .errorMessage default
  refine ⟨⟨0, 4, [], memory, default⟩, writes_inside_iff (.boot []) ?_⟩
  exact List.forall_mem_singleton.2 fun _ => startBackup_complete

/-- The type `standard` has eight characters, as the comment in the source allows. -/
def standardType : Wire.NdmpDataStartBackupRequest :=
  ⟨[0x73, 0x74, 0x61, 0x6e, 0x64, 0x61, 0x72, 0x64], []⟩

def standardRequest : Wire.Request := ⟨⟨1, 0, 0, 0x401, 0, 0⟩, standardType⟩

def standardBackup : Received :=
  ⟨frame standardRequest.encode, false, by decide +kernel, by decide⟩

theorem standardRequest_valid : standardRequest.Valid := by
  have hone : (1 : Nat) < 2 ^ 32 := by decide
  have hword : (0 : Nat) < 2 ^ 32 := by decide
  have hzero : -2 ^ 31 ≤ (0 : Int) ∧ (0 : Int) < 2 ^ 31 := by decide
  have hmessage : -2 ^ 31 ≤ (0x401 : Int) ∧ (0x401 : Int) < 2 ^ 31 := by decide
  have htype : standardType.buType.length < 2 ^ 32 := by decide
  exact ⟨⟨hone, hword, hzero, hmessage, hword, hzero⟩, htype, hword, List.forall_mem_nil _⟩

/-- The zero behind it is outside. -/
theorem not_inside_standardType : ∃ arrival : Arrival,
    BackupComplete standardBackup arrival ∧
      ¬ ∀ write ∈ writes (.start (.boot [])) [(standardBackup, arrival)], write.Inside := by
  obtain ⟨memory, -⟩ := exists_memory default .errorMessage default
  have hdecode : Wire.Request.decode (standardBackup.bytes.drop 4) = some (standardRequest, []) :=
    Wire.Request.decode_encode standardRequest_valid
  have hrequest : standardBackup.request = some standardRequest := by
    rw [Received.request, hdecode]
    rfl
  have hbackup : BackupComplete standardBackup ⟨0, 4, [], memory, default⟩ := by
    intro _
    rw [Received.Complete, hdecode]
    rfl
  refine ⟨_, hbackup, fun hinside => ?_⟩
  have hwithin : BodyWithin .ndmpDataStartBackup standardType :=
    within_of_writes_inside (Nat.zero_le _) hinside standardRequest hrequest
  exact absurd hwithin.1 (by decide)

end GlfsNdmp
