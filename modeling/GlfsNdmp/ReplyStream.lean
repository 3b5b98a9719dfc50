import GlfsNdmp.Lib.Xdr
import Mathlib.Data.List.Sublists

/-!
# The bytes of the replies

`xdr_decode_encode` puts a record mark in front of a reply, and the responder sends the whole by one
call of `send` on a socket that does not block. What `send` does not take is lost: `write_message`
reports that the numbers differ, `process_response` prints it, and the next reply follows.

`framed_of_run`: as long as nothing is sent on a connection after a reply that was cut, the client
gets whole replies, and at the end at most the beginning of one.
-/

namespace GlfsNdmp

open Xdr

/-! ## The responder -/

/-- `txn->reply.length | (1<<31)`, encoded. -/
def recordMark (length : Nat) : Bytes := putLong (length ||| 2 ^ 31)

/-- `txn->reply.message` when the transaction is put on `reply_jobs`. -/
def frame (reply : Bytes) : Bytes := recordMark reply.length ++ reply

/-- A call of `send`: the connection, the reply it sends, and the number it returns. -/
structure Send where
  conn : Nat
  reply : Bytes
  result : Int
  bounds : -1 ≤ result ∧ result ≤ (frame reply).length

/-- `write_message`: the stream of the connection afterwards, and `-1` if not everything was sent. -/
def writeMessage (stream message : Bytes) (sentBytes : Int) : Bytes × Int :=
  let stream := if 0 < message.length then stream ++ message.take sentBytes.toNat else stream
  (stream, -1 * if sentBytes ≠ message.length then 1 else 0)

/-- `process_response`. Each connection has its stream; an error is printed. -/
def processResponse (streams : Nat → Bytes) (send : Send) : Nat → Bytes :=
  Function.update streams send.conn
    (writeMessage (streams send.conn) (frame send.reply) send.result).1

/-- The streams after a run of the responder. -/
def delivered (sends : List Send) : Nat → Bytes := sends.foldl processResponse fun _ => []

/-! ## What the client gets -/

namespace Send

/-- The bytes `send` takes. -/
def taken (send : Send) : Bytes := (frame send.reply).take send.result.toNat

/-- It takes some, but not all. -/
def Cut (send : Send) : Prop := 0 < send.result ∧ send.result < (frame send.reply).length

instance (send : Send) : Decidable send.Cut :=
  inferInstanceAs (Decidable (0 < send.result ∧ send.result < (frame send.reply).length))

/-- Nothing is sent, the whole reply is, or it is cut. -/
theorem taken_cases (send : Send) :
    send.result ≤ 0 ∧ send.taken = [] ∨ send.taken = frame send.reply ∨ send.Cut := by
  by_cases hzero : send.result ≤ 0
  · refine Or.inl ⟨hzero, ?_⟩
    rw [taken, Int.toNat_of_nonpos hzero, List.take_zero]
  · refine Or.inr ?_
    by_cases hcut : send.result < (frame send.reply).length
    · exact Or.inr ⟨by omega, hcut⟩
    · refine Or.inl (List.take_of_length_le ?_)
      omega

theorem taken_of_nonpos {send : Send} (h : send.result ≤ 0) : send.taken = [] := by
  rw [taken, Int.toNat_of_nonpos h, List.take_zero]

end Send

/-- The sends on a connection. -/
def sendsOn (conn : Nat) (sends : List Send) : List Send := sends.filter (·.conn == conn)

/-- The framed replies sent on a connection. -/
def framesOn (conn : Nat) (sends : List Send) : List Bytes :=
  (sendsOn conn sends).map fun send => frame send.reply

/-- Whole frames in the order in which they were sent, the last of them perhaps cut. -/
def Framed (frames : List Bytes) (stream : Bytes) : Prop :=
  stream = [] ∨ ∃ whole last cut, (whole ++ [last]).Sublist frames ∧ cut <+: last ∧
    stream = whole.flatten ++ cut

/-- On every connection, nothing is sent after a reply that was cut. -/
def NothingAfterCut (sends : List Send) : Prop :=
  sends.Pairwise fun send send' => send.conn = send'.conn → send.Cut → send'.result ≤ 0

instance (sends : List Send) : Decidable (NothingAfterCut sends) :=
  inferInstanceAs (Decidable (List.Pairwise _ sends))

theorem frame_ne_nil (reply : Bytes) : 0 < (frame reply).length := by
  rw [frame, List.length_append]
  exact Nat.add_pos_left (Nat.succ_pos 3) _

/-- A step of the responder appends to one stream. -/
theorem processResponse_apply (streams : Nat → Bytes) (send : Send) (conn : Nat) :
    processResponse streams send conn =
      streams conn ++ if send.conn = conn then send.taken else [] := by
  unfold processResponse
  by_cases h : send.conn = conn
  · rw [if_pos h, ← h, Function.update_self, writeMessage]
    have hpos : 0 < (frame send.reply).length := frame_ne_nil send.reply
    simp only [if_pos hpos, Send.taken]
  · rw [if_neg h, Function.update_of_ne (Ne.symm h), List.append_nil]

/-- The stream of a connection is what `send` has taken on it. -/
theorem delivered_apply (sends : List Send) (conn : Nat) :
    delivered sends conn = (sendsOn conn sends).flatMap Send.taken := by
  suffices h : ∀ streams : Nat → Bytes, sends.foldl processResponse streams conn =
      streams conn ++ (sendsOn conn sends).flatMap Send.taken from h _
  intro streams
  induction sends generalizing streams with
  | nil => simp [sendsOn]
  | cons send sends ih =>
    rw [List.foldl_cons, ih, processResponse_apply, List.append_assoc, sendsOn, sendsOn]
    by_cases h : send.conn = conn
    · simp [h]
    · simp [h]

theorem Framed.nil (frames : List Bytes) : Framed frames [] := Or.inl rfl

/-- A frame that is not sent at all changes nothing. -/
theorem Framed.skip {frames : List Bytes} {stream : Bytes} (f : Bytes) (h : Framed frames stream) :
    Framed (f :: frames) stream := by
  rcases h with rfl | ⟨whole, last, cut, hsub, hcut, rfl⟩
  · exact Framed.nil _
  · exact Or.inr ⟨whole, last, cut, hsub.cons f, hcut, rfl⟩

/-- A whole frame in front. -/
theorem Framed.cons {frames : List Bytes} {stream : Bytes} (f : Bytes) (h : Framed frames stream) :
    Framed (f :: frames) (f ++ stream) := by
  rcases h with rfl | ⟨whole, last, cut, hsub, hcut, rfl⟩
  · exact Or.inr ⟨[], f, f, List.singleton_sublist.2 (List.mem_cons_self ..), List.prefix_refl f,
      List.append_nil f⟩
  · exact Or.inr ⟨f :: whole, last, cut, hsub.cons_cons f, hcut, by simp⟩

/-- The sends on one connection, one after the other. -/
theorem framed_flatMap {sends : List Send}
    (h : sends.Pairwise fun send send' => send.Cut → send'.result ≤ 0) :
    Framed (sends.map fun send => frame send.reply) (sends.flatMap Send.taken) := by
  induction sends with
  | nil => exact Framed.nil _
  | cons send sends ih =>
    rw [List.pairwise_cons] at h
    rw [List.map_cons, List.flatMap_cons]
    rcases send.taken_cases with ⟨-, htaken⟩ | htaken | hcut
    · rw [htaken]
      exact (ih h.2).skip _
    · rw [htaken]
      exact (ih h.2).cons _
    · -- nothing follows
      have hrest : sends.flatMap Send.taken = [] := by
        rw [List.flatMap_eq_nil_iff]
        exact fun send' hmem => Send.taken_of_nonpos (h.1 send' hmem hcut)
      rw [hrest, List.append_nil]
      exact Or.inr ⟨[], _, send.taken, List.singleton_sublist.2 (List.mem_cons_self ..),
        List.take_prefix _ _, rfl⟩

/-- What reaches a client in a run in which nothing is sent on a connection after a cut reply. -/
theorem framed_of_run (sends : List Send) (h : NothingAfterCut sends) (conn : Nat) :
    Framed (framesOn conn sends) (delivered sends conn) := by
  rw [delivered_apply]
  refine framed_flatMap ?_
  refine (List.Pairwise.filter _ h).imp_of_mem fun {send send'} hmem hmem' himp => ?_
  have hconn : send.conn = conn := by simpa using (List.mem_filter.1 hmem).2
  have hconn' : send'.conn = conn := by simpa using (List.mem_filter.1 hmem').2
  exact himp (hconn.trans hconn'.symm)

/-- A reply goes out, the next one not at all, and the last one is cut. -/
def lastCut : List Send :=
  [⟨4, [1, 2, 3, 4], 8, by decide⟩, ⟨4, [5], -1, by decide⟩, ⟨4, [6, 7], 5, by decide⟩]

theorem framed_of_run_lastCut : Framed (framesOn 4 lastCut) (delivered lastCut 4) :=
  framed_of_run lastCut (by decide) 4

/-- The first reply is cut in the middle, and the next one follows. -/
def cutThenMore : List Send := [⟨4, [1, 2, 3, 4], 6, by decide⟩, ⟨4, [5], 5, by decide⟩]

/-- The client gets two bytes of the first reply where its mark announces four, and the mark of the
next one for the others. -/
theorem not_framed_cutThenMore :
    delivered cutThenMore 4 = [128, 0, 0, 4, 1, 2, 128, 0, 0, 1, 5] ∧
      ¬ Framed (framesOn 4 cutThenMore) (delivered cutThenMore 4) := by
  have hstream : delivered cutThenMore 4 = [128, 0, 0, 4, 1, 2, 128, 0, 0, 1, 5] := by decide
  refine ⟨hstream, ?_⟩
  rw [hstream]
  rintro (⟨⟨⟩⟩ | ⟨whole, last, cut, hsub, hcut, hstream⟩)
  have hcases : whole ++ [last] ∈ [[], [frame [1, 2, 3, 4]], [frame [5]],
      [frame [1, 2, 3, 4], frame [5]]] := List.mem_sublists.2 hsub
  simp only [List.mem_cons, List.not_mem_nil, or_false] at hcases
  rcases hcases with hnil | hfirst | hsecond | hboth
  · simp at hnil
  · -- the first reply has eight bytes
    obtain ⟨rfl, hlast⟩ := List.append_inj' (hfirst.trans (List.nil_append _).symm) rfl
    cases hlast
    have hlength := hcut.length_le
    rw [List.flatten_nil, List.nil_append] at hstream
    rw [← hstream] at hlength
    exact absurd hlength (by decide)
  · obtain ⟨rfl, hlast⟩ := List.append_inj' (hsecond.trans (List.nil_append _).symm) rfl
    cases hlast
    have hlength := hcut.length_le
    rw [List.flatten_nil, List.nil_append] at hstream
    rw [← hstream] at hlength
    exact absurd hlength (by decide)
  · -- its seventh byte is 3
    have hsplit : whole ++ [last] = [frame [1, 2, 3, 4]] ++ [frame [5]] := hboth
    obtain ⟨rfl, -⟩ := List.append_inj' hsplit rfl
    have hbyte : some (128 : UInt8) = some 3 := congrArg (·[6]?) hstream
    exact absurd hbyte (by decide)

end GlfsNdmp
