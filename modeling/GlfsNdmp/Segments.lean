import GlfsNdmp.ReplyStream
import GlfsNdmp.Wire

/-!
# Records and segments

A client sends its requests as records: a mark that announces the length, the header and the body.
TCP delivers a stream of bytes, which `recv` may cut anywhere. `handle_a_client_request` makes a job
of what one `recv` returns, and `xdr_decode_encode` takes the first four bytes of a job for the mark,
without reading it, and the rest for one request.

`dispatchedInOrder_iff`: the requests dispatched are those sent if and only if every `recv` has
returned exactly one record.
-/

namespace GlfsNdmp

open Xdr

/-- A record: the mark, the header and the body. -/
def record (r : Wire.Request) : Bytes := frame r.encode

/-- The bytes `recv` returns one call after the other, from the stream of these records. -/
structure Segmentation (records : List Wire.Request) (chunks : List Bytes) : Prop where
  bytes : chunks.flatten = (records.map record).flatten
  size : ∀ chunk ∈ chunks, 0 < chunk.length ∧ chunk.length ≤ 2048

/-- The request `xdr_decode_encode` and the handler decode from a job; `none` if a decoder fails, and
the handler goes on with what is in its variables. -/
def dispatched (chunk : Bytes) (memory : Nat → UInt8) : Option Wire.Request :=
  (Wire.Request.decode (requestStream chunk.length chunk memory)).map Prod.fst

/-- Job by job, the requests dispatched are those of the records, whatever was in the memory of a
transaction before. -/
def DispatchedInOrder (records : List Wire.Request) (chunks : List Bytes) : Prop :=
  List.Forall₂ (fun r chunk => ∀ memory, dispatched chunk memory = some r) records chunks

/-! ## A single job -/

theorem length_record (r : Wire.Request) : (record r).length = r.encode.length + 4 := by
  rw [record, frame, List.length_append, Nat.add_comm]
  rfl

/-- A job that holds just a record is decoded as the record's request. -/
theorem dispatched_record {r : Wire.Request} (h : r.Valid) (hsize : (record r).length ≤ 2048)
    (memory : Nat → UInt8) : dispatched (record r) memory = some r := by
  have hlength := length_record r
  have hrest : (record r).drop 4 = r.encode := rfl
  rw [dispatched, requestStream_of_le (by omega) (by omega), hrest, Wire.Request.decode_encode h]
  rfl

/-- The first word of a header is the sequence. -/
theorem sequence_of_decode {bytes rest rest' : Bytes} {r : Wire.Request}
    (h : Wire.Request.decode bytes = some (r, rest)) {n : Nat}
    (hlong : getLong bytes = some (n, rest')) : r.header.sequence = n := by
  obtain ⟨⟨header, bytes₁⟩, hheader, h⟩ := Option.bind_eq_some_iff.1 h
  obtain ⟨⟨body, bytes₂⟩, -, heq⟩ := Option.bind_eq_some_iff.1 h
  cases heq
  -- the header is a word and the five other fields
  obtain ⟨⟨fields, bytes₃⟩, hfields, heq⟩ := Option.map_eq_some_iff.1 hheader
  obtain ⟨⟨m, bytes₄⟩, hm, hfields⟩ := Option.bind_eq_some_iff.1 hfields
  obtain ⟨⟨others, bytes₅⟩, -, heq'⟩ := Option.bind_eq_some_iff.1 hfields
  cases heq'
  cases heq
  have hword : some (m, bytes₄) = some (n, rest') := hm.symm.trans hlong
  cases hword
  rfl

/-- A request that is dispatched for certain has been received: with fewer than four bytes the
stream is memory of any content. -/
theorem length_of_dispatched {chunk : Bytes} {r : Wire.Request} (hsize : chunk.length ≤ 2048)
    (h : ∀ memory, dispatched chunk memory = some r) : (record r).length ≤ chunk.length := by
  by_cases hfour : 4 ≤ chunk.length
  · have hdecode := h fun _ => 0
    rw [dispatched, requestStream_of_le hfour (by omega), Option.map_eq_some_iff] at hdecode
    obtain ⟨⟨r', rest⟩, hdecode, rfl⟩ := hdecode
    have hlength := Wire.Request.length_of_decode hdecode
    rw [List.length_drop] at hlength
    rw [length_record]
    show r'.encode.length + 4 ≤ chunk.length
    omega
  · have hsequence : ∀ b : UInt8, r.header.sequence =
        b.toNat * 2 ^ 24 + b.toNat * 2 ^ 16 + b.toNat * 2 ^ 8 + b.toNat := by
      intro b
      have hdecode := h fun _ => b
      rw [dispatched, Option.map_eq_some_iff] at hdecode
      obtain ⟨⟨r', rest⟩, hdecode, rfl⟩ := hdecode
      obtain ⟨tail, hstream⟩ := requestStream_of_lt (by omega : -1 ≤ (chunk.length : Int))
        (by omega) (by omega : chunk.length < 4) fun _ => b
      rw [hstream] at hdecode
      exact sequence_of_decode hdecode rfl
    exact absurd ((hsequence 0).symm.trans (hsequence 1)) (by decide)

/-! ## A stream -/

/-- Two ways to cut the same list are the same if each piece of one is at least as long as the
piece of the other. -/
theorem eq_of_flatten_eq {α : Type*} {xs ys : List (List α)}
    (hle : List.Forall₂ (fun x y => x.length ≤ y.length) xs ys) (hflatten : xs.flatten = ys.flatten) :
    xs = ys := by
  have htotal : ∀ {xs ys : List (List α)}, List.Forall₂ (fun x y => x.length ≤ y.length) xs ys →
      xs.flatten.length ≤ ys.flatten.length := by
    intro xs ys hle
    induction hle with
    | nil => exact Nat.le_refl _
    | cons hxy _ ih =>
      rw [List.flatten_cons, List.flatten_cons, List.length_append, List.length_append]
      exact Nat.add_le_add hxy ih
  induction hle with
  | nil => rfl
  | @cons x y xs ys hxy hrest ih =>
    have hsum := congrArg List.length hflatten
    have hpieces := htotal hrest
    rw [List.flatten_cons, List.flatten_cons, List.length_append, List.length_append] at hsum
    obtain ⟨rfl, htail⟩ := List.append_inj hflatten (by omega)
    rw [ih htail]

theorem length_le_of_dispatchedInOrder {records : List Wire.Request} {chunks : List Bytes}
    (h : DispatchedInOrder records chunks) (hsize : ∀ chunk ∈ chunks, chunk.length ≤ 2048) :
    List.Forall₂ (fun r chunk => (record r).length ≤ chunk.length) records chunks := by
  induction h with
  | nil => exact .nil
  | cons hr _ ih =>
    rw [List.forall_mem_cons] at hsize
    exact .cons (length_of_dispatched hsize.1 hr) (ih hsize.2)

/-- **Records and segments.** -/
theorem dispatchedInOrder_iff {records : List Wire.Request} (hvalid : ∀ r ∈ records, r.Valid)
    {chunks : List Bytes} (h : Segmentation records chunks) :
    DispatchedInOrder records chunks ↔ chunks = records.map record := by
  constructor
  · intro hdispatched
    refine (eq_of_flatten_eq ?_ h.bytes.symm).symm
    rw [List.forall₂_map_left_iff]
    exact length_le_of_dispatchedInOrder hdispatched fun chunk hc => (h.size chunk hc).2
  · rintro rfl
    rw [DispatchedInOrder, List.forall₂_map_right_iff, List.forall₂_same]
    exact fun r hr =>
      dispatched_record (hvalid r hr) (h.size _ (List.mem_map_of_mem hr)).2

/-- `NDMP_DATA_ABORT`, with a sequence number. -/
def abortRequest (sequence : Nat) : Wire.Request := ⟨⟨sequence, 0, 0, 0x403, 0, 0⟩, ()⟩

theorem abortRequest_valid {sequence : Nat} (h : sequence < 2 ^ 32) :
    (abortRequest sequence).Valid := by
  have hword : (0 : Nat) < 2 ^ 32 := by decide
  have hzero : -2 ^ 31 ≤ (0 : Int) ∧ (0 : Int) < 2 ^ 31 := by decide
  have hmessage : -2 ^ 31 ≤ (0x403 : Int) ∧ (0x403 : Int) < 2 ^ 31 := by decide
  exact ⟨⟨h, hword, hzero, hmessage, hword, hzero⟩, trivial⟩

theorem dispatchedInOrder_oneByOne :
    DispatchedInOrder [abortRequest 1, abortRequest 2]
      [record (abortRequest 1), record (abortRequest 2)] := by
  refine (dispatchedInOrder_iff ?_ ⟨rfl, by decide⟩).2 rfl
  simp only [List.forall_mem_cons, List.not_mem_nil, false_imp_iff, implies_true, and_true]
  exact ⟨abortRequest_valid (by decide), abortRequest_valid (by decide)⟩

/-- One `recv` may return both of two records that were sent one after the other. -/
theorem not_dispatchedInOrder_coalesced :
    let records := [abortRequest 1, abortRequest 2]
    let chunks := [record (abortRequest 1) ++ record (abortRequest 2)]
    (∀ r ∈ records, r.Valid) ∧ Segmentation records chunks ∧ ¬ DispatchedInOrder records chunks := by
  refine ⟨?_, ⟨rfl, by decide⟩, ?_⟩
  · simp only [List.forall_mem_cons, List.not_mem_nil, false_imp_iff, implies_true, and_true]
    exact ⟨abortRequest_valid (by decide), abortRequest_valid (by decide)⟩
  · rintro (_ | ⟨-, ⟨⟩⟩)

end GlfsNdmp
