import Mathlib
import StratoVirt.Util.Aio
import StratoVirt.Virtio.RingIndex

/-!
# Merged virtio-blk requests: `merge_req_queue`, `execute`, `complete_request`

`virtio/src/device/block.rs`. `process_queue_internal` collects the requests
`Request::new` accepted with status `VIRTIO_BLK_S_OK`, and `merge_req_queue`
sorts them by sector and threads each one onto the chain of the one before it
when both are reads or both writes, the new one starts at the sector where the
chain's last member ends, and the chain stays within `MAX_NUM_MERGE_REQS`
members, `MAX_NUM_MERGE_IOVS` iovecs and `MAX_NUM_MERGE_BYTES` bytes.
`execute` then issues one vectored access for the whole chain at the head's
sector, and the completion callback `complete_request` answers each member.

A chain (a head and its `next` requests) is a `List Request`. The disk is a raw
image read and written as in `Aio.lean`, and host memory one byte array for the
iovecs and the status bytes.

* `mergeReqQueue_flatten_perm`: the chains partition the batch;
* `mergeReqQueue_chainOk`: each chain is non-empty and consecutive, has at
  most 32 members, and when it has two or more it holds only reads or only
  writes within the iovec and byte limits (`ChainOk.io`);
* `execute_eq_foldlM`: the one access for a chain of accepted requests is
  each member's own access in turn;
* `completeRequest_ok`: completion writes each member's status byte and
  publishes one used entry per member, in order, from `next_used`.

The merge loop's invariant (`MergeInv`) says the chains closed so far and the
open one are well formed, and the three running limits are the open chain's
totals; the test against the open chain's last member is what makes a chain
consecutive.
-/

namespace StratoVirt.Virtio

open StratoVirt.Lib StratoVirt.Util

/-! ## Requests -/

/-- `VIRTIO_BLK_T_IN`: a read. -/
def VIRTIO_BLK_T_IN : UInt32 := 0
/-- `VIRTIO_BLK_T_OUT`: a write. -/
def VIRTIO_BLK_T_OUT : UInt32 := 1
/-- `SECTOR_SHIFT`. -/
def SECTOR_SHIFT : Nat := 9
/-- `SECTOR_SIZE`. -/
def SECTOR_SIZE : Nat := 1 <<< SECTOR_SHIFT
/-- `MAX_NUM_MERGE_REQS`. -/
def MAX_NUM_MERGE_REQS : Nat := 32
/-- `MAX_NUM_MERGE_IOVS`. -/
def MAX_NUM_MERGE_IOVS : Nat := 1024
/-- `MAX_NUM_MERGE_BYTES`: `i32::MAX`. -/
def MAX_NUM_MERGE_BYTES : Nat := 2 ^ 31 - 1

/-- The fields of `Request` that the merge, `execute` and the completion read:
`out_header.request_type` and `out_header.sector`, the host iovecs, and the
guest address of the status byte. -/
structure Request where
  descIndex : UInt16
  requestType : UInt32
  sector : Nat
  iovec : List Iovec
  dataLen : Nat
  inLen : Nat
  inHeader : Nat
  deriving Repr, DecidableEq

namespace Request

/-- `get_req_sector_num`. -/
def getReqSectorNum (r : Request) : Nat := r.dataLen / SECTOR_SIZE

/-- The `io` test of `merge_req_queue`: a read or a write. -/
def isIo (r : Request) : Bool := r.requestType == VIRTIO_BLK_T_IN || r.requestType == VIRTIO_BLK_T_OUT

/-- `io_range_valid`: a read or a write covers whole sectors inside the disk
(`checked_add` cannot overflow a `Nat`, and a sum past `u64` is past the disk). -/
def ioRangeValid (r : Request) (diskSectors : Nat) : Bool :=
  if r.isIo then
    if r.dataLen % SECTOR_SIZE ≠ 0 then false
    else decide (r.getReqSectorNum + r.sector ≤ diskSectors)
  else true

/-- What `Request::new` establishes of a request it accepts with status
`VIRTIO_BLK_S_OK`: `io_range_valid` holds, `data_len` is what the host iovecs
hold (`gpa_hva_iovec_map` sums the lengths it maps), and the iovecs lie in
host memory. -/
structure Accepted (diskSectors : Nat) (mem : List UInt8) (r : Request) : Prop where
  rangeValid : r.ioRangeValid diskSectors = true
  dataLen_eq : r.dataLen = iovTotal r.iovec
  inside : Inside mem r.iovec

/-- Two members side by side in a chain: the second is a read or a write of
the first's type, and starts at the sector where the first ends. -/
def Joins (r s : Request) : Prop :=
  s.isIo = true ∧ s.requestType = r.requestType ∧ s.sector = r.sector + r.getReqSectorNum

end Request

theorem isIo_iff {r : Request} : r.isIo = true ↔ r.requestType = VIRTIO_BLK_T_IN ∨ r.requestType = VIRTIO_BLK_T_OUT := by
  simp [Request.isIo]

/-- An accepted read or write covers whole sectors. -/
theorem Request.Accepted.dataLen_mod {diskSectors : Nat} {mem : List UInt8} {r : Request}
    (h : r.Accepted diskSectors mem) (hio : r.isIo = true) : r.dataLen % SECTOR_SIZE = 0 := by
  have hv := h.rangeValid
  rw [Request.ioRangeValid, if_pos hio] at hv
  by_contra hne
  rw [if_pos hne] at hv
  cases hv

/-! ## The merge -/

/-- The loop state of `merge_req_queue`: the chains pushed before the one
`last_req` points into, that open chain (empty before the first request), and
the running limits `merged_reqs`, `merged_iovs` and `merged_bytes`. -/
structure MergeState where
  done : List (List Request)
  last : List Request
  mergedReqs : Nat
  mergedIovs : Nat
  mergedBytes : Nat

/-- The vector `merge_req_queue`: the closed chains, then the open one. -/
def MergeState.queue (st : MergeState) : List (List Request) :=
  if st.last = [] then st.done else st.done ++ [st.last]

/-- `can_merge`: there is a last request, the new one is a read or a write of
its type starting where it ends, and the limits allow one more. -/
def canMerge (st : MergeState) (req : Request) : Bool :=
  match st.last.getLast? with
  | some r =>
    req.isIo && r.requestType == req.requestType &&
      r.sector + r.getReqSectorNum == req.sector &&
      decide (st.mergedReqs < MAX_NUM_MERGE_REQS) &&
      decide (st.mergedIovs + req.iovec.length ≤ MAX_NUM_MERGE_IOVS) &&
      decide (st.mergedBytes + req.dataLen ≤ MAX_NUM_MERGE_BYTES)
  | none => false

/-- One pass of the loop: thread the request onto the open chain, or push it
as a new chain and restart the limits from it. -/
def mergeStep (st : MergeState) (req : Request) : MergeState :=
  if canMerge st req then
    { st with last := st.last ++ [req], mergedReqs := st.mergedReqs + 1,
              mergedIovs := st.mergedIovs + req.iovec.length,
              mergedBytes := st.mergedBytes + req.dataLen }
  else
    { done := st.queue, last := [req], mergedReqs := 1, mergedIovs := req.iovec.length,
      mergedBytes := req.dataLen }

/-- `merge_req_queue`: a stable sort by sector (`sort_by`), then the loop. -/
def mergeReqQueue (reqs : List Request) : List (List Request) :=
  ((reqs.mergeSort fun a b => decide (a.sector ≤ b.sector)).foldl mergeStep ⟨[], [], 0, 0, 0⟩).queue

/-! ## The chains partition the batch -/

theorem queue_flatten (st : MergeState) : st.queue.flatten = st.done.flatten ++ st.last := by
  unfold MergeState.queue
  split
  · rename_i hl
    rw [hl, List.append_nil]
  · rw [List.flatten_append, List.flatten_singleton]

/-- **Step.** One pass appends the request to the flattened queue. -/
theorem queue_flatten_mergeStep (st : MergeState) (req : Request) :
    (mergeStep st req).queue.flatten = st.queue.flatten ++ [req] := by
  unfold mergeStep
  split
  · rw [queue_flatten, queue_flatten, List.append_assoc]
  · rw [queue_flatten, queue_flatten]

/-- **Run.** The loop appends the requests in the order it meets them. -/
theorem queue_flatten_foldl_mergeStep :
    ∀ (l : List Request) (st : MergeState), (l.foldl mergeStep st).queue.flatten = st.queue.flatten ++ l
  | [], st => by rw [List.foldl_nil, List.append_nil]
  | req :: l, st => by
    rw [List.foldl_cons, queue_flatten_foldl_mergeStep l, queue_flatten_mergeStep, List.append_assoc,
      List.singleton_append]

/-- Every request of the batch is in exactly one chain, exactly once. -/
theorem mergeReqQueue_flatten_perm (reqs : List Request) : (mergeReqQueue reqs).flatten.Perm reqs := by
  rw [mergeReqQueue, queue_flatten_foldl_mergeStep]
  exact List.mergeSort_perm _ _

/-! ## What a chain is -/

/-- The iovecs of a list of requests. -/
def iovCount (c : List Request) : Nat := (c.map fun r => r.iovec.length).sum

/-- The data bytes of a list of requests. -/
def byteCount (c : List Request) : Nat := (c.map Request.dataLen).sum

@[simp] theorem iovCount_append (a b : List Request) : iovCount (a ++ b) = iovCount a + iovCount b := by
  simp [iovCount]

@[simp] theorem byteCount_append (a b : List Request) : byteCount (a ++ b) = byteCount a + byteCount b := by
  simp [byteCount]

/-- A chain `merge_req_queue` builds. -/
structure ChainOk (c : List Request) : Prop where
  ne_nil : c ≠ []
  joins : c.IsChain Request.Joins
  length_le : c.length ≤ MAX_NUM_MERGE_REQS
  iovs_le : 2 ≤ c.length → iovCount c ≤ MAX_NUM_MERGE_IOVS
  bytes_le : 2 ≤ c.length → byteCount c ≤ MAX_NUM_MERGE_BYTES

theorem chainOk_singleton (req : Request) : ChainOk [req] where
  ne_nil := List.cons_ne_nil _ _
  joins := List.isChain_singleton _
  length_le := by simp [MAX_NUM_MERGE_REQS]
  iovs_le := by simp
  bytes_le := by simp

/-- Every member of a chain has the head's type. -/
theorem requestType_of_isChain : ∀ (x : Request) (rest : List Request), (x :: rest).IsChain Request.Joins →
    ∀ r ∈ x :: rest, r.requestType = x.requestType
  | x, [], _, r, hr => by rw [List.mem_singleton.1 hr]
  | x, s :: rest, hc, r, hr => by
    obtain ⟨⟨-, hs, -⟩, hrest⟩ := List.isChain_cons_cons.1 hc
    rcases List.mem_cons.1 hr with rfl | hr
    · rfl
    · rw [requestType_of_isChain s rest hrest r hr, hs]

/-- A chain of two or more members holds only reads or only writes. -/
theorem ChainOk.io {c : List Request} (hc : ChainOk c) (h2 : 2 ≤ c.length) :
    (∀ r ∈ c, r.requestType = VIRTIO_BLK_T_IN) ∨ (∀ r ∈ c, r.requestType = VIRTIO_BLK_T_OUT) := by
  match c, hc, h2 with
  | x :: s :: rest, hc, _ =>
    obtain ⟨⟨hio, hs, -⟩, -⟩ := List.isChain_cons_cons.1 hc.joins
    have htype := requestType_of_isChain x (s :: rest) hc.joins
    rcases isIo_iff.1 hio with hin | hout
    · exact .inl fun r hr => by rw [htype r hr, ← hs, hin]
    · exact .inr fun r hr => by rw [htype r hr, ← hs, hout]

/-! ## The merge loop -/

/-- The invariant of the merge loop. -/
structure MergeInv (st : MergeState) : Prop where
  done_ok : ∀ c ∈ st.done, ChainOk c
  last_ok : st.last ≠ [] → ChainOk st.last
  reqs_eq : st.mergedReqs = st.last.length
  iovs_eq : st.mergedIovs = iovCount st.last
  bytes_eq : st.mergedBytes = byteCount st.last

theorem mergeInv_start : MergeInv ⟨[], [], 0, 0, 0⟩ where
  done_ok := by simp
  last_ok := by simp
  reqs_eq := rfl
  iovs_eq := rfl
  bytes_eq := rfl

theorem MergeInv.queue_ok {st : MergeState} (hi : MergeInv st) : ∀ c ∈ st.queue, ChainOk c := by
  intro c hc
  unfold MergeState.queue at hc
  split at hc
  · exact hi.done_ok c hc
  · rename_i hl
    rcases List.mem_append.1 hc with hc | hc
    · exact hi.done_ok c hc
    · rw [List.mem_singleton.1 hc]
      exact hi.last_ok hl

/-- What `can_merge` checked, read back. -/
theorem canMerge_spec {st : MergeState} {req : Request} (h : canMerge st req = true) :
    ∃ r, st.last.getLast? = some r ∧ Request.Joins r req ∧ st.mergedReqs < MAX_NUM_MERGE_REQS ∧
      st.mergedIovs + req.iovec.length ≤ MAX_NUM_MERGE_IOVS ∧
      st.mergedBytes + req.dataLen ≤ MAX_NUM_MERGE_BYTES := by
  unfold canMerge at h
  split at h
  · rename_i r hr
    simp only [Bool.and_eq_true, beq_iff_eq, decide_eq_true_eq] at h
    obtain ⟨⟨⟨⟨⟨hio, htype⟩, hsec⟩, hreqs⟩, hiovs⟩, hbytes⟩ := h
    exact ⟨r, hr, ⟨hio, htype.symm, hsec.symm⟩, hreqs, hiovs, hbytes⟩
  · cases h

/-- **Step.** Threading onto the last member keeps the open chain consecutive;
a push closes a well-formed chain and opens a one-member one. -/
theorem MergeInv.step {st : MergeState} (hi : MergeInv st) (req : Request) : MergeInv (mergeStep st req) := by
  unfold mergeStep
  split
  · rename_i hm
    obtain ⟨r, hr, hj, hreqs, hiovs, hbytes⟩ := canMerge_spec hm
    have hne : st.last ≠ [] := by
      intro he
      rw [he] at hr
      cases hr
    have hlast := hi.last_ok hne
    refine ⟨hi.done_ok, fun _ => ⟨by simp, ?_, ?_, ?_, ?_⟩, ?_, ?_, ?_⟩
    · -- the new member joins the last one
      refine hlast.joins.append (List.isChain_singleton req) ?_
      intro x hx y hy
      rw [hr, Option.mem_some_iff] at hx
      rw [List.head?_cons, Option.mem_some_iff] at hy
      rw [← hx, ← hy]
      exact hj
    · rw [List.length_append, List.length_singleton, ← hi.reqs_eq]
      omega
    · intro _
      rw [iovCount_append, ← hi.iovs_eq]
      simpa [iovCount] using hiovs
    · intro _
      rw [byteCount_append, ← hi.bytes_eq]
      simpa [byteCount] using hbytes
    · rw [List.length_append, List.length_singleton, hi.reqs_eq]
    · simp [hi.iovs_eq, iovCount]
    · simp [hi.bytes_eq, byteCount]
  · exact ⟨hi.queue_ok, fun _ => chainOk_singleton req, rfl, by simp [iovCount], by simp [byteCount]⟩

/-- **Run.** -/
theorem MergeInv.foldl {st : MergeState} (hi : MergeInv st) :
    ∀ l : List Request, MergeInv (l.foldl mergeStep st) := by
  intro l
  induction l generalizing st with
  | nil => exact hi
  | cons req l ih => exact ih (hi.step req)

/-- Every chain `merge_req_queue` returns is well formed. -/
theorem mergeReqQueue_chainOk (reqs : List Request) : ∀ c ∈ mergeReqQueue reqs, ChainOk c :=
  (mergeInv_start.foldl _).queue_ok

/-! ## One access for a chain -/

/-- `read_vectored` on a raw image: the image's bytes from `offset` go into
the iovecs in order (fewer at the end of the image). -/
def readVectored (disk mem : List UInt8) (iovec : List Iovec) (offset : Nat) : List UInt8 :=
  scatter mem iovec (rawRead disk (iovTotal iovec) offset)

/-- `write_vectored` on a raw image: the iovecs' bytes written at `offset`. -/
def writeVectored (disk mem : List UInt8) (iovec : List Iovec) (offset : Nat) : List UInt8 :=
  rawWrite disk offset (iovBytes mem iovec)

/-- The read and write arms of `Request::execute`: the members' iovecs in
order, one access at the head's sector; the image and the memory after it.
The other arms (flush, get-id, discard, write-zeroes) are left out (`none`);
their requests are never merged. -/
def execute (c : List Request) (disk mem : List UInt8) : Option (List UInt8 × List UInt8) :=
  match c with
  | [] => none
  | head :: rest =>
    let iovecs := (head :: rest).flatMap Request.iovec
    let offset := head.sector <<< SECTOR_SHIFT
    if head.requestType = VIRTIO_BLK_T_IN then some (disk, readVectored disk mem iovecs offset)
    else if head.requestType = VIRTIO_BLK_T_OUT then some (writeVectored disk mem iovecs offset, mem)
    else none

/-- Each member on its own, one after the other: what the requests would do
unmerged. -/
def executeEach (c : List Request) (disk mem : List UInt8) : Option (List UInt8 × List UInt8) :=
  c.foldlM (fun dm r => execute [r] dm.1 dm.2) (disk, mem)

theorem shiftLeft_sectorShift (n : Nat) : n <<< SECTOR_SHIFT = n * SECTOR_SIZE := by
  rw [Nat.shiftLeft_eq]
  rfl

/-- The next member starts at the byte where the one before ends. -/
theorem Request.Joins.offset_eq {r s : Request} (h : r.Joins s) (hmod : r.dataLen % SECTOR_SIZE = 0) :
    r.sector <<< SECTOR_SHIFT + r.dataLen = s.sector <<< SECTOR_SHIFT := by
  obtain ⟨-, -, hs⟩ := h
  have hsize : SECTOR_SIZE = 512 := rfl
  rw [hs, shiftLeft_sectorShift, shiftLeft_sectorShift, Request.getReqSectorNum, hsize]
  rw [hsize] at hmod
  omega

/-- **Reads.** One read over the iovecs of a consecutive chain puts each
member's own sectors into its iovecs. -/
theorem readVectored_chain (disk : List UInt8) :
    ∀ (rest : List Request) (head : Request) (mem : List UInt8), (head :: rest).IsChain Request.Joins →
      (∀ r ∈ head :: rest, r.dataLen % SECTOR_SIZE = 0 ∧ r.dataLen = iovTotal r.iovec) →
      readVectored disk mem ((head :: rest).flatMap Request.iovec) (head.sector <<< SECTOR_SHIFT) =
        (head :: rest).foldl (fun m r => readVectored disk m r.iovec (r.sector <<< SECTOR_SHIFT)) mem := by
  intro rest
  induction rest with
  | nil =>
    intro head mem _ _
    rw [List.flatMap_singleton, List.foldl_cons, List.foldl_nil]
  | cons s rest ih =>
    intro head mem hc hlen
    obtain ⟨hj, hrest⟩ := List.isChain_cons_cons.1 hc
    obtain ⟨hmod, htotal⟩ := hlen head List.mem_cons_self
    have hnext : head.sector <<< SECTOR_SHIFT + iovTotal head.iovec = s.sector <<< SECTOR_SHIFT := by
      rw [← htotal]
      exact hj.offset_eq hmod
    -- the head's iovecs take the first `iovTotal head.iovec` bytes, the rest the others
    have hfirst : (rawRead disk (iovTotal head.iovec + iovTotal ((s :: rest).flatMap Request.iovec))
        (head.sector <<< SECTOR_SHIFT)).take (iovTotal head.iovec) =
        rawRead disk (iovTotal head.iovec) (head.sector <<< SECTOR_SHIFT) := by
      unfold rawRead slice
      rw [List.take_take]
      congr 1
      omega
    have hsecond : (rawRead disk (iovTotal head.iovec + iovTotal ((s :: rest).flatMap Request.iovec))
        (head.sector <<< SECTOR_SHIFT)).drop (iovTotal head.iovec) =
        rawRead disk (iovTotal ((s :: rest).flatMap Request.iovec)) (s.sector <<< SECTOR_SHIFT) := by
      unfold rawRead
      rw [drop_slice, hnext, ← hnext]
      congr 1
      omega
    rw [List.flatMap_cons, readVectored, scatter_append, iovTotal_append, ← scatter_take head.iovec, hfirst,
      hsecond, List.foldl_cons]
    exact ih s _ hrest fun r hr => hlen r (List.mem_cons_of_mem _ hr)

/-- **Writes.** One write of a consecutive chain's iovecs puts each member's
bytes at its own sectors. -/
theorem writeVectored_chain (mem : List UInt8) :
    ∀ (rest : List Request) (head : Request) (disk : List UInt8), (head :: rest).IsChain Request.Joins →
      (∀ r ∈ head :: rest, r.dataLen % SECTOR_SIZE = 0 ∧ r.dataLen = iovTotal r.iovec ∧ Inside mem r.iovec) →
      writeVectored disk mem ((head :: rest).flatMap Request.iovec) (head.sector <<< SECTOR_SHIFT) =
        (head :: rest).foldl (fun d r => writeVectored d mem r.iovec (r.sector <<< SECTOR_SHIFT)) disk := by
  intro rest
  induction rest with
  | nil =>
    intro head disk _ _
    rw [List.flatMap_singleton, List.foldl_cons, List.foldl_nil]
  | cons s rest ih =>
    intro head disk hc hlen
    obtain ⟨hj, hrest⟩ := List.isChain_cons_cons.1 hc
    obtain ⟨hmod, htotal, hin⟩ := hlen head List.mem_cons_self
    -- the head's bytes fill exactly its own sectors
    have hnext : head.sector <<< SECTOR_SHIFT + (iovBytes mem head.iovec).length = s.sector <<< SECTOR_SHIFT := by
      rw [length_iovBytes hin, ← htotal]
      exact hj.offset_eq hmod
    rw [List.flatMap_cons, writeVectored, iovBytes_append, ← rawWrite_append, hnext, List.foldl_cons]
    exact ih s _ hrest fun r hr => hlen r (List.mem_cons_of_mem _ hr)

theorem execute_singleton_in {r : Request} (h : r.requestType = VIRTIO_BLK_T_IN) (disk mem : List UInt8) :
    execute [r] disk mem = some (disk, readVectored disk mem r.iovec (r.sector <<< SECTOR_SHIFT)) := by
  rw [execute, if_pos h, List.flatMap_singleton]

theorem execute_singleton_out {r : Request} (h : r.requestType = VIRTIO_BLK_T_OUT) (disk mem : List UInt8) :
    execute [r] disk mem = some (writeVectored disk mem r.iovec (r.sector <<< SECTOR_SHIFT), mem) := by
  have hne : r.requestType ≠ VIRTIO_BLK_T_IN := by
    rw [h]
    decide
  rw [execute, if_neg hne, if_pos h, List.flatMap_singleton]

/-- Reads one after the other leave the image and fill the memory in turn. -/
theorem executeEach_in (disk : List UInt8) :
    ∀ (c : List Request) (mem : List UInt8), (∀ r ∈ c, r.requestType = VIRTIO_BLK_T_IN) →
      executeEach c disk mem =
        some (disk, c.foldl (fun m r => readVectored disk m r.iovec (r.sector <<< SECTOR_SHIFT)) mem)
  | [], _, _ => rfl
  | r :: c, mem, h => by
    rw [executeEach, List.foldlM_cons, execute_singleton_in (h r List.mem_cons_self), Option.bind_eq_bind,
      Option.bind_some, List.foldl_cons, ← executeEach_in disk c _ fun x hx => h x (List.mem_cons_of_mem _ hx)]
    rfl

/-- Writes one after the other leave the memory and patch the image in turn. -/
theorem executeEach_out (mem : List UInt8) :
    ∀ (c : List Request) (disk : List UInt8), (∀ r ∈ c, r.requestType = VIRTIO_BLK_T_OUT) →
      executeEach c disk mem =
        some (c.foldl (fun d r => writeVectored d mem r.iovec (r.sector <<< SECTOR_SHIFT)) disk, mem)
  | [], _, _ => rfl
  | r :: c, disk, h => by
    rw [executeEach, List.foldlM_cons, execute_singleton_out (h r List.mem_cons_self), Option.bind_eq_bind,
      Option.bind_some, List.foldl_cons, ← executeEach_out mem c _ fun x hx => h x (List.mem_cons_of_mem _ hx)]
    rfl

/-- **Merged = unmerged.** For a chain `merge_req_queue` builds from accepted
requests, the one access `execute` issues does what the members' own accesses
do one after the other. -/
theorem execute_eq_executeEach {diskSectors : Nat} {mem : List UInt8} {c : List Request} (hc : ChainOk c)
    (hacc : ∀ r ∈ c, r.Accepted diskSectors mem) (disk : List UInt8) :
    execute c disk mem = executeEach c disk mem := by
  by_cases h2 : 2 ≤ c.length
  · obtain ⟨head, rest, rfl⟩ := List.exists_cons_of_ne_nil hc.ne_nil
    -- every member is a read or a write, so covers whole sectors
    have hio : ∀ r ∈ head :: rest, r.isIo = true := by
      rcases hc.io h2 with hin | hout
      · exact fun r hr => isIo_iff.2 (.inl (hin r hr))
      · exact fun r hr => isIo_iff.2 (.inr (hout r hr))
    have hmod : ∀ r ∈ head :: rest, r.dataLen % SECTOR_SIZE = 0 := fun r hr => (hacc r hr).dataLen_mod (hio r hr)
    rcases hc.io h2 with hin | hout
    · rw [executeEach_in disk _ _ hin, execute, if_pos (hin head List.mem_cons_self),
        readVectored_chain disk rest head mem hc.joins fun r hr => ⟨hmod r hr, (hacc r hr).dataLen_eq⟩]
    · have hne : head.requestType ≠ VIRTIO_BLK_T_IN := by
        rw [hout head List.mem_cons_self]
        decide
      rw [executeEach_out mem _ _ hout, execute, if_neg hne, if_pos (hout head List.mem_cons_self),
        writeVectored_chain mem rest head disk hc.joins
          fun r hr => ⟨hmod r hr, (hacc r hr).dataLen_eq, (hacc r hr).inside⟩]
  · -- a chain of one member: there is nothing to merge
    match c, hc.ne_nil, h2 with
    | [r], _, _ =>
      simp only [executeEach, List.foldlM_cons, List.foldlM_nil, bind_pure]
    | _ :: _ :: _, _, h2 => exact absurd (by simp) h2

/-- A member's own read: its sectors' bytes into its iovecs. -/
theorem readVectored_own {r : Request} (h : r.dataLen = iovTotal r.iovec) (disk mem : List UInt8) :
    readVectored disk mem r.iovec (r.sector <<< SECTOR_SHIFT) =
      scatter mem r.iovec (slice disk (r.sector * SECTOR_SIZE) (r.sector * SECTOR_SIZE + r.dataLen)) := by
  rw [readVectored, rawRead, ← h, shiftLeft_sectorShift]

/-- A member's own write: its iovecs' bytes at its sectors. -/
theorem writeVectored_own (r : Request) (disk mem : List UInt8) :
    writeVectored disk mem r.iovec (r.sector <<< SECTOR_SHIFT) =
      rawWrite disk (r.sector * SECTOR_SIZE) (iovBytes mem r.iovec) := by
  rw [writeVectored, shiftLeft_sectorShift]

/-! ## Completion -/

/-- What `complete_request` works on: guest memory, the queue's vring and its
rings, and the interrupts sent so far. -/
structure CompletionState where
  mem : List UInt8
  vring : SplitVring
  ring : VringMem
  interrupts : Nat

/-- `complete_one_request`: the status byte at `in_header` (`write_object`,
whose own error text is left out), the used entry `(desc_index, in_len)`, and
an interrupt when `should_notify` asks for one; `interruptCb` is what the
interrupt callback returns. -/
def completeOneRequest (interruptCb : Except String Unit) (features : Nat) (status : UInt8)
    (st : CompletionState) (req : Request) : Except String CompletionState :=
  if st.mem.length < req.inHeader + 1 then .error "Failed to write the status (blk io completion)"
  else
    let mem := spliceAt st.mem req.inHeader [status]
    match st.vring.addUsed st.ring req.descIndex req.inLen with
    | .error _ =>
      .error ("Failed to add used ring(blk io completion), index " ++ toString req.descIndex ++ ", len " ++
        toString req.inLen)
    | .ok (v, ring) =>
      let notify := v.shouldNotify ring features
      if notify.1 then
        match interruptCb with
        | .error _ => .error "Failed to trigger interrupt for blk io completion, int-type Vring"
        | .ok () => .ok ⟨mem, notify.2, ring, st.interrupts + 1⟩
      else .ok ⟨mem, notify.2, ring, st.interrupts⟩

/-- `complete_request`: each member of the chain in turn, up to the first error. -/
def completeRequest (interruptCb : Except String Unit) (features : Nat) (status : UInt8)
    (st : CompletionState) (c : List Request) : Except String CompletionState :=
  c.foldlM (completeOneRequest interruptCb features status) st

/-- The used entry that answers a request. -/
def usedElemOf (r : Request) : UsedElem := ⟨r.descIndex.toNat, r.inLen⟩

/-- The used ring after `entries` are published one after the other, from
slot `next % size` on. -/
def publishUsed (size : UInt16) : (Nat → UsedElem) → UInt16 → List UsedElem → Nat → UsedElem
  | ring, _, [] => ring
  | ring, next, e :: es => publishUsed size (Function.update ring (next % size).toNat e) (next + 1) es

/-- A successful `add_used`, in full: the used ring gains the entry at
`next_used % actual_size`, and `next_used` advances. -/
theorem addUsed_of_lt {v : SplitVring} (mem : VringMem) {index : UInt16} (len : Nat)
    (hidx : index < v.queueConfig.size) (hsize : v.actualSize ≠ 0) :
    ∃ v' mem', v.addUsed mem index len = .ok (v', mem') ∧
      mem'.usedRing = Function.update mem.usedRing (v.queueConfig.nextUsed % v.actualSize).toNat
        ⟨index.toNat, len⟩ ∧
      v'.queueConfig.nextUsed = v.queueConfig.nextUsed + 1 ∧
      v'.queueConfig.size = v.queueConfig.size ∧ v'.queueConfig.maxSize = v.queueConfig.maxSize := by
  unfold SplitVring.addUsed
  have hlt : ¬index ≥ v.queueConfig.size := by
    rw [UInt16.lt_iff_toNat_lt] at hidx
    rw [ge_iff_le, UInt16.le_iff_toNat_le]
    omega
  rw [if_neg hlt, if_neg hsize]
  refine ⟨_, _, rfl, rfl, ?_⟩
  -- dropping `last_signal_used` touches neither the counter nor the sizes
  split <;> exact ⟨rfl, rfl, rfl⟩

/-- `should_notify` moves neither `next_used` nor the sizes. -/
theorem shouldNotify_queueConfig (v : SplitVring) (mem : VringMem) (features : Nat) :
    (v.shouldNotify mem features).2.queueConfig.nextUsed = v.queueConfig.nextUsed ∧
      (v.shouldNotify mem features).2.queueConfig.size = v.queueConfig.size ∧
      (v.shouldNotify mem features).2.queueConfig.maxSize = v.queueConfig.maxSize := by
  unfold SplitVring.shouldNotify SplitVring.usedRingNeedEvent
  split <;> exact ⟨rfl, rfl, rfl⟩

/-- What answering one request does. -/
structure Answered (status : UInt8) (st : CompletionState) (req : Request) (st' : CompletionState) : Prop where
  mem_eq : st'.mem = spliceAt st.mem req.inHeader [status]
  usedRing_eq : st'.ring.usedRing =
    Function.update st.ring.usedRing (st.vring.queueConfig.nextUsed % st.vring.actualSize).toNat (usedElemOf req)
  nextUsed_eq : st'.vring.queueConfig.nextUsed = st.vring.queueConfig.nextUsed + 1
  size_eq : st'.vring.queueConfig.size = st.vring.queueConfig.size
  maxSize_eq : st'.vring.queueConfig.maxSize = st.vring.queueConfig.maxSize

theorem Answered.actualSize_eq {status : UInt8} {st st' : CompletionState} {req : Request}
    (h : Answered status st req st') : st'.vring.actualSize = st.vring.actualSize := by
  rw [SplitVring.actualSize, SplitVring.actualSize, h.size_eq, h.maxSize_eq]

/-- **Step.** A request whose status byte is in memory and whose index is in
the queue is answered. -/
theorem completeOneRequest_ok {features : Nat} {status : UInt8} {st : CompletionState} {req : Request}
    (hin : req.inHeader < st.mem.length) (hidx : req.descIndex < st.vring.queueConfig.size)
    (hsize : st.vring.actualSize ≠ 0) :
    ∃ st', completeOneRequest (.ok ()) features status st req = .ok st' ∧ Answered status st req st' := by
  obtain ⟨v, ring, hadd, hring, hnext, hsz, hmax⟩ := addUsed_of_lt st.ring req.inLen hidx hsize
  obtain ⟨hnext', hsz', hmax'⟩ := shouldNotify_queueConfig v ring features
  have hfit : ¬st.mem.length < req.inHeader + 1 := by omega
  have hans : ∀ n, Answered status st req
      ⟨spliceAt st.mem req.inHeader [status], (v.shouldNotify ring features).2, ring, n⟩ :=
    fun _ => ⟨rfl, hring, by rw [hnext', hnext], by rw [hsz', hsz], by rw [hmax', hmax]⟩
  unfold completeOneRequest
  rw [if_neg hfit]
  dsimp only
  rw [hadd]
  dsimp only
  split
  · exact ⟨_, rfl, hans _⟩
  · exact ⟨_, rfl, hans _⟩

/-- **Run.** Completing a chain writes each member's status byte and publishes
one used entry per member, in order, from `next_used`. -/
theorem completeRequest_ok {features : Nat} {status : UInt8} :
    ∀ (c : List Request) (st : CompletionState),
      (∀ r ∈ c, r.inHeader < st.mem.length ∧ r.descIndex < st.vring.queueConfig.size) →
      st.vring.actualSize ≠ 0 →
      ∃ st', completeRequest (.ok ()) features status st c = .ok st' ∧
        st'.mem = c.foldl (fun m r => spliceAt m r.inHeader [status]) st.mem ∧
        st'.ring.usedRing =
          publishUsed st.vring.actualSize st.ring.usedRing st.vring.queueConfig.nextUsed (c.map usedElemOf) ∧
        st'.vring.queueConfig.nextUsed.toNat = (st.vring.queueConfig.nextUsed.toNat + c.length) % 2 ^ 16
  | [], st, _, _ => ⟨st, rfl, rfl, rfl, (Nat.mod_eq_of_lt (UInt16.toNat_lt _)).symm⟩
  | r :: c, st, hreq, hsize => by
    obtain ⟨hin, hidx⟩ := hreq r List.mem_cons_self
    obtain ⟨st₁, h₁, ha⟩ := (completeOneRequest_ok hin hidx hsize :
      ∃ st', completeOneRequest (.ok ()) features status st r = .ok st' ∧ Answered status st r st')
    -- the rest of the chain sees the same memory size and the same queue
    have hlen : st₁.mem.length = st.mem.length := by
      rw [ha.mem_eq, length_spliceAt (by rw [List.length_singleton]; omega)]
    have hrest : ∀ x ∈ c, x.inHeader < st₁.mem.length ∧ x.descIndex < st₁.vring.queueConfig.size := by
      intro x hx
      rw [hlen, ha.size_eq]
      exact hreq x (List.mem_cons_of_mem _ hx)
    obtain ⟨st₂, h₂, hmem, hring, hnext⟩ := completeRequest_ok c st₁ hrest (by rw [ha.actualSize_eq]; exact hsize)
    refine ⟨st₂, ?_, ?_, ?_, ?_⟩
    · rw [completeRequest, List.foldlM_cons, h₁]
      exact h₂
    · rw [hmem, ha.mem_eq, List.foldl_cons]
    · rw [hring, ha.usedRing_eq, ha.actualSize_eq, ha.nextUsed_eq, List.map_cons, publishUsed]
    · rw [hnext, ha.nextUsed_eq, UInt16.toNat_add, UInt16.toNat_one, List.length_cons]
      omega

/-! ## Merging keeps each request's meaning -/

/-- For a batch of accepted requests: the chains partition the batch; each
chain is consecutive and within the limits, and one of two or more members
holds only reads or only writes; the one access for a chain moves each
member's own sectors to or from its own iovecs; and completion writes every
member's status byte and publishes one used entry per member, in order. -/
theorem mergeReqQueue_preserves_requests {diskSectors : Nat} {mem : List UInt8} {reqs : List Request}
    (hacc : ∀ r ∈ reqs, r.Accepted diskSectors mem) :
    (mergeReqQueue reqs).flatten.Perm reqs ∧
      ∀ c ∈ mergeReqQueue reqs,
        c ≠ [] ∧ c.IsChain (fun r s => s.sector = r.sector + r.getReqSectorNum) ∧
        c.length ≤ MAX_NUM_MERGE_REQS ∧
        (2 ≤ c.length →
          ((∀ r ∈ c, r.requestType = VIRTIO_BLK_T_IN) ∨ (∀ r ∈ c, r.requestType = VIRTIO_BLK_T_OUT)) ∧
          iovCount c ≤ MAX_NUM_MERGE_IOVS ∧ byteCount c ≤ MAX_NUM_MERGE_BYTES) ∧
        (∀ disk : List UInt8, (∀ r ∈ c, r.requestType = VIRTIO_BLK_T_IN) →
          execute c disk mem = some (disk, c.foldl (fun m r => scatter m r.iovec
            (slice disk (r.sector * SECTOR_SIZE) (r.sector * SECTOR_SIZE + r.dataLen))) mem)) ∧
        (∀ disk : List UInt8, (∀ r ∈ c, r.requestType = VIRTIO_BLK_T_OUT) →
          execute c disk mem =
            some (c.foldl (fun d r => rawWrite d (r.sector * SECTOR_SIZE) (iovBytes mem r.iovec)) disk, mem)) ∧
        ∀ (features : Nat) (status : UInt8) (st : CompletionState),
          (∀ r ∈ c, r.inHeader < st.mem.length ∧ r.descIndex < st.vring.queueConfig.size) →
          st.vring.actualSize ≠ 0 →
          ∃ st', completeRequest (.ok ()) features status st c = .ok st' ∧
            st'.mem = c.foldl (fun m r => spliceAt m r.inHeader [status]) st.mem ∧
            st'.ring.usedRing =
              publishUsed st.vring.actualSize st.ring.usedRing st.vring.queueConfig.nextUsed (c.map usedElemOf) ∧
            st'.vring.queueConfig.nextUsed.toNat = (st.vring.queueConfig.nextUsed.toNat + c.length) % 2 ^ 16 := by
  refine ⟨mergeReqQueue_flatten_perm reqs, fun c hc => ?_⟩
  have hok := mergeReqQueue_chainOk reqs c hc
  -- a chain's members come from the batch, so they were accepted
  have hmem : ∀ r ∈ c, r.Accepted diskSectors mem := fun r hr =>
    hacc r ((mergeReqQueue_flatten_perm reqs).subset (List.mem_flatten.2 ⟨c, hc, hr⟩))
  refine ⟨hok.ne_nil, hok.joins.imp fun _ _ h => h.2.2, hok.length_le,
    fun h2 => ⟨hok.io h2, hok.iovs_le h2, hok.bytes_le h2⟩, ?_, ?_, ?_⟩
  · intro disk hin
    rw [execute_eq_executeEach hok hmem, executeEach_in disk c mem hin]
    congr 2
    exact List.foldl_ext _ _ _ fun m r hr => readVectored_own (hmem r hr).dataLen_eq disk m
  · intro disk hout
    rw [execute_eq_executeEach hok hmem, executeEach_out mem c disk hout]
    congr 2
    exact List.foldl_ext _ _ _ fun d r _ => writeVectored_own r d mem
  · intro features status st hreq hsize
    exact completeRequest_ok c st hreq hsize

/-- Two reads of sectors 1 and 0, given in that order, on a four-sector disk. -/
theorem mergeReqQueue_two_reads :
    let reqs : List Request :=
      [⟨1, VIRTIO_BLK_T_IN, 1, [⟨512, 512⟩], 512, 1, 1536⟩, ⟨0, VIRTIO_BLK_T_IN, 0, [⟨0, 512⟩], 512, 1, 1537⟩]
    let mem : List UInt8 := List.replicate 2048 0
    (∀ r ∈ reqs, r.Accepted 4 mem) ∧
    (mergeReqQueue reqs).flatten.Perm reqs ∧
      ∀ c ∈ mergeReqQueue reqs,
        c ≠ [] ∧ c.IsChain (fun r s => s.sector = r.sector + r.getReqSectorNum) ∧
        c.length ≤ MAX_NUM_MERGE_REQS ∧
        (2 ≤ c.length →
          ((∀ r ∈ c, r.requestType = VIRTIO_BLK_T_IN) ∨ (∀ r ∈ c, r.requestType = VIRTIO_BLK_T_OUT)) ∧
          iovCount c ≤ MAX_NUM_MERGE_IOVS ∧ byteCount c ≤ MAX_NUM_MERGE_BYTES) ∧
        (∀ disk : List UInt8, (∀ r ∈ c, r.requestType = VIRTIO_BLK_T_IN) →
          execute c disk mem = some (disk, c.foldl (fun m r => scatter m r.iovec
            (slice disk (r.sector * SECTOR_SIZE) (r.sector * SECTOR_SIZE + r.dataLen))) mem)) ∧
        (∀ disk : List UInt8, (∀ r ∈ c, r.requestType = VIRTIO_BLK_T_OUT) →
          execute c disk mem =
            some (c.foldl (fun d r => rawWrite d (r.sector * SECTOR_SIZE) (iovBytes mem r.iovec)) disk, mem)) ∧
        ∀ (features : Nat) (status : UInt8) (st : CompletionState),
          (∀ r ∈ c, r.inHeader < st.mem.length ∧ r.descIndex < st.vring.queueConfig.size) →
          st.vring.actualSize ≠ 0 →
          ∃ st', completeRequest (.ok ()) features status st c = .ok st' ∧
            st'.mem = c.foldl (fun m r => spliceAt m r.inHeader [status]) st.mem ∧
            st'.ring.usedRing =
              publishUsed st.vring.actualSize st.ring.usedRing st.vring.queueConfig.nextUsed (c.map usedElemOf) ∧
            st'.vring.queueConfig.nextUsed.toNat = (st.vring.queueConfig.nextUsed.toNat + c.length) % 2 ^ 16 := by
  intro reqs mem
  have hacc : ∀ r ∈ reqs, r.Accepted 4 mem := by
    intro r hr
    rcases List.mem_pair.1 hr with rfl | rfl
    all_goals refine ⟨by decide, by decide, fun iov hiov => ?_⟩
    all_goals
      rw [List.mem_singleton.1 hiov]
      show _ ≤ (List.replicate 2048 0).length
      rw [List.length_replicate]
      decide
  exact ⟨hacc, mergeReqQueue_preserves_requests hacc⟩

end StratoVirt.Virtio
