import StratoVirt.Lib.Loop
import StratoVirt.Lib.Slice
import StratoVirt.Util.Iov

/-!
# Misaligned direct I/O through a bounce buffer: `handle_misaligned_rw`

`util/src/aio/mod.rs`. A direct request whose file offset or iovecs are not
aligned cannot go to the file as it is. `submit_request` allocates a bounce
buffer of at most `MAX_LEN_BOUNCE_BUFF` bytes and `handle_misaligned_rw` moves
the request through it in aligned chunks covering `[round_down(offset),
round_up(offset + nbytes))`. A read reads each chunk from the file and copies
the part inside the request into the iovecs; a write first loads the aligned
head and tail sections the request only partly covers, copies the iovecs over
them, and writes each chunk back.

The file is a byte array; `raw_read` is `pread` (fewer bytes at the end of the
file) and `raw_write` is `pwrite` (growing the file). Host memory is a byte
array addressed by the iovecs' bases. The request's integers are `Nat`: the
`u64` arithmetic does not overflow for offsets of a file.

* `handleMisalignedRw_preadv`: a read that succeeds fills the iovecs, in order,
  with the file's bytes `[offset, offset + nbytes)`;
* `handleMisalignedRw_pwritev`: a write that succeeds leaves the file as the
  old one with `[offset, offset + nbytes)` replaced by the iovecs' bytes, so
  the head and tail bytes around it keep their content;
* both for every bounce buffer whose length is a positive multiple of the
  alignment, which is what `submit_request` allocates for an alignment that
  is a power of two of at most 1 MiB (`bounceLen_dvd`); together they are
  `handleMisalignedRw_correct`.

Each loop is a `Loop` over a state with the chunk position. The read loop's
invariant (`ReadInv`) says the memory is what writing the file's bytes up to the
position into the iovecs leaves; the write loop's (`WriteInv`) that the file
holds the target's bytes from `round_down(offset)` to the position. The heart
of the write side is `WriteInv.chunk_bytes`: after the tail load and the copy,
each byte of a chunk is the target's, whether it comes from the iovecs, the
head load, the tail load, or (when head and tail share a section) the head.
-/

namespace StratoVirt.Util

open StratoVirt.Lib

/-! ## Files, memory and iovecs -/

/-- `MAX_LEN_BOUNCE_BUFF`. -/
def MAX_LEN_BOUNCE_BUFF : Nat := 1 <<< 20

/-- `round_down`. -/
def roundDown (origin align : Nat) : Nat := origin - origin % align

/-- `round_up`. -/
def roundUp (origin align : Nat) : Nat :=
  if origin % align = 0 then origin else origin + (align - origin % align)

/-- `raw_read`: `pread` of `size` bytes at `offset`, the bytes it read. -/
def rawRead (file : List UInt8) (size offset : Nat) : List UInt8 :=
  slice file offset (offset + size)

/-- `raw_write`: `pwrite` of `data` at `offset`; a write past the end grows
the file, with zeros in any gap. -/
def rawWrite (file : List UInt8) (offset : Nat) (data : List UInt8) : List UInt8 :=
  if data = [] then file
  else spliceAt (file ++ List.replicate (offset + data.length - file.length) 0) offset data

/-- The bytes of an iovec list, one iovec after the other. -/
def iovBytes (mem : List UInt8) (iovec : List Iovec) : List UInt8 :=
  iovec.flatMap fun iov => slice mem iov.iovBase (iov.iovBase + iov.iovLen)

/-- The bytes the iovecs can hold. -/
def iovTotal (iovec : List Iovec) : Nat := (iovec.map Iovec.iovLen).sum

/-- `data` written into the iovecs in order, as far as they hold. -/
def scatter : List UInt8 → List Iovec → List UInt8 → List UInt8
  | mem, [], _ => mem
  | mem, iov :: rest, data =>
    scatter (spliceAt mem iov.iovBase (data.take iov.iovLen)) rest (data.drop iov.iovLen)

/-- The loop of `iov_from_buf_direct`, from `buf[start..]` on: each iovec gets
the next bytes by `mem_from_buf`, until the buffer is used up. Returns the
memory and `end`. -/
def iovFromBufDirectLoop (buf : List UInt8) : List UInt8 → Nat → List Iovec → List UInt8 × Nat
  | mem, start, [] => (mem, start)
  | mem, start, iov :: rest =>
    let e := min (start + iov.iovLen) buf.length
    let mem := spliceAt mem iov.iovBase (slice buf start e)
    if e ≥ buf.length then (mem, e) else iovFromBufDirectLoop buf mem e rest

/-- `iov_from_buf_direct`: the memory after the copy, and the count. -/
def iovFromBufDirect (mem : List UInt8) (iovec : List Iovec) (buf : List UInt8) : List UInt8 × Nat :=
  iovFromBufDirectLoop buf mem 0 iovec

/-- The buffer after the `mem_to_buf` pieces of `iov_to_buf_direct`. -/
def readPieces (mem : List UInt8) (iovec : List Iovec) : List UInt8 → List IovPiece → List UInt8
  | buf, [] => buf
  | buf, p :: ps =>
    let base := (iovec.getD p.index ⟨0, 0⟩).iovBase + p.start
    readPieces mem iovec (spliceAt buf p.bufOffset (slice mem base (base + p.len))) ps

/-- `iov_to_buf_direct(iovec, offset, buf)`: the buffer after the copy, and
the count. -/
def iovToBufDirectBytes (mem : List UInt8) (iovec : List Iovec) (offset : Nat) (buf : List UInt8) :
    List UInt8 × Nat :=
  let r := iovToBufDirect iovec offset buf.length
  (readPieces mem iovec buf r.1, r.2)

/-- `iov_discard_front_direct`: the iovecs after the first `size` bytes, or
`None` when they hold no more. -/
def iovDiscardFrontDirect : List Iovec → Nat → Option (List Iovec)
  | [], _ => none
  | iov :: rest, size =>
    if iov.iovLen > size then some (⟨iov.iovBase + size, iov.iovLen - size⟩ :: rest)
    else iovDiscardFrontDirect rest (size - iov.iovLen)

/-! ## The request -/

/-- `OpCode`. -/
inductive OpCode where
  | noop
  | preadv
  | pwritev
  | fdsync
  | discard
  | writeZeroes
  | writeZeroesUnmap
  deriving Repr, DecidableEq

/-- The fields of `AioCb` that the misaligned path reads. -/
structure AioCb where
  direct : Bool
  reqAlign : Nat
  bufAlign : Nat
  offset : Nat
  nbytes : Nat
  iovec : List Iovec
  opcode : OpCode
  deriving Repr, DecidableEq

/-- `request_misaligned`. -/
def requestMisaligned (cb : AioCb) : Bool :=
  cb.direct && (cb.opcode == .preadv || cb.opcode == .pwritev) &&
    (cb.offset % cb.reqAlign != 0 ||
      cb.iovec.any fun iov => iov.iovBase % cb.bufAlign != 0 || iov.iovLen % cb.reqAlign != 0)

/-- The bounce buffer `submit_request` allocates: enough for the request and
both alignment edges, at most `MAX_LEN_BOUNCE_BUFF`. -/
def bounceLen (cb : AioCb) : Nat :=
  min (roundDown (cb.nbytes + cb.reqAlign * 2) cb.reqAlign) MAX_LEN_BOUNCE_BUFF

/-- A bounce buffer: its bytes, whatever `memalign` left there, and not
empty. -/
structure Bounce where
  bytes : List UInt8
  len_pos : 0 < bytes.length

/-- The file and host memory a request works on. -/
structure World where
  file : List UInt8
  mem : List UInt8
  deriving Repr, DecidableEq

/-- The chunk the loops work on from file position `pos`: its length, and
where the part inside the request starts and ends. -/
structure Chunk where
  nbytes : Nat
  realOffset : Nat
  realHigh : Nat

/-- `nbytes`, `real_offset` and `real_high` of the chunk at `pos`. -/
def chunkAt (cb : AioCb) (bufferLen pos : Nat) : Chunk :=
  let high := cb.offset + cb.nbytes
  let nbytes := min (roundUp high cb.reqAlign - pos) bufferLen
  ⟨nbytes, max pos cb.offset, min (pos + nbytes) high⟩

/-! ## The read loop -/

/-- The state of the read loop. -/
structure ReadState where
  offset : Nat
  iovecs : List Iovec
  mem : List UInt8
  bounce : List UInt8

/-- One pass of the `Preadv` loop. -/
def readStep (cb : AioCb) (file : List UInt8) (bufferLen : Nat) (s : ReadState) :
    Step ReadState String :=
  let c := chunkAt cb bufferLen s.offset
  let highAlign := roundUp (cb.offset + cb.nbytes) cb.reqAlign
  -- Step1: read the chunk into the bounce buffer
  let data := rawRead file c.nbytes s.offset
  let bounce := spliceAt s.bounce 0 data
  let realNbytes := c.realHigh - c.realOffset
  if data.length < c.realHigh - s.offset then
    .fail ("misaligned read len " ++ toString data.length ++ " less than the nbytes " ++
      toString (c.realHigh - s.offset)) { s with bounce }
  else
    -- Step2: copy the part inside the request to the iovecs
    let src := slice bounce (c.realOffset - s.offset) (c.realOffset - s.offset + realNbytes)
    let r := iovFromBufDirect s.mem s.iovecs src
    if r.2 ≠ realNbytes then
      .fail "Failed to copy iovs to buff for misaligned read" { s with bounce, mem := r.1 }
    else
      -- Step3: the next chunk
      let offset := s.offset + c.nbytes
      if offset ≥ highAlign then .exit { s with offset, bounce, mem := r.1 }
      else
        match iovDiscardFrontDirect s.iovecs realNbytes with
        | some iovecs => .next ⟨offset, iovecs, r.1, bounce⟩
        | none => .fail "Failed to adjust iovec for misaligned read" { s with offset, bounce, mem := r.1 }

/-- A pass that goes round again moves to the next chunk, still inside the
request. -/
theorem readStep_next {cb : AioCb} {file : List UInt8} {bufferLen : Nat} {s s' : ReadState}
    (h : readStep cb file bufferLen s = .next s') :
    s'.offset = s.offset + (chunkAt cb bufferLen s.offset).nbytes ∧
      s'.offset < roundUp (cb.offset + cb.nbytes) cb.reqAlign := by
  unfold readStep at h
  dsimp only at h
  split_ifs at h with hshort hcount hend
  split at h
  · cases h
    refine ⟨rfl, ?_⟩
    dsimp only
    omega
  · cases h

/-- The `Preadv` loop; every pass goes a positive chunk further. -/
def readLoop (cb : AioCb) (file : List UInt8) (b : Bounce) : Loop ReadState String where
  body := readStep cb file b.bytes.length
  measure s := roundUp (cb.offset + cb.nbytes) cb.reqAlign - s.offset
  decreasing := fun h => by
    have hpos := b.len_pos
    obtain ⟨hoff, hlt⟩ := readStep_next h
    simp only [chunkAt] at hoff
    omega

/-! ## The write loop -/

/-- The state of the write loop. -/
structure WriteState where
  offset : Nat
  iovecs : List Iovec
  file : List UInt8
  bounce : List UInt8

/-- The tail section loaded into the end of the chunk, when the chunk ends the
request and its section is only partly covered. -/
def loadTail (cb : AioCb) (needTail : Bool) (c : Chunk) (s : WriteState) : Except String (List UInt8) :=
  if c.realHigh = cb.offset + cb.nbytes ∧ needTail = true then
    let data := rawRead s.file cb.reqAlign (s.offset + c.nbytes - cb.reqAlign)
    if data.length ≠ cb.reqAlign then .error "Failed to load tail for misaligned write."
    else .ok (spliceAt s.bounce (c.nbytes - cb.reqAlign) data)
  else .ok s.bounce

/-- One pass of the `Pwritev` loop. -/
def writeStep (cb : AioCb) (mem : List UInt8) (bufferLen : Nat) (needTail : Bool) (s : WriteState) :
    Step WriteState String :=
  let c := chunkAt cb bufferLen s.offset
  let highAlign := roundUp (cb.offset + cb.nbytes) cb.reqAlign
  let realNbytes := c.realHigh - c.realOffset
  match loadTail cb needTail c s with
  | .error e => .fail e s
  | .ok bounce =>
    -- Step1: copy the iovecs into the chunk
    let dst := slice bounce (c.realOffset - s.offset) (c.realOffset - s.offset + realNbytes)
    let r := iovToBufDirectBytes mem s.iovecs 0 dst
    let bounce := spliceAt bounce (c.realOffset - s.offset) r.1
    if r.2 ≠ realNbytes then .fail "Failed to copy iovs to buff for misaligned write" { s with bounce }
    else
      -- Step2: write the chunk to the file
      let file := rawWrite s.file s.offset (slice bounce 0 c.nbytes)
      -- Step3: the next chunk
      let offset := s.offset + c.nbytes
      if offset ≥ highAlign then .exit { s with offset, file, bounce }
      else
        match iovDiscardFrontDirect s.iovecs realNbytes with
        | some iovecs => .next ⟨offset, iovecs, file, bounce⟩
        | none =>
          .fail "Failed to adjust iovec for misaligned write" { s with offset, file, bounce }

/-- A pass that goes round again moves to the next chunk, still inside the
request. -/
theorem writeStep_next {cb : AioCb} {mem : List UInt8} {bufferLen : Nat} {needTail : Bool}
    {s s' : WriteState} (h : writeStep cb mem bufferLen needTail s = .next s') :
    s'.offset = s.offset + (chunkAt cb bufferLen s.offset).nbytes ∧
      s'.offset < roundUp (cb.offset + cb.nbytes) cb.reqAlign := by
  unfold writeStep at h
  dsimp only at h
  split at h
  · cases h
  · split_ifs at h with hcount hend
    split at h
    · cases h
      refine ⟨rfl, ?_⟩
      dsimp only
      omega
    · cases h

/-- The `Pwritev` loop; every pass goes a positive chunk further. -/
def writeLoop (cb : AioCb) (mem : List UInt8) (b : Bounce) (needTail : Bool) : Loop WriteState String where
  body := writeStep cb mem b.bytes.length needTail
  measure s := roundUp (cb.offset + cb.nbytes) cb.reqAlign - s.offset
  decreasing := fun h => by
    have hpos := b.len_pos
    obtain ⟨hoff, hlt⟩ := writeStep_next h
    simp only [chunkAt] at hoff
    omega

/-- The head section loaded into the start of the bounce buffer before a
write, when the request starts inside it; and whether it was. -/
def loadHead (cb : AioCb) (file bounce : List UInt8) : Except String (List UInt8 × Bool) :=
  let offsetAlign := roundDown cb.offset cb.reqAlign
  if cb.offset > offsetAlign then
    let data := rawRead file cb.reqAlign offsetAlign
    if data.length ≠ cb.reqAlign then .error "Failed to load head for misaligned write."
    else .ok (spliceAt bounce 0 data, true)
  else .ok (bounce, false)

/-- `handle_misaligned_rw`. -/
def handleMisalignedRw (cb : AioCb) (b : Bounce) (w : World) : Except String World :=
  let offsetAlign := roundDown cb.offset cb.reqAlign
  let high := cb.offset + cb.nbytes
  let highAlign := roundUp high cb.reqAlign
  match cb.opcode with
  | .preadv =>
    match (readLoop cb w.file b).run ⟨offsetAlign, cb.iovec, w.mem, b.bytes⟩ with
    | .exit s => .ok { w with mem := s.mem }
    | .fail e _ => .error e
  | .pwritev =>
    match loadHead cb w.file b.bytes with
    | .error e => .error e
    | .ok (bounce, headLoaded) =>
      -- are the head and the tail in the same section?
      let sameSection := offsetAlign + cb.reqAlign ≥ high
      let needTail := !(sameSection && headLoaded) && highAlign > high
      match (writeLoop cb w.mem b needTail).run ⟨offsetAlign, cb.iovec, w.file, bounce⟩ with
      | .exit s => .ok { w with file := s.file }
      | .fail e _ => .error e
  | _ => .error "Failed to do misaligned rw: unknown cmd type"

/-! ## Iovecs: what the copies do -/

/-- The iovecs lie inside host memory. -/
def Inside (mem : List UInt8) (iovec : List Iovec) : Prop :=
  ∀ iov ∈ iovec, iov.iovBase + iov.iovLen ≤ mem.length

section Iovecs

variable {mem : List UInt8} {iov : Iovec} {rest : List Iovec}

theorem Inside.head (h : Inside mem (iov :: rest)) : iov.iovBase + iov.iovLen ≤ mem.length :=
  h iov List.mem_cons_self

theorem Inside.tail (h : Inside mem (iov :: rest)) : Inside mem rest :=
  fun v hv => h v (List.mem_cons_of_mem _ hv)

theorem Inside.of_length {mem' : List UInt8} {iovec : List Iovec} (h : Inside mem iovec)
    (hlen : mem'.length = mem.length) : Inside mem' iovec :=
  fun v hv => hlen ▸ h v hv

@[simp] theorem iovTotal_nil : iovTotal [] = 0 := rfl

@[simp] theorem iovTotal_cons : iovTotal (iov :: rest) = iov.iovLen + iovTotal rest := by
  simp [iovTotal]

/-- Writing into the iovecs keeps the memory's size. -/
theorem length_scatter {iovec : List Iovec} (h : Inside mem iovec) (data : List UInt8) :
    (scatter mem iovec data).length = mem.length := by
  induction iovec generalizing mem data with
  | nil => rfl
  | cons iov rest ih =>
    have hfit : iov.iovBase + (data.take iov.iovLen).length ≤ mem.length := by
      have := h.head
      rw [List.length_take]
      omega
    rw [scatter, ih (h.tail.of_length (length_spliceAt hfit)), length_spliceAt hfit]

/-- Writing no bytes leaves the memory. -/
@[simp] theorem scatter_nil (iovec : List Iovec) (mem : List UInt8) : scatter mem iovec [] = mem := by
  induction iovec generalizing mem with
  | nil => rfl
  | cons iov rest ih => simp [scatter, ih]

@[simp] theorem iovTotal_append (a b : List Iovec) : iovTotal (a ++ b) = iovTotal a + iovTotal b := by
  simp [iovTotal]

/-- The iovecs take only as many bytes as they hold. -/
theorem scatter_take (iovec : List Iovec) (mem data : List UInt8) :
    scatter mem iovec (data.take (iovTotal iovec)) = scatter mem iovec data := by
  induction iovec generalizing mem data with
  | nil => rfl
  | cons iov rest ih =>
    rw [scatter, scatter, iovTotal_cons, List.take_take, Nat.min_eq_left (Nat.le_add_right _ _),
      List.drop_take, Nat.add_sub_cancel_left, ih]

/-- Writing into two iovec lists one after the other: the second gets the
bytes the first leaves. -/
theorem scatter_append (a b : List Iovec) (mem data : List UInt8) :
    scatter mem (a ++ b) data = scatter (scatter mem a data) b (data.drop (iovTotal a)) := by
  induction a generalizing mem data with
  | nil => rfl
  | cons iov rest ih =>
    rw [List.cons_append, scatter, scatter, ih, List.drop_drop, iovTotal_cons]

/-- `iov_from_buf_direct` from `buf[start..]` writes the rest of the buffer
into the iovecs in order. -/
theorem iovFromBufDirectLoop_eq (buf : List UInt8) {iovec : List Iovec} (h : Inside mem iovec)
    {start : Nat} (hstart : start ≤ buf.length) :
    iovFromBufDirectLoop buf mem start iovec =
      (scatter mem iovec (buf.drop start), min buf.length (start + iovTotal iovec)) := by
  induction iovec generalizing mem start with
  | nil => simp [iovFromBufDirectLoop, scatter, hstart]
  | cons iov rest ih =>
    have hpiece : slice buf start (min (start + iov.iovLen) buf.length) = (buf.drop start).take iov.iovLen := by
      unfold slice
      rw [List.take_eq_take_iff, List.length_drop]
      omega
    simp only [iovFromBufDirectLoop, hpiece, iovTotal_cons]
    split
    · -- the buffer ends inside this iovec
      have hrest : (buf.drop start).drop iov.iovLen = [] := by
        rw [List.drop_drop, List.drop_eq_nil_iff]
        omega
      rw [scatter, hrest, scatter_nil]
      congr 1
      omega
    · rw [ih (h.tail.of_length (length_spliceAt (by have := h.head; simp; omega))) (by omega), scatter,
        List.drop_drop]
      congr 2
      · rw [Nat.add_comm]
        congr 1
        omega
      · omega

/-- `iov_from_buf_direct` writes the buffer into the iovecs in order and
counts what fitted. -/
theorem iovFromBufDirect_eq {iovec : List Iovec} (h : Inside mem iovec) (buf : List UInt8) :
    iovFromBufDirect mem iovec buf = (scatter mem iovec buf, min buf.length (iovTotal iovec)) := by
  rw [iovFromBufDirect, iovFromBufDirectLoop_eq buf h (Nat.zero_le _), List.drop_zero, Nat.zero_add]

@[simp] theorem iovBytes_nil : iovBytes mem [] = [] := rfl

@[simp] theorem iovBytes_cons :
    iovBytes mem (iov :: rest) = slice mem iov.iovBase (iov.iovBase + iov.iovLen) ++ iovBytes mem rest := by
  simp [iovBytes]

/-- Iovecs inside memory hold as many bytes as their lengths say. -/
theorem length_iovBytes {iovec : List Iovec} (h : Inside mem iovec) :
    (iovBytes mem iovec).length = iovTotal iovec := by
  induction iovec with
  | nil => rfl
  | cons iov rest ih =>
    rw [iovBytes_cons, List.length_append, length_slice h.head, ih h.tail, iovTotal_cons]
    omega

theorem iovBytes_append (a b : List Iovec) : iovBytes mem (a ++ b) = iovBytes mem a ++ iovBytes mem b :=
  List.flatMap_append

/-- `iov_discard_front_direct` that finds the iovecs' end further on: it
dropped fewer bytes than they hold, its iovecs lie where the old ones did, and
they hold the old bytes after the dropped ones. -/
theorem iovDiscardFrontDirect_spec {iovec iovec' : List Iovec} {size : Nat} (h : Inside mem iovec)
    (hd : iovDiscardFrontDirect iovec size = some iovec') :
    size < iovTotal iovec ∧ Inside mem iovec' ∧ iovBytes mem iovec' = (iovBytes mem iovec).drop size := by
  induction iovec generalizing size with
  | nil => cases hd
  | cons iov rest ih =>
    have hhead := h.head
    rw [iovDiscardFrontDirect] at hd
    by_cases hlen : iov.iovLen > size
    · -- the cut falls inside this iovec: its tail and the rest remain
      rw [if_pos hlen] at hd
      cases hd
      refine ⟨by rw [iovTotal_cons]; omega, ?_, ?_⟩
      · intro v hv
        rcases List.mem_cons.1 hv with rfl | hv
        · show iov.iovBase + size + (iov.iovLen - size) ≤ mem.length
          omega
        · exact h.tail v hv
      · rw [iovBytes_cons, iovBytes_cons, List.drop_append_of_le_length (by rw [length_slice hhead]; omega),
          drop_slice]
        dsimp only
        congr 2
        omega
    · -- the whole iovec is dropped
      rw [if_neg hlen] at hd
      obtain ⟨hlt, hin, hbytes⟩ := ih h.tail hd
      refine ⟨by rw [iovTotal_cons]; omega, hin, ?_⟩
      have hnil : (slice mem iov.iovBase (iov.iovBase + iov.iovLen)).drop size = [] :=
        List.drop_eq_nil_of_le (by rw [length_slice hhead]; omega)
      rw [hbytes, iovBytes_cons, List.drop_append, hnil, List.nil_append, length_slice hhead]
      congr 1
      omega

/-- Writing `a` into the iovecs and then `b` into what `iov_discard_front_direct`
leaves after `a` is writing `a ++ b` into the iovecs. -/
theorem scatter_discard {iovec iovec' : List Iovec} (h : Inside mem iovec) {a : List UInt8}
    (hd : iovDiscardFrontDirect iovec a.length = some iovec') (b : List UInt8) :
    scatter (scatter mem iovec a) iovec' b = scatter mem iovec (a ++ b) := by
  induction iovec generalizing mem a with
  | nil => cases hd
  | cons iov rest ih =>
    have hhead := h.head
    rw [iovDiscardFrontDirect] at hd
    by_cases hlen : iov.iovLen > a.length
    · -- `a` ends inside this iovec: `b` goes on from there
      rw [if_pos hlen] at hd
      cases hd
      have hfit : iov.iovBase + a.length + (b.take (iov.iovLen - a.length)).length ≤ mem.length := by
        rw [List.length_take]
        omega
      have hle : a.length ≤ iov.iovLen := by omega
      simp only [scatter]
      rw [List.take_of_length_le hle, List.drop_eq_nil_of_le hle, scatter_nil, spliceAt_append hfit,
        List.take_append, List.take_of_length_le hle, List.drop_append, List.drop_eq_nil_of_le hle,
        List.nil_append]
    · -- this iovec takes a prefix of `a` alone
      rw [if_neg hlen] at hd
      have hfit : iov.iovBase + (a.take iov.iovLen).length ≤ mem.length := by
        rw [List.length_take]
        omega
      have hrest : Inside (spliceAt mem iov.iovBase (a.take iov.iovLen)) rest :=
        h.tail.of_length (length_spliceAt hfit)
      have hd' : iovDiscardFrontDirect rest (a.drop iov.iovLen).length = some iovec' := by
        rwa [List.length_drop]
      rw [scatter, ih hrest hd', scatter, List.take_append_of_le_length (by omega),
        List.drop_append_of_le_length (by omega)]

/-- The whole-iovec loop of `iov_to_buf_direct`, from `iovec[index]` on,
copies the iovecs' bytes into the buffer from `start`, as far as it holds. -/
theorem readPieces_copyWhole {iovec : List Iovec} :
    ∀ (rest : List Iovec) (index start : Nat) (buf : List UInt8), iovec.drop index = rest →
      Inside mem rest → start ≤ buf.length →
      readPieces mem iovec buf (copyWhole buf.length index start start rest).1 =
          spliceAt buf start ((iovBytes mem rest).take (buf.length - start)) ∧
        (copyWhole buf.length index start start rest).2 = min buf.length (start + iovTotal rest) := by
  intro rest
  induction rest with
  | nil =>
    intro index start buf _ _ hstart
    refine ⟨?_, ?_⟩
    · simp only [copyWhole, readPieces, iovBytes_nil, List.take_nil, spliceAt_nil]
    · simp only [copyWhole, iovTotal_nil]
      omega
  | cons iov rest ih =>
    intro index start buf hdrop h hstart
    have hhead := h.head
    have hget : iovec.getD index ⟨0, 0⟩ = iov := by
      rw [List.getD_eq_getElem?_getD, ← List.head?_drop, hdrop]
      rfl
    have hpiece : slice mem iov.iovBase (iov.iovBase + (min (start + iov.iovLen) buf.length - start)) =
        (slice mem iov.iovBase (iov.iovBase + iov.iovLen)).take (buf.length - start) := by
      unfold slice
      rw [List.take_take]
      congr 1
      omega
    have hfit : start + (slice mem iov.iovBase (iov.iovBase + (min (start + iov.iovLen) buf.length - start))).length
        ≤ buf.length := by
      rw [length_slice (by omega)]
      omega
    simp only [copyWhole]
    split
    · -- the buffer fills up inside this iovec
      simp only [readPieces, hget, Nat.add_zero, hpiece, iovBytes_cons, iovTotal_cons]
      rw [List.take_append_of_le_length (by rw [length_slice hhead]; omega)]
      exact ⟨rfl, by omega⟩
    · -- the whole iovec fits; the loop goes on with the rest
      rename_i hroom
      have hlen : (spliceAt buf start (slice mem iov.iovBase (iov.iovBase + iov.iovLen))).length = buf.length :=
        length_spliceAt (by rw [length_slice hhead]; omega)
      have hdrop' : iovec.drop (index + 1) = rest := by
        rw [← List.drop_drop, hdrop, List.drop_one, List.tail_cons]
      have hmin : min (start + iov.iovLen) buf.length = start + iov.iovLen := by omega
      obtain ⟨hbuf, hcount⟩ := ih (index + 1) (start + iov.iovLen)
        (spliceAt buf start (slice mem iov.iovBase (iov.iovBase + iov.iovLen))) hdrop' h.tail (by omega)
      rw [hlen] at hbuf hcount
      have hSlen : (slice mem iov.iovBase (iov.iovBase + iov.iovLen)).length = iov.iovLen := by
        rw [length_slice hhead]
        omega
      -- the buffer from `start` takes this iovec whole, then the rest
      have htake : (slice mem iov.iovBase (iov.iovBase + iov.iovLen) ++ iovBytes mem rest).take (buf.length - start) =
          slice mem iov.iovBase (iov.iovBase + iov.iovLen) ++
            (iovBytes mem rest).take (buf.length - (start + iov.iovLen)) := by
        rw [List.take_append, List.take_of_length_le (by omega), hSlen]
        congr 2
        omega
      simp only [readPieces, hget, Nat.add_zero, hmin, Nat.add_sub_cancel_left]
      refine ⟨?_, by rw [hcount, iovTotal_cons]; omega⟩
      rw [hbuf, iovBytes_cons, htake, ← spliceAt_append (by rw [hSlen, List.length_take]; omega), hSlen]

/-- `iov_to_buf_direct(iovec, 0, buf)`: the iovecs' bytes copied into the
front of the buffer, and the count. -/
theorem iovToBufDirectBytes_zero {iovec : List Iovec} (h : Inside mem iovec) (buf : List UInt8) :
    iovToBufDirectBytes mem iovec 0 buf =
      (spliceAt buf 0 ((iovBytes mem iovec).take buf.length), min buf.length (iovTotal iovec)) := by
  obtain ⟨hbuf, hcount⟩ := readPieces_copyWhole iovec 0 0 buf (List.drop_zero) h (Nat.zero_le _)
  rw [Nat.sub_zero] at hbuf
  rw [Nat.zero_add] at hcount
  show (readPieces mem iovec buf (iovToBufDirect iovec 0 buf.length).1, (iovToBufDirect iovec 0 buf.length).2) = _
  rw [iovToBufDirect, if_pos rfl, hbuf, hcount]

end Iovecs

/-! ## Alignment -/

section Align

variable {origin align : Nat}

theorem roundDown_le : roundDown origin align ≤ origin := by
  unfold roundDown
  omega

theorem dvd_roundDown : align ∣ roundDown origin align := Nat.dvd_sub_mod origin

theorem lt_roundDown_add (h : 0 < align) : origin < roundDown origin align + align := by
  have hmod := Nat.mod_lt origin h
  have hle := Nat.mod_le origin align
  unfold roundDown
  omega

theorem le_roundUp : origin ≤ roundUp origin align := by
  unfold roundUp
  split <;> omega

theorem roundUp_lt_add (h : 0 < align) : roundUp origin align < origin + align := by
  have hmod := Nat.mod_lt origin h
  unfold roundUp
  split <;> omega

theorem dvd_roundUp (h : 0 < align) : align ∣ roundUp origin align := by
  unfold roundUp
  split
  · exact Nat.dvd_of_mod_eq_zero ‹_›
  · -- the next multiple: the one below plus one step
    have hmod := Nat.mod_lt origin h
    have hle := Nat.mod_le origin align
    have heq : origin + (align - origin % align) = (origin - origin % align) + align := by omega
    rw [heq]
    exact Nat.dvd_add (Nat.dvd_sub_mod origin) (Nat.dvd_refl align)

/-- Two multiples of the alignment, one below the other, are a whole step
apart. -/
theorem add_le_of_dvd_of_lt {k m : Nat} (hk : align ∣ k) (hm : align ∣ m) (h : k < m) :
    k + align ≤ m := by
  have hstep := Nat.le_of_dvd (by omega) (Nat.dvd_sub hm hk)
  omega

end Align

/-! ## Writes into the file -/

section RawWrite

variable {file data : List UInt8} {offset : Nat}

@[simp] theorem rawWrite_nil (file : List UInt8) (offset : Nat) : rawWrite file offset [] = file := by
  rw [rawWrite, if_pos rfl]

/-- A byte of the file after `pwrite`: the written byte inside the window, the
old byte before the old end, zero in a gap the write opened. -/
theorem getElem?_rawWrite (hd : data ≠ []) (i : Nat) :
    (rawWrite file offset data)[i]? =
      if offset ≤ i ∧ i < offset + data.length then data[i - offset]?
      else if i < file.length then file[i]?
      else if i < offset then some 0 else none := by
  have hfit : offset + data.length ≤ (file ++ List.replicate (offset + data.length - file.length) 0).length := by
    rw [List.length_append, List.length_replicate]
    omega
  rw [rawWrite, if_neg hd, getElem?_spliceAt hfit]
  by_cases hw : offset ≤ i ∧ i < offset + data.length
  · rw [if_pos hw, if_pos hw]
  · rw [if_neg hw, if_neg hw]
    by_cases hf : i < file.length
    · rw [if_pos hf, List.getElem?_append_left hf]
    · -- past the old end: the zero padding, then nothing
      rw [if_neg hf, List.getElem?_append_right (by omega), List.getElem?_replicate]
      by_cases ho : i < offset
      · rw [if_pos ho, if_pos (by omega)]
      · rw [if_neg ho, if_neg (by omega)]

theorem length_rawWrite (hd : data ≠ []) :
    (rawWrite file offset data).length = max file.length (offset + data.length) := by
  have hfit : offset + data.length ≤ (file ++ List.replicate (offset + data.length - file.length) 0).length := by
    rw [List.length_append, List.length_replicate]
    omega
  rw [rawWrite, if_neg hd, length_spliceAt hfit, List.length_append, List.length_replicate]
  omega

/-- Past the end of a write the file is the old one. -/
theorem drop_rawWrite {k : Nat} (h : offset + data.length ≤ k) :
    (rawWrite file offset data).drop k = file.drop k := by
  by_cases hd : data = []
  · rw [hd, rawWrite_nil]
  apply List.ext_getElem?
  intro i
  rw [List.getElem?_drop, List.getElem?_drop, getElem?_rawWrite hd, if_neg (by omega)]
  by_cases hf : k + i < file.length
  · rw [if_pos hf]
  · rw [if_neg hf, if_neg (by omega), List.getElem?_eq_none (by omega)]

/-- A byte past the end of a write is the old one. -/
theorem getElem?_rawWrite_of_le {i : Nat} (h : offset + data.length ≤ i) :
    (rawWrite file offset data)[i]? = file[i]? := by
  have hdrop : (rawWrite file offset data).drop i = file.drop i := drop_rawWrite h
  have hfirst := congrArg (fun l => l[0]?) hdrop
  simpa only [List.getElem?_drop, Nat.add_zero] using hfirst

/-- Two writes side by side are one write of both. -/
theorem rawWrite_append (a b : List UInt8) :
    rawWrite (rawWrite file offset a) (offset + a.length) b = rawWrite file offset (a ++ b) := by
  by_cases ha : a = []
  · rw [ha, rawWrite_nil, List.length_nil, Nat.add_zero, List.nil_append]
  by_cases hb : b = []
  · rw [hb, rawWrite_nil, List.append_nil]
  have hab : a ++ b ≠ [] := by simp [ha]
  apply List.ext_getElem?
  intro i
  rw [getElem?_rawWrite hb, getElem?_rawWrite ha, getElem?_rawWrite hab, length_rawWrite ha, List.length_append]
  by_cases h2 : offset + a.length ≤ i ∧ i < offset + a.length + b.length
  · -- inside the second write
    rw [if_pos h2, if_pos ⟨by omega, by omega⟩, List.getElem?_append_right (by omega)]
    congr 1
    omega
  · rw [if_neg h2]
    by_cases h1 : offset ≤ i ∧ i < offset + a.length
    · -- inside the first write
      rw [if_pos (show i < max file.length (offset + a.length) by omega), if_pos h1,
        if_pos (show offset ≤ i ∧ i < offset + (a.length + b.length) by omega),
        List.getElem?_append_left (by omega)]
    · -- outside both: the old file, the gap, or nothing
      rw [if_neg h1, if_neg (show ¬(offset ≤ i ∧ i < offset + (a.length + b.length)) by omega)]
      by_cases hf : i < file.length
      · rw [if_pos (show i < max file.length (offset + a.length) by omega), if_pos hf]
      · rw [if_neg hf]
        by_cases ho : i < offset
        · rw [if_pos (show i < max file.length (offset + a.length) by omega), if_pos ho]
        · rw [if_neg (show ¬i < max file.length (offset + a.length) by omega),
            if_neg (show ¬i < offset + a.length by omega), if_neg ho]

/-- Writing back, from `start`, the window `[start, stop)` of a file that a
write inside that window produced gives that file again. -/
theorem rawWrite_slice_of_le (hd : data ≠ []) {start stop : Nat} (hstart : start ≤ offset)
    (hstop : offset + data.length ≤ stop) :
    rawWrite file start (slice (rawWrite file offset data) start stop) = rawWrite file offset data := by
  have hlen : (rawWrite file offset data).length = max file.length (offset + data.length) :=
    length_rawWrite hd
  have hne : slice (rawWrite file offset data) start stop ≠ [] := by
    rw [← List.length_pos_iff, length_slice_eq, hlen]
    have := List.length_pos_iff.2 hd
    omega
  apply List.ext_getElem?
  intro i
  rw [getElem?_rawWrite hne, length_slice_eq, hlen]
  by_cases hw : start ≤ i ∧ i < start + min (stop - start) (max file.length (offset + data.length) - start)
  · -- inside the window written back: the file's own byte
    rw [if_pos hw, getElem?_slice, if_pos (show i - start < stop - start by omega), Nat.add_sub_cancel' hw.1]
  · rw [if_neg hw, getElem?_rawWrite hd, if_neg (show ¬(offset ≤ i ∧ i < offset + data.length) by omega)]
    by_cases hf : i < file.length
    · rw [if_pos hf, if_pos hf]
    · rw [if_neg hf, if_neg hf]
      by_cases ho : i < start
      · rw [if_pos ho, if_pos (show i < offset by omega)]
      · rw [if_neg ho, if_neg (show ¬i < offset by omega)]

end RawWrite

/-! ## The chunks -/

section Chunks

variable {cb : AioCb} {bufferLen pos : Nat}

@[simp] theorem chunkAt_nbytes :
    (chunkAt cb bufferLen pos).nbytes = min (roundUp (cb.offset + cb.nbytes) cb.reqAlign - pos) bufferLen :=
  rfl

@[simp] theorem chunkAt_realOffset : (chunkAt cb bufferLen pos).realOffset = max pos cb.offset := rfl

@[simp] theorem chunkAt_realHigh :
    (chunkAt cb bufferLen pos).realHigh = min (pos + (chunkAt cb bufferLen pos).nbytes) (cb.offset + cb.nbytes) :=
  rfl

/-- What the chunk at a position the loops reach is like: at least one
alignment step long and a whole number of them, within the bounce buffer,
past the request's start, within `round_up(high)`, and, when it is not the
last, ending before the request does. -/
structure ChunkOk (cb : AioCb) (bufferLen pos : Nat) : Prop where
  ra_le : cb.reqAlign ≤ (chunkAt cb bufferLen pos).nbytes
  dvd : cb.reqAlign ∣ (chunkAt cb bufferLen pos).nbytes
  le_buffer : (chunkAt cb bufferLen pos).nbytes ≤ bufferLen
  past_offset : cb.offset < pos + (chunkAt cb bufferLen pos).nbytes
  le_highAlign : pos + (chunkAt cb bufferLen pos).nbytes ≤ roundUp (cb.offset + cb.nbytes) cb.reqAlign
  below_of_lt : pos + (chunkAt cb bufferLen pos).nbytes < roundUp (cb.offset + cb.nbytes) cb.reqAlign →
    pos + (chunkAt cb bufferLen pos).nbytes < cb.offset + cb.nbytes

/-- Every aligned position from `round_down(offset)` to the request's end
starts a good chunk, for a bounce buffer that is a positive multiple of the
alignment. -/
theorem chunkOk (hra : 0 < cb.reqAlign) (hbuf : cb.reqAlign ∣ bufferLen) (hbpos : 0 < bufferLen)
    (hal : cb.reqAlign ∣ pos) (hstart : roundDown cb.offset cb.reqAlign ≤ pos)
    (hbelow : pos < cb.offset + cb.nbytes) : ChunkOk cb bufferLen pos := by
  -- the alignment facts the arithmetic below works from
  have hoff : cb.offset < roundDown cb.offset cb.reqAlign + cb.reqAlign := lt_roundDown_add hra
  have hhigh : cb.offset + cb.nbytes ≤ roundUp (cb.offset + cb.nbytes) cb.reqAlign := le_roundUp
  have hup : roundUp (cb.offset + cb.nbytes) cb.reqAlign < cb.offset + cb.nbytes + cb.reqAlign :=
    roundUp_lt_add hra
  have hdvdUp : cb.reqAlign ∣ roundUp (cb.offset + cb.nbytes) cb.reqAlign := dvd_roundUp hra
  have hstep : pos + cb.reqAlign ≤ roundUp (cb.offset + cb.nbytes) cb.reqAlign :=
    add_le_of_dvd_of_lt hal hdvdUp (by omega)
  have hbufle : cb.reqAlign ≤ bufferLen := Nat.le_of_dvd hbpos hbuf
  have hdvd : cb.reqAlign ∣ (chunkAt cb bufferLen pos).nbytes := by
    -- both candidates for the length are multiples of the alignment
    rw [chunkAt_nbytes]
    rcases Nat.le_total (roundUp (cb.offset + cb.nbytes) cb.reqAlign - pos) bufferLen with h | h
    · rw [Nat.min_eq_left h]
      exact Nat.dvd_sub hdvdUp hal
    · rw [Nat.min_eq_right h]
      exact hbuf
  refine ⟨?_, hdvd, ?_, ?_, ?_, ?_⟩
  · rw [chunkAt_nbytes]
    omega
  · rw [chunkAt_nbytes]
    omega
  · rw [chunkAt_nbytes]
    omega
  · rw [chunkAt_nbytes]
    omega
  · -- a chunk that is not the last ends on an alignment step before `round_up(high)`
    intro hlt
    have hend := add_le_of_dvd_of_lt (Nat.dvd_add hal hdvd) hdvdUp hlt
    omega

end Chunks

/-! ## The read loop -/

/-- The bytes a pass of the read loop copies to the iovecs: the part of its
chunk inside the request, from the bounce buffer the chunk was read into. -/
def readSource (cb : AioCb) (file : List UInt8) (bufferLen : Nat) (s : ReadState) : List UInt8 :=
  let c := chunkAt cb bufferLen s.offset
  slice (spliceAt s.bounce 0 (rawRead file c.nbytes s.offset)) (c.realOffset - s.offset)
    (c.realOffset - s.offset + (c.realHigh - c.realOffset))

/-- What the read loop keeps: its position is an aligned one inside the
request, and the memory is what writing the file's bytes `[offset, pos)` into
the request's iovecs leaves, with the remaining iovecs the rest of them. -/
structure ReadInv (cb : AioCb) (file mem : List UInt8) (bufferLen : Nat) (s : ReadState) : Prop where
  aligned : cb.reqAlign ∣ s.offset
  start_le : roundDown cb.offset cb.reqAlign ≤ s.offset
  below : s.offset < cb.offset + cb.nbytes
  bounce_length : s.bounce.length = bufferLen
  mem_length : s.mem.length = mem.length
  inside : Inside mem s.iovecs
  total : iovTotal s.iovecs = cb.offset + cb.nbytes - max s.offset cb.offset
  filled : ∀ rest, scatter s.mem s.iovecs rest =
    scatter mem cb.iovec (slice file cb.offset (max s.offset cb.offset) ++ rest)

section ReadLoop

variable {cb : AioCb} {file mem : List UInt8} {bufferLen : Nat} {s s' t : ReadState}

/-- A pass that goes round again: the chunk was read far enough, the iovecs
took its bytes, the chunk was not the last, and the iovecs were advanced. -/
theorem readStep_next_eq {c : Chunk} (hc : chunkAt cb bufferLen s.offset = c)
    (h : readStep cb file bufferLen s = .next s') :
    c.realHigh - s.offset ≤ (rawRead file c.nbytes s.offset).length ∧
      (iovFromBufDirect s.mem s.iovecs (readSource cb file bufferLen s)).2 = c.realHigh - c.realOffset ∧
      s.offset + c.nbytes < roundUp (cb.offset + cb.nbytes) cb.reqAlign ∧
      ∃ iovecs, iovDiscardFrontDirect s.iovecs (c.realHigh - c.realOffset) = some iovecs ∧
        s' = ⟨s.offset + c.nbytes, iovecs, (iovFromBufDirect s.mem s.iovecs (readSource cb file bufferLen s)).1,
          spliceAt s.bounce 0 (rawRead file c.nbytes s.offset)⟩ := by
  subst hc
  unfold readStep at h
  dsimp only at h
  split_ifs at h with hshort hcount hend
  split at h
  · rename_i iovecs hdis
    cases h
    exact ⟨by omega, by simpa [readSource] using hcount, by omega, iovecs, hdis, rfl⟩
  · cases h

/-- A pass that leaves the loop: the chunk was read far enough, the iovecs
took its bytes, and it was the last. -/
theorem readStep_exit_eq {c : Chunk} (hc : chunkAt cb bufferLen s.offset = c)
    (h : readStep cb file bufferLen s = .exit t) :
    c.realHigh - s.offset ≤ (rawRead file c.nbytes s.offset).length ∧
      roundUp (cb.offset + cb.nbytes) cb.reqAlign ≤ s.offset + c.nbytes ∧
      t.mem = (iovFromBufDirect s.mem s.iovecs (readSource cb file bufferLen s)).1 := by
  subst hc
  unfold readStep at h
  dsimp only at h
  split_ifs at h with hshort hcount hend
  · cases h
    exact ⟨by omega, hend, rfl⟩
  · split at h <;> cases h

/-- The bytes a pass copies are the file's bytes of its chunk inside the
request. -/
theorem readSource_eq (hi : ReadInv cb file mem bufferLen s) (hc : ChunkOk cb bufferLen s.offset)
    (hlen : (chunkAt cb bufferLen s.offset).realHigh - s.offset ≤
      (rawRead file (chunkAt cb bufferLen s.offset).nbytes s.offset).length) :
    readSource cb file bufferLen s =
      slice file (max s.offset cb.offset)
        (min (s.offset + (chunkAt cb bufferLen s.offset).nbytes) (cb.offset + cb.nbytes)) := by
  have hle := hc.le_buffer
  have hpast := hc.past_offset
  have hbelow := hi.below
  have hdata : 0 + (rawRead file (chunkAt cb bufferLen s.offset).nbytes s.offset).length ≤ s.bounce.length := by
    rw [hi.bounce_length, rawRead, length_slice_eq]
    omega
  rw [chunkAt_realHigh] at hlen
  have hwin := slice_spliceAt_inner hdata (max s.offset cb.offset - s.offset)
    (min (s.offset + (chunkAt cb bufferLen s.offset).nbytes) (cb.offset + cb.nbytes) - s.offset) hlen
  simp only [Nat.zero_add] at hwin
  unfold readSource
  simp only [chunkAt_realOffset, chunkAt_realHigh]
  rw [show max s.offset cb.offset - s.offset +
      (min (s.offset + (chunkAt cb bufferLen s.offset).nbytes) (cb.offset + cb.nbytes) - max s.offset cb.offset) =
      min (s.offset + (chunkAt cb bufferLen s.offset).nbytes) (cb.offset + cb.nbytes) - s.offset by omega,
    hwin, rawRead, slice_slice file (by omega)]
  congr 1 <;> omega

/-- The read loop's invariant holds where it starts. -/
theorem readInv_init (hn : 0 < cb.nbytes) (hin : Inside mem cb.iovec) (htotal : iovTotal cb.iovec = cb.nbytes)
    {bounce : List UInt8} (hb : bounce.length = bufferLen) :
    ReadInv cb file mem bufferLen ⟨roundDown cb.offset cb.reqAlign, cb.iovec, mem, bounce⟩ := by
  have hdown : roundDown cb.offset cb.reqAlign ≤ cb.offset := roundDown_le
  have hmax : max (roundDown cb.offset cb.reqAlign) cb.offset = cb.offset := by omega
  refine ⟨dvd_roundDown, le_refl _, ?_, hb, rfl, hin, ?_, ?_⟩
  · show roundDown cb.offset cb.reqAlign < cb.offset + cb.nbytes
    omega
  · dsimp only
    rw [hmax, htotal]
    omega
  · intro rest
    dsimp only
    rw [hmax, slice, Nat.sub_self, List.take_zero, List.nil_append]

/-- **Step.** A pass that goes round again keeps the invariant: the iovecs
took the file's bytes of this chunk, and the rest of them is what remains. -/
theorem ReadInv.step (hra : 0 < cb.reqAlign) (hbuf : cb.reqAlign ∣ bufferLen) (hbpos : 0 < bufferLen)
    (hi : ReadInv cb file mem bufferLen s) (h : readStep cb file bufferLen s = .next s') :
    ReadInv cb file mem bufferLen s' := by
  obtain ⟨hlen, hcount, hlt, iovecs, hdis, rfl⟩ := readStep_next_eq rfl h
  have hc := chunkOk hra hbuf hbpos hi.aligned hi.start_le hi.below
  have hnext := hc.below_of_lt hlt
  have hpast := hc.past_offset
  have hle := hc.le_buffer
  have hin : Inside s.mem s.iovecs := hi.inside.of_length hi.mem_length
  have hsrc := readSource_eq hi hc hlen
  -- the chunk is not the last, so it lies inside the request from its start
  have hro : max s.offset cb.offset ≤ s.offset + (chunkAt cb bufferLen s.offset).nbytes := by omega
  have hrh : min (s.offset + (chunkAt cb bufferLen s.offset).nbytes) (cb.offset + cb.nbytes) =
      s.offset + (chunkAt cb bufferLen s.offset).nbytes := by omega
  rw [hrh] at hsrc
  have hsrclen : (readSource cb file bufferLen s).length =
      s.offset + (chunkAt cb bufferLen s.offset).nbytes - max s.offset cb.offset := by
    rw [hsrc, length_slice_eq]
    rw [rawRead, length_slice_eq, chunkAt_realHigh] at hlen
    omega
  have hdis' : iovDiscardFrontDirect s.iovecs (readSource cb file bufferLen s).length = some iovecs := by
    rw [hsrclen]
    rw [chunkAt_realHigh, chunkAt_realOffset, hrh] at hdis
    exact hdis
  obtain ⟨-, hin', hbytes⟩ := iovDiscardFrontDirect_spec hi.inside hdis
  rw [iovFromBufDirect_eq hin]
  refine ⟨Nat.dvd_add hi.aligned hc.dvd, by dsimp only; have := hi.start_le; omega, hnext, ?_, ?_, hin', ?_, ?_⟩
  · dsimp only
    rw [length_spliceAt (by rw [hi.bounce_length, rawRead, length_slice_eq]; omega), hi.bounce_length]
  · dsimp only
    rw [length_scatter hin, hi.mem_length]
  · -- what remains is the request's end less the chunk's end
    dsimp only
    rw [← length_iovBytes hin', hbytes, List.length_drop, length_iovBytes hi.inside, hi.total]
    simp only [chunkAt_realHigh, chunkAt_realOffset, hrh]
    omega
  · intro rest
    dsimp only
    rw [scatter_discard hin hdis', hi.filled, ← List.append_assoc, hsrc,
      slice_append_slice file (le_max_right _ _) hro]
    congr 3
    omega

/-- **Exit.** The pass that leaves the loop read the request's last bytes:
the file covers the request, and the iovecs hold its bytes. -/
theorem ReadInv.exit (hi : ReadInv cb file mem bufferLen s) (hc : ChunkOk cb bufferLen s.offset)
    (h : readStep cb file bufferLen s = .exit t) :
    cb.offset + cb.nbytes ≤ file.length ∧
      t.mem = scatter mem cb.iovec (slice file cb.offset (cb.offset + cb.nbytes)) := by
  obtain ⟨hlen, hge, hmem⟩ := readStep_exit_eq rfl h
  have hhigh : cb.offset + cb.nbytes ≤ roundUp (cb.offset + cb.nbytes) cb.reqAlign := le_roundUp
  have hpast := hc.past_offset
  have hbelow := hi.below
  have hin : Inside s.mem s.iovecs := hi.inside.of_length hi.mem_length
  have hsrc := readSource_eq hi hc hlen
  -- the last chunk reaches the request's end
  have hrh : min (s.offset + (chunkAt cb bufferLen s.offset).nbytes) (cb.offset + cb.nbytes) =
      cb.offset + cb.nbytes := by omega
  rw [hrh] at hsrc
  refine ⟨?_, ?_⟩
  · rw [rawRead, length_slice_eq, chunkAt_realHigh, hrh] at hlen
    omega
  · rw [hmem, iovFromBufDirect_eq hin, hi.filled, hsrc,
      slice_append_slice file (le_max_right _ _) (by omega)]

end ReadLoop

/-- **The read loop.** From the invariant, a run of the `Preadv` loop that
ends normally read the whole request, and left the iovecs holding it. -/
theorem readLoop_exit {cb : AioCb} {file mem : List UInt8} {b : Bounce} {s t : ReadState}
    (hra : 0 < cb.reqAlign) (hbuf : cb.reqAlign ∣ b.bytes.length)
    (hi : ReadInv cb file mem b.bytes.length s) (h : (readLoop cb file b).run s = .exit t) :
    cb.offset + cb.nbytes ≤ file.length ∧
      t.mem = scatter mem cb.iovec (slice file cb.offset (cb.offset + cb.nbytes)) := by
  obtain ⟨_, u, hu, hbody, -⟩ :=
    Loop.run_exit_of_inv (fun _ s => ReadInv cb file mem b.bytes.length s)
      (fun _ _ _ hs hb => hs.step hra hbuf b.len_pos hb) s [] t hi h
  exact hu.exit (chunkOk hra hbuf b.len_pos hu.aligned hu.start_le hu.below) hbody

/-- **`Preadv`.** A misaligned read that succeeds read the whole request from
the file and wrote its bytes, in order, into the iovecs; the file is as it
was. -/
theorem handleMisalignedRw_preadv {cb : AioCb} {b : Bounce} {w w' : World} (hra : 0 < cb.reqAlign)
    (hbuf : cb.reqAlign ∣ b.bytes.length) (hn : 0 < cb.nbytes) (hin : Inside w.mem cb.iovec)
    (htotal : iovTotal cb.iovec = cb.nbytes) (hop : cb.opcode = .preadv)
    (h : handleMisalignedRw cb b w = .ok w') :
    cb.offset + cb.nbytes ≤ w.file.length ∧ w'.file = w.file ∧
      w'.mem = scatter w.mem cb.iovec (slice w.file cb.offset (cb.offset + cb.nbytes)) := by
  unfold handleMisalignedRw at h
  rw [hop] at h
  dsimp only at h
  split at h
  · rename_i s hrun
    cases h
    obtain ⟨hcov, hmem⟩ := readLoop_exit hra hbuf (readInv_init hn hin htotal rfl) hrun
    exact ⟨hcov, rfl, hmem⟩
  · cases h

/-! ## The write loop -/

/-- The bounce buffer once a pass of the write loop has copied the iovecs into
its chunk's part inside the request, and the count the copy returned. -/
def writeFill (cb : AioCb) (mem : List UInt8) (bufferLen : Nat) (s : WriteState) (bounce : List UInt8) :
    List UInt8 × Nat :=
  let c := chunkAt cb bufferLen s.offset
  let dst := slice bounce (c.realOffset - s.offset) (c.realOffset - s.offset + (c.realHigh - c.realOffset))
  let r := iovToBufDirectBytes mem s.iovecs 0 dst
  (spliceAt bounce (c.realOffset - s.offset) r.1, r.2)

/-- The facts about a write request, its bounce buffer and its head load that
the write loop relies on: the alignment and the buffer, the iovecs, whether the
head was loaded (exactly when the request starts inside a section) and whether
a tail is to be loaded. -/
structure WriteReq (cb : AioCb) (mem file : List UInt8) (bufferLen : Nat) (headLoaded needTail : Bool) :
    Prop where
  align_pos : 0 < cb.reqAlign
  dvd_buffer : cb.reqAlign ∣ bufferLen
  buffer_pos : 0 < bufferLen
  nbytes_pos : 0 < cb.nbytes
  inside : Inside mem cb.iovec
  total : iovTotal cb.iovec = cb.nbytes
  head_iff : headLoaded = true ↔ roundDown cb.offset cb.reqAlign < cb.offset
  head_length : headLoaded = true → roundDown cb.offset cb.reqAlign + cb.reqAlign ≤ file.length
  tail_iff : needTail = true ↔
    ¬(cb.offset + cb.nbytes ≤ roundDown cb.offset cb.reqAlign + cb.reqAlign ∧ headLoaded = true) ∧
      cb.offset + cb.nbytes < roundUp (cb.offset + cb.nbytes) cb.reqAlign

/-- What the write loop keeps: its position is an aligned one inside the
request, the remaining iovecs hold the request's bytes from there, the file
holds the target's bytes `[round_down(offset), pos)`, and at the start the
loaded head is in the bounce buffer. The target is the old file with the
iovecs' bytes at `offset`. -/
structure WriteInv (cb : AioCb) (mem file : List UInt8) (bufferLen : Nat) (headLoaded : Bool)
    (s : WriteState) : Prop where
  aligned : cb.reqAlign ∣ s.offset
  start_le : roundDown cb.offset cb.reqAlign ≤ s.offset
  below : s.offset < cb.offset + cb.nbytes
  bounce_length : s.bounce.length = bufferLen
  inside : Inside mem s.iovecs
  rest : iovBytes mem s.iovecs = (iovBytes mem cb.iovec).drop (max s.offset cb.offset - cb.offset)
  written : s.file = rawWrite file (roundDown cb.offset cb.reqAlign)
    (slice (rawWrite file cb.offset (iovBytes mem cb.iovec)) (roundDown cb.offset cb.reqAlign) s.offset)
  head : s.offset = roundDown cb.offset cb.reqAlign → headLoaded = true →
    ∀ j < cb.reqAlign, s.bounce[j]? = file[roundDown cb.offset cb.reqAlign + j]?

section WriteLoop

variable {cb : AioCb} {mem file : List UInt8} {bufferLen : Nat} {headLoaded needTail : Bool}
  {s s' t : WriteState}

/-- The tail load: the bytes of the chunk's last alignment step come from the
file when the chunk ends the request and a tail is needed; the rest of the
bounce buffer is unchanged. -/
theorem loadTail_ok {c : Chunk} {bounce : List UInt8} (hc : c.nbytes ≤ s.bounce.length)
    (hra : cb.reqAlign ≤ c.nbytes) (h : loadTail cb needTail c s = .ok bounce) :
    bounce.length = s.bounce.length ∧
      ∀ j < c.nbytes, bounce[j]? =
        if (c.realHigh = cb.offset + cb.nbytes ∧ needTail = true) ∧ c.nbytes - cb.reqAlign ≤ j then
          s.file[s.offset + j]?
        else s.bounce[j]? := by
  by_cases hload : c.realHigh = cb.offset + cb.nbytes ∧ needTail = true
  · rw [loadTail, if_pos hload] at h
    dsimp only at h
    by_cases hlen : (rawRead s.file cb.reqAlign (s.offset + c.nbytes - cb.reqAlign)).length = cb.reqAlign
    · rw [if_neg (not_not.2 hlen)] at h
      cases h
      have hfit : c.nbytes - cb.reqAlign +
          (rawRead s.file cb.reqAlign (s.offset + c.nbytes - cb.reqAlign)).length ≤ s.bounce.length := by
        rw [hlen]
        omega
      refine ⟨length_spliceAt hfit, fun j hj => ?_⟩
      rw [getElem?_spliceAt hfit, hlen]
      by_cases hj' : c.nbytes - cb.reqAlign ≤ j
      · -- inside the loaded tail: the file's byte
        rw [if_pos ⟨hj', by omega⟩, if_pos ⟨hload, hj'⟩, rawRead, getElem?_slice, if_pos (by omega)]
        congr 1
        omega
      · rw [if_neg (by omega), if_neg (fun h => hj' h.2)]
    · rw [if_pos hlen] at h
      cases h
  · rw [loadTail, if_neg hload] at h
    cases h
    exact ⟨rfl, fun j _ => by rw [if_neg (fun h => hload h.1)]⟩

/-- The copy into the chunk: the request's part of it takes the iovecs' next
bytes, the rest of the bounce buffer is unchanged. -/
theorem writeFill_ok (hin : Inside mem s.iovecs) {bounce : List UInt8}
    (hb : (chunkAt cb bufferLen s.offset).nbytes ≤ bounce.length)
    (hro : (chunkAt cb bufferLen s.offset).realOffset ≤ (chunkAt cb bufferLen s.offset).realHigh)
    (hrh : (chunkAt cb bufferLen s.offset).realHigh ≤ s.offset + (chunkAt cb bufferLen s.offset).nbytes)
    (hpos : s.offset ≤ (chunkAt cb bufferLen s.offset).realOffset)
    (hcount : (writeFill cb mem bufferLen s bounce).2 =
      (chunkAt cb bufferLen s.offset).realHigh - (chunkAt cb bufferLen s.offset).realOffset) :
    (writeFill cb mem bufferLen s bounce).1.length = bounce.length ∧
      ∀ j, (writeFill cb mem bufferLen s bounce).1[j]? =
        if (chunkAt cb bufferLen s.offset).realOffset - s.offset ≤ j ∧
            j < (chunkAt cb bufferLen s.offset).realHigh - s.offset then
          (iovBytes mem s.iovecs)[j - ((chunkAt cb bufferLen s.offset).realOffset - s.offset)]?
        else bounce[j]? := by
  generalize hc : chunkAt cb bufferLen s.offset = c at *
  unfold writeFill at hcount ⊢
  rw [hc] at hcount ⊢
  dsimp only at hcount ⊢
  have hdst : (slice bounce (c.realOffset - s.offset) (c.realOffset - s.offset + (c.realHigh - c.realOffset))).length =
      c.realHigh - c.realOffset := by
    rw [length_slice (by omega)]
    omega
  rw [iovToBufDirectBytes_zero hin, hdst] at hcount ⊢
  dsimp only at hcount ⊢
  -- the copy filled the whole window, so the iovecs held enough
  have htake : ((iovBytes mem s.iovecs).take (c.realHigh - c.realOffset)).length = c.realHigh - c.realOffset := by
    rw [List.length_take, length_iovBytes hin]
    omega
  rw [spliceAt_zero_of_length (by rw [htake, hdst])]
  have hfit : c.realOffset - s.offset + ((iovBytes mem s.iovecs).take (c.realHigh - c.realOffset)).length ≤
      bounce.length := by
    rw [htake]
    omega
  refine ⟨length_spliceAt hfit, fun j => ?_⟩
  rw [getElem?_spliceAt hfit, htake]
  by_cases hj : c.realOffset - s.offset ≤ j ∧ j < c.realHigh - s.offset
  · rw [if_pos ⟨hj.1, by omega⟩, if_pos hj, List.getElem?_take_of_lt (by omega)]
  · rw [if_neg (by omega), if_neg hj]

/-- The iovecs of a write request hold its bytes, and there are some. -/
theorem WriteReq.length_data (hw : WriteReq cb mem file bufferLen headLoaded needTail) :
    (iovBytes mem cb.iovec).length = cb.nbytes := by
  rw [length_iovBytes hw.inside, hw.total]

theorem WriteReq.data_ne_nil (hw : WriteReq cb mem file bufferLen headLoaded needTail) :
    iovBytes mem cb.iovec ≠ [] :=
  List.ne_nil_of_length_pos (by rw [hw.length_data]; exact hw.nbytes_pos)

/-- A byte of a chunk before the request's start: the chunk is the first, the
head was loaded, and the bounce buffer holds the target's byte there. -/
theorem WriteInv.front_byte (hw : WriteReq cb mem file bufferLen headLoaded needTail)
    (hi : WriteInv cb mem file bufferLen headLoaded s) {j : Nat} (hj : j < max s.offset cb.offset - s.offset) :
    s.offset = roundDown cb.offset cb.reqAlign ∧ headLoaded = true ∧
      s.bounce[j]? = (rawWrite file cb.offset (iovBytes mem cb.iovec))[s.offset + j]? := by
  have hoff : cb.offset < roundDown cb.offset cb.reqAlign + cb.reqAlign := lt_roundDown_add hw.align_pos
  have hstart := hi.start_le
  -- an aligned position before the request's start is `round_down(offset)`
  have hp : s.offset = roundDown cb.offset cb.reqAlign := by
    by_contra hne
    have hstep := add_le_of_dvd_of_lt dvd_roundDown hi.aligned (Nat.lt_of_le_of_ne hstart (Ne.symm hne))
    omega
  have hl : headLoaded = true := hw.head_iff.2 (by omega)
  have hlen := hw.head_length hl
  refine ⟨hp, hl, ?_⟩
  rw [hi.head hp hl j (by omega), hp, getElem?_rawWrite hw.data_ne_nil, if_neg (by omega), if_pos (by omega)]

/-- A byte of the last chunk past the request's end: the loaded tail's byte,
or, when no tail was loaded, the head's, which covers the one section the
request lies in. Either is the target's byte there. -/
theorem WriteInv.tail_byte (hw : WriteReq cb mem file bufferLen headLoaded needTail)
    (hi : WriteInv cb mem file bufferLen headLoaded s) (hc : ChunkOk cb bufferLen s.offset) {j : Nat}
    (hj : j < (chunkAt cb bufferLen s.offset).nbytes)
    (hge : (chunkAt cb bufferLen s.offset).realHigh - s.offset ≤ j) :
    (if ((chunkAt cb bufferLen s.offset).realHigh = cb.offset + cb.nbytes ∧ needTail = true) ∧
        (chunkAt cb bufferLen s.offset).nbytes - cb.reqAlign ≤ j then s.file[s.offset + j]?
      else s.bounce[j]?) = (rawWrite file cb.offset (iovBytes mem cb.iovec))[s.offset + j]? := by
  have hup : roundUp (cb.offset + cb.nbytes) cb.reqAlign < cb.offset + cb.nbytes + cb.reqAlign :=
    roundUp_lt_add hw.align_pos
  have hbelow := hi.below
  have hstart := hi.start_le
  have hle := hc.le_highAlign
  rw [chunkAt_realHigh] at hge ⊢
  -- the byte is past the request's end, where the target is the old file
  have hpast : cb.offset + cb.nbytes ≤ s.offset + j := by omega
  have htarget : (rawWrite file cb.offset (iovBytes mem cb.iovec))[s.offset + j]? = file[s.offset + j]? :=
    getElem?_rawWrite_of_le (by rw [hw.length_data]; exact hpast)
  -- so the chunk is the last, and ends at `round_up(high)`
  have hlast : s.offset + (chunkAt cb bufferLen s.offset).nbytes = roundUp (cb.offset + cb.nbytes) cb.reqAlign := by
    by_contra hne
    have := hc.below_of_lt (by omega)
    omega
  rw [htarget]
  by_cases ht : needTail = true
  · -- the tail was loaded from the file, past what the loop has written
    rw [if_pos ⟨⟨by omega, ht⟩, by omega⟩, hi.written, getElem?_rawWrite_of_le (by rw [length_slice_eq]; omega)]
  · -- no tail: the request lies in the one section the head loaded
    have hsame := hw.tail_iff
    have hsec : cb.offset + cb.nbytes ≤ roundDown cb.offset cb.reqAlign + cb.reqAlign ∧ headLoaded = true := by
      by_contra hns
      exact ht (hsame.2 ⟨hns, by omega⟩)
    rw [if_neg (fun h => ht h.1.2)]
    have hp : s.offset = roundDown cb.offset cb.reqAlign := by
      by_contra hne
      have hstep := add_le_of_dvd_of_lt dvd_roundDown hi.aligned (Nat.lt_of_le_of_ne hstart (Ne.symm hne))
      omega
    have hsec_end : roundUp (cb.offset + cb.nbytes) cb.reqAlign ≤ roundDown cb.offset cb.reqAlign + cb.reqAlign := by
      by_contra hgt
      have hstep := add_le_of_dvd_of_lt (Nat.dvd_add dvd_roundDown (Nat.dvd_refl _)) (dvd_roundUp hw.align_pos)
        (Nat.lt_of_not_le hgt)
      omega
    rw [hi.head hp hsec.2 j (by omega), hp]

/-- **The chunk.** After the tail load and the copy, every byte of the chunk
in the bounce buffer is the target's byte at its place in the file. -/
theorem WriteInv.chunk_bytes (hw : WriteReq cb mem file bufferLen headLoaded needTail)
    (hi : WriteInv cb mem file bufferLen headLoaded s) {bounce : List UInt8}
    (hload : loadTail cb needTail (chunkAt cb bufferLen s.offset) s = .ok bounce)
    (hcount : (writeFill cb mem bufferLen s bounce).2 =
      (chunkAt cb bufferLen s.offset).realHigh - (chunkAt cb bufferLen s.offset).realOffset) :
    (writeFill cb mem bufferLen s bounce).1.length = bufferLen ∧
      ∀ j < (chunkAt cb bufferLen s.offset).nbytes,
        (writeFill cb mem bufferLen s bounce).1[j]? = (rawWrite file cb.offset (iovBytes mem cb.iovec))[s.offset + j]? := by
  have hc := chunkOk hw.align_pos hw.dvd_buffer hw.buffer_pos hi.aligned hi.start_le hi.below
  have hoff : cb.offset < roundDown cb.offset cb.reqAlign + cb.reqAlign := lt_roundDown_add hw.align_pos
  have hpast := hc.past_offset
  have hbelow := hi.below
  have hn := hc.le_buffer
  have hb := hi.bounce_length
  obtain ⟨hlen1, hbytes1⟩ := loadTail_ok (by rw [hb]; exact hn) hc.ra_le hload
  obtain ⟨hlen2, hbytes2⟩ := writeFill_ok hi.inside (by rw [hlen1, hb]; exact hn)
    (by simp only [chunkAt_realOffset, chunkAt_realHigh]; omega) (by simp only [chunkAt_realHigh]; omega)
    (by simp only [chunkAt_realOffset]; omega) hcount
  refine ⟨by rw [hlen2, hlen1, hb], fun j hj => ?_⟩
  rw [hbytes2 j]
  by_cases hwin : (chunkAt cb bufferLen s.offset).realOffset - s.offset ≤ j ∧
      j < (chunkAt cb bufferLen s.offset).realHigh - s.offset
  · -- inside the request: the iovecs' next bytes, which are the request's
    simp only [chunkAt_realOffset, chunkAt_realHigh] at hwin
    rw [if_pos (by simpa only [chunkAt_realOffset, chunkAt_realHigh] using hwin), hi.rest, List.getElem?_drop,
      getElem?_rawWrite hw.data_ne_nil, if_pos (by rw [hw.length_data]; omega)]
    simp only [chunkAt_realOffset]
    congr 1
    omega
  · rw [if_neg hwin, hbytes1 j hj]
    by_cases hfront : j < (chunkAt cb bufferLen s.offset).realOffset - s.offset
    · -- before the request: the head, which the tail load does not reach
      rw [chunkAt_realOffset] at hfront
      obtain ⟨hp, hl, hbyte⟩ := hi.front_byte hw hfront
      have hno : ¬(((chunkAt cb bufferLen s.offset).realHigh = cb.offset + cb.nbytes ∧ needTail = true) ∧
          (chunkAt cb bufferLen s.offset).nbytes - cb.reqAlign ≤ j) := by
        rintro ⟨⟨hrh, ht⟩, hj'⟩
        have hsec : roundDown cb.offset cb.reqAlign + cb.reqAlign < cb.offset + cb.nbytes := by
          by_contra hle
          exact (hw.tail_iff.1 ht).1 ⟨by omega, hl⟩
        -- the chunk reaches past one section, so it is at least two long
        have htwo := add_le_of_dvd_of_lt (Nat.dvd_refl cb.reqAlign) hc.dvd
          (show cb.reqAlign < (chunkAt cb bufferLen s.offset).nbytes by
            rw [chunkAt_realHigh] at hrh
            omega)
        omega
      rw [if_neg hno, hbyte]
    · exact hi.tail_byte hw hc hj (by omega)

/-- The file once a chunk whose bytes are the target's is written: the target
on `[round_down(offset), pos + nbytes)`, and the target reaches that far. -/
theorem WriteInv.written_next (hi : WriteInv cb mem file bufferLen headLoaded s) {n : Nat} (hn : 0 < n)
    {chunk : List UInt8} (hlen : n ≤ chunk.length)
    (hbytes : ∀ j < n, chunk[j]? = (rawWrite file cb.offset (iovBytes mem cb.iovec))[s.offset + j]?) :
    s.offset + n ≤ (rawWrite file cb.offset (iovBytes mem cb.iovec)).length ∧
      rawWrite s.file s.offset (slice chunk 0 n) =
        rawWrite file (roundDown cb.offset cb.reqAlign)
          (slice (rawWrite file cb.offset (iovBytes mem cb.iovec)) (roundDown cb.offset cb.reqAlign) (s.offset + n)) := by
  generalize hF : rawWrite file cb.offset (iovBytes mem cb.iovec) = F at hbytes ⊢
  have hstart := hi.start_le
  -- the chunk's last byte is there, so the target reaches the chunk's end
  have hFlen : s.offset + n ≤ F.length := by
    have hlast := hbytes (n - 1) (by omega)
    rw [List.getElem?_eq_getElem (by omega)] at hlast
    have := (List.getElem?_eq_some_iff.1 hlast.symm).1
    omega
  have hslice : slice chunk 0 n = slice F s.offset (s.offset + n) := by
    apply List.ext_getElem?
    intro j
    rw [getElem?_slice, getElem?_slice, Nat.sub_zero, Nat.add_sub_cancel_left, Nat.zero_add]
    by_cases hj : j < n
    · rw [if_pos hj, if_pos hj, hbytes j hj]
    · rw [if_neg hj, if_neg hj]
  have hpre : roundDown cb.offset cb.reqAlign + (slice F (roundDown cb.offset cb.reqAlign) s.offset).length =
      s.offset := by
    rw [length_slice_eq]
    omega
  have happ : rawWrite (rawWrite file (roundDown cb.offset cb.reqAlign) (slice F (roundDown cb.offset cb.reqAlign) s.offset))
      (roundDown cb.offset cb.reqAlign + (slice F (roundDown cb.offset cb.reqAlign) s.offset).length)
      (slice F s.offset (s.offset + n)) =
      rawWrite file (roundDown cb.offset cb.reqAlign)
        (slice F (roundDown cb.offset cb.reqAlign) s.offset ++ slice F s.offset (s.offset + n)) :=
    rawWrite_append _ _
  rw [hpre, slice_append_slice F hstart (Nat.le_add_right _ _)] at happ
  refine ⟨hFlen, ?_⟩
  rw [hslice, hi.written, hF, happ]

/-- A pass of the write loop that goes round again: the tail load and the copy
succeeded, the chunk was written, it was not the last, and the iovecs were
advanced. -/
theorem writeStep_next_eq {c : Chunk} (hc : chunkAt cb bufferLen s.offset = c)
    (h : writeStep cb mem bufferLen needTail s = .next s') :
    ∃ bounce, loadTail cb needTail c s = .ok bounce ∧
      (writeFill cb mem bufferLen s bounce).2 = c.realHigh - c.realOffset ∧
      s.offset + c.nbytes < roundUp (cb.offset + cb.nbytes) cb.reqAlign ∧
      ∃ iovecs, iovDiscardFrontDirect s.iovecs (c.realHigh - c.realOffset) = some iovecs ∧
        s' = ⟨s.offset + c.nbytes, iovecs,
          rawWrite s.file s.offset (slice (writeFill cb mem bufferLen s bounce).1 0 c.nbytes),
          (writeFill cb mem bufferLen s bounce).1⟩ := by
  subst hc
  unfold writeStep at h
  dsimp only at h
  split at h
  · cases h
  · rename_i bounce hload
    split_ifs at h with hcount hend
    split at h
    · rename_i iovecs hdis
      cases h
      exact ⟨bounce, hload, not_not.1 hcount, by omega, iovecs, hdis, rfl⟩
    · cases h

/-- A pass of the write loop that leaves it: the tail load and the copy
succeeded, the chunk was written, and it was the last. -/
theorem writeStep_exit_eq {c : Chunk} (hc : chunkAt cb bufferLen s.offset = c)
    (h : writeStep cb mem bufferLen needTail s = .exit t) :
    ∃ bounce, loadTail cb needTail c s = .ok bounce ∧
      (writeFill cb mem bufferLen s bounce).2 = c.realHigh - c.realOffset ∧
      roundUp (cb.offset + cb.nbytes) cb.reqAlign ≤ s.offset + c.nbytes ∧
      t.file = rawWrite s.file s.offset (slice (writeFill cb mem bufferLen s bounce).1 0 c.nbytes) := by
  subst hc
  unfold writeStep at h
  dsimp only at h
  split at h
  · cases h
  · rename_i bounce hload
    split_ifs at h with hcount hend
    · cases h
      exact ⟨bounce, hload, not_not.1 hcount, hend, rfl⟩
    · split at h <;> cases h

/-- **Step.** A pass of the write loop that goes round again keeps the
invariant: the file gained the target's bytes of this chunk. -/
theorem WriteInv.step (hw : WriteReq cb mem file bufferLen headLoaded needTail)
    (hi : WriteInv cb mem file bufferLen headLoaded s) (h : writeStep cb mem bufferLen needTail s = .next s') :
    WriteInv cb mem file bufferLen headLoaded s' := by
  obtain ⟨bounce, hload, hcount, hlt, iovecs, hdis, rfl⟩ := writeStep_next_eq rfl h
  have hc := chunkOk hw.align_pos hw.dvd_buffer hw.buffer_pos hi.aligned hi.start_le hi.below
  have hnext := hc.below_of_lt hlt
  have hpast := hc.past_offset
  have hra := hc.ra_le
  have hpos := hw.align_pos
  obtain ⟨hlen, hbytes⟩ := hi.chunk_bytes hw hload hcount
  obtain ⟨-, hfile⟩ := hi.written_next (by omega) (by rw [hlen]; exact hc.le_buffer) hbytes
  obtain ⟨-, hin', hrest⟩ := iovDiscardFrontDirect_spec hi.inside hdis
  refine ⟨Nat.dvd_add hi.aligned hc.dvd, ?_, hnext, hlen, hin', ?_, hfile, ?_⟩
  · show roundDown cb.offset cb.reqAlign ≤ s.offset + (chunkAt cb bufferLen s.offset).nbytes
    have := hi.start_le
    omega
  · -- the iovecs moved past this chunk's part of the request
    show iovBytes mem iovecs = (iovBytes mem cb.iovec).drop
      (max (s.offset + (chunkAt cb bufferLen s.offset).nbytes) cb.offset - cb.offset)
    rw [hrest, hi.rest, List.drop_drop]
    simp only [chunkAt_realHigh, chunkAt_realOffset]
    congr 1
    omega
  · -- past the first chunk the head is no longer needed
    intro hstart
    have := hi.start_le
    exact absurd hstart (by dsimp only; omega)

/-- **Exit.** The pass that leaves the write loop wrote the last chunk: the
file is the target. -/
theorem WriteInv.exit (hw : WriteReq cb mem file bufferLen headLoaded needTail)
    (hi : WriteInv cb mem file bufferLen headLoaded s) (h : writeStep cb mem bufferLen needTail s = .exit t) :
    t.file = rawWrite file cb.offset (iovBytes mem cb.iovec) := by
  obtain ⟨bounce, hload, hcount, hge, hfile⟩ := writeStep_exit_eq rfl h
  have hc := chunkOk hw.align_pos hw.dvd_buffer hw.buffer_pos hi.aligned hi.start_le hi.below
  have hhigh : cb.offset + cb.nbytes ≤ roundUp (cb.offset + cb.nbytes) cb.reqAlign := le_roundUp
  have hra := hc.ra_le
  have hpos := hw.align_pos
  obtain ⟨hlen, hbytes⟩ := hi.chunk_bytes hw hload hcount
  obtain ⟨-, hwritten⟩ := hi.written_next (by omega) (by rw [hlen]; exact hc.le_buffer) hbytes
  rw [hfile, hwritten, rawWrite_slice_of_le hw.data_ne_nil roundDown_le (by rw [hw.length_data]; omega)]

/-- **The write loop.** From the invariant, a run of the `Pwritev` loop that
ends normally leaves the file as the target. -/
theorem writeLoop_exit {b : Bounce} (hw : WriteReq cb mem file b.bytes.length headLoaded needTail)
    (hi : WriteInv cb mem file b.bytes.length headLoaded s)
    (h : (writeLoop cb mem b needTail).run s = .exit t) :
    t.file = rawWrite file cb.offset (iovBytes mem cb.iovec) := by
  obtain ⟨_, u, hu, hbody, -⟩ :=
    Loop.run_exit_of_inv (fun _ s => WriteInv cb mem file b.bytes.length headLoaded s)
      (fun _ _ _ hs hb => hs.step hw hb) s [] t hi h
  exact hu.exit hw hbody

end WriteLoop

/-- The head load: it happens exactly when the request starts inside a
section, needs the whole section in the file, and puts it at the start of the
bounce buffer. -/
theorem loadHead_ok {cb : AioCb} {file bounce bounce' : List UInt8} {headLoaded : Bool}
    (hpos : 0 < cb.reqAlign) (hra : cb.reqAlign ≤ bounce.length)
    (h : loadHead cb file bounce = .ok (bounce', headLoaded)) :
    bounce'.length = bounce.length ∧
      (headLoaded = true ↔ roundDown cb.offset cb.reqAlign < cb.offset) ∧
      (headLoaded = true → roundDown cb.offset cb.reqAlign + cb.reqAlign ≤ file.length ∧
        ∀ j < cb.reqAlign, bounce'[j]? = file[roundDown cb.offset cb.reqAlign + j]?) := by
  unfold loadHead at h
  dsimp only at h
  by_cases hin : cb.offset > roundDown cb.offset cb.reqAlign
  · rw [if_pos hin] at h
    by_cases hlen : (rawRead file cb.reqAlign (roundDown cb.offset cb.reqAlign)).length = cb.reqAlign
    · rw [if_neg (not_not.2 hlen)] at h
      cases h
      have hfit : 0 + (rawRead file cb.reqAlign (roundDown cb.offset cb.reqAlign)).length ≤ bounce.length := by
        rw [hlen]
        omega
      refine ⟨length_spliceAt hfit, ⟨fun _ => hin, fun _ => rfl⟩, fun _ => ⟨?_, fun j hj => ?_⟩⟩
      · rw [rawRead, length_slice_eq] at hlen
        omega
      · -- the section read from the file sits at the start of the buffer
        rw [getElem?_spliceAt hfit, hlen, if_pos ⟨Nat.zero_le _, by omega⟩, Nat.sub_zero, rawRead,
          getElem?_slice, if_pos (by omega)]
    · rw [if_pos hlen] at h
      cases h
  · rw [if_neg hin] at h
    cases h
    exact ⟨rfl, ⟨fun h => absurd h (by decide), fun h => absurd h hin⟩, fun h => absurd h (by decide)⟩

/-- The write loop's invariant holds where it starts, with the buffer the head
load left. -/
theorem writeInv_init {cb : AioCb} {mem file bounce : List UInt8} {bufferLen : Nat} {headLoaded needTail : Bool}
    (hw : WriteReq cb mem file bufferLen headLoaded needTail) (hb : bounce.length = bufferLen)
    (hhead : headLoaded = true → ∀ j < cb.reqAlign, bounce[j]? = file[roundDown cb.offset cb.reqAlign + j]?) :
    WriteInv cb mem file bufferLen headLoaded ⟨roundDown cb.offset cb.reqAlign, cb.iovec, file, bounce⟩ := by
  have hdown : roundDown cb.offset cb.reqAlign ≤ cb.offset := roundDown_le
  have hn := hw.nbytes_pos
  refine ⟨dvd_roundDown, le_refl _, ?_, hb, hw.inside, ?_, ?_, fun _ => hhead⟩
  · show roundDown cb.offset cb.reqAlign < cb.offset + cb.nbytes
    omega
  · show iovBytes mem cb.iovec = (iovBytes mem cb.iovec).drop (max (roundDown cb.offset cb.reqAlign) cb.offset - cb.offset)
    rw [Nat.max_eq_right hdown, Nat.sub_self, List.drop_zero]
  · show file = rawWrite file _ (slice _ (roundDown cb.offset cb.reqAlign) (roundDown cb.offset cb.reqAlign))
    rw [slice, Nat.sub_self, List.take_zero, rawWrite_nil]

/-- **`Pwritev`.** A misaligned write that succeeds leaves the file as the old
one with the iovecs' bytes at `offset`; memory is untouched. -/
theorem handleMisalignedRw_pwritev {cb : AioCb} {b : Bounce} {w w' : World} (hra : 0 < cb.reqAlign)
    (hbuf : cb.reqAlign ∣ b.bytes.length) (hn : 0 < cb.nbytes) (hin : Inside w.mem cb.iovec)
    (htotal : iovTotal cb.iovec = cb.nbytes) (hop : cb.opcode = .pwritev)
    (h : handleMisalignedRw cb b w = .ok w') :
    w'.mem = w.mem ∧ w'.file = rawWrite w.file cb.offset (iovBytes w.mem cb.iovec) := by
  unfold handleMisalignedRw at h
  rw [hop] at h
  dsimp only at h
  split at h
  · cases h
  · rename_i bounce headLoaded hhead
    split at h
    · rename_i s hrun
      cases h
      obtain ⟨hlen, hiff, hloaded⟩ := loadHead_ok hra (Nat.le_of_dvd b.len_pos hbuf) hhead
      -- what `same_section` and `need_tail` decide, as the loop relies on it
      have hw : WriteReq cb w.mem w.file b.bytes.length headLoaded
          (!(decide (roundDown cb.offset cb.reqAlign + cb.reqAlign ≥ cb.offset + cb.nbytes) && headLoaded) &&
            decide (roundUp (cb.offset + cb.nbytes) cb.reqAlign > cb.offset + cb.nbytes)) :=
        ⟨hra, hbuf, b.len_pos, hn, hin, htotal, hiff, fun hl => (hloaded hl).1, by cases headLoaded <;> simp⟩
      exact ⟨rfl, writeLoop_exit hw (writeInv_init hw hlen fun hl => (hloaded hl).2) hrun⟩
    · cases h

/-- The bounce buffer `submit_request` allocates is a positive multiple of the
alignment, for an alignment that is a power of two of at most 1 MiB. -/
theorem bounceLen_dvd {cb : AioCb} (hpow : cb.reqAlign.isPowerOfTwo) (hmax : cb.reqAlign ≤ MAX_LEN_BOUNCE_BUFF) :
    cb.reqAlign ∣ bounceLen cb ∧ 0 < bounceLen cb := by
  obtain ⟨k, hk⟩ := hpow
  have hpos : 0 < cb.reqAlign := by
    rw [hk]
    exact Nat.two_pow_pos k
  have hcap : MAX_LEN_BOUNCE_BUFF = 2 ^ 20 := rfl
  -- 1 MiB is itself a multiple of any smaller power of two
  have hk20 : k ≤ 20 := by
    rw [hcap, hk] at hmax
    exact (Nat.pow_le_pow_iff_right (by decide)).1 hmax
  have hdcap : cb.reqAlign ∣ MAX_LEN_BOUNCE_BUFF := by
    rw [hcap, hk]
    exact Nat.pow_dvd_pow 2 hk20
  have hdown : cb.nbytes + cb.reqAlign * 2 < roundDown (cb.nbytes + cb.reqAlign * 2) cb.reqAlign + cb.reqAlign :=
    lt_roundDown_add hpos
  unfold bounceLen
  refine ⟨?_, ?_⟩
  · rcases Nat.le_total (roundDown (cb.nbytes + cb.reqAlign * 2) cb.reqAlign) MAX_LEN_BOUNCE_BUFF with h | h
    · rw [Nat.min_eq_left h]
      exact dvd_roundDown
    · rw [Nat.min_eq_right h]
      exact hdcap
  · rw [hcap]
    omega

/-- **Misaligned direct I/O.** For a request whose alignment is a power of two
of at most 1 MiB, with a bounce buffer of the size `submit_request` allocates
and whatever bytes `memalign` left in it, a positive length and iovecs inside
memory that hold exactly that length: a `Preadv` that succeeds read the file's
bytes `[offset, offset + nbytes)`, which it has, into the iovecs in order; a
`Pwritev` that succeeds leaves the file as the old one with those bytes
replaced by the iovecs', so every old byte outside them, in the head and tail
sections around them or further away, is kept. -/
theorem handleMisalignedRw_correct {cb : AioCb} {b : Bounce} {w w' : World}
    (hpow : cb.reqAlign.isPowerOfTwo) (hmax : cb.reqAlign ≤ MAX_LEN_BOUNCE_BUFF)
    (hb : b.bytes.length = bounceLen cb) (hn : 0 < cb.nbytes) (htotal : iovTotal cb.iovec = cb.nbytes)
    (hin : Inside w.mem cb.iovec) (h : handleMisalignedRw cb b w = .ok w') :
    (cb.opcode = .preadv → cb.offset + cb.nbytes ≤ w.file.length ∧ w'.file = w.file ∧
        w'.mem = scatter w.mem cb.iovec (slice w.file cb.offset (cb.offset + cb.nbytes))) ∧
      (cb.opcode = .pwritev → w'.mem = w.mem ∧
        w'.file = rawWrite w.file cb.offset (iovBytes w.mem cb.iovec) ∧
        ∀ i < w.file.length, (i < cb.offset ∨ cb.offset + cb.nbytes ≤ i) → w'.file[i]? = w.file[i]?) := by
  obtain ⟨hdvd, -⟩ := bounceLen_dvd hpow hmax
  have hra : 0 < cb.reqAlign := Nat.pos_of_isPowerOfTwo hpow
  rw [← hb] at hdvd
  refine ⟨fun hop => handleMisalignedRw_preadv hra hdvd hn hin htotal hop h, fun hop => ?_⟩
  obtain ⟨hmem, hfile⟩ := handleMisalignedRw_pwritev hra hdvd hn hin htotal hop h
  refine ⟨hmem, hfile, fun i hi hout => ?_⟩
  have hne : iovBytes w.mem cb.iovec ≠ [] :=
    List.ne_nil_of_length_pos (by rw [length_iovBytes hin, htotal]; exact hn)
  rw [hfile, getElem?_rawWrite hne, length_iovBytes hin, htotal, if_neg (by omega), if_pos hi]

/-- A one-byte read at offset 1 with two-byte alignment: the first chunk reads
`[0, 2)` and copies the byte at 1. -/
theorem handleMisalignedRw_read_one_byte :
    handleMisalignedRw ⟨true, 2, 2, 1, 1, [⟨0, 1⟩], .preadv⟩ ⟨[0, 0, 0, 0], by decide⟩ ⟨[1, 2, 3, 4], [0]⟩ =
        .ok ⟨[1, 2, 3, 4], [2]⟩ ∧
      ([2] : List UInt8) = scatter [0] [⟨0, 1⟩] (slice [1, 2, 3, 4] 1 (1 + 1)) := by
  have hbody : (readLoop ⟨true, 2, 2, 1, 1, [⟨0, 1⟩], .preadv⟩ [1, 2, 3, 4] ⟨[0, 0, 0, 0], by decide⟩).body
      ⟨roundDown 1 2, [⟨0, 1⟩], [0], [0, 0, 0, 0]⟩ = .exit ⟨2, [⟨0, 1⟩], [2], [1, 2, 0, 0]⟩ := rfl
  have hrun : handleMisalignedRw ⟨true, 2, 2, 1, 1, [⟨0, 1⟩], .preadv⟩ ⟨[0, 0, 0, 0], by decide⟩
      ⟨[1, 2, 3, 4], [0]⟩ = .ok ⟨[1, 2, 3, 4], [2]⟩ := by
    unfold handleMisalignedRw
    dsimp only
    rw [Loop.run_of_exit hbody]
  have hin : Inside [0] [⟨0, 1⟩] := by
    intro iov hiov
    rw [List.mem_singleton] at hiov
    subst hiov
    decide
  exact ⟨hrun, ((@handleMisalignedRw_correct ⟨true, 2, 2, 1, 1, [⟨0, 1⟩], .preadv⟩ ⟨[0, 0, 0, 0], by decide⟩
    ⟨[1, 2, 3, 4], [0]⟩ ⟨[1, 2, 3, 4], [2]⟩ ⟨1, rfl⟩ (by decide) rfl (by decide) rfl hin hrun).1 rfl).2.2⟩

end StratoVirt.Util
