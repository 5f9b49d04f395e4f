import Mathlib
import StratoVirt.Qcow2.Cache

/-!
# A table cache and the file behind it

A `Qcow2Cache` holds tables read from the image file and changed in memory.
What the next access reads for a key is the cached table, or the key's
cluster in the file when the key is not cached (`cacheView`). Eviction must
not change that: `lru_replace` drops the least recently used table from the
map, and only the owner's write-back of the victim puts its changes into the
file.

That this is right rests on an invariant (`Coherent`): every cached table
sits at its key's address, inside the file, and agrees with the file outside
its dirty range (`Backed`); and the keys' clusters are aligned and distinct
(`Apart`), so a write-back of one table touches no other. Each thing the code
does to the cache keeps the invariant, and what it does to the view is:

* stamping LRU counts and `get` change nothing (`Coherent.restamp`,
  `Coherent.get`);
* a new handle changes nothing (`Coherent.alloc`);
* `lru_replace` of a table just read changes nothing but the victim's view
  (`Coherent.lruReplace`);
* writing the victim back gives it its view again
  (`Coherent.writeBackVictim`);
* writing entries of a cached table changes its view only
  (`Coherent.update`);
* writing a cached table back changes nothing (`Coherent.writeBackCached`),
  so a flush that succeeds changes nothing and leaves every cached table
  clean, each key then reading what the file holds (`Coherent.flush`,
  `cacheView_of_clean`).

The flush writes the tables on the dirty queue. That it misses no change
rests on a second invariant (`QueueExact`): a dirty cached table is queued,
and a dirty queued table is cached, but for the victim `lru_replace` has just
given up and its owner has not yet written back.

Clusters are `n` bytes, whole sectors, with `n < 2^64`; tables have entries
of `w` bytes.
-/

namespace StratoVirt.Qcow2

open StratoVirt.Lib StratoVirt.Util StratoVirt.AddressSpace

/-! ## Clusters -/

/-- Two aligned clusters at different addresses do not meet. -/
theorem not_mem_cluster_of_ne {n k k' i : Nat} (hk : k % n = 0) (hk' : k' % n = 0) (hne : k ≠ k')
    (hi : k ≤ i ∧ i < k + n) : ¬(k' ≤ i ∧ i < k' + n) := by
  intro hi'
  have hdk : n * (k / n) = k := Nat.mul_div_cancel' (Nat.dvd_of_mod_eq_zero hk)
  have hdk' : n * (k' / n) = k' := Nat.mul_div_cancel' (Nat.dvd_of_mod_eq_zero hk')
  -- both clusters would be the one `i` lies in
  have hq : i / n = k / n :=
    Nat.div_eq_of_lt_le (by rw [Nat.mul_comm, hdk]; exact hi.1)
      (by rw [Nat.succ_mul, Nat.mul_comm, hdk]; exact hi.2)
  have hq' : i / n = k' / n :=
    Nat.div_eq_of_lt_le (by rw [Nat.mul_comm, hdk']; exact hi'.1)
      (by rw [Nat.succ_mul, Nat.mul_comm, hdk']; exact hi'.2)
  apply hne
  rw [← hdk, ← hdk', ← hq, ← hq']

/-- A rounding up to the alignment stays below a multiple of it. -/
theorem roundUp_le_of_dvd {a e m : Nat} (ha : 0 < a) (he : e ≤ m) (hm : a ∣ m) : roundUp e a ≤ m := by
  by_contra hlt
  have hstep := add_le_of_dvd_of_lt hm (dvd_roundUp ha) (Nat.lt_of_not_le hlt)
  have hround : roundUp e a < e + a := roundUp_lt_add ha
  omega

/-- `write_buffer` inside the file is a copy into it. -/
theorem rawWrite_eq_spliceAt {file data : List UInt8} {offset : Nat}
    (h : offset + data.length ≤ file.length) : rawWrite file offset data = spliceAt file offset data := by
  unfold rawWrite
  split
  · subst_vars
    rw [spliceAt_nil]
  · rw [show offset + data.length - file.length = 0 by omega, List.replicate_zero, List.append_nil]

/-- A read of a file that holds the same bytes there. -/
theorem readBuffer_congr {img img' : List UInt8} {a n : Nat} (hlen : img'.length = img.length)
    (hsame : ∀ i, a ≤ i → i < a + n → img'[i]? = img[i]?) : readBuffer img' a n = readBuffer img a n := by
  unfold readBuffer
  rw [hlen]
  split
  · congr 1
    apply List.ext_getElem?
    intro j
    rw [getElem?_slice, getElem?_slice]
    split
    · exact hsame (a + j) (by omega) (by omega)
    · rfl
  · rfl

/-! ## Tables backed by the file -/

/-- Byte `j` of table `t` is in its dirty range. -/
def DirtyAt (t : CacheTable) (j : Nat) : Prop :=
  t.dirtyInfo.isDirty = true ∧ t.dirtyInfo.start ≤ j ∧ j < t.dirtyInfo.«end»

/-- Table `t`, cached under `key`, as the file `img` backs it: the `n` bytes
of `w`-byte entries at the key's address, inside the file, agreeing with the
file outside its dirty range, which ends in the table. -/
structure Backed (n w : Nat) (addrOf : Nat → Option Nat) (img : List UInt8) (key : Nat)
    (t : CacheTable) : Prop where
  addr : addrOf key = some t.addr
  entrySize : t.entrySize = w
  length : t.tableData.length = n
  inFile : t.addr + n ≤ img.length
  endLe : t.dirtyInfo.«end» ≤ n
  startLe : t.dirtyInfo.isDirty = true → t.dirtyInfo.start ≤ t.dirtyInfo.«end»
  agree : ∀ j < n, ¬DirtyAt t j → t.tableData[j]? = img[t.addr + j]?

/-- The keys that have an address sit at distinct aligned clusters. -/
structure Apart (n : Nat) (addrOf : Nat → Option Nat) : Prop where
  aligned : ∀ k a, addrOf k = some a → a % n = 0
  inj : ∀ k k' a, addrOf k = some a → addrOf k' = some a → k = k'

/-- The file after a table is written back: the table's bytes in its
cluster, the old file elsewhere. -/
structure WrittenBack (n : Nat) (img img' : List UInt8) (t : CacheTable) : Prop where
  length : img'.length = img.length
  cluster : ∀ j < n, img'[t.addr + j]? = t.tableData[j]?
  outside : ∀ i, ¬(t.addr ≤ i ∧ i < t.addr + n) → img'[i]? = img[i]?

section Backed

variable {n w : Nat} {addrOf : Nat → Option Nat} {img : List UInt8} {key : Nat} {t : CacheTable}

/-- The clusters of two keys do not meet. -/
theorem Apart.disjoint (hap : Apart n addrOf) {k k' a a' : Nat} (ha : addrOf k = some a)
    (ha' : addrOf k' = some a') (hne : k ≠ k') {i : Nat} (hi : a ≤ i ∧ i < a + n) :
    ¬(a' ≤ i ∧ i < a' + n) :=
  not_mem_cluster_of_ne (hap.aligned k a ha) (hap.aligned k' a' ha')
    (fun h => hne (hap.inj k k' a ha (h ▸ ha'))) hi

theorem Backed.sameTable (hb : Backed n w addrOf img key t) {t' : CacheTable} (hs : SameTable t' t) :
    Backed n w addrOf img key t' where
  addr := hs.addr ▸ hb.addr
  entrySize := hs.entrySize ▸ hb.entrySize
  length := hs.tableData ▸ hb.length
  inFile := hs.addr ▸ hb.inFile
  endLe := hs.dirtyInfo ▸ hb.endLe
  startLe := hs.dirtyInfo ▸ hb.startLe
  agree := by
    intro j hj hd
    have hd' : ¬DirtyAt t j := by unfold DirtyAt at hd ⊢; rwa [hs.dirtyInfo] at hd
    rw [hs.tableData, hs.addr]
    exact hb.agree j hj hd'

/-- A table stays backed by a file changed only outside its cluster. -/
theorem Backed.of_outside (hb : Backed n w addrOf img key t) {img' : List UInt8}
    (hlen : img'.length = img.length)
    (hout : ∀ i, t.addr ≤ i → i < t.addr + n → img'[i]? = img[i]?) : Backed n w addrOf img' key t where
  addr := hb.addr
  entrySize := hb.entrySize
  length := hb.length
  inFile := hlen ▸ hb.inFile
  endLe := hb.endLe
  startLe := hb.startLe
  agree := fun j hj hd => by
    rw [hout (t.addr + j) (by omega) (by omega)]
    exact hb.agree j hj hd

/-- The view of the file at a table's cluster is the table's bytes when the
file holds them there. -/
theorem readBuffer_of_cluster (hlen : t.tableData.length = n) (hin : t.addr + n ≤ img.length)
    (hc : ∀ j < n, img[t.addr + j]? = t.tableData[j]?) : readBuffer img t.addr n = .ok t.tableData := by
  unfold readBuffer
  rw [if_pos hin]
  congr 1
  apply List.ext_getElem?
  intro j
  rw [getElem?_slice, Nat.add_sub_cancel_left]
  split
  · exact hc j ‹_›
  · rw [List.getElem?_eq_none (by omega)]

/-- A table just read from the file at the key's address is backed by it. -/
theorem Backed.of_read {a cnt : Nat} {d : List UInt8} (ha : addrOf key = some a)
    (hread : readBuffer img a n = .ok d) : Backed n w addrOf img key ⟨DirtyInfo.default, cnt, a, w, d⟩ := by
  unfold readBuffer at hread
  split at hread
  · rename_i hin
    injection hread with hd
    subst hd
    refine ⟨ha, rfl, ?_, hin, Nat.zero_le n, (fun h => nomatch h), fun j hj _ => ?_⟩
    · rw [length_slice hin, Nat.add_sub_cancel_left]
    · rw [getElem?_slice, if_pos (by omega)]
  · cases hread

/-- A clean table is the file's bytes at its address. -/
theorem Backed.readBuffer_of_clean (hb : Backed n w addrOf img key t)
    (hc : t.dirtyInfo.isDirty = false) : readBuffer img t.addr n = .ok t.tableData := by
  refine readBuffer_of_cluster hb.length hb.inFile fun j hj => (hb.agree j hj ?_).symm
  intro hd
  rw [hd.1] at hc
  cases hc

/-- A clean table needs no write: the file already holds it. -/
theorem Backed.writtenBack_clean (hb : Backed n w addrOf img key t) (hc : t.dirtyInfo.isDirty = false) :
    WrittenBack n img img t :=
  ⟨rfl, fun j hj => (hb.agree j hj fun hd => by rw [hd.1] at hc; cases hc).symm, fun _ _ => rfl⟩

/-- The sectors `write_dirty_info` writes of a table lie in its cluster. -/
theorem Backed.roundUp_le (hb : Backed n w addrOf img key t) (hsec : DEFAULT_SECTOR_SIZE ∣ n) :
    roundUp t.dirtyInfo.«end» DEFAULT_SECTOR_SIZE ≤ n :=
  roundUp_le_of_dvd (by decide) hb.endLe hsec

/-- **A write-back that succeeds** leaves the table's bytes in its cluster and
the file elsewhere as it was: the sectors written hold the table's bytes, and
outside them the table agrees with the file. -/
theorem Backed.writtenBack (hb : Backed n w addrOf img key t) (hsec : DEFAULT_SECTOR_SIZE ∣ n)
    {io : BlockIo} (hio : io.Writes) {img' : List UInt8} (hw : writeBack io img t = .ok img') :
    WrittenBack n img img' t := by
  have hup := hb.roundUp_le hsec
  have hdown : roundDown t.dirtyInfo.start DEFAULT_SECTOR_SIZE ≤ t.dirtyInfo.start := roundDown_le
  have hle : t.dirtyInfo.«end» ≤ roundUp t.dirtyInfo.«end» DEFAULT_SECTOR_SIZE := le_roundUp
  have hlen := hb.length
  have hin := hb.inFile
  unfold writeBack writeDirtyInfo at hw
  dsimp only at hw
  split at hw
  · cases hw
  split at hw
  · cases hw
  split at hw
  · cases hw
  rename_i hse _
  -- the sectors from `s` to `e`, copied into the file at the table's place
  have hslen : (slice t.tableData (roundDown t.dirtyInfo.start DEFAULT_SECTOR_SIZE)
      (roundUp t.dirtyInfo.«end» DEFAULT_SECTOR_SIZE)).length =
      roundUp t.dirtyInfo.«end» DEFAULT_SECTOR_SIZE - roundDown t.dirtyInfo.start DEFAULT_SECTOR_SIZE :=
    length_slice (by omega)
  have hfit : t.addr + roundDown t.dirtyInfo.start DEFAULT_SECTOR_SIZE + (slice t.tableData
      (roundDown t.dirtyInfo.start DEFAULT_SECTOR_SIZE) (roundUp t.dirtyInfo.«end» DEFAULT_SECTOR_SIZE)).length
      ≤ img.length := by
    omega
  rw [hio _ _ _ _ hw, rawWrite_eq_spliceAt hfit]
  refine ⟨length_spliceAt hfit, fun j hj => ?_, fun i hi => ?_⟩
  · rw [getElem?_spliceAt hfit]
    split
    · -- a byte of the sectors written
      rw [getElem?_slice, if_pos (by omega)]
      congr 1
      omega
    · -- a byte outside them, where the table agrees with the file
      refine (hb.agree j hj fun hd => ?_).symm
      have := hd.2
      omega
  · rw [getElem?_spliceAt hfit, if_neg (by omega)]

/-- A table's write-back leaves the clusters of the other keys as they
were. -/
theorem WrittenBack.of_ne {img' : List UInt8} (hwb : WrittenBack n img img' t) (hap : Apart n addrOf)
    (hk : addrOf key = some t.addr) {k' a : Nat} (hne : k' ≠ key) (ha : addrOf k' = some a) :
    ∀ i, a ≤ i → i < a + n → img'[i]? = img[i]? :=
  fun i hi1 hi2 => hwb.outside i (hap.disjoint ha hk hne ⟨hi1, hi2⟩)

/-- **A write-back cannot fail on a host whose writes succeed**: the table's
dirty range lies in its cluster, which is below `u64::MAX`. -/
theorem Backed.writeBack_ok (hb : Backed n w addrOf img key t) (hsec : DEFAULT_SECTOR_SIZE ∣ n)
    (hn : n < U64_MOD) {io : BlockIo} (hio : io.Reliable) (hd : t.dirtyInfo.isDirty = true) :
    ∃ img', writeBack io img t = .ok img' := by
  have hup := hb.roundUp_le hsec
  have hse := hb.startLe hd
  have hdown : roundDown t.dirtyInfo.start DEFAULT_SECTOR_SIZE ≤ t.dirtyInfo.start := roundDown_le
  have hle : t.dirtyInfo.«end» ≤ roundUp t.dirtyInfo.«end» DEFAULT_SECTOR_SIZE := le_roundUp
  have hlen := hb.length
  unfold writeBack writeDirtyInfo
  dsimp only
  rw [if_neg (by omega), if_neg (by omega), if_neg (by omega), hio]
  exact ⟨_, rfl⟩

end Backed

/-! ## The invariant -/

/-- **The cache is coherent with the file**: one handle per key, handed out
and stamped no later than the cache's count, each table backed by the file. -/
structure Coherent (n w : Nat) (addrOf : Nat → Option Nat) (c : Qcow2Cache) (h : TableHeap)
    (img : List UInt8) : Prop where
  keysNodup : (c.cacheMap.map Prod.fst).Nodup
  fresh : ∀ e ∈ c.cacheMap, e.2 < h.next
  lru : c.LruBound h
  backed : ∀ e ∈ c.cacheMap, Backed n w addrOf img e.1 (h.get e.2)

/-- What the next access reads for `key`: its cached table, or the `n`
bytes at its address in the file. -/
def cacheView (n : Nat) (addrOf : Nat → Option Nat) (c : Qcow2Cache) (h : TableHeap) (img : List UInt8)
    (key : Nat) : Option (List UInt8) :=
  match c.cacheMap.lookup key with
  | some r => some (h.get r).tableData
  | none => (addrOf key).bind fun a => (readBuffer img a n).toOption

section Events

variable {n w : Nat} {addrOf : Nat → Option Nat} {c : Qcow2Cache} {h : TableHeap} {img : List UInt8}

/-- An empty cache is coherent with any file. -/
theorem Coherent.empty (hmap : c.cacheMap = []) : Coherent n w addrOf c h img := by
  refine ⟨?_, ?_, ?_, ?_⟩ <;> simp [hmap, Qcow2Cache.LruBound]

theorem Coherent.lookup (hinv : Coherent n w addrOf c h img) {e : Nat × Nat} (he : e ∈ c.cacheMap) :
    c.cacheMap.lookup e.1 = some e.2 :=
  lookup_eq_some_of_mem hinv.keysNodup he

/-- Two keys cached under one handle are one key: the handle's table sits at
both keys' address. -/
theorem Coherent.handle_inj (hinv : Coherent n w addrOf c h img) (hap : Apart n addrOf)
    {e e' : Nat × Nat} (he : e ∈ c.cacheMap) (he' : e' ∈ c.cacheMap) (hr : e.2 = e'.2) : e.1 = e'.1 :=
  hap.inj e.1 e'.1 _ (hinv.backed e he).addr (hr ▸ (hinv.backed e' he').addr)

theorem cacheView_of_mem (hinv : Coherent n w addrOf c h img) {e : Nat × Nat} (he : e ∈ c.cacheMap) :
    cacheView n addrOf c h img e.1 = some (h.get e.2).tableData := by
  unfold cacheView
  rw [hinv.lookup he]

theorem cacheView_of_not_mem {key : Nat} (hk : key ∉ c.cacheMap.map Prod.fst) :
    cacheView n addrOf c h img key = (addrOf key).bind fun a => (readBuffer img a n).toOption := by
  unfold cacheView
  rw [(lookup_eq_none_iff_not_mem).2 hk]

/-- **Stamps.** New LRU counts keep the invariant, when the cache's count
still bounds them, and change no view. -/
theorem Coherent.restamp (hinv : Coherent n w addrOf c h img) {c' : Qcow2Cache} {h' : TableHeap}
    (hre : Restamped h h') (hmap : c'.cacheMap = c.cacheMap) (hlru : c'.LruBound h') :
    Coherent n w addrOf c' h' img where
  keysNodup := hmap ▸ hinv.keysNodup
  fresh := fun e he => hre.next ▸ hinv.fresh e (hmap ▸ he)
  lru := hlru
  backed := fun e he => (hinv.backed e (hmap ▸ he)).sameTable (hre.same e.2)

theorem cacheView_restamp {c' : Qcow2Cache} {h' : TableHeap} (hre : Restamped h h')
    (hmap : c'.cacheMap = c.cacheMap) : cacheView n addrOf c' h' img = cacheView n addrOf c h img := by
  funext key
  unfold cacheView
  rw [hmap]
  split
  · rw [(hre.same _).tableData]
  · rfl

/-- **`get`** keeps the invariant and every view. -/
theorem Coherent.get (hinv : Coherent n w addrOf c h img) (key : Nat) :
    Coherent n w addrOf (c.get h key).2.1 (c.get h key).2.2 img ∧
      cacheView n addrOf (c.get h key).2.1 (c.get h key).2.2 img = cacheView n addrOf c h img := by
  obtain ⟨-, hmap, -, -, hre, hlru⟩ := Qcow2Cache.get_spec hinv.lru key
  exact ⟨hinv.restamp hre hmap hlru, cacheView_restamp hre hmap⟩

/-- **A new handle** keeps the invariant and every view: the cached handles
are older. -/
theorem Coherent.alloc (hinv : Coherent n w addrOf c h img) (t : CacheTable) :
    Coherent n w addrOf c (h.alloc t).2 img ∧
      cacheView n addrOf c (h.alloc t).2 img = cacheView n addrOf c h img := by
  have hold : ∀ e ∈ c.cacheMap, (h.alloc t).2.get e.2 = h.get e.2 := fun e he =>
    TableHeap.get_alloc_of_ne _ _ (Nat.ne_of_lt (hinv.fresh e he))
  refine ⟨⟨hinv.keysNodup, fun e he => ?_, fun e he => ?_, fun e he => ?_⟩, ?_⟩
  · rw [TableHeap.next_alloc]
    exact Nat.lt_succ_of_lt (hinv.fresh e he)
  · rw [hold e he]
    exact hinv.lru e he
  · rw [hold e he]
    exact hinv.backed e he
  · funext key
    unfold cacheView
    split
    · rename_i r hr
      rw [hold (key, r) (mem_of_lookup_eq_some hr)]
    · rfl

/-- **Caching a table just read.** `lru_replace` of a clean table backed by
the file, under a key not cached, keeps the invariant and the view of every
key but the victim's; the victim's table is backed by the file still. -/
theorem Coherent.lruReplace (hinv : Coherent n w addrOf c h img) (hap : Apart n addrOf) {key r : Nat}
    (hkey : key ∉ c.cacheMap.map Prod.fst) (hr : r < h.next) (hnew : ∀ e ∈ c.cacheMap, e.2 ≠ r)
    (hb : Backed n w addrOf img key (h.get r)) (hclean : (h.get r).dirtyInfo.isDirty = false) :
    Coherent n w addrOf (c.lruReplace h key r).2.1 (c.lruReplace h key r).2.2 img ∧
      (c.lruReplace h key r).2.1.dirtyTables = c.dirtyTables ∧
      (key, r) ∈ (c.lruReplace h key r).2.1.cacheMap ∧
      (((c.lruReplace h key r).1 = none ∧
          cacheView n addrOf (c.lruReplace h key r).2.1 (c.lruReplace h key r).2.2 img =
            cacheView n addrOf c h img) ∨
        ∃ v rv, (v, rv) ∈ c.cacheMap ∧ (c.lruReplace h key r).1 = some rv ∧
          (∀ e ∈ (c.lruReplace h key r).2.1.cacheMap, e.1 ≠ v ∧ e.2 ≠ rv) ∧
          Backed n w addrOf img v ((c.lruReplace h key r).2.2.get rv) ∧
          cacheView n addrOf c h img v = some ((c.lruReplace h key r).2.2.get rv).tableData ∧
          ∀ k ≠ v, cacheView n addrOf (c.lruReplace h key r).2.1 (c.lruReplace h key r).2.2 img k =
            cacheView n addrOf c h img k) := by
  obtain ⟨hre, hq, hmem, hlru, hmap⟩ := Qcow2Cache.lruReplace_spec hinv.lru hkey r
  -- the table read is the view of its key before
  have hread : cacheView n addrOf c h img key = some (h.get r).tableData := by
    rw [cacheView_of_not_mem hkey, hb.addr, Option.bind_some, hb.readBuffer_of_clean hclean]
    rfl
  -- a map of old entries with the new one last
  have hcoh : ∀ m : List (Nat × Nat), (∀ e ∈ m, e ∈ c.cacheMap) → (m.map Prod.fst).Nodup →
      (c.lruReplace h key r).2.1.cacheMap = m ++ [(key, r)] →
      Coherent n w addrOf (c.lruReplace h key r).2.1 (c.lruReplace h key r).2.2 img := by
    intro m hm hnd hmap'
    have hkey' : key ∉ m.map Prod.fst := fun hk => by
      obtain ⟨p, hp, hpk⟩ := List.mem_map.1 hk
      exact hkey (hpk ▸ List.mem_map_of_mem (hm p hp))
    refine ⟨hmap' ▸ nodup_append_singleton hnd hkey' r, fun e he => ?_, hlru, fun e he => ?_⟩
    · rw [hre.next]
      rw [hmap'] at he
      rcases List.mem_append.1 he with he | he
      · exact hinv.fresh e (hm e he)
      · rw [List.mem_singleton.1 he]
        exact hr
    · rw [hmap'] at he
      rcases List.mem_append.1 he with he | he
      · exact (hinv.backed e (hm e he)).sameTable (hre.same e.2)
      · rw [List.mem_singleton.1 he]
        exact hb.sameTable (hre.same r)
  -- the new key reads its table, the old ones what they read
  have hview : ∀ m : List (Nat × Nat), (∀ e ∈ m, e ∈ c.cacheMap) →
      (c.lruReplace h key r).2.1.cacheMap = m ++ [(key, r)] → ∀ k, m.lookup k = c.cacheMap.lookup k →
      cacheView n addrOf (c.lruReplace h key r).2.1 (c.lruReplace h key r).2.2 img k =
        cacheView n addrOf c h img k := by
    intro m hm hmap' k hk
    have hkey' : key ∉ m.map Prod.fst := fun hkm => by
      obtain ⟨p, hp, hpk⟩ := List.mem_map.1 hkm
      exact hkey (hpk ▸ List.mem_map_of_mem (hm p hp))
    by_cases hkk : k = key
    · subst hkk
      rw [hread]
      unfold cacheView
      rw [hmap', lookup_append_singleton hkey', if_pos rfl]
      dsimp only
      rw [(hre.same r).tableData]
    · unfold cacheView
      rw [hmap', lookup_append_singleton hkey', if_neg hkk, hk]
      split
      · rw [(hre.same _).tableData]
      · rfl
  refine ⟨?_, hq, hmem, ?_⟩
  · rcases hmap with ⟨-, hmap⟩ | ⟨v, rv, -, -, hmap⟩
    · exact hcoh c.cacheMap (fun _ => id) hinv.keysNodup hmap
    · exact hcoh (mapRemove c.cacheMap v) (fun e he => (mem_mapRemove.1 he).1)
        (nodup_mapRemove hinv.keysNodup) hmap
  · rcases hmap with ⟨hnone, hmap⟩ | ⟨v, rv, hv, hsome, hmap⟩
    · exact .inl ⟨hnone, funext fun k => hview c.cacheMap (fun _ => id) hmap k rfl⟩
    · refine .inr ⟨v, rv, hv, hsome, fun e he => ?_, (hinv.backed _ hv).sameTable (hre.same rv),
        by rw [cacheView_of_mem hinv hv, (hre.same rv).tableData], fun k hk => hview _ (fun e he => (mem_mapRemove.1 he).1) hmap k (lookup_mapRemove_of_ne hk)⟩
      rw [hmap] at he
      rcases List.mem_append.1 he with he | he
      · -- an old entry of another key has another handle
        obtain ⟨he, hne⟩ := mem_mapRemove.1 he
        exact ⟨hne, fun hrv => hne (hinv.handle_inj hap he hv hrv)⟩
      · rw [List.mem_singleton.1 he]
        refine ⟨fun hkv => hkey ?_, fun hrv => hnew _ hv hrv.symm⟩
        dsimp only at hkv
        subst hkv
        exact List.mem_map_of_mem hv

/-- **Writing the victim back.** Once the victim is out of the map, a file
written back with it, and its handle alone changed, keep the invariant; the
victim's key reads the victim's bytes from the file, and every other key reads
what it did. -/
theorem Coherent.writeBackVictim (hinv : Coherent n w addrOf c h img) (hap : Apart n addrOf)
    {v rv : Nat} (hv : ∀ e ∈ c.cacheMap, e.1 ≠ v ∧ e.2 ≠ rv) (hb : Backed n w addrOf img v (h.get rv))
    {img' : List UInt8} (hwb : WrittenBack n img img' (h.get rv)) {h' : TableHeap} (hnext : h'.next = h.next)
    (hother : ∀ r ≠ rv, h'.get r = h.get r) :
    Coherent n w addrOf c h' img' ∧
      ∀ k, cacheView n addrOf c h' img' k =
        if k = v then some (h.get rv).tableData else cacheView n addrOf c h img k := by
  have hget : ∀ e ∈ c.cacheMap, h'.get e.2 = h.get e.2 := fun e he => hother e.2 (hv e he).2
  refine ⟨⟨hinv.keysNodup, fun e he => hnext ▸ hinv.fresh e he, fun e he => ?_, fun e he => ?_⟩,
    fun k => ?_⟩
  · rw [hget e he]
    exact hinv.lru e he
  · rw [hget e he]
    have hbe := hinv.backed e he
    -- the file moved only in the victim's cluster, which no other key's meets
    exact hbe.of_outside hwb.length (hwb.of_ne hap hb.addr (hv e he).1 hbe.addr)
  · split
    · -- the victim's key reads its cluster, which holds the victim's bytes
      rename_i hk
      subst hk
      have hnk : k ∉ c.cacheMap.map Prod.fst := fun hk => by
        obtain ⟨e, he, hek⟩ := List.mem_map.1 hk
        exact (hv e he).1 hek
      rw [cacheView_of_not_mem hnk, hb.addr, Option.bind_some,
        readBuffer_of_cluster hb.length (hwb.length ▸ hb.inFile) hwb.cluster]
      rfl
    · rename_i hk
      unfold cacheView
      split
      · rename_i r hr
        rw [hget (k, r) (mem_of_lookup_eq_some hr)]
      · rcases ha : addrOf k with _ | a
        · rfl
        · rw [Option.bind_some, Option.bind_some, readBuffer_congr hwb.length (hwb.of_ne hap hb.addr hk ha)]

/-- **Writing a cached table back.** A file written back with a cached
table, whose handle alone is marked clean, keeps the invariant and every
view. -/
theorem Coherent.writeBackCached (hinv : Coherent n w addrOf c h img) (hap : Apart n addrOf) {k r : Nat}
    (he : (k, r) ∈ c.cacheMap) {img' : List UInt8} (hwb : WrittenBack n img img' (h.get r)) :
    Coherent n w addrOf c (h.modify r fun t => { t with dirtyInfo := DirtyInfo.default }) img' ∧
      cacheView n addrOf c (h.modify r fun t => { t with dirtyInfo := DirtyInfo.default }) img' =
        cacheView n addrOf c h img := by
  have hb := hinv.backed _ he
  -- another key's entry has another handle
  have hother : ∀ e ∈ c.cacheMap, e.1 ≠ k → e.2 ≠ r := fun e he' hk hr =>
    hk (hinv.handle_inj hap he' he hr)
  -- an entry of key `k` is the one for `r`
  have hself : ∀ e ∈ c.cacheMap, e.1 = k → e.2 = r := fun e he' hk =>
    Option.some.inj ((hinv.lookup he').symm.trans (hk ▸ hinv.lookup he))
  refine ⟨⟨hinv.keysNodup, fun e he' => hinv.fresh e he', fun e he' => ?_, fun e he' => ?_⟩, ?_⟩
  · by_cases hk : e.1 = k
    · rw [hself e he' hk, TableHeap.get_modify_self]
      exact hinv.lru _ he
    · rw [TableHeap.get_modify_of_ne _ _ (hother e he' hk)]
      exact hinv.lru e he'
  · by_cases hk : e.1 = k
    · -- the table written back: clean, and the file holds all of it
      rw [hself e he' hk, TableHeap.get_modify_self, hk]
      exact ⟨hb.addr, hb.entrySize, hb.length, hwb.length ▸ hb.inFile, Nat.zero_le n,
        (fun hd => nomatch hd), fun j hj _ => (hwb.cluster j hj).symm⟩
    · rw [TableHeap.get_modify_of_ne _ _ (hother e he' hk)]
      have hbe := hinv.backed e he'
      -- the file moved only in the table's cluster, which no other key's meets
      exact hbe.of_outside hwb.length (hwb.of_ne hap hb.addr hk hbe.addr)
  · funext k'
    unfold cacheView
    split
    · rename_i r' hr'
      by_cases hk : k' = k
      · subst hk
        have hrr : r' = r := hself _ (mem_of_lookup_eq_some hr') rfl
        rw [hrr, TableHeap.get_modify_self]
      · rw [TableHeap.get_modify_of_ne _ _ (hother _ (mem_of_lookup_eq_some hr') hk)]
    · rename_i hnone
      have hk : k' ≠ k := fun hk => by
        subst hk
        rw [hinv.lookup he] at hnone
        cases hnone
      rcases ha : addrOf k' with _ | a
      · rfl
      · rw [Option.bind_some, Option.bind_some, readBuffer_congr hwb.length (hwb.of_ne hap hb.addr hk ha)]

/-- Queueing a handle as dirty keeps the invariant. -/
theorem Coherent.addDirtyTable (hinv : Coherent n w addrOf c h img) (r : Nat) :
    Coherent n w addrOf (c.addDirtyTable r) h img :=
  ⟨hinv.keysNodup, hinv.fresh, hinv.lru, hinv.backed⟩

/-- `t'` is the table `t` with entries written: place, entry size, count and
size kept, its dirty range ending in the cluster and holding every byte it
changed and every byte `t` had dirty. -/
structure Rewritten (n : Nat) (t t' : CacheTable) : Prop where
  addr : t'.addr = t.addr
  entrySize : t'.entrySize = t.entrySize
  lruCount : t'.lruCount = t.lruCount
  length : t'.tableData.length = t.tableData.length
  endLe : t'.dirtyInfo.«end» ≤ n
  startLe : t'.dirtyInfo.isDirty = true → t'.dirtyInfo.start ≤ t'.dirtyInfo.«end»
  covers : ∀ j, ¬DirtyAt t' j → ¬DirtyAt t j ∧ t'.tableData[j]? = t.tableData[j]?

theorem Rewritten.refl {key : Nat} {t : CacheTable} (hb : Backed n w addrOf img key t) : Rewritten n t t :=
  ⟨rfl, rfl, rfl, rfl, hb.endLe, hb.startLe, fun _ hj => ⟨hj, rfl⟩⟩

theorem Rewritten.trans {t t' t'' : CacheTable} (h1 : Rewritten n t t') (h2 : Rewritten n t' t'') :
    Rewritten n t t'' :=
  ⟨h2.addr.trans h1.addr, h2.entrySize.trans h1.entrySize, h2.lruCount.trans h1.lruCount,
    h2.length.trans h1.length, h2.endLe, h2.startLe, fun j hj =>
      ⟨(h1.covers j (h2.covers j hj).1).1, (h2.covers j hj).2.trans (h1.covers j (h2.covers j hj).1).2⟩⟩

theorem Backed.rewritten {key : Nat} {t t' : CacheTable} (hb : Backed n w addrOf img key t)
    (hr : Rewritten n t t') : Backed n w addrOf img key t' where
  addr := hr.addr ▸ hb.addr
  entrySize := hr.entrySize ▸ hb.entrySize
  length := hr.length ▸ hb.length
  inFile := hr.addr ▸ hb.inFile
  endLe := hr.endLe
  startLe := hr.startLe
  agree := fun j hj hd => by
    rw [(hr.covers j hd).2, hr.addr]
    exact hb.agree j hj (hr.covers j hd).1

/-- **Writing entries of a cached table** keeps the invariant and changes the
view of its key only. -/
theorem Coherent.update (hinv : Coherent n w addrOf c h img) (hap : Apart n addrOf) {k r : Nat}
    (he : (k, r) ∈ c.cacheMap) {t' : CacheTable} (hr : Rewritten n (h.get r) t') :
    Coherent n w addrOf c (h.modify r fun _ => t') img ∧
      ∀ k', cacheView n addrOf c (h.modify r fun _ => t') img k' =
        if k' = k then some t'.tableData else cacheView n addrOf c h img k' := by
  -- the other cached keys have other handles
  have hother : ∀ e ∈ c.cacheMap, e.1 ≠ k → (h.modify r fun _ => t').get e.2 = h.get e.2 :=
    fun e he' hk => TableHeap.get_modify_of_ne _ _ fun hrr => hk (hinv.handle_inj hap he' he hrr)
  -- an entry of key `k` is the one for `r`
  have hself : ∀ e ∈ c.cacheMap, e.1 = k → e.2 = r := fun e he' hk =>
    Option.some.inj ((hinv.lookup he').symm.trans (hk ▸ hinv.lookup he))
  refine ⟨⟨hinv.keysNodup, fun e he' => hinv.fresh e he', fun e he' => ?_, fun e he' => ?_⟩,
    fun k' => ?_⟩
  · by_cases hk : e.1 = k
    · rw [hself e he' hk, TableHeap.get_modify_self, hr.lruCount]
      exact hinv.lru _ he
    · rw [hother e he' hk]
      exact hinv.lru e he'
  · by_cases hk : e.1 = k
    · rw [hself e he' hk, TableHeap.get_modify_self, hk]
      exact (hinv.backed _ he).rewritten hr
    · rw [hother e he' hk]
      exact hinv.backed e he'
  · split
    · rename_i hk
      subst hk
      unfold cacheView
      rw [hinv.lookup he]
      dsimp only
      rw [TableHeap.get_modify_self]
    · rename_i hk
      unfold cacheView
      split
      · rename_i r' hr'
        rw [hother (k', r') (mem_of_lookup_eq_some hr') hk]
      · rfl

end Events

/-! ## Flushing -/

section Flush

variable {n w : Nat} {addrOf : Nat → Option Nat} {c : Qcow2Cache} {h : TableHeap} {img : List UInt8}

/-- The flush loop from an error keeps an error. -/
theorem flushStep_error (io : BlockIo) (e : String) (h : TableHeap) (img : List UInt8) (r : Nat) :
    ∃ e' h' img', Qcow2Cache.flushStep io (.error e, h, img) r = (.error e', h', img') := by
  unfold Qcow2Cache.flushStep
  dsimp only
  split
  · exact ⟨e, h, img, rfl⟩
  · split <;> exact ⟨_, _, _, rfl⟩

theorem foldl_flushStep_error (io : BlockIo) :
    ∀ (l : List Nat) (e : String) (h : TableHeap) (img : List UInt8),
      (l.foldl (Qcow2Cache.flushStep io) (.error e, h, img)).1 ≠ .ok ()
  | [], _, _, _ => fun h => nomatch h
  | r :: l, e, h, img => by
    obtain ⟨e', h', img', hs⟩ := flushStep_error io e h img r
    rw [List.foldl_cons, hs]
    exact foldl_flushStep_error io l e' h' img'

/-- **The flush loop**, on a host whose successful writes are seen by later
reads, over queued handles whose dirty tables are all cached. When it ends
without an error it keeps the invariant and every view, and a table is dirty
after it only when it was dirty before and not on the queue. -/
theorem Coherent.flushLoop (hap : Apart n addrOf) (hsec : DEFAULT_SECTOR_SIZE ∣ n) {io : BlockIo}
    (hio : io.Writes) :
    ∀ (l : List Nat) (h : TableHeap) (img : List UInt8), Coherent n w addrOf c h img →
      (∀ r ∈ l, (h.get r).dirtyInfo.isDirty = true → r ∈ c.cacheMap.map Prod.snd) →
      (l.foldl (Qcow2Cache.flushStep io) (.ok (), h, img)).1 = .ok () →
      Coherent n w addrOf c (l.foldl (Qcow2Cache.flushStep io) (.ok (), h, img)).2.1
          (l.foldl (Qcow2Cache.flushStep io) (.ok (), h, img)).2.2 ∧
        cacheView n addrOf c (l.foldl (Qcow2Cache.flushStep io) (.ok (), h, img)).2.1
          (l.foldl (Qcow2Cache.flushStep io) (.ok (), h, img)).2.2 = cacheView n addrOf c h img ∧
        ∀ r, ((l.foldl (Qcow2Cache.flushStep io) (.ok (), h, img)).2.1.get r).dirtyInfo.isDirty = true →
          (h.get r).dirtyInfo.isDirty = true ∧ r ∉ l
  | [], h, img, hinv, _, _ => ⟨hinv, rfl, fun _ hr => ⟨hr, List.not_mem_nil⟩⟩
  | r :: l, h, img, hinv, hq, hok => by
    rw [List.foldl_cons] at hok ⊢
    by_cases hd : (h.get r).dirtyInfo.isDirty = true
    · -- a dirty table: cached, and written back
      obtain ⟨⟨k, r'⟩, he, hr'⟩ := List.mem_map.1 (hq r List.mem_cons_self hd)
      dsimp only at hr'
      subst hr'
      rcases hw : writeBack io img (h.get r') with e | img'
      · have hstep : Qcow2Cache.flushStep io (.ok (), h, img) r' =
            (.error e, h.modify r' fun t => { t with dirtyInfo := DirtyInfo.default }, img) := by
          unfold Qcow2Cache.flushStep
          dsimp only
          rw [if_neg (by simp [hd]), hw]
        rw [hstep] at hok
        exact absurd hok (foldl_flushStep_error io l e _ img)
      have hstep : Qcow2Cache.flushStep io (.ok (), h, img) r' =
          (.ok (), h.modify r' fun t => { t with dirtyInfo := DirtyInfo.default }, img') := by
        unfold Qcow2Cache.flushStep
        dsimp only
        rw [if_neg (by simp [hd]), hw]
      rw [hstep] at hok ⊢
      obtain ⟨hc1, hv1⟩ := hinv.writeBackCached hap he ((hinv.backed _ he).writtenBack hsec hio hw)
      -- the written table is clean now, the others as they were
      have hclean : ((h.modify r' fun t => { t with dirtyInfo := DirtyInfo.default }).get r').dirtyInfo.isDirty =
          false := by rw [TableHeap.get_modify_self]; rfl
      obtain ⟨hc, hv, hdirty⟩ := Coherent.flushLoop hap hsec hio l _ img' hc1 (fun x hx hdx => by
        by_cases hxr : x = r'
        · rw [hxr, hclean] at hdx
          cases hdx
        · rw [TableHeap.get_modify_of_ne _ _ hxr] at hdx
          exact hq x (List.mem_cons_of_mem _ hx) hdx) hok
      refine ⟨hc, hv.trans hv1, fun x hx => ?_⟩
      obtain ⟨hdx, hxl⟩ := hdirty x hx
      have hxr : x ≠ r' := fun hxr => by
        rw [hxr, hclean] at hdx
        cases hdx
      rw [TableHeap.get_modify_of_ne _ _ hxr] at hdx
      exact ⟨hdx, fun hm => (List.mem_cons.1 hm).elim hxr hxl⟩
    · -- a clean table is skipped
      have hcl : (h.get r).dirtyInfo.isDirty = false := by simpa using hd
      have hstep : Qcow2Cache.flushStep io (.ok (), h, img) r = (.ok (), h, img) := by
        unfold Qcow2Cache.flushStep
        dsimp only
        rw [if_pos (by simp [hcl])]
      rw [hstep] at hok ⊢
      obtain ⟨hc, hv, hdirty⟩ := Coherent.flushLoop hap hsec hio l h img hinv
        (fun x hx => hq x (List.mem_cons_of_mem _ hx)) hok
      refine ⟨hc, hv, fun x hx => ?_⟩
      obtain ⟨hdx, hxl⟩ := hdirty x hx
      have hxr : x ≠ r := fun hxr => by
        rw [hxr, hcl] at hdx
        cases hdx
      exact ⟨hdx, fun hm => (List.mem_cons.1 hm).elim hxr hxl⟩

/-- With every cached table clean, each key reads what the file holds at its
address. -/
theorem cacheView_of_clean (hinv : Coherent n w addrOf c h img)
    (hclean : ∀ e ∈ c.cacheMap, (h.get e.2).dirtyInfo.isDirty = false) (key : Nat) :
    cacheView n addrOf c h img key = (addrOf key).bind fun a => (readBuffer img a n).toOption := by
  unfold cacheView
  split
  · rename_i r hr
    have he := mem_of_lookup_eq_some hr
    have hb := hinv.backed _ he
    rw [hb.addr, Option.bind_some, hb.readBuffer_of_clean (hclean _ he)]
    rfl
  · rfl

/-! ## The dirty queue -/

/-- **The dirty queue is exact**: a dirty table on the queue is cached, but
for the victim `out` that `lru_replace` just gave up; and a dirty cached
table is on the queue. -/
structure QueueExact (c : Qcow2Cache) (h : TableHeap) (out : Option Nat) : Prop where
  queued : ∀ r ∈ c.dirtyTables, (h.get r).dirtyInfo.isDirty = true →
    r ∈ c.cacheMap.map Prod.snd ∨ out = some r
  cached : ∀ e ∈ c.cacheMap, (h.get e.2).dirtyInfo.isDirty = true → e.2 ∈ c.dirtyTables

/-- New LRU counts keep the queue exact. -/
theorem QueueExact.restamp {out : Option Nat} (hq : QueueExact c h out) {c' : Qcow2Cache} {h' : TableHeap}
    (hre : Restamped h h') (hmap : c'.cacheMap = c.cacheMap) (hdt : c'.dirtyTables = c.dirtyTables) :
    QueueExact c' h' out where
  queued := fun r hr hd => by
    rw [(hre.same r).dirtyInfo] at hd
    rw [hmap]
    exact hq.queued r (hdt ▸ hr) hd
  cached := fun e he hd => by
    rw [(hre.same e.2).dirtyInfo] at hd
    rw [hdt]
    exact hq.cached e (hmap ▸ he) hd

/-- A new clean table keeps the queue exact. -/
theorem QueueExact.alloc (hq : QueueExact c h none) (hfresh : ∀ e ∈ c.cacheMap, e.2 < h.next) {t : CacheTable}
    (hclean : t.dirtyInfo.isDirty = false) : QueueExact c (h.alloc t).2 none where
  queued := fun r hr hd => by
    by_cases hrn : r = h.next
    · rw [hrn, TableHeap.get_alloc_self, hclean] at hd
      cases hd
    · rw [TableHeap.get_alloc_of_ne _ _ hrn] at hd
      exact hq.queued r hr hd
  cached := fun e he hd => by
    rw [TableHeap.get_alloc_of_ne _ _ (Nat.ne_of_lt (hfresh e he))] at hd
    exact hq.cached e he hd

/-- **`lru_replace`** of a clean table: the queue is exact but for the
victim, which may be dirty and queued. -/
theorem QueueExact.lruReplace (hq : QueueExact c h none) (hinv : Coherent n w addrOf c h img) {key : Nat}
    (hkey : key ∉ c.cacheMap.map Prod.fst) {r : Nat} (hclean : (h.get r).dirtyInfo.isDirty = false) :
    QueueExact (c.lruReplace h key r).2.1 (c.lruReplace h key r).2.2 (c.lruReplace h key r).1 := by
  obtain ⟨hre, hdt, -, -, hmap⟩ := Qcow2Cache.lruReplace_spec hinv.lru hkey r
  refine ⟨fun x hx hd => ?_, fun e he hd => ?_⟩
  · rw [(hre.same x).dirtyInfo] at hd
    rw [hdt] at hx
    obtain ⟨⟨k, x'⟩, hkx, hx'⟩ := (hq.queued x hx hd).resolve_right (fun h => nomatch h) |> List.mem_map.1
    dsimp only at hx'
    subst hx'
    rcases hmap with ⟨-, hmap⟩ | ⟨v, rv, hv, hsome, hmap⟩
    · exact .inl (List.mem_map.2 ⟨(k, x'), by rw [hmap]; exact List.mem_append_left _ hkx, rfl⟩)
    · by_cases hkv : k = v
      · -- the victim's key had the victim's handle
        subst hkv
        refine .inr (hsome.trans ?_)
        rw [Option.some.injEq]
        exact Option.some.inj ((hinv.lookup hv).symm.trans (hinv.lookup hkx))
      · exact .inl (List.mem_map.2 ⟨(k, x'), by
          rw [hmap]
          exact List.mem_append_left _ (mem_mapRemove.2 ⟨hkx, hkv⟩), rfl⟩)
  · rw [(hre.same e.2).dirtyInfo] at hd
    rw [hdt]
    -- the new entry is clean; the others come from the old map
    have hold : e ∈ c.cacheMap := by
      rcases hmap with ⟨-, hmap⟩ | ⟨v, rv, -, -, hmap⟩ <;> rw [hmap] at he <;>
        rcases List.mem_append.1 he with he | he
      · exact he
      · rw [List.mem_singleton.1 he, hclean] at hd
        cases hd
      · exact (mem_mapRemove.1 he).1
      · rw [List.mem_singleton.1 he, hclean] at hd
        cases hd
    exact hq.cached e hold hd

/-- The victim out of the map and clean again: the queue is exact. -/
theorem QueueExact.clean {rv : Nat} (hq : QueueExact c h (some rv)) (hv : ∀ e ∈ c.cacheMap, e.2 ≠ rv)
    {h' : TableHeap} (hclean : (h'.get rv).dirtyInfo.isDirty = false) (hother : ∀ r ≠ rv, h'.get r = h.get r) :
    QueueExact c h' none where
  queued := fun r hr hd => by
    have hrv : r ≠ rv := fun hrv => by
      rw [hrv, hclean] at hd
      cases hd
    rw [hother r hrv] at hd
    exact .inl ((hq.queued r hr hd).resolve_right fun h => hrv (Option.some.inj h).symm)
  cached := fun e he hd => by
    rw [hother e.2 (hv e he)] at hd
    exact hq.cached e he hd

/-- **Writing a cached table** that the queue then holds keeps the queue
exact. -/
theorem QueueExact.write (hq : QueueExact c h none) {k r : Nat} (he : (k, r) ∈ c.cacheMap) (t' : CacheTable)
    {c' : Qcow2Cache} (hmap : c'.cacheMap = c.cacheMap) (hdt : ∀ x ∈ c.dirtyTables, x ∈ c'.dirtyTables)
    (hdt' : ∀ x ∈ c'.dirtyTables, x ∈ c.dirtyTables ∨ x = r) (hr : r ∈ c'.dirtyTables) :
    QueueExact c' (h.modify r fun _ => t') none where
  queued := fun x hx hd => by
    rw [hmap]
    by_cases hxr : x = r
    · rw [hxr]
      exact .inl (List.mem_map.2 ⟨(k, r), he, rfl⟩)
    · rw [TableHeap.get_modify_of_ne _ _ hxr] at hd
      exact hq.queued x ((hdt' x hx).resolve_right hxr) hd
  cached := fun e he' hd => by
    by_cases hxr : e.2 = r
    · rw [hxr]
      exact hr
    · rw [TableHeap.get_modify_of_ne _ _ hxr] at hd
      exact hdt _ (hq.cached e (hmap ▸ he') hd)

/-- **`Qcow2Cache::flush`** of a coherent cache with an exact queue, on a
host whose successful writes are seen by later reads. When it succeeds it
keeps the invariant and every view, empties the queue, and leaves every
cached table clean. -/
theorem Coherent.flush (hinv : Coherent n w addrOf c h img) (hq : QueueExact c h none) (hap : Apart n addrOf)
    (hsec : DEFAULT_SECTOR_SIZE ∣ n) {io : BlockIo} (hio : io.Writes) (hok : (c.flush io h img).1 = .ok ()) :
    Coherent n w addrOf (c.flush io h img).2.1 (c.flush io h img).2.2.1 (c.flush io h img).2.2.2 ∧
      cacheView n addrOf (c.flush io h img).2.1 (c.flush io h img).2.2.1 (c.flush io h img).2.2.2 =
        cacheView n addrOf c h img ∧
      QueueExact (c.flush io h img).2.1 (c.flush io h img).2.2.1 none ∧
      ∀ e ∈ (c.flush io h img).2.1.cacheMap, ((c.flush io h img).2.2.1.get e.2).dirtyInfo.isDirty = false := by
  have hloop := Coherent.flushLoop hap hsec hio c.dirtyTables h img hinv
    (fun r hr hd => (hq.queued r hr hd).resolve_right fun h => nomatch h)
  unfold Qcow2Cache.flush at hok ⊢
  generalize c.dirtyTables.foldl (Qcow2Cache.flushStep io) (.ok (), h, img) = F at hloop hok ⊢
  obtain ⟨ret, h', img'⟩ := F
  dsimp only at hloop hok ⊢
  obtain ⟨hc, hv, hdirty⟩ := hloop hok
  -- a cached table dirty after the loop was dirty before, so queued, so written
  have hclean : ∀ e ∈ c.cacheMap, (h'.get e.2).dirtyInfo.isDirty = false := fun e he => by
    cases hd : (h'.get e.2).dirtyInfo.isDirty with
    | false => rfl
    | true =>
      obtain ⟨hd0, hnq⟩ := hdirty e.2 hd
      exact absurd (hq.cached e he hd0) hnq
  refine ⟨⟨hc.keysNodup, hc.fresh, hc.lru, hc.backed⟩, hv, ⟨(fun r hr => nomatch hr), fun e he hd => ?_⟩, hclean⟩
  rw [hclean e he] at hd
  cases hd

end Flush

end StratoVirt.Qcow2
