import StratoVirt.Lib.LittleEndian

/-!
# virtio-net control commands and receive filtering

`virtio/src/device/net.rs`: `CtrlInfo`, the state the control queue sets and
the receive path reads, with its handlers `handle_rx_mode`, `handle_mac`
(`set_mac_table`), `handle_vlan_table` and the dispatch of `handle_ctrl`, and
`filter_packets`, which decides whether a received frame is dropped.

A command's data is the bytes of its out iovecs after the two-byte header;
`get_buf_and_discard` takes bytes from the front of them, so the data is a
byte list here. `vlan_map` is a `HashMap<u16, u32>` of 32-bit words, one per
group of 32 VLAN ids; every read of it takes a missing key as 0 and a delete
of a missing key does nothing, so it is a total function with default 0. The
multi-queue command (`handle_mq`) touches no filter state and is a parameter
of the dispatch.

Main results:

* `vlanOn_handleVlanTable`: an acknowledged `VLAN_ADD`/`VLAN_DEL` adds or
  removes one id of the bitmap's set of ids and leaves the others.
* `filterPackets_vlan`: a tagged frame passes the VLAN check exactly when its
  whole 16-bit TCI is in that set; since no id of 4096 or more is ever added
  (`VlanBounded`), `filterPackets_drops_priority_tagged`: on every reachable
  state with `promisc` off, a tagged frame with a priority or DEI bit set is
  dropped, whatever its VLAN id.
* `setMacTableOne_of_overflow_flag`: `set_mac_table` sets overflow flags and
  never clears them; `setMacTable_error_keeps_unicast`: a command answered
  `VIRTIO_NET_ERR` can have replaced the unicast table.
-/

namespace StratoVirt.Virtio

open StratoVirt.Lib

/-! ## Constants -/

/-- `VIRTIO_NET_OK`. -/
def VIRTIO_NET_OK : UInt8 := 0
/-- `VIRTIO_NET_ERR`. -/
def VIRTIO_NET_ERR : UInt8 := 1
/-- `VIRTIO_NET_CTRL_RX`. -/
def VIRTIO_NET_CTRL_RX : UInt8 := 0
/-- `VIRTIO_NET_CTRL_RX_PROMISC`. -/
def VIRTIO_NET_CTRL_RX_PROMISC : UInt8 := 0
/-- `VIRTIO_NET_CTRL_RX_ALLMULTI`. -/
def VIRTIO_NET_CTRL_RX_ALLMULTI : UInt8 := 1
/-- `VIRTIO_NET_CTRL_RX_ALLUNI`. -/
def VIRTIO_NET_CTRL_RX_ALLUNI : UInt8 := 2
/-- `VIRTIO_NET_CTRL_RX_NOMULTI`. -/
def VIRTIO_NET_CTRL_RX_NOMULTI : UInt8 := 3
/-- `VIRTIO_NET_CTRL_RX_NOUNI`. -/
def VIRTIO_NET_CTRL_RX_NOUNI : UInt8 := 4
/-- `VIRTIO_NET_CTRL_RX_NOBCAST`. -/
def VIRTIO_NET_CTRL_RX_NOBCAST : UInt8 := 5
/-- `VIRTIO_NET_CTRL_MAC`. -/
def VIRTIO_NET_CTRL_MAC : UInt8 := 1
/-- `VIRTIO_NET_CTRL_MAC_TABLE_SET`. -/
def VIRTIO_NET_CTRL_MAC_TABLE_SET : UInt8 := 0
/-- `VIRTIO_NET_CTRL_MAC_ADDR_SET`. -/
def VIRTIO_NET_CTRL_MAC_ADDR_SET : UInt8 := 1
/-- `VIRTIO_NET_CTRL_VLAN`. -/
def VIRTIO_NET_CTRL_VLAN : UInt8 := 2
/-- `VIRTIO_NET_CTRL_VLAN_ADD`. -/
def VIRTIO_NET_CTRL_VLAN_ADD : UInt8 := 0
/-- `VIRTIO_NET_CTRL_VLAN_DEL`. -/
def VIRTIO_NET_CTRL_VLAN_DEL : UInt8 := 1
/-- `VIRTIO_NET_CTRL_MQ`. -/
def VIRTIO_NET_CTRL_MQ : UInt8 := 4
/-- `MAC_ADDR_LEN`. -/
def MAC_ADDR_LEN : Nat := 6
/-- `ETHERNET_HDR_LENGTH`. -/
def ETHERNET_HDR_LENGTH : Nat := 14
/-- `VLAN_TPID_LENGTH`. -/
def VLAN_TPID_LENGTH : Nat := 2
/-- `CTRL_MAC_TABLE_LEN`, the room of the two MAC tables together. -/
def CTRL_MAC_TABLE_LEN : Nat := 64
/-- `CTRL_MAX_VLAN`. -/
def CTRL_MAX_VLAN : UInt16 := (1 : UInt16) <<< 12

/-! ## The filter state -/

/-- `CtrlRxMode`. -/
structure CtrlRxMode where
  promisc : Bool
  allMulti : Bool
  allUni : Bool
  noMulti : Bool
  noUni : Bool
  noBcast : Bool
  deriving Repr, DecidableEq

/-- `CtrlRxMode::default`: promiscuous, for older guest drivers. -/
def CtrlRxMode.default : CtrlRxMode :=
  { promisc := true, allMulti := false, allUni := false, noMulti := false, noUni := false,
    noBcast := false }

/-- `CtrlMacInfo`; a MAC address is its six bytes. -/
structure CtrlMacInfo where
  uniMacTable : List (List UInt8)
  uniMacOf : Bool
  multiMacTable : List (List UInt8)
  multiMacOf : Bool
  deriving Repr, DecidableEq

/-- `CtrlInfo`, with the MAC address of the device's config space. -/
structure CtrlInfo where
  rxMode : CtrlRxMode
  macInfo : CtrlMacInfo
  vlanMap : Nat → UInt32
  mac : List UInt8

/-- `CtrlInfo::new`. -/
def CtrlInfo.new (mac : List UInt8) : CtrlInfo :=
  { rxMode := CtrlRxMode.default,
    macInfo := { uniMacTable := [], uniMacOf := false, multiMacTable := [], multiMacOf := false },
    vlanMap := fun _ => 0, mac := mac }

/-! ## Control commands -/

/-- `get_buf_and_discard`: the first `n` bytes of the data and the rest, or an
error when fewer are left. -/
def getBufAndDiscard (data : List UInt8) (n : Nat) : Except String (List UInt8 × List UInt8) :=
  if data.length < n then
    .error ("Invalid length " ++ toString data.length ++ ", expected length " ++ toString n)
  else .ok (data.take n, data.drop n)

/-- `handle_rx_mode`: one byte, 0 or 1, sets the flag `cmd` names. -/
def CtrlInfo.handleRxMode (c : CtrlInfo) (cmd : UInt8) (data : List UInt8) :
    Except String (UInt8 × CtrlInfo) := do
  let (buf, _) ← getBufAndDiscard data 1
  let status := buf.headD 0
  if status ≠ 0 ∧ status ≠ 1 then return (VIRTIO_NET_ERR, c)
  let onOff := status == 1
  let rx := c.rxMode
  if cmd = VIRTIO_NET_CTRL_RX_PROMISC then
    return (VIRTIO_NET_OK, { c with rxMode := { rx with promisc := onOff } })
  else if cmd = VIRTIO_NET_CTRL_RX_ALLMULTI then
    return (VIRTIO_NET_OK, { c with rxMode := { rx with allMulti := onOff } })
  else if cmd = VIRTIO_NET_CTRL_RX_ALLUNI then
    return (VIRTIO_NET_OK, { c with rxMode := { rx with allUni := onOff } })
  else if cmd = VIRTIO_NET_CTRL_RX_NOMULTI then
    return (VIRTIO_NET_OK, { c with rxMode := { rx with noMulti := onOff } })
  else if cmd = VIRTIO_NET_CTRL_RX_NOUNI then
    return (VIRTIO_NET_OK, { c with rxMode := { rx with noUni := onOff } })
  else if cmd = VIRTIO_NET_CTRL_RX_NOBCAST then
    return (VIRTIO_NET_OK, { c with rxMode := { rx with noBcast := onOff } })
  else return (VIRTIO_NET_ERR, c)

/-- The entries of a table: the `entries` six-byte addresses at the front of
`macs`, in order. -/
def macsOf (macs : List UInt8) (entries : Nat) : List (List UInt8) :=
  (List.range entries).map fun i => slice macs (i * MAC_ADDR_LEN) (i * MAC_ADDR_LEN + MAC_ADDR_LEN)

/-- One round of the loop of `set_mac_table`, for the table with `room`
entries free: read the count, then clear the table (no entries), or clear it
and set its overflow flag (more entries than room, skipping their bytes only
when more bytes follow), or read the entries. The old table is never read.
Returns the table, its flag and the data left. -/
def setMacTableOne (overflow : Bool) (room : Nat) (data : List UInt8) :
    Except String (List (List UInt8) × Bool × List UInt8) := do
  let (buf, data) ← getBufAndDiscard data 4
  let entries := leDecode buf
  if entries = 0 then return ([], overflow, data)
  let size := entries * MAC_ADDR_LEN
  if size > data.length then throw "Invalid request for setting mac table."
  if entries > room then
    let data := if size < data.length then data.drop size else data
    return ([], true, data)
  let (macs, data) ← getBufAndDiscard data size
  return (macsOf macs entries, overflow, data)

/-- `set_mac_table`: the unicast table, then the multicast table in the room
the new unicast table leaves. A failure in the multicast round returns after
the unicast table was set. -/
def CtrlInfo.setMacTable (c : CtrlInfo) (data : List UInt8) : Except String UInt8 × CtrlInfo :=
  match setMacTableOne c.macInfo.uniMacOf CTRL_MAC_TABLE_LEN data with
  | .error e => (.error e, c)
  | .ok (uni, uniOf, data) =>
    let c := { c with macInfo := { c.macInfo with uniMacTable := uni, uniMacOf := uniOf } }
    match setMacTableOne c.macInfo.multiMacOf (CTRL_MAC_TABLE_LEN - uni.length) data with
    | .error e => (.error e, c)
    | .ok (multi, multiOf, _) =>
      (.ok VIRTIO_NET_OK,
        { c with macInfo := { c.macInfo with multiMacTable := multi, multiMacOf := multiOf } })

/-- `handle_mac`. -/
def CtrlInfo.handleMac (c : CtrlInfo) (cmd : UInt8) (data : List UInt8) : UInt8 × CtrlInfo :=
  if cmd = VIRTIO_NET_CTRL_MAC_ADDR_SET then
    match getBufAndDiscard data MAC_ADDR_LEN with
    | .error _ => (VIRTIO_NET_ERR, c)
    | .ok (mac, _) => (VIRTIO_NET_OK, { c with mac := mac })
  else if cmd = VIRTIO_NET_CTRL_MAC_TABLE_SET then
    match c.setMacTable data with
    | (.error _, c) => (VIRTIO_NET_ERR, c)
    | (.ok ack, c) => (ack, c)
  else (VIRTIO_NET_ERR, c)

/-- The bit of VLAN id `vid` in its word of `vlan_map`. -/
def vlanBit (vid : UInt16) : UInt32 := (1 : UInt32) <<< (vid &&& 0x1f).toUInt32

/-- The VLAN_ADD arm: set the id's bit in its word, a missing word taken as 0. -/
def CtrlInfo.vlanAdd (c : CtrlInfo) (vid : UInt16) : CtrlInfo :=
  { c with vlanMap := Function.update c.vlanMap (vid >>> 5).toNat (c.vlanMap (vid >>> 5).toNat ||| vlanBit vid) }

/-- The VLAN_DEL arm: clear the id's bit in its word (a missing word stays 0). -/
def CtrlInfo.vlanDel (c : CtrlInfo) (vid : UInt16) : CtrlInfo :=
  { c with vlanMap := Function.update c.vlanMap (vid >>> 5).toNat (c.vlanMap (vid >>> 5).toNat &&& ~~~vlanBit vid) }

/-- `handle_vlan_table`: a little-endian id below 4096, added to or removed
from its word of the bitmap. -/
def CtrlInfo.handleVlanTable (c : CtrlInfo) (cmd : UInt8) (data : List UInt8) : UInt8 × CtrlInfo :=
  match getBufAndDiscard data 2 with
  | .error _ => (VIRTIO_NET_ERR, c)
  | .ok (buf, _) =>
    let vid := UInt16.ofNat (leDecode buf)
    if vid ≥ CTRL_MAX_VLAN then (VIRTIO_NET_ERR, c)
    else if cmd = VIRTIO_NET_CTRL_VLAN_ADD then (VIRTIO_NET_OK, c.vlanAdd vid)
    else if cmd = VIRTIO_NET_CTRL_VLAN_DEL then (VIRTIO_NET_OK, c.vlanDel vid)
    else (VIRTIO_NET_ERR, c)

/-- The class and command dispatch of `handle_ctrl`, with the multi-queue
command's acknowledgement `handleMq` (it changes no filter state). -/
def CtrlInfo.handleCtrlCmd (handleMq : UInt8 → List UInt8 → UInt8) (c : CtrlInfo)
    (cls cmd : UInt8) (data : List UInt8) : UInt8 × CtrlInfo :=
  if cls = VIRTIO_NET_CTRL_RX then
    match c.handleRxMode cmd data with
    | .error _ => (VIRTIO_NET_ERR, c)
    | .ok r => r
  else if cls = VIRTIO_NET_CTRL_MAC then c.handleMac cmd data
  else if cls = VIRTIO_NET_CTRL_VLAN then c.handleVlanTable cmd data
  else if cls = VIRTIO_NET_CTRL_MQ then (handleMq cmd data, c)
  else (VIRTIO_NET_ERR, c)

/-- One control request of `handle_ctrl`: the header from the front of the
out bytes, then the command; a request too short for its header or its ack
fails the whole handler. -/
def CtrlInfo.handleCtrl (handleMq : UInt8 → List UInt8 → UInt8) (c : CtrlInfo)
    (inSize : Nat) (out : List UInt8) : Except String (UInt8 × CtrlInfo) :=
  if inSize < 1 ∨ out.length < 2 then
    .error ("Invalid length, in_iovec size is " ++ toString inSize ++ ", out_iovec size is " ++
      toString out.length)
  else do
    let (hdr, data) ← getBufAndDiscard out 2
    return c.handleCtrlCmd handleMq (hdr.getD 0 0) (hdr.getD 1 0) data

/-! ## Receive filtering -/

/-- TPID 0x8100 at bytes 12..14: the frame carries an 802.1Q tag. -/
def isVlanTagged (buf : List UInt8) : Bool :=
  slice buf (ETHERNET_HDR_LENGTH - VLAN_TPID_LENGTH) ETHERNET_HDR_LENGTH == [0x81, 0x00]

/-- The id the filter looks up: bytes 14..16 read big-endian, the whole TCI. -/
def frameVid (buf : List UInt8) : UInt16 :=
  (buf.getD ETHERNET_HDR_LENGTH 0).toUInt16 <<< 8 ||| (buf.getD (ETHERNET_HDR_LENGTH + 1) 0).toUInt16

/-- Whether id `vid`'s bit is set in its word of the bitmap. -/
def CtrlInfo.vlanOn (c : CtrlInfo) (vid : UInt16) : Bool :=
  c.vlanMap (vid >>> 5).toNat &&& vlanBit vid != 0

/-- `filter_packets` on the first 18 bytes of a frame (the Ethernet header and
a VLAN tag): `true` drops the frame. -/
def CtrlInfo.filterPackets (c : CtrlInfo) (buf : List UInt8) : Bool :=
  let bcast := List.replicate MAC_ADDR_LEN (0xff : UInt8)
  if c.rxMode.promisc then false
  else if isVlanTagged buf && !c.vlanOn (frameVid buf) then true
  else
    let dst := buf.take MAC_ADDR_LEN
    -- "The bit 0 in byte[0] means unicast(0) or multicast(1)."
    if buf.getD 0 0 &&& 0x01 > 0 then
      if dst = bcast then c.rxMode.noBcast
      else if c.rxMode.noMulti then true
      else if c.rxMode.allMulti || c.macInfo.multiMacOf then false
      else !c.macInfo.multiMacTable.contains dst
    else
      if c.rxMode.noUni then true
      else if c.rxMode.allUni || c.macInfo.uniMacOf || dst == c.mac then false
      else !c.macInfo.uniMacTable.contains dst

/-! ## The VLAN bitmap as a set of ids -/

/-- `vid >> 5` is the word of an id. -/
theorem toNat_shiftRight_five (vid : UInt16) : (vid >>> 5).toNat = vid.toNat / 32 := by
  rw [UInt16.toNat_shiftRight, Nat.shiftRight_eq_div_pow]
  rfl

/-- `1 << (vid & 0x1f)` is bit `vid % 32`. -/
theorem toNat_vlanBit (vid : UInt16) : (vlanBit vid).toNat = 2 ^ (vid.toNat % 32) := by
  have hk : (vid &&& 0x1f).toUInt32.toNat = vid.toNat % 32 := by
    rw [UInt16.toNat_toUInt32, UInt16.toNat_and]
    exact Nat.and_two_pow_sub_one_eq_mod _ 5
  have hlt : vid.toNat % 32 < 32 := Nat.mod_lt _ (by decide)
  rw [vlanBit, UInt32.toNat_shiftLeft, hk, Nat.mod_eq_of_lt hlt, UInt32.toNat_one, Nat.one_shiftLeft,
    Nat.mod_eq_of_lt (Nat.pow_lt_pow_right (by decide) hlt)]

/-- An id is on when bit `vid % 32` of word `vid / 32` is set. -/
theorem vlanOn_eq_testBit (c : CtrlInfo) (vid : UInt16) :
    c.vlanOn vid = (c.vlanMap (vid.toNat / 32)).toNat.testBit (vid.toNat % 32) := by
  have hval : (c.vlanMap (vid.toNat / 32) &&& vlanBit vid).toNat =
      ((c.vlanMap (vid.toNat / 32)).toNat.testBit (vid.toNat % 32)).toNat * 2 ^ (vid.toNat % 32) := by
    rw [UInt32.toNat_and, toNat_vlanBit, Nat.and_two_pow]
  rw [CtrlInfo.vlanOn, toNat_shiftRight_five, Bool.eq_iff_iff, bne_iff_ne, ne_eq, ← UInt32.toNat_inj,
    hval, UInt32.toNat_zero]
  cases (c.vlanMap (vid.toNat / 32)).toNat.testBit (vid.toNat % 32) <;> simp

/-- Two ids of one word are equal when their bits are. -/
private theorem vid_eq_iff {v w : UInt16} (hk : w.toNat / 32 = v.toNat / 32) :
    v.toNat % 32 = w.toNat % 32 ↔ w = v := by
  rw [← UInt16.toNat_inj]
  omega

/-- Ids of different words are different. -/
private theorem vid_ne_of_word_ne {v w : UInt16} (hk : ¬w.toNat / 32 = v.toNat / 32) : decide (w = v) = false :=
  decide_eq_false fun h => hk (by rw [h])

/-- Only the word of `v` changes when `v` is added or removed. -/
private theorem vlanMap_update_word {c : CtrlInfo} {v w : UInt16} (x : UInt32)
    (hk : ¬w.toNat / 32 = v.toNat / 32) :
    Function.update c.vlanMap (v >>> 5).toNat x (w.toNat / 32) = c.vlanMap (w.toNat / 32) := by
  rw [toNat_shiftRight_five]
  exact Function.update_of_ne hk _ _

/-- VLAN_ADD of `v` turns `v` on and leaves every other id as it was. -/
theorem vlanOn_vlanAdd (c : CtrlInfo) (v w : UInt16) :
    (c.vlanAdd v).vlanOn w = (c.vlanOn w || decide (w = v)) := by
  rw [vlanOn_eq_testBit, vlanOn_eq_testBit]
  by_cases hk : w.toNat / 32 = v.toNat / 32
  · -- the word of `v`: bit `v % 32` is or-ed in
    show (Function.update c.vlanMap (v >>> 5).toNat _ (w.toNat / 32)).toNat.testBit _ = _
    rw [toNat_shiftRight_five, hk, Function.update_self, UInt32.toNat_or, Nat.testBit_or, toNat_vlanBit,
      Nat.testBit_two_pow, ← hk, decide_eq_decide.2 (vid_eq_iff hk)]
  · rw [vid_ne_of_word_ne hk, Bool.or_false]
    exact congrArg (fun x : UInt32 => x.toNat.testBit (w.toNat % 32)) (vlanMap_update_word _ hk)

/-- VLAN_DEL of `v` turns `v` off and leaves every other id as it was. -/
theorem vlanOn_vlanDel (c : CtrlInfo) (v w : UInt16) :
    (c.vlanDel v).vlanOn w = (c.vlanOn w && !decide (w = v)) := by
  rw [vlanOn_eq_testBit, vlanOn_eq_testBit]
  by_cases hk : w.toNat / 32 = v.toNat / 32
  · -- the word of `v`: bit `v % 32` is masked out, read through the 32-bit word
    show (Function.update c.vlanMap (v >>> 5).toNat _ (w.toNat / 32)).toNat.testBit _ = _
    have hbit : (vlanBit v).toNat.testBit (w.toNat % 32) = decide (w = v) := by
      rw [toNat_vlanBit, Nat.testBit_two_pow, decide_eq_decide.2 (vid_eq_iff hk)]
    rw [toNat_shiftRight_five, hk, Function.update_self, ← hk]
    show (_ &&& ~~~(vlanBit v).toBitVec).getLsbD _ = _
    rw [BitVec.getLsbD_and, BitVec.getLsbD_not, decide_eq_true (Nat.mod_lt _ (by decide)), Bool.true_and]
    exact congrArg (_ && !·) hbit
  · rw [vid_ne_of_word_ne hk, Bool.not_false, Bool.and_true]
    exact congrArg (fun x : UInt32 => x.toNat.testBit (w.toNat % 32)) (vlanMap_update_word _ hk)

/-! ## Handlers: what each command changes -/

/-- The parts of the state `set_mac_table` does not touch. -/
structure SameNonMac (c c' : CtrlInfo) : Prop where
  rxMode : c'.rxMode = c.rxMode
  vlanMap : c'.vlanMap = c.vlanMap
  mac : c'.mac = c.mac

theorem getBufAndDiscard_eq_ok {data : List UInt8} {n : Nat} {r : List UInt8 × List UInt8}
    (h : getBufAndDiscard data n = .ok r) : n ≤ data.length ∧ r = (data.take n, data.drop n) := by
  unfold getBufAndDiscard at h
  split_ifs at h with hlt
  cases h
  exact ⟨by omega, rfl⟩

@[simp] theorem getBufAndDiscard_of_le {data : List UInt8} {n : Nat} (h : n ≤ data.length) :
    getBufAndDiscard data n = .ok (data.take n, data.drop n) := by
  rw [getBufAndDiscard, if_neg (by omega)]

/-- `handle_rx_mode` changes only the RX mode, and answers ERR only when it
changes nothing. -/
theorem handleRxMode_ok {c c' : CtrlInfo} {cmd ack : UInt8} {data : List UInt8}
    (h : c.handleRxMode cmd data = .ok (ack, c')) :
    c'.macInfo = c.macInfo ∧ c'.vlanMap = c.vlanMap ∧ c'.mac = c.mac ∧ (ack = VIRTIO_NET_ERR → c' = c) := by
  unfold CtrlInfo.handleRxMode at h
  cases hb : getBufAndDiscard data 1 with
  | error e => rw [hb] at h; cases h
  | ok r =>
    rw [hb] at h
    simp only [bind, Except.bind, pure, Except.pure] at h
    split_ifs at h <;> cases h <;> simp [VIRTIO_NET_OK, VIRTIO_NET_ERR]

/-- `handle_vlan_table`: ERR with the state unchanged, or OK with the id of
the request, below 4096, added or removed. -/
theorem handleVlanTable_cases (c : CtrlInfo) (cmd : UInt8) (data : List UInt8) :
    c.handleVlanTable cmd data = (VIRTIO_NET_ERR, c) ∨
      ∃ vid : UInt16, vid < CTRL_MAX_VLAN ∧ vid = UInt16.ofNat (leDecode (data.take 2)) ∧
        (cmd = VIRTIO_NET_CTRL_VLAN_ADD ∧ c.handleVlanTable cmd data = (VIRTIO_NET_OK, c.vlanAdd vid) ∨
          cmd = VIRTIO_NET_CTRL_VLAN_DEL ∧ c.handleVlanTable cmd data = (VIRTIO_NET_OK, c.vlanDel vid)) := by
  unfold CtrlInfo.handleVlanTable
  by_cases hlen : 2 ≤ data.length
  · rw [getBufAndDiscard_of_le hlen]
    dsimp only
    split_ifs with hmax hadd hdel
    · exact Or.inl rfl
    · exact Or.inr ⟨_, UInt16.not_le.1 hmax, rfl, Or.inl ⟨hadd, rfl⟩⟩
    · exact Or.inr ⟨_, UInt16.not_le.1 hmax, rfl, Or.inr ⟨hdel, rfl⟩⟩
    · exact Or.inl rfl
  · rw [getBufAndDiscard, if_pos (by omega)]
    exact Or.inl rfl

/-- `handle_vlan_table` changes only the VLAN bitmap. -/
theorem handleVlanTable_frame (c : CtrlInfo) (cmd : UInt8) (data : List UInt8) :
    (c.handleVlanTable cmd data).2.rxMode = c.rxMode ∧ (c.handleVlanTable cmd data).2.macInfo = c.macInfo ∧
      (c.handleVlanTable cmd data).2.mac = c.mac := by
  rcases handleVlanTable_cases c cmd data with h | ⟨vid, -, -, ⟨-, h⟩ | ⟨-, h⟩⟩ <;>
    rw [h] <;> exact ⟨rfl, rfl, rfl⟩

/-- `set_mac_table` changes only the MAC tables and their flags. -/
theorem setMacTable_frame (c : CtrlInfo) (data : List UInt8) : SameNonMac c (c.setMacTable data).2 := by
  unfold CtrlInfo.setMacTable
  split
  · exact ⟨rfl, rfl, rfl⟩
  · dsimp only
    split <;> exact ⟨rfl, rfl, rfl⟩

/-- `handle_mac` changes only the MAC address and tables. -/
theorem handleMac_frame (c : CtrlInfo) (cmd : UInt8) (data : List UInt8) :
    (c.handleMac cmd data).2.rxMode = c.rxMode ∧ (c.handleMac cmd data).2.vlanMap = c.vlanMap := by
  unfold CtrlInfo.handleMac
  split_ifs
  · split <;> exact ⟨rfl, rfl⟩
  · have hf := setMacTable_frame c data
    split <;> rename_i heq <;> rw [heq] at hf <;> exact ⟨hf.rxMode, hf.vlanMap⟩
  · exact ⟨rfl, rfl⟩

/-- `handle_ctrl`'s dispatch changes the VLAN bitmap only through a VLAN
command, and answers ERR only with the state unchanged, except for a
MAC_TABLE_SET. -/
theorem handleCtrlCmd_cases (handleMq : UInt8 → List UInt8 → UInt8) (c : CtrlInfo) (cls cmd : UInt8)
    (data : List UInt8) :
    let r := c.handleCtrlCmd handleMq cls cmd data
    (cls = VIRTIO_NET_CTRL_VLAN ∧ r = c.handleVlanTable cmd data) ∨
      (r.2.vlanMap = c.vlanMap ∧ (r.1 = VIRTIO_NET_ERR → ¬(cls = VIRTIO_NET_CTRL_MAC ∧
        cmd = VIRTIO_NET_CTRL_MAC_TABLE_SET) → r.2 = c)) := by
  intro r
  unfold r CtrlInfo.handleCtrlCmd
  split_ifs with hrx hmac hvlan hmq
  · -- RX: a failed read or an ERR answer keeps the state
    right
    split
    · exact ⟨rfl, fun _ _ => rfl⟩
    · rename_i r' hr
      obtain ⟨-, hv, -, herr⟩ := handleRxMode_ok hr
      exact ⟨hv, fun he _ => herr he⟩
  · -- MAC: ERR changes nothing unless the table command failed half way
    right
    refine ⟨(handleMac_frame c cmd data).2, fun he hnot => ?_⟩
    unfold CtrlInfo.handleMac at he ⊢
    split_ifs at he ⊢ with hset htab
    · revert he
      rcases getBufAndDiscard data MAC_ADDR_LEN with e | ⟨m, d⟩
      · exact fun _ => rfl
      · intro he
        have hok : VIRTIO_NET_OK = VIRTIO_NET_ERR := he
        exact absurd hok (by decide)
    · exact absurd ⟨hmac, htab⟩ hnot
    · rfl
  · exact Or.inl ⟨hvlan, rfl⟩
  · exact Or.inr ⟨rfl, fun _ _ => rfl⟩
  · exact Or.inr ⟨rfl, fun _ _ => rfl⟩

/-! ## Runs of the control queue -/

/-- The filter states the control queue can reach from `c`: any sequence of
requests, each handled by `handle_ctrl`'s dispatch. -/
inductive Reachable (handleMq : UInt8 → List UInt8 → UInt8) (c : CtrlInfo) : CtrlInfo → Prop
  | refl : Reachable handleMq c c
  | step {c' : CtrlInfo} (cls cmd : UInt8) (data : List UInt8) :
      Reachable handleMq c c' → Reachable handleMq c (c'.handleCtrlCmd handleMq cls cmd data).2

/-- No id of 4096 or more is on: the bitmap holds only ids a VLAN_ADD can add. -/
def VlanBounded (c : CtrlInfo) : Prop :=
  ∀ w : UInt16, CTRL_MAX_VLAN ≤ w → c.vlanOn w = false

theorem vlanBounded_new (mac : List UInt8) : VlanBounded (CtrlInfo.new mac) := by
  intro w _
  rw [vlanOn_eq_testBit]
  exact Nat.zero_testBit _

/-- A state with the same bitmap is bounded with it. -/
theorem VlanBounded.of_vlanMap {c c' : CtrlInfo} (h : VlanBounded c) (hv : c'.vlanMap = c.vlanMap) :
    VlanBounded c' := by
  intro w hw
  rw [vlanOn_eq_testBit, hv, ← vlanOn_eq_testBit]
  exact h w hw

/-- One request keeps the bitmap bounded: a VLAN_ADD adds an id below 4096. -/
theorem VlanBounded.handleCtrlCmd {c : CtrlInfo} (h : VlanBounded c) (handleMq : UInt8 → List UInt8 → UInt8)
    (cls cmd : UInt8) (data : List UInt8) : VlanBounded (c.handleCtrlCmd handleMq cls cmd data).2 := by
  rcases handleCtrlCmd_cases handleMq c cls cmd data with ⟨-, hr⟩ | ⟨hv, -⟩
  · rw [hr]
    rcases handleVlanTable_cases c cmd data with he | ⟨vid, hvid, -, ⟨-, he⟩ | ⟨-, he⟩⟩ <;> rw [he]
    · exact h
    · intro w hw
      have hne : decide (w = vid) = false := decide_eq_false fun hwv => by
        rw [hwv] at hw
        exact absurd hvid (UInt16.not_lt.2 hw)
      rw [vlanOn_vlanAdd, h w hw, hne, Bool.or_false]
    · intro w hw
      rw [vlanOn_vlanDel, h w hw, Bool.false_and]
  · exact h.of_vlanMap hv

/-- Every state reachable from a fresh device has a bounded bitmap. -/
theorem Reachable.vlanBounded {handleMq : UInt8 → List UInt8 → UInt8} {mac : List UInt8} {c : CtrlInfo}
    (hr : Reachable handleMq (CtrlInfo.new mac) c) : VlanBounded c := by
  induction hr with
  | refl => exact vlanBounded_new mac
  | step cls cmd data _ ih => exact ih.handleCtrlCmd handleMq cls cmd data

/-! ## What the filter drops -/

/-- The VLAN check: with promisc off, a tagged frame whose looked-up id is off
is dropped. -/
theorem filterPackets_of_vlan_off {c : CtrlInfo} {buf : List UInt8} (hp : c.rxMode.promisc = false)
    (ht : isVlanTagged buf = true) (hoff : c.vlanOn (frameVid buf) = false) : c.filterPackets buf = true := by
  rw [CtrlInfo.filterPackets, if_neg (by rw [hp]; decide), if_pos (by rw [ht, hoff]; rfl)]

/-- The id looked up is the whole TCI: it is 4096 or more as soon as byte 14
carries a priority or DEI bit. -/
theorem max_vlan_le_frameVid {buf : List UInt8} (hpri : 16 ≤ (buf.getD ETHERNET_HDR_LENGTH 0).toNat) :
    CTRL_MAX_VLAN ≤ frameVid buf := by
  have hhi : (buf.getD ETHERNET_HDR_LENGTH 0).toNat < 256 := UInt8.toNat_lt _
  have hv : (frameVid buf).toNat =
      (buf.getD ETHERNET_HDR_LENGTH 0).toNat * 256 ||| (buf.getD (ETHERNET_HDR_LENGTH + 1) 0).toNat := by
    rw [frameVid, UInt16.toNat_or, UInt16.toNat_shiftLeft, UInt8.toNat_toUInt16, UInt8.toNat_toUInt16,
      Nat.shiftLeft_eq, show 2 ^ ((8 : UInt16).toNat % 16) = 256 from rfl]
    congr 1
    exact Nat.mod_eq_of_lt (by omega)
  rw [UInt16.le_iff_toNat_le, hv]
  exact le_trans (by show 4096 ≤ 16 * 256; decide) (le_trans (Nat.mul_le_mul_right 256 hpri) Nat.left_le_or)

/-- On every state the control queue can reach with promisc off, a tagged
frame with a priority or DEI bit set is dropped, whatever its VLAN id and
whatever VLANs were added. -/
theorem filterPackets_drops_priority_tagged {handleMq : UInt8 → List UInt8 → UInt8} {mac : List UInt8}
    {c : CtrlInfo} (hr : Reachable handleMq (CtrlInfo.new mac) c) (hp : c.rxMode.promisc = false)
    {buf : List UInt8} (ht : isVlanTagged buf = true) (hpri : 16 ≤ (buf.getD ETHERNET_HDR_LENGTH 0).toNat) :
    c.filterPackets buf = true :=
  filterPackets_of_vlan_off hp ht (hr.vlanBounded _ (max_vlan_le_frameVid hpri))

/-! ## MAC tables -/

section MacTable

variable {overflow : Bool} {room n : Nat}

/-- A round of `set_mac_table` sets its overflow flag or keeps it; it never
clears it. -/
theorem setMacTableOne_flag {data : List UInt8} {r : List (List UInt8) × Bool × List UInt8}
    (h : setMacTableOne overflow room data = .ok r) (hof : overflow = true) : r.2.1 = true := by
  unfold setMacTableOne at h
  cases hb : getBufAndDiscard data 4 with
  | error e => rw [hb] at h; cases h
  | ok bd =>
    rw [hb] at h
    simp only [bind, Except.bind, pure, Except.pure] at h
    by_cases h0 : leDecode bd.1 = 0
    · rw [if_pos h0] at h
      cases h
      exact hof
    rw [if_neg h0] at h
    by_cases hsize : leDecode bd.1 * MAC_ADDR_LEN > bd.2.length
    · rw [if_pos hsize] at h
      cases h
    rw [if_neg hsize] at h
    by_cases hroom : leDecode bd.1 > room
    · -- over the room: flagged, the bytes skipped or not
      rw [if_pos hroom] at h
      cases h
      rfl
    -- the entries are read: the flag is passed through
    rw [if_neg hroom] at h
    cases hm : getBufAndDiscard bd.2 (leDecode bd.1 * MAC_ADDR_LEN) with
    | error e => rw [hm] at h; cases h
    | ok md => rw [hm] at h; cases h; exact hof

/-- The count at the front of a round, read back. -/
private theorem take_drop_count {n : Nat} (rest : List UInt8) (hw : n < 256 ^ 4) :
    leDecode ((leEncode 4 n ++ rest).take 4) = n ∧ (leEncode 4 n ++ rest).drop 4 = rest := by
  refine ⟨?_, List.drop_left' (length_leEncode 4 n)⟩
  rw [List.take_left' (length_leEncode 4 n), leDecode_leEncode, Nat.mod_eq_of_lt hw]

/-- A count that fits the room, followed by its addresses: the table becomes
exactly those addresses, and the flag stays as it was. -/
theorem setMacTableOne_fits {macs rest : List UInt8} (hn : n ≤ room)
    (hlen : macs.length = n * MAC_ADDR_LEN) (hw : n < 256 ^ 4) :
    setMacTableOne overflow room (leEncode 4 n ++ (macs ++ rest)) = .ok (macsOf macs n, overflow, rest) := by
  obtain ⟨hdec, hdrop⟩ := take_drop_count (macs ++ rest) hw
  unfold setMacTableOne
  rw [getBufAndDiscard_of_le (by simp)]
  simp only [bind, Except.bind, pure, Except.pure, hdec, hdrop]
  by_cases h0 : n = 0
  · -- no entries: the addresses are empty and the table is cleared
    subst h0
    have hm : macs = [] := List.length_eq_zero_iff.1 (by rw [hlen, Nat.zero_mul])
    rw [hm, List.nil_append, if_pos rfl]
    rfl
  · have hsize : n * MAC_ADDR_LEN ≤ (macs ++ rest).length := by
      rw [List.length_append, hlen]; omega
    rw [if_neg h0, if_neg (by omega), if_neg (by omega), getBufAndDiscard_of_le hsize]
    rw [List.take_left' hlen, List.drop_left' hlen]

/-- A count over the room, with that many addresses present: the table is
cleared and flagged, and the addresses are skipped only when more bytes
follow them. -/
theorem setMacTableOne_over {rest : List UInt8} (hroom : room < n)
    (hlen : n * MAC_ADDR_LEN ≤ rest.length) (hw : n < 256 ^ 4) :
    setMacTableOne overflow room (leEncode 4 n ++ rest) =
      .ok ([], true, if n * MAC_ADDR_LEN < rest.length then rest.drop (n * MAC_ADDR_LEN) else rest) := by
  obtain ⟨hdec, hdrop⟩ := take_drop_count rest hw
  unfold setMacTableOne
  rw [getBufAndDiscard_of_le (by simp)]
  simp only [bind, Except.bind, pure, Except.pure, hdec, hdrop]
  rw [if_neg (by omega), if_neg (by omega), if_pos hroom]

end MacTable

@[simp] theorem length_macsOf (macs : List UInt8) (n : Nat) : (macsOf macs n).length = n := by
  rw [macsOf, List.length_map, List.length_range]

/-- A well-formed MAC_TABLE_SET whose counts fit: both tables become exactly
the given addresses, and both overflow flags keep their old values. -/
theorem setMacTable_fits (c : CtrlInfo) {nu nm : Nat} {macsU macsM rest : List UInt8}
    (hu : nu ≤ CTRL_MAC_TABLE_LEN) (hm : nm ≤ CTRL_MAC_TABLE_LEN - nu)
    (lu : macsU.length = nu * MAC_ADDR_LEN) (lm : macsM.length = nm * MAC_ADDR_LEN) :
    c.setMacTable (leEncode 4 nu ++ (macsU ++ (leEncode 4 nm ++ (macsM ++ rest)))) =
      (.ok VIRTIO_NET_OK,
        { c with
          macInfo := { c.macInfo with uniMacTable := macsOf macsU nu, multiMacTable := macsOf macsM nm } }) := by
  have hwu : nu < 256 ^ 4 := lt_of_le_of_lt hu (by decide)
  have hwm : nm < 256 ^ 4 := lt_of_le_of_lt (le_trans hm (Nat.sub_le _ _)) (by decide)
  unfold CtrlInfo.setMacTable
  rw [setMacTableOne_fits hu lu hwu]
  dsimp only
  rw [length_macsOf, setMacTableOne_fits hm lm hwm]

/-- MAC_TABLE_SET never clears the unicast overflow flag. -/
theorem uniMacOf_setMacTable {c : CtrlInfo} (data : List UInt8) (h : c.macInfo.uniMacOf = true) :
    (c.setMacTable data).2.macInfo.uniMacOf = true := by
  unfold CtrlInfo.setMacTable
  split
  · exact h
  · rename_i r hr
    dsimp only
    split <;> exact setMacTableOne_flag hr h

/-- No request of the control queue clears the unicast overflow flag. -/
theorem uniMacOf_handleCtrlCmd {c : CtrlInfo} (handleMq : UInt8 → List UInt8 → UInt8) (cls cmd : UInt8)
    (data : List UInt8) (h : c.macInfo.uniMacOf = true) :
    (c.handleCtrlCmd handleMq cls cmd data).2.macInfo.uniMacOf = true := by
  unfold CtrlInfo.handleCtrlCmd
  split_ifs
  · split
    · exact h
    · rename_i r hr
      rw [(handleRxMode_ok hr).1]
      exact h
  · unfold CtrlInfo.handleMac
    split_ifs
    · split <;> exact h
    · have hf := uniMacOf_setMacTable data h
      split <;> rename_i heq <;> rw [heq] at hf <;> exact hf
    · exact h
  · rw [(handleVlanTable_frame c cmd data).2.1]
    exact h
  · exact h
  · exact h

/-- Once the unicast table has overflowed, the flag stays set on every state
the control queue reaches afterwards, whatever tables are set later. -/
theorem Reachable.uniMacOf {handleMq : UInt8 → List UInt8 → UInt8} {c c' : CtrlInfo}
    (hr : Reachable handleMq c c') (h : c.macInfo.uniMacOf = true) : c'.macInfo.uniMacOf = true := by
  induction hr with
  | refl => exact h
  | step cls cmd data _ ih => exact uniMacOf_handleCtrlCmd handleMq cls cmd data ih

/-- With the unicast flag set, promisc and no_uni off, every unicast frame
that passes the VLAN check is accepted, in the table or not. -/
theorem filterPackets_unicast_of_uniMacOf {c : CtrlInfo} {buf : List UInt8} (hp : c.rxMode.promisc = false)
    (hvlan : (isVlanTagged buf && !c.vlanOn (frameVid buf)) = false) (huni : buf.getD 0 0 &&& 0x01 = 0)
    (hno : c.rxMode.noUni = false) (hof : c.macInfo.uniMacOf = true) : c.filterPackets buf = false := by
  rw [CtrlInfo.filterPackets, if_neg (by rw [hp]; decide), if_neg (by rw [hvlan]; decide)]
  dsimp only
  rw [huni, if_neg (by decide), if_neg (by rw [hno]; decide), if_pos (by rw [hof, Bool.or_true, Bool.true_or])]

set_option maxRecDepth 8192 in
/-- Three runs of the control queue on a fresh device with MAC `mac`. After
promisc is turned off and VLAN 5 added (both answered OK), a frame to the
device's own MAC tagged with VLAN id 5 and priority 1 (TCI 0x2005) is dropped.
After a MAC_TABLE_SET of 65 unicast addresses and then one of empty tables
(both OK), the unicast table is empty but a frame to another unicast MAC is
accepted. A MAC_TABLE_SET whose multicast count is cut short is answered ERR
and has replaced the unicast table. -/
theorem filterPackets_diverges_from_acked_commands :
    (let mac : List UInt8 := [0x52, 0x54, 0x00, 0x12, 0x34, 0x56]
    let peer : List UInt8 := [0x52, 0x54, 0x00, 0x65, 0x43, 0x21]
    let rx := (CtrlInfo.new mac).handleRxMode VIRTIO_NET_CTRL_RX_PROMISC [0]
    -- the ack and state as handle_ctrl takes them
    let rxAck := match rx with | .ok r => r.1 | .error _ => VIRTIO_NET_ERR
    let c1 := match rx with | .ok r => r.2 | .error _ => CtrlInfo.new mac
    let vl := c1.handleVlanTable VIRTIO_NET_CTRL_VLAN_ADD [5, 0]
    let t1 := vl.2.handleMac VIRTIO_NET_CTRL_MAC_TABLE_SET
      (leEncode 4 65 ++ List.replicate 390 0 ++ leEncode 4 0)
    let t2 := t1.2.handleMac VIRTIO_NET_CTRL_MAC_TABLE_SET (leEncode 4 0 ++ leEncode 4 0)
    let t3 := vl.2.handleMac VIRTIO_NET_CTRL_MAC_TABLE_SET (leEncode 4 1 ++ peer ++ [1, 0, 0])
    (rxAck = VIRTIO_NET_OK ∧ vl.1 = VIRTIO_NET_OK ∧
      vl.2.filterPackets (mac ++ peer ++ [0x81, 0x00, 0x20, 0x05, 0x08, 0x00]) = true) ∧
    (t1.1 = VIRTIO_NET_OK ∧ t2.1 = VIRTIO_NET_OK ∧ t2.2.macInfo.uniMacTable = [] ∧
      t2.2.filterPackets (peer ++ mac ++ [0x08, 0x00, 0x45, 0x00, 0x00, 0x54]) = false) ∧
    (t3.1 = VIRTIO_NET_ERR ∧ t3.2.macInfo.uniMacTable ≠ vl.2.macInfo.uniMacTable)) := by
  decide

end StratoVirt.Virtio
