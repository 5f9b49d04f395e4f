import StratoVirt.Util.Iov

/-!
# virtio-gpu: resources, scanouts and the raw-pointer accesses they make

`virtio/src/device/gpu.rs`. The guest creates 2D resources (each backed by a
host pixman image), attaches guest memory to them as host iovecs, copies that
memory into the image (`cmd_transfer_to_host_2d`), shows a rectangle of a
resource on a scanout (`cmd_set_scanout`, which builds a display surface over
raw memory) and defines the cursor from a resource (`update_cursor_image`).

The commands are modelled as transitions of `GpuIoHandler` that also return
the raw-memory accesses they make (`Access`): the iovec pieces copied and the
image range written by a transfer, the memory a new surface covers, and the
cursor copy. Byte contents are not modelled, only where the accesses fall.

Two facts of the code decide the surface's memory:

* the data pointer is a `*mut u32` (from `pixman_image_get_data`, or
  `iov[0].iov_base as *mut u32`), and `offset(n)` on it moves `4 * n` bytes,
  although `n = x * bpp + y * stride` is already a byte count;
* for a framebuffer resource (`resource_id & VIRTIO_GPU_RES_FRAMEBUF`), the
  surface lies over the first backing iovec, whose length is never compared
  with the rectangle.

The pixman formats and `pixman_format_bpp` are the repository's own
(`util/src/pixman.rs`). `pixman_image_create_bits` and the getters the device
reads an image with belong to the pixman library, outside the repository: the
commands take them as the parameter `Pixman`, and `PixmanSpec` is what the
code relies on from them, an image of the size asked for whose rows are
`((width·bpp + 31)/32)·4` bytes.
-/

namespace StratoVirt.Gpu

open StratoVirt.Util

/-! ## Constants -/

def VIRTIO_GPU_RES_WIN_FRAMEBUF : Nat := 0x80000000
def VIRTIO_GPU_RES_EFI_FRAMEBUF : Nat := 0x40000000
def VIRTIO_GPU_RES_FRAMEBUF : Nat := VIRTIO_GPU_RES_WIN_FRAMEBUF ||| VIRTIO_GPU_RES_EFI_FRAMEBUF

def VIRTIO_GPU_CMD_UPDATE_CURSOR : Nat := 0x0300
def VIRTIO_GPU_CMD_MOVE_CURSOR : Nat := 0x0301

def VIRTIO_GPU_RESP_OK_NODATA : Nat := 0x1100
def VIRTIO_GPU_RESP_ERR_UNSPEC : Nat := 0x1200
def VIRTIO_GPU_RESP_ERR_OUT_OF_MEMORY : Nat := 0x1201
def VIRTIO_GPU_RESP_ERR_INVALID_SCANOUT_ID : Nat := 0x1202
def VIRTIO_GPU_RESP_ERR_INVALID_RESOURCE_ID : Nat := 0x1203
def VIRTIO_GPU_RESP_ERR_INVALID_PARAMETER : Nat := 0x1205

def VIRTIO_GPU_FORMAT_B8G8R8A8_UNORM : Nat := 1
def VIRTIO_GPU_FORMAT_B8G8R8X8_UNORM : Nat := 2
def VIRTIO_GPU_FORMAT_A8R8G8B8_UNORM : Nat := 3
def VIRTIO_GPU_FORMAT_X8R8G8B8_UNORM : Nat := 4
def VIRTIO_GPU_FORMAT_R8G8B8A8_UNORM : Nat := 67
def VIRTIO_GPU_FORMAT_X8B8G8R8_UNORM : Nat := 68
def VIRTIO_GPU_FORMAT_A8B8G8R8_UNORM : Nat := 121
def VIRTIO_GPU_FORMAT_R8G8B8X8_UNORM : Nat := 134

/-! ## pixman -/

/-- The pixman formats `get_pixman_format` answers. -/
inductive PixmanFormat where
  | a8r8g8b8 | x8r8g8b8 | b8g8r8a8 | b8g8r8x8 | a8b8g8r8 | r8g8b8x8 | r8g8b8a8 | x8b8g8r8
  deriving Repr, DecidableEq

/-- `get_pixman_format`. -/
def getPixmanFormat (format : Nat) : Except String PixmanFormat :=
  if format = VIRTIO_GPU_FORMAT_B8G8R8A8_UNORM then .ok .a8r8g8b8
  else if format = VIRTIO_GPU_FORMAT_B8G8R8X8_UNORM then .ok .x8r8g8b8
  else if format = VIRTIO_GPU_FORMAT_A8R8G8B8_UNORM then .ok .b8g8r8a8
  else if format = VIRTIO_GPU_FORMAT_X8R8G8B8_UNORM then .ok .b8g8r8x8
  else if format = VIRTIO_GPU_FORMAT_R8G8B8A8_UNORM then .ok .a8b8g8r8
  else if format = VIRTIO_GPU_FORMAT_X8B8G8R8_UNORM then .ok .r8g8b8x8
  else if format = VIRTIO_GPU_FORMAT_A8B8G8R8_UNORM then .ok .r8g8b8a8
  else if format = VIRTIO_GPU_FORMAT_R8G8B8X8_UNORM then .ok .x8b8g8r8
  else .error "Unsupported pixman format"

/-- `pixman_format_code_t`: the codes of the formats above. -/
def PixmanFormat.code : PixmanFormat → Nat
  | .a8r8g8b8 => 537036936
  | .x8r8g8b8 => 537004168
  | .a8b8g8r8 => 537102472
  | .x8b8g8r8 => 537069704
  | .b8g8r8a8 => 537430152
  | .b8g8r8x8 => 537397384
  | .r8g8b8a8 => 537495688
  | .r8g8b8x8 => 537462920

/-- `pixman_format_reshift`, in `u32`. -/
def pixmanFormatReshift (val ofs num : Nat) : Nat :=
  (((val >>> ofs) &&& ((1 <<< num) - 1)) <<< ((val >>> 22) &&& 3)) % 2 ^ 32

/-- `pixman_format_bpp`: the bits a pixel of a format code takes, as a `u8`. -/
def pixmanFormatBpp (val : Nat) : Nat := pixmanFormatReshift val 24 8 % 2 ^ 8

/-- `get_image_hostmem`, in `u64`. -/
def getImageHostmem (format : PixmanFormat) (width height : Nat) : Nat :=
  let bpp := pixmanFormatBpp format.code
  let stride := ((width * bpp + 0x1f) >>> 5) * 4
  (height * stride) % 2 ^ 64

/-- A pixman image, by what the device reads of it: `pixman_image_get_format`,
`pixman_image_get_width`, `pixman_image_get_height` and
`pixman_image_get_stride`. -/
structure PixmanImage where
  format : PixmanFormat
  width : Nat
  height : Nat
  stride : Nat
  deriving Repr, DecidableEq

/-- The bytes of an image's data. -/
def PixmanImage.len (img : PixmanImage) : Nat := img.height * img.stride

/-- The pixman library, by the call that makes images:
`pixman_image_create_bits(format, width, height, NULL, 0)`, `none` when it
returns `NULL`. -/
structure Pixman where
  imageCreateBits : PixmanFormat → Nat → Nat → Option PixmanImage

/-- What the device relies on from pixman: an image `pixman_image_create_bits`
allocates, with no bits of its own, has the format and size asked for and rows
of `((width * bpp + 31) >> 5) * 4` bytes, as pixman's `create_bits` lays them
out. -/
structure PixmanSpec (px : Pixman) : Prop where
  createBits : ∀ format width height img, px.imageCreateBits format width height = some img →
    img = ⟨format, width, height, ((width * pixmanFormatBpp format.code + 0x1f) >>> 5) * 4⟩

/-! ## Device state -/

/-- `VirtioGpuRect`. -/
structure VirtioGpuRect where
  xCoord : Nat
  yCoord : Nat
  width : Nat
  height : Nat
  deriving Repr, DecidableEq

/-- `GpuResource`. -/
structure GpuResource where
  resourceId : Nat
  width : Nat
  height : Nat
  format : Nat
  iov : List Iovec
  scanoutsBitmask : Nat
  pixmanImage : Option PixmanImage
  hostMem : Nat
  deriving Repr

/-- The memory a surface's data pointer points into. -/
inductive SurfaceBuffer where
  /-- The resource's pixman image, of `len` bytes. -/
  | image (len : Nat)
  /-- A framebuffer resource's first backing iovec. -/
  | iov (iov : Iovec)
  deriving Repr, DecidableEq

/-- The length of a surface's buffer. -/
def SurfaceBuffer.len : SurfaceBuffer → Nat
  | .image len => len
  | .iov v => v.iovLen

/-- `DisplaySurface`, by the memory it shows: its buffer, the byte offset of
its data pointer in it, its row stride, size and pixel size. -/
structure DisplaySurface where
  buffer : SurfaceBuffer
  offset : Nat
  stride : Nat
  width : Nat
  height : Nat
  bpp : Nat
  deriving Repr, DecidableEq

/-- `DisplayMouse`: its size and the length of its pixel data. -/
structure DisplayMouse where
  width : Nat
  height : Nat
  hotX : Nat
  hotY : Nat
  dataLen : Nat
  deriving Repr, DecidableEq

/-- `DisplayMouse::new`: `width * height` pixels of four bytes. -/
def DisplayMouse.new (width height hotX hotY : Nat) : DisplayMouse :=
  ⟨width, height, hotX, hotY, width * height * 4⟩

/-- `GpuScanout`. -/
structure GpuScanout where
  surface : Option DisplaySurface
  mouse : Option DisplayMouse
  width : Nat
  height : Nat
  x : Nat
  y : Nat
  resourceId : Nat
  cursorVisible : Bool
  deriving Repr

/-- An unused scanout. -/
def GpuScanout.default : GpuScanout := ⟨none, none, 0, 0, 0, 0, 0, false⟩

/-- `GpuScanout::clear`. -/
def GpuScanout.clear (s : GpuScanout) : GpuScanout :=
  { s with resourceId := 0, surface := none, width := 0, height := 0, cursorVisible := false }

/-- The mouse part of `update_cursor`: a 64x64 mouse is created on first use;
an update (not a move) sets the hot spot of an existing one. -/
def GpuScanout.updateMouse (hotX hotY : Nat) (isUpdate : Bool) (s : GpuScanout) : GpuScanout :=
  match s.mouse with
  | none => { s with mouse := some (DisplayMouse.new 64 64 hotX hotY) }
  | some m => if isUpdate then { s with mouse := some { m with hotX := hotX, hotY := hotY } } else s

/-- The fields of `GpuIoHandler` the commands read and write. -/
structure GpuIoHandler where
  resourcesList : List GpuResource
  numScanouts : Nat
  scanouts : List GpuScanout
  maxHostmem : Nat
  usedHostmem : Nat

/-- The handler `activate` starts: no resources, one unused scanout per
console, nothing allocated. -/
def GpuIoHandler.new (numScanouts consoles maxHostmem : Nat) : GpuIoHandler :=
  ⟨[], numScanouts, List.replicate consoles .default, maxHostmem, 0⟩

/-- A raw-memory access a command makes. -/
inductive Access where
  /-- `iov_to_buf_direct` from the resource's backing: the pieces it reads,
  into the image bytes `[dst, dst + len)` of an image of `imageLen` bytes. -/
  | toImage (iov : List Iovec) (pieces : List IovPiece) (dst len imageLen : Nat)
  /-- A new surface for a scanout. -/
  | surface (s : DisplaySurface)
  /-- `ptr::copy` of `len` bytes from an image of `srcLen` bytes into a cursor
  buffer of `dstLen` bytes. -/
  | cursorCopy (len srcLen dstLen : Nat)
  deriving Repr, DecidableEq

/-- What a command leaves: the device, the response (none on the cursor
queue), and the accesses made. -/
structure GpuResult where
  gpu : GpuIoHandler
  resp : Option Nat
  accesses : List Access

namespace GpuIoHandler

variable (g : GpuIoHandler)

/-- `get_resource_idx`. -/
def getResourceIdx (resourceId : Nat) : Option Nat :=
  g.resourcesList.findIdx? (·.resourceId == resourceId)

/-- The resource at an index. -/
def resource (i : Nat) : Option GpuResource := g.resourcesList[i]?

/-- Change the resource at an index. -/
def modifyResource (i : Nat) (f : GpuResource → GpuResource) : GpuIoHandler :=
  { g with resourcesList := g.resourcesList.modify i f }

/-- Change the scanout at an index. -/
def modifyScanout (i : Nat) (f : GpuScanout → GpuScanout) : GpuIoHandler :=
  { g with scanouts := g.scanouts.modify i f }

/-- The scanout at an index (the source indexes `scanouts` directly). -/
def scanout (i : Nat) : GpuScanout := g.scanouts.getD i .default

/-- `get_backed_resource_idx`: a resource with backing and an image. -/
def getBackedResourceIdx (resourceId : Nat) : Option Nat × Nat :=
  match g.getResourceIdx resourceId with
  | none => (none, VIRTIO_GPU_RESP_ERR_INVALID_RESOURCE_ID)
  | some i =>
    match g.resource i with
    | some res =>
      if res.iov.isEmpty ∨ res.pixmanImage.isNone then (none, VIRTIO_GPU_RESP_ERR_UNSPEC)
      else (some i, 0)
    | none => (none, VIRTIO_GPU_RESP_ERR_INVALID_RESOURCE_ID)

/-- `disable_scanout`: unlink the scanout's resource and clear the scanout. -/
def disableScanout (scanoutId : Nat) : GpuIoHandler :=
  let resourceId := (g.scanout scanoutId).resourceId
  if resourceId = 0 then g
  else
    let g := match g.getResourceIdx resourceId with
      | some i => g.modifyResource i fun res =>
          { res with scanoutsBitmask := res.scanoutsBitmask &&& (2 ^ 32 - 1 - 2 ^ scanoutId) }
      | none => g
    g.modifyScanout scanoutId GpuScanout.clear

/-- `resource_destroy`: disable every scanout showing the resource, give back
its host memory and remove it. -/
def resourceDestroy (resIndex : Nat) : GpuIoHandler :=
  let bitmask := ((g.resource resIndex).map (·.scanoutsBitmask)).getD 0
  let g := (List.range g.numScanouts).foldl
    (fun g i => if bitmask &&& 2 ^ i ≠ 0 then g.disableScanout i else g) g
  let hostMem := ((g.resource resIndex).map (·.hostMem)).getD 0
  { g with usedHostmem := g.usedHostmem - hostMem, resourcesList := g.resourcesList.eraseIdx resIndex }

end GpuIoHandler

/-- `is_rect_in_resource`, with `u32::checked_add`. -/
def isRectInResource (rect : VirtioGpuRect) (res : GpuResource) : Bool :=
  rect.xCoord + rect.width < 2 ^ 32 ∧ rect.xCoord + rect.width ≤ res.width ∧
    rect.yCoord + rect.height < 2 ^ 32 ∧ rect.yCoord + rect.height ≤ res.height

/-- `pixman_format_bpp` in bytes, rounded up, as the commands compute it. -/
def bytesPerPixel (format : PixmanFormat) : Nat := (pixmanFormatBpp format.code + 8 - 1) / 8

/-! ## Commands -/

/-- `VirtioGpuResourceCreate2d`. -/
structure VirtioGpuResourceCreate2d where
  resourceId : Nat
  format : Nat
  width : Nat
  height : Nat
  deriving Repr, DecidableEq

/-- `VirtioGpuSetScanout`. -/
structure VirtioGpuSetScanout where
  rect : VirtioGpuRect
  scanoutId : Nat
  resourceId : Nat
  deriving Repr, DecidableEq

/-- `VirtioGpuTransferToHost2d`. -/
structure VirtioGpuTransferToHost2d where
  rect : VirtioGpuRect
  offset : Nat
  resourceId : Nat
  deriving Repr, DecidableEq

namespace GpuIoHandler

variable (g : GpuIoHandler)

/-- A response without accesses. -/
def respond (g : GpuIoHandler) (resp : Nat) : GpuResult := ⟨g, some resp, []⟩

/-- `cmd_resource_create_2d`, with `px` the pixman library. -/
def cmdResourceCreate2d (px : Pixman) (info : VirtioGpuResourceCreate2d) : GpuResult :=
  if info.resourceId = 0 then g.respond VIRTIO_GPU_RESP_ERR_INVALID_RESOURCE_ID
  else if (g.getResourceIdx info.resourceId).isSome then
    g.respond VIRTIO_GPU_RESP_ERR_INVALID_RESOURCE_ID
  else
    match getPixmanFormat info.format with
    | .error _ => g.respond VIRTIO_GPU_RESP_ERR_INVALID_PARAMETER
    | .ok pixmanFormat =>
      let hostMem := getImageHostmem pixmanFormat info.width info.height
      -- the image is only allocated when it fits in `max_hostmem`
      let image := if hostMem + g.usedHostmem < 2 ^ 64 ∧ hostMem + g.usedHostmem ≤ g.maxHostmem
        then px.imageCreateBits pixmanFormat info.width info.height else none
      match image with
      | none => g.respond VIRTIO_GPU_RESP_ERR_OUT_OF_MEMORY
      | some img =>
        let res : GpuResource :=
          ⟨info.resourceId, info.width, info.height, info.format, [], 0, some img, hostMem⟩
        let g' : GpuIoHandler :=
          { g with usedHostmem := g.usedHostmem + hostMem, resourcesList := g.resourcesList ++ [res] }
        g'.respond VIRTIO_GPU_RESP_OK_NODATA

/-- `cmd_resource_unref`. -/
def cmdResourceUnref (resourceId : Nat) : GpuResult :=
  match g.getResourceIdx resourceId with
  | some i => (g.resourceDestroy i).respond VIRTIO_GPU_RESP_OK_NODATA
  | none => g.respond VIRTIO_GPU_RESP_ERR_INVALID_RESOURCE_ID

/-- `cmd_resource_attach_backing`, given what `gpa_hva_iovec_map` returns for
the guest's entries (`none` also stands for a request too short for them). -/
def cmdResourceAttachBacking (resourceId nrEntries : Nat) (mapped : Option (List Iovec)) :
    GpuResult :=
  match g.getResourceIdx resourceId with
  | none => g.respond VIRTIO_GPU_RESP_ERR_INVALID_RESOURCE_ID
  | some i =>
    if (((g.resource i).map (·.iov)).getD []).isEmpty = false then
      g.respond VIRTIO_GPU_RESP_ERR_UNSPEC
    else if nrEntries > 16384 then g.respond VIRTIO_GPU_RESP_ERR_UNSPEC
    else
      match mapped with
      | some iov => (g.modifyResource i fun res => { res with iov := iov }).respond
          VIRTIO_GPU_RESP_OK_NODATA
      | none => g.respond VIRTIO_GPU_RESP_ERR_UNSPEC

/-- `cmd_resource_detach_backing`. -/
def cmdResourceDetachBacking (resourceId : Nat) : GpuResult :=
  match g.getBackedResourceIdx resourceId with
  | (some i, _) => (g.modifyResource i fun res => { res with iov := [] }).respond
      VIRTIO_GPU_RESP_OK_NODATA
  | (none, error) => g.respond error

/-- The surface `cmd_set_scanout` builds for a rectangle of a resource: the
pointer is `res_data.offset(offset)` on a `*mut u32`, so it lands `4 * offset`
bytes into the buffer. -/
def scanoutSurface (info : VirtioGpuSetScanout) (res : GpuResource) (img : PixmanImage) :
    DisplaySurface :=
  let bpp := bytesPerPixel img.format
  let offset := (info.rect.xCoord * bpp + info.rect.yCoord * img.stride) % 2 ^ 32
  let buffer := if info.resourceId &&& VIRTIO_GPU_RES_FRAMEBUF ≠ 0
    then SurfaceBuffer.iov (res.iov.getD 0 ⟨0, 0⟩) else .image img.len
  ⟨buffer, 4 * offset, img.stride, info.rect.width, info.rect.height, bpp⟩

/-- `cmd_set_scanout`. -/
def cmdSetScanout (info : VirtioGpuSetScanout) : GpuResult :=
  if info.scanoutId ≥ g.numScanouts then g.respond VIRTIO_GPU_RESP_ERR_INVALID_SCANOUT_ID
  else if info.resourceId = 0 then
    (g.disableScanout info.scanoutId).respond VIRTIO_GPU_RESP_OK_NODATA
  else
    match g.getBackedResourceIdx info.resourceId with
    | (none, error) => g.respond error
    | (some i, _) =>
      match g.resource i with
      | none => g.respond VIRTIO_GPU_RESP_ERR_INVALID_RESOURCE_ID
      | some res =>
        match res.pixmanImage with
        | none => g.respond VIRTIO_GPU_RESP_ERR_UNSPEC
        | some img =>
          if info.rect.width < 16 ∨ info.rect.height < 16 ∨ isRectInResource info.rect res = false
          then g.respond VIRTIO_GPU_RESP_ERR_INVALID_PARAMETER
          else
            let surface := scanoutSurface info res img
            let scanout := g.scanout info.scanoutId
            -- a new surface unless the scanout already shows this memory at this size
            let fresh := scanout.surface.map (fun s => (s.buffer, s.offset)) ≠
                some (surface.buffer, surface.offset) ∨
              scanout.width ≠ info.rect.width ∨ scanout.height ≠ info.rect.height
            let g1 := if fresh then g.modifyScanout info.scanoutId
                (fun s => { s with surface := some surface }) else g
            -- unlink the old resource, link the new one
            let g2 := match g1.getResourceIdx scanout.resourceId with
              | some j => g1.modifyResource j fun r =>
                  { r with scanoutsBitmask := r.scanoutsBitmask &&& (2 ^ 32 - 1 - 2 ^ info.scanoutId) }
              | none => g1
            let g3 := g2.modifyResource i fun r =>
              { r with scanoutsBitmask := r.scanoutsBitmask ||| 2 ^ info.scanoutId }
            let g4 := g3.modifyScanout info.scanoutId fun s =>
              { s with resourceId := info.resourceId, x := info.rect.xCoord, y := info.rect.yCoord,
                       width := info.rect.width, height := info.rect.height }
            ⟨g4, some VIRTIO_GPU_RESP_OK_NODATA, if fresh then [.surface surface] else []⟩

/-- The copies of `cmd_transfer_to_host_2d_update_resource`: one block when the
rectangle spans whole rows, otherwise one line per row. Offsets are `u32`. -/
def transferCopies (info : VirtioGpuTransferToHost2d) (res : GpuResource) (img : PixmanImage) :
    List Access :=
  let width := img.width
  let bpp := bytesPerPixel img.format
  let stride := img.stride
  if info.rect.xCoord = 0 ∧ info.rect.width = width then
    let offsetDst := (info.rect.yCoord * stride) % 2 ^ 32
    let transSize := (info.rect.height * stride) % 2 ^ 32
    [.toImage res.iov (iovToBufDirect res.iov info.offset transSize).1 offsetDst transSize img.len]
  else
    let offsetDst := (info.rect.yCoord * stride + info.rect.xCoord * bpp) % 2 ^ 32
    let lineSize := (info.rect.width * bpp) % 2 ^ 32
    (List.range info.rect.height).map fun row =>
      .toImage res.iov (iovToBufDirect res.iov (info.offset + row * stride) lineSize).1
        (offsetDst + row * stride) lineSize img.len

/-- `cmd_transfer_to_host_2d`. Framebuffer resources are answered without a copy. -/
def cmdTransferToHost2d (info : VirtioGpuTransferToHost2d) : GpuResult :=
  match g.getBackedResourceIdx info.resourceId with
  | (none, error) => g.respond error
  | (some i, _) =>
    match g.resource i with
    | none => g.respond VIRTIO_GPU_RESP_ERR_INVALID_RESOURCE_ID
    | some res =>
      if res.resourceId &&& VIRTIO_GPU_RES_FRAMEBUF ≠ 0 then g.respond VIRTIO_GPU_RESP_OK_NODATA
      else if isRectInResource info.rect res = false then
        g.respond VIRTIO_GPU_RESP_ERR_INVALID_PARAMETER
      else
        match res.pixmanImage with
        | none => g.respond VIRTIO_GPU_RESP_ERR_UNSPEC
        | some img => ⟨g, some VIRTIO_GPU_RESP_OK_NODATA, transferCopies info res img⟩

/-- `update_cursor_image`: copy the resource's image into the scanout's cursor
buffer when their sizes agree. -/
def updateCursorImage (scanoutId resourceId : Nat) : GpuResult :=
  match g.getBackedResourceIdx resourceId with
  | (none, _) => ⟨g, none, []⟩
  | (some i, _) =>
    match g.resource i, (g.scanout scanoutId).mouse with
    | some res, some mse =>
      match res.pixmanImage with
      | some img =>
        if img.width ≠ mse.width ∨ img.height ≠ mse.height then ⟨g, none, []⟩
        else
          ⟨g.modifyScanout scanoutId (fun s => { s with cursorVisible := true }), none,
            [.cursorCopy mse.dataLen img.len mse.dataLen]⟩
      | none => ⟨g, none, []⟩
    | _, _ => ⟨g, none, []⟩

/-- `update_cursor`: the scanout's mouse is created on first use (its hot spot
moved by an update), then the image is copied for a command with a resource. -/
def updateCursor (scanoutId resourceId hotX hotY : Nat) (isUpdate : Bool) : GpuResult :=
  let g := g.modifyScanout scanoutId (GpuScanout.updateMouse hotX hotY isUpdate)
  if resourceId > 0 then g.updateCursorImage scanoutId resourceId else ⟨g, none, []⟩

/-- `cmd_update_cursor`. A move without a resource hides a visible cursor (its
pixels are made transparent, which is not modelled); a move with a resource
defines a hidden cursor; an update always defines it. -/
def cmdUpdateCursor (hdrType scanoutId resourceId hotX hotY : Nat) : GpuResult :=
  if scanoutId ≥ g.numScanouts then ⟨g, none, []⟩
  else
    let scanout := g.scanout scanoutId
    if hdrType = VIRTIO_GPU_CMD_MOVE_CURSOR then
      if resourceId = 0 ∧ scanout.cursorVisible = true ∧ scanout.mouse.isSome then
        ⟨g.modifyScanout scanoutId (fun s => { s with cursorVisible := false }), none, []⟩
      else if resourceId > 0 ∧ scanout.cursorVisible = false then
        g.updateCursor scanoutId resourceId hotX hotY false
      else ⟨g, none, []⟩
    else if hdrType = VIRTIO_GPU_CMD_UPDATE_CURSOR then
      g.updateCursor scanoutId resourceId hotX hotY true
    else ⟨g, none, []⟩

end GpuIoHandler

/-- The control and cursor commands. -/
inductive GpuCmd where
  | resourceCreate2d (info : VirtioGpuResourceCreate2d)
  | resourceUnref (resourceId : Nat)
  | setScanout (info : VirtioGpuSetScanout)
  | transferToHost2d (info : VirtioGpuTransferToHost2d)
  | resourceAttachBacking (resourceId nrEntries : Nat) (mapped : Option (List Iovec))
  | resourceDetachBacking (resourceId : Nat)
  | updateCursor (hdrType scanoutId resourceId hotX hotY : Nat)

/-- One command. -/
def GpuIoHandler.step (px : Pixman) (g : GpuIoHandler) : GpuCmd → GpuResult
  | .resourceCreate2d info => g.cmdResourceCreate2d px info
  | .resourceUnref resourceId => g.cmdResourceUnref resourceId
  | .setScanout info => g.cmdSetScanout info
  | .transferToHost2d info => g.cmdTransferToHost2d info
  | .resourceAttachBacking resourceId nrEntries mapped =>
    g.cmdResourceAttachBacking resourceId nrEntries mapped
  | .resourceDetachBacking resourceId => g.cmdResourceDetachBacking resourceId
  | .updateCursor hdrType scanoutId resourceId hotX hotY =>
    g.cmdUpdateCursor hdrType scanoutId resourceId hotX hotY

/-- A sequence of commands: the final device and every access made. -/
def GpuIoHandler.run (px : Pixman) (g : GpuIoHandler) : List GpuCmd → GpuIoHandler × List Access
  | [] => (g, [])
  | cmd :: cmds =>
    let r := g.step px cmd
    let rest := r.gpu.run px cmds
    (rest.1, r.accesses ++ rest.2)

end StratoVirt.Gpu
