import StratoVirt.Gpu.Resource
import StratoVirt.Lib.List

/-!
# virtio-gpu: where the raw-pointer accesses fall

What the commands of `Gpu.Resource` keep over any sequence, and where their
raw-memory accesses land.

`GpuIoHandler.Inv` is what every handler reachable from `GpuIoHandler.new`
keeps: `used_hostmem` is the sum of the resources' `host_mem` and within
`max_hostmem`, every image has its resource's size and rows of four bytes a
pixel, and every cursor buffer holds four bytes a pixel. Each command keeps it
(`Inv.step`), so every run does (`Inv.run`, `run_hostmem`), for every pixman
that lays out the images it allocates as `PixmanSpec` says.

From it the copies are in bounds:

* `transferCopies_inside`: every copy of `cmd_transfer_to_host_2d` reads inside
  the backing iovecs and writes inside the image; the `u32` products of the
  rectangle only wrap to smaller offsets;
* `cursorCopy_inside`: the cursor copy moves the cursor buffer's bytes, which
  are exactly the image's;
* `run_inside_of_not_surface`: over any run, every access but a surface is
  inside its buffers.

The surfaces are not. `scanoutSurface_outside`: a rectangle that starts in the
bottom three quarters of an image is shown from past the image's end, because
the pointer offset is scaled by four. `scanoutSurface_iov_outside`: a
framebuffer surface covers `width * 4` bytes of a first iovec of any length.
`cmdSetScanout_outside` puts the first on the commands.
-/

namespace StratoVirt.Gpu

open StratoVirt.Util StratoVirt.Lib

/-! ## Accesses inside their buffers -/

/-- An access touches only the memory it is made on: a transfer's pieces read
inside the backing and its write range lies in the image; a surface's last row
ends inside its buffer; the cursor copy fits both buffers. -/
def Access.Inside : Access → Prop
  | .toImage iov pieces dst len imageLen =>
    dst + len ≤ imageLen ∧ ∀ p ∈ pieces, p.Inside iov len
  | .surface s =>
    s.height = 0 ∨ s.offset + (s.height - 1) * s.stride + s.width * s.bpp ≤ s.buffer.len
  | .cursorCopy len srcLen dstLen => len ≤ srcLen ∧ len ≤ dstLen

/-- Whether an access is a new surface. -/
def Access.isSurface : Access → Bool
  | .surface _ => true
  | _ => false

/-! ## The invariant -/

/-- A resource's image has the resource's size and rows of four bytes a pixel. -/
def GpuResource.ImageOk (res : GpuResource) : Prop :=
  ∀ img, res.pixmanImage = some img →
    img.width = res.width ∧ img.height = res.height ∧ img.stride = 4 * img.width

/-- A scanout's cursor buffer holds four bytes a pixel. -/
def GpuScanout.MouseOk (s : GpuScanout) : Prop :=
  ∀ m, s.mouse = some m → m.dataLen = m.width * m.height * 4

/-- What every handler reachable from `GpuIoHandler.new` keeps. -/
structure GpuIoHandler.Inv (g : GpuIoHandler) : Prop where
  hostmem_sum : g.usedHostmem = (g.resourcesList.map GpuResource.hostMem).sum
  hostmem_le : g.usedHostmem ≤ g.maxHostmem
  images : ∀ res ∈ g.resourcesList, res.ImageOk
  mice : ∀ s ∈ g.scanouts, s.MouseOk

/-- Every format `get_pixman_format` answers has 32 bits a pixel. -/
@[simp] theorem pixmanFormatBpp_code (format : PixmanFormat) : pixmanFormatBpp format.code = 32 := by
  cases format <;> decide

theorem bytesPerPixel_eq (format : PixmanFormat) : bytesPerPixel format = 4 := by
  simp [bytesPerPixel]

/-- pixman's rows for 32-bit pixels are four bytes a pixel. -/
theorem rowStride_eq (format : PixmanFormat) (width : Nat) :
    ((width * pixmanFormatBpp format.code + 0x1f) >>> 5) * 4 = 4 * width := by
  rw [pixmanFormatBpp_code, Nat.shiftRight_eq_div_pow]
  omega

/-- An image pixman allocates has the size asked for and four bytes a pixel. -/
theorem PixmanSpec.createBits_eq {px : Pixman} (hpx : PixmanSpec px) {format : PixmanFormat}
    {width height : Nat} {img : PixmanImage} (h : px.imageCreateBits format width height = some img) :
    img = ⟨format, width, height, 4 * width⟩ := by
  rw [hpx.createBits format width height img h, rowStride_eq]

/-- The mouse `update_cursor` leaves holds its pixels. -/
theorem mouseOk_updateMouse (hotX hotY : Nat) (isUpdate : Bool) {s : GpuScanout}
    (hs : s.MouseOk) : (s.updateMouse hotX hotY isUpdate).MouseOk := by
  intro m hm
  unfold GpuScanout.updateMouse at hm
  split at hm
  · -- a new 64x64 mouse
    obtain rfl := Option.some.inj hm
    rfl
  · rename_i m' hmouse
    split at hm
    · -- only the hot spot moves
      obtain rfl := Option.some.inj hm
      exact hs m' hmouse
    · exact hs m hm

namespace GpuIoHandler

variable {g : GpuIoHandler}

@[simp] theorem respond_gpu (g : GpuIoHandler) (r : Nat) : (g.respond r).gpu = g := rfl

@[simp] theorem respond_accesses (g : GpuIoHandler) (r : Nat) : (g.respond r).accesses = [] := rfl

/-- A resource update that keeps host memory and the image keeps the invariant. -/
theorem Inv.modifyResource (h : g.Inv) {i : Nat} {f : GpuResource → GpuResource}
    (hmem : ∀ r, (f r).hostMem = r.hostMem) (hok : ∀ r, r.ImageOk → (f r).ImageOk) :
    (g.modifyResource i f).Inv where
  hostmem_sum := by
    show g.usedHostmem = ((g.resourcesList.modify i f).map GpuResource.hostMem).sum
    rw [map_modify_of_eq hmem]
    exact h.hostmem_sum
  hostmem_le := h.hostmem_le
  images := by
    intro r hr
    rcases mem_modify hr with hr | ⟨b, hb, rfl⟩
    · exact h.images r hr
    · exact hok b (h.images b hb)
  mice := h.mice

/-- A scanout update that keeps cursor buffers whole keeps the invariant. -/
theorem Inv.modifyScanout (h : g.Inv) {i : Nat} {f : GpuScanout → GpuScanout}
    (hf : ∀ s, s.MouseOk → (f s).MouseOk) : (g.modifyScanout i f).Inv where
  hostmem_sum := h.hostmem_sum
  hostmem_le := h.hostmem_le
  images := h.images
  mice := by
    intro s hs
    rcases mem_modify hs with hs | ⟨b, hb, rfl⟩
    · exact h.mice s hs
    · exact hf b (h.mice b hb)

theorem Inv.resource_imageOk (h : g.Inv) {i : Nat} {res : GpuResource}
    (hres : g.resource i = some res) : res.ImageOk :=
  h.images res (List.mem_of_getElem? hres)

theorem Inv.scanout_mouseOk (h : g.Inv) (i : Nat) : (g.scanout i).MouseOk := by
  unfold scanout
  rw [List.getD_eq_getElem?_getD]
  cases hs : g.scanouts[i]? with
  | none => intro m hm; cases hm
  | some s => exact h.mice s (List.mem_of_getElem? hs)

/-- `disable_scanout` keeps the invariant: it changes a bitmask and clears a
scanout, whose mouse stays. -/
theorem Inv.disableScanout (h : g.Inv) (i : Nat) : (g.disableScanout i).Inv := by
  dsimp only [GpuIoHandler.disableScanout]
  split
  · exact h
  · refine Inv.modifyScanout ?_ (fun _ hs => hs)
    split
    · exact h.modifyResource (fun _ => rfl) (fun _ hr => hr)
    · exact h

/-- The loop of `resource_destroy` over the scanouts keeps the invariant. -/
theorem Inv.foldl_disable (bitmask : Nat) : ∀ (l : List Nat) {g : GpuIoHandler}, g.Inv →
    (l.foldl (fun g i => if bitmask &&& 2 ^ i ≠ 0 then g.disableScanout i else g) g).Inv := by
  intro l
  induction l with
  | nil => intro g h; exact h
  | cons i l ih =>
    intro g h
    rw [List.foldl_cons]
    apply ih
    split
    · exact h.disableScanout i
    · exact h

/-- Removing a resource and giving back its host memory keeps the invariant. -/
theorem Inv.eraseResource (h : g.Inv) (i : Nat) :
    ({ g with
        usedHostmem := g.usedHostmem - ((g.resource i).map (·.hostMem)).getD 0
        resourcesList := g.resourcesList.eraseIdx i } : GpuIoHandler).Inv where
  hostmem_sum := by
    have hsum := sum_map_eraseIdx GpuResource.hostMem g.resourcesList i
    show g.usedHostmem - (g.resourcesList[i]?.map GpuResource.hostMem).getD 0 =
      ((g.resourcesList.eraseIdx i).map GpuResource.hostMem).sum
    rw [h.hostmem_sum]
    omega
  hostmem_le := by
    have hle := h.hostmem_le
    show g.usedHostmem - _ ≤ g.maxHostmem
    omega
  images := fun r hr => h.images r (List.mem_of_mem_eraseIdx hr)
  mice := h.mice

theorem Inv.resourceDestroy (h : g.Inv) (i : Nat) : (g.resourceDestroy i).Inv := by
  dsimp only [GpuIoHandler.resourceDestroy]
  exact (Inv.foldl_disable _ _ h).eraseResource i

/-! ## Each command keeps the invariant -/

/-- `cmd_resource_create_2d` leaves the handler alone, or appends a resource
whose image pixman allocated, after checking it fits in `max_hostmem`. -/
theorem cmdResourceCreate2d_cases (px : Pixman) (info : VirtioGpuResourceCreate2d) :
    (g.cmdResourceCreate2d px info).gpu = g ∨
      ∃ pf img, getImageHostmem pf info.width info.height + g.usedHostmem ≤ g.maxHostmem ∧
        px.imageCreateBits pf info.width info.height = some img ∧
        (g.cmdResourceCreate2d px info).gpu = { g with
          usedHostmem := g.usedHostmem + getImageHostmem pf info.width info.height,
          resourcesList := g.resourcesList ++
            [⟨info.resourceId, info.width, info.height, info.format, [], 0, some img,
              getImageHostmem pf info.width info.height⟩] } := by
  unfold cmdResourceCreate2d
  split
  · exact .inl rfl
  split
  · exact .inl rfl
  split
  · exact .inl rfl
  rename_i pf _
  dsimp only
  by_cases hfit : getImageHostmem pf info.width info.height + g.usedHostmem < 2 ^ 64 ∧
      getImageHostmem pf info.width info.height + g.usedHostmem ≤ g.maxHostmem
  · rw [if_pos hfit]
    split
    · exact .inl rfl
    · rename_i img himg
      exact .inr ⟨pf, img, hfit.2, himg, rfl⟩
  · rw [if_neg hfit]
    exact .inl rfl

theorem Inv.cmdResourceCreate2d (h : g.Inv) {px : Pixman} (hpx : PixmanSpec px)
    (info : VirtioGpuResourceCreate2d) : (g.cmdResourceCreate2d px info).gpu.Inv := by
  rcases g.cmdResourceCreate2d_cases px info with heq | ⟨pf, img, hfit, himg, heq⟩
  · rw [heq]
    exact h
  · rw [heq]
    refine ⟨?_, ?_, ?_, h.mice⟩
    · show g.usedHostmem + _ = ((g.resourcesList ++ [_]).map GpuResource.hostMem).sum
      rw [List.map_append, List.sum_append, h.hostmem_sum]
      simp
    · show g.usedHostmem + getImageHostmem pf info.width info.height ≤ g.maxHostmem
      omega
    · intro r hr
      rcases List.mem_append.1 hr with hr | hr
      · exact h.images r hr
      · -- the new resource holds the image pixman made for its size
        rw [List.mem_singleton] at hr
        subst hr
        intro img' himg'
        obtain rfl := Option.some.inj himg'
        rw [hpx.createBits_eq himg]
        exact ⟨rfl, rfl, rfl⟩

theorem Inv.cmdResourceUnref (h : g.Inv) (resourceId : Nat) :
    (g.cmdResourceUnref resourceId).gpu.Inv := by
  unfold GpuIoHandler.cmdResourceUnref
  split
  · exact h.resourceDestroy _
  · exact h

theorem Inv.cmdResourceAttachBacking (h : g.Inv) (resourceId nrEntries : Nat)
    (mapped : Option (List Iovec)) :
    (g.cmdResourceAttachBacking resourceId nrEntries mapped).gpu.Inv := by
  unfold GpuIoHandler.cmdResourceAttachBacking
  split
  · exact h
  split
  · exact h
  split
  · exact h
  split
  · exact h.modifyResource (fun _ => rfl) (fun _ hr => hr)
  · exact h

theorem Inv.cmdResourceDetachBacking (h : g.Inv) (resourceId : Nat) :
    (g.cmdResourceDetachBacking resourceId).gpu.Inv := by
  unfold GpuIoHandler.cmdResourceDetachBacking
  split
  · exact h.modifyResource (fun _ => rfl) (fun _ hr => hr)
  · exact h

theorem Inv.cmdSetScanout (h : g.Inv) (info : VirtioGpuSetScanout) :
    (g.cmdSetScanout info).gpu.Inv := by
  unfold GpuIoHandler.cmdSetScanout
  split
  · exact h
  split
  · exact h.disableScanout _
  split
  · exact h
  split
  · exact h
  split
  · exact h
  split
  · exact h
  -- a new surface, the old resource unlinked, the new one linked, the rectangle set
  dsimp only
  refine Inv.modifyScanout (Inv.modifyResource ?_ ?_ ?_) ?_
  · -- `g1` shows the new surface or is `g`; `g2` unlinks the old resource from it
    have h1 : ∀ {c : Prop} [Decidable c] {a : GpuIoHandler}, a.Inv → (if c then a else g).Inv := by
      intro c _ a ha
      split
      · exact ha
      · exact h
    split
    · refine Inv.modifyResource (h1 (Inv.modifyScanout h ?_)) ?_ ?_
      · exact fun _ hs => hs
      · exact fun _ => rfl
      · exact fun _ hr => hr
    · refine h1 (Inv.modifyScanout h ?_)
      exact fun _ hs => hs
  · exact fun _ => rfl
  · exact fun _ hr => hr
  · exact fun _ hs => hs

/-- `cmd_transfer_to_host_2d` changes no state. -/
theorem cmdTransferToHost2d_gpu (info : VirtioGpuTransferToHost2d) :
    (g.cmdTransferToHost2d info).gpu = g := by
  unfold GpuIoHandler.cmdTransferToHost2d
  split
  · rfl
  split
  · rfl
  split
  · rfl
  split
  · rfl
  split
  · rfl
  · rfl

theorem Inv.updateCursorImage (h : g.Inv) (scanoutId resourceId : Nat) :
    (g.updateCursorImage scanoutId resourceId).gpu.Inv := by
  unfold GpuIoHandler.updateCursorImage
  split
  · exact h
  split
  · split
    · split
      · exact h
      · exact h.modifyScanout (fun _ hs => hs)
    · exact h
  · exact h

/-- The mouse step of `update_cursor` keeps the invariant. -/
theorem Inv.updateMouse (h : g.Inv) (scanoutId hotX hotY : Nat) (isUpdate : Bool) :
    (g.modifyScanout scanoutId (GpuScanout.updateMouse hotX hotY isUpdate)).Inv :=
  h.modifyScanout (fun _ hs => mouseOk_updateMouse hotX hotY isUpdate hs)

theorem Inv.updateCursor (h : g.Inv) (scanoutId resourceId hotX hotY : Nat) (isUpdate : Bool) :
    (g.updateCursor scanoutId resourceId hotX hotY isUpdate).gpu.Inv := by
  dsimp only [GpuIoHandler.updateCursor]
  split
  · exact (h.updateMouse scanoutId hotX hotY isUpdate).updateCursorImage scanoutId resourceId
  · exact h.updateMouse scanoutId hotX hotY isUpdate

theorem Inv.cmdUpdateCursor (h : g.Inv) (hdrType scanoutId resourceId hotX hotY : Nat) :
    (g.cmdUpdateCursor hdrType scanoutId resourceId hotX hotY).gpu.Inv := by
  unfold GpuIoHandler.cmdUpdateCursor
  split
  · exact h
  dsimp only
  split
  · -- a move: hide the cursor, or define a hidden one
    split
    · exact h.modifyScanout (fun _ hs => hs)
    split
    · exact h.updateCursor scanoutId resourceId hotX hotY false
    · exact h
  · split
    · exact h.updateCursor scanoutId resourceId hotX hotY true
    · exact h

/-- **Each command keeps the invariant.** -/
theorem Inv.step (h : g.Inv) {px : Pixman} (hpx : PixmanSpec px) :
    ∀ cmd : GpuCmd, (g.step px cmd).gpu.Inv
  | .resourceCreate2d info => h.cmdResourceCreate2d hpx info
  | .resourceUnref resourceId => h.cmdResourceUnref resourceId
  | .setScanout info => h.cmdSetScanout info
  | .transferToHost2d info => by
    show (g.cmdTransferToHost2d info).gpu.Inv
    rw [cmdTransferToHost2d_gpu]
    exact h
  | .resourceAttachBacking resourceId nrEntries mapped =>
    h.cmdResourceAttachBacking resourceId nrEntries mapped
  | .resourceDetachBacking resourceId => h.cmdResourceDetachBacking resourceId
  | .updateCursor hdrType scanoutId resourceId hotX hotY =>
    h.cmdUpdateCursor hdrType scanoutId resourceId hotX hotY

/-- **The invariant holds after every run.** -/
theorem Inv.run {px : Pixman} (hpx : PixmanSpec px) :
    ∀ (cmds : List GpuCmd) {g : GpuIoHandler}, g.Inv → (g.run px cmds).1.Inv
  | [], _, h => h
  | cmd :: cmds, _, h => Inv.run hpx cmds (h.step hpx cmd)

/-- The handler `activate` starts keeps the invariant. -/
theorem inv_new (numScanouts consoles maxHostmem : Nat) :
    (GpuIoHandler.new numScanouts consoles maxHostmem).Inv where
  hostmem_sum := rfl
  hostmem_le := Nat.zero_le _
  images := by
    intro r hr
    simp [GpuIoHandler.new] at hr
  mice := by
    intro s hs
    simp only [GpuIoHandler.new, List.mem_replicate] at hs
    obtain ⟨-, rfl⟩ := hs
    intro m hm
    cases hm

/-- **Host-memory accounting.** After any commands from a fresh handler,
`used_hostmem` is the sum of the resources' `host_mem` and within `max_hostmem`. -/
theorem run_hostmem {px : Pixman} (hpx : PixmanSpec px) (numScanouts consoles maxHostmem : Nat)
    (cmds : List GpuCmd) :
    let g := ((GpuIoHandler.new numScanouts consoles maxHostmem).run px cmds).1
    g.usedHostmem = (g.resourcesList.map GpuResource.hostMem).sum ∧
      g.usedHostmem ≤ g.maxHostmem := by
  intro g
  have h : g.Inv := Inv.run hpx cmds (inv_new numScanouts consoles maxHostmem)
  exact ⟨h.hostmem_sum, h.hostmem_le⟩

/-! ## Transfers and cursor copies are inside -/

theorem cmdResourceCreate2d_accesses (px : Pixman) (info : VirtioGpuResourceCreate2d) :
    (g.cmdResourceCreate2d px info).accesses = [] := by
  unfold GpuIoHandler.cmdResourceCreate2d
  split
  · rfl
  split
  · rfl
  split
  · rfl
  dsimp only
  split
  · rfl
  · rfl

theorem cmdResourceUnref_accesses (resourceId : Nat) :
    (g.cmdResourceUnref resourceId).accesses = [] := by
  unfold GpuIoHandler.cmdResourceUnref
  split
  · rfl
  · rfl

theorem cmdResourceAttachBacking_accesses (resourceId nrEntries : Nat)
    (mapped : Option (List Iovec)) :
    (g.cmdResourceAttachBacking resourceId nrEntries mapped).accesses = [] := by
  unfold GpuIoHandler.cmdResourceAttachBacking
  split
  · rfl
  split
  · rfl
  split
  · rfl
  split
  · rfl
  · rfl

theorem cmdResourceDetachBacking_accesses (resourceId : Nat) :
    (g.cmdResourceDetachBacking resourceId).accesses = [] := by
  unfold GpuIoHandler.cmdResourceDetachBacking
  split
  · rfl
  · rfl

/-- What a transfer copies: the copies of `transferCopies` for a resource the
command found, with its image, for a rectangle `is_rect_in_resource` accepted. -/
theorem mem_cmdTransferToHost2d_accesses {info : VirtioGpuTransferToHost2d} {a : Access}
    (ha : a ∈ (g.cmdTransferToHost2d info).accesses) :
    ∃ i res img, g.resource i = some res ∧ res.pixmanImage = some img ∧
      isRectInResource info.rect res = true ∧ a ∈ transferCopies info res img := by
  unfold GpuIoHandler.cmdTransferToHost2d at ha
  split at ha
  · simp at ha
  rename_i i _ _
  split at ha
  · simp at ha
  rename_i res hres
  split at ha
  · simp at ha
  split at ha
  · simp at ha
  rename_i hrect
  split at ha
  · simp at ha
  rename_i img himg
  exact ⟨i, res, img, hres, himg, by simpa using hrect, ha⟩

/-- **Transfers are inside.** For an image of the resource's size with pixman's
stride, every copy of `cmd_transfer_to_host_2d_update_resource` for a rectangle
`is_rect_in_resource` accepts reads inside the backing iovecs and writes inside
the image: the `u32` offsets only wrap downwards. -/
theorem transferCopies_inside {info : VirtioGpuTransferToHost2d} {res : GpuResource}
    {img : PixmanImage} (hrect : isRectInResource info.rect res = true) (himg : res.ImageOk)
    (hres : res.pixmanImage = some img) : ∀ a ∈ transferCopies info res img, a.Inside := by
  obtain ⟨hW, hH, hS⟩ := himg img hres
  have hstride : img.stride = 4 * img.width := hS
  have hbpp := bytesPerPixel_eq img.format
  have hr : info.rect.xCoord + info.rect.width ≤ res.width ∧
      info.rect.yCoord + info.rect.height ≤ res.height := by
    simp only [isRectInResource, decide_eq_true_eq] at hrect
    exact ⟨hrect.2.1, hrect.2.2.2⟩
  -- the rows the rectangle covers are rows of the image
  have hrows : info.rect.yCoord * img.stride + info.rect.height * img.stride ≤ img.len := by
    rw [← Nat.add_mul, PixmanImage.len, hH]
    exact Nat.mul_le_mul_right _ hr.2
  intro a ha
  dsimp only [transferCopies] at ha
  split at ha
  · -- whole rows: one block
    rw [List.mem_singleton] at ha
    subst ha
    refine ⟨?_, iovToBufDirect_inside _ _ _⟩
    have h1 := Nat.mod_le (info.rect.yCoord * img.stride) (2 ^ 32)
    have h2 := Nat.mod_le (info.rect.height * img.stride) (2 ^ 32)
    omega
  · -- one line per row: row `k` ends inside image row `y + k`
    obtain ⟨k, hk, rfl⟩ := List.mem_map.1 ha
    rw [List.mem_range] at hk
    refine ⟨?_, iovToBufDirect_inside _ _ _⟩
    rw [hbpp]
    have h1 := Nat.mod_le (info.rect.yCoord * img.stride + info.rect.xCoord * 4) (2 ^ 32)
    have h2 := Nat.mod_le (info.rect.width * 4) (2 ^ 32)
    have hrow : (info.rect.yCoord + k + 1) * img.stride ≤ img.len := by
      calc (info.rect.yCoord + k + 1) * img.stride
          ≤ (info.rect.yCoord + info.rect.height) * img.stride :=
            Nat.mul_le_mul_right _ (by omega)
        _ ≤ img.len := by rw [Nat.add_mul]; exact hrows
    rw [Nat.add_mul, Nat.add_mul, Nat.one_mul] at hrow
    have hline : (info.rect.xCoord + info.rect.width) * 4 ≤ img.stride := by
      rw [hstride, hW]
      omega
    omega

theorem Inv.cmdTransferToHost2d_inside (h : g.Inv) (info : VirtioGpuTransferToHost2d) :
    ∀ a ∈ (g.cmdTransferToHost2d info).accesses, a.Inside := by
  intro a ha
  obtain ⟨i, res, img, hres, himg, hrect, ha⟩ := mem_cmdTransferToHost2d_accesses ha
  exact transferCopies_inside hrect (h.resource_imageOk hres) himg a ha

/-- **The cursor copy is inside.** The bytes copied are the cursor buffer's, and
an image of the cursor's size holds exactly as many. -/
theorem Inv.cursorCopy_inside (h : g.Inv) {i scanoutId : Nat} {res : GpuResource}
    {img : PixmanImage} {mse : DisplayMouse} (hres : g.resource i = some res)
    (hmse : (g.scanout scanoutId).mouse = some mse) (himg : res.pixmanImage = some img)
    (hw : img.width = mse.width) (hh : img.height = mse.height) :
    (Access.cursorCopy mse.dataLen img.len mse.dataLen).Inside := by
  obtain ⟨-, -, hstride⟩ := h.resource_imageOk hres img himg
  have hdata : mse.dataLen = mse.width * mse.height * 4 := h.scanout_mouseOk scanoutId mse hmse
  have hlen : img.len = mse.dataLen := by
    rw [hdata, PixmanImage.len, hstride, hw, hh]
    ac_rfl
  exact ⟨Nat.le_of_eq hlen.symm, Nat.le_refl _⟩

theorem Inv.updateCursorImage_inside (h : g.Inv) (scanoutId resourceId : Nat) :
    ∀ a ∈ (g.updateCursorImage scanoutId resourceId).accesses, a.Inside := by
  intro a ha
  unfold GpuIoHandler.updateCursorImage at ha
  split at ha
  · simp at ha
  split at ha
  · rename_i res mse hres hmse
    split at ha
    · rename_i img himg
      split at ha
      · simp at ha
      · rename_i hsize
        rw [List.mem_singleton] at ha
        subst ha
        exact h.cursorCopy_inside hres hmse himg (by omega) (by omega)
    · simp at ha
  · simp at ha

theorem Inv.updateCursor_inside (h : g.Inv) (scanoutId resourceId hotX hotY : Nat)
    (isUpdate : Bool) :
    ∀ a ∈ (g.updateCursor scanoutId resourceId hotX hotY isUpdate).accesses, a.Inside := by
  dsimp only [GpuIoHandler.updateCursor]
  split
  · exact (h.updateMouse scanoutId hotX hotY isUpdate).updateCursorImage_inside scanoutId resourceId
  · intro a ha
    simp at ha

theorem Inv.cmdUpdateCursor_inside (h : g.Inv) (hdrType scanoutId resourceId hotX hotY : Nat) :
    ∀ a ∈ (g.cmdUpdateCursor hdrType scanoutId resourceId hotX hotY).accesses, a.Inside := by
  unfold GpuIoHandler.cmdUpdateCursor
  split
  · intro a ha
    simp at ha
  dsimp only
  split
  · split
    · intro a ha
      simp at ha
    split
    · exact h.updateCursor_inside scanoutId resourceId hotX hotY false
    · intro a ha
      simp at ha
  · split
    · exact h.updateCursor_inside scanoutId resourceId hotX hotY true
    · intro a ha
      simp at ha

/-! ## The surfaces of `cmd_set_scanout` -/

/-- A resource `get_backed_resource_idx` answers has backing and an image. -/
theorem getBackedResourceIdx_eq_some {resourceId i e : Nat}
    (h : g.getBackedResourceIdx resourceId = (some i, e)) :
    g.getResourceIdx resourceId = some i ∧
      ∃ res, g.resource i = some res ∧ res.iov ≠ [] ∧ res.pixmanImage ≠ none := by
  unfold GpuIoHandler.getBackedResourceIdx at h
  split at h
  · cases h
  rename_i j hj
  split at h
  · rename_i res hres
    split at h
    · cases h
    · rename_i hok
      obtain ⟨hji, -⟩ := Prod.mk.inj h
      obtain rfl := Option.some.inj hji
      simp only [not_or, List.isEmpty_iff, Option.isNone_iff_eq_none] at hok
      exact ⟨hj, res, hres, hok⟩
  · cases h

/-- What `cmd_set_scanout` shows: the surface `scanoutSurface` builds over the
backed resource the command found by its id, for a rectangle of at least 16x16
that `is_rect_in_resource` accepts. -/
theorem mem_cmdSetScanout_accesses {info : VirtioGpuSetScanout} {a : Access}
    (ha : a ∈ (g.cmdSetScanout info).accesses) :
    ∃ i res img, g.getResourceIdx info.resourceId = some i ∧ g.resource i = some res ∧
      res.iov ≠ [] ∧ res.pixmanImage = some img ∧ 16 ≤ info.rect.width ∧
      16 ≤ info.rect.height ∧ isRectInResource info.rect res = true ∧
      a = .surface (scanoutSurface info res img) := by
  unfold GpuIoHandler.cmdSetScanout at ha
  split at ha
  · simp at ha
  split at ha
  · simp at ha
  split at ha
  · simp at ha
  rename_i i e hback
  obtain ⟨hidx, res', hres', hiov, -⟩ := getBackedResourceIdx_eq_some hback
  split at ha
  · simp at ha
  rename_i res hres
  obtain rfl : res' = res := Option.some.inj (hres'.symm.trans hres)
  split at ha
  · simp at ha
  rename_i img himg
  split at ha
  · simp at ha
  rename_i hrect
  simp only [not_or, Nat.not_lt, Bool.not_eq_false] at hrect
  dsimp only at ha
  split at ha
  · rw [List.mem_singleton] at ha
    exact ⟨i, res', img, hidx, hres, hiov, himg, hrect.1, hrect.2.1, hrect.2.2, ha⟩
  · simp at ha

/-- **Every access of a command but a new surface is inside its buffers.** -/
theorem Inv.step_inside (h : g.Inv) (px : Pixman) (cmd : GpuCmd) :
    ∀ a ∈ (g.step px cmd).accesses, a.isSurface = false → a.Inside := by
  intro a ha hsurf
  cases cmd with
  | resourceCreate2d info =>
    rw [GpuIoHandler.step, cmdResourceCreate2d_accesses] at ha
    simp at ha
  | resourceUnref resourceId =>
    rw [GpuIoHandler.step, cmdResourceUnref_accesses] at ha
    simp at ha
  | setScanout info =>
    obtain ⟨_, _, _, _, _, _, _, _, _, _, rfl⟩ := mem_cmdSetScanout_accesses ha
    simp [Access.isSurface] at hsurf
  | transferToHost2d info => exact h.cmdTransferToHost2d_inside info a ha
  | resourceAttachBacking resourceId nrEntries mapped =>
    rw [GpuIoHandler.step, cmdResourceAttachBacking_accesses] at ha
    simp at ha
  | resourceDetachBacking resourceId =>
    rw [GpuIoHandler.step, cmdResourceDetachBacking_accesses] at ha
    simp at ha
  | updateCursor hdrType scanoutId resourceId hotX hotY =>
    exact h.cmdUpdateCursor_inside hdrType scanoutId resourceId hotX hotY a ha

/-- **Transfers and cursor copies are inside over every run.** From a handler
that keeps the invariant, every access of any command sequence but a new
surface is inside its buffers. -/
theorem run_inside_of_not_surface {px : Pixman} (hpx : PixmanSpec px) :
    ∀ (cmds : List GpuCmd) {g : GpuIoHandler}, g.Inv →
      ∀ a ∈ (g.run px cmds).2, a.isSurface = false → a.Inside
  | [], _, _ => by
    intro a ha
    simp [GpuIoHandler.run] at ha
  | cmd :: cmds, g, h => by
    intro a ha hsurf
    -- an access of this command, or one of the run from the state it leaves
    rcases List.mem_append.1 ha with ha | ha
    · exact h.step_inside px cmd a ha hsurf
    · exact run_inside_of_not_surface hpx cmds (h.step hpx cmd) a ha hsurf

/-- **A surface past the image.** For a resource without the framebuffer bit, a
rectangle that starts in the bottom three quarters of the image
(`height ≤ 4 * y`), and whose first-pixel offset fits a `u32`, is shown from
past the image's end: the pointer lands `4 * (x * bpp + y * stride)` bytes in,
and the rows before the rectangle's, counted four times, fill the image. -/
theorem scanoutSurface_outside {info : VirtioGpuSetScanout} {res : GpuResource}
    {img : PixmanImage} (himg : res.ImageOk) (hres : res.pixmanImage = some img)
    (hfb : info.resourceId &&& VIRTIO_GPU_RES_FRAMEBUF = 0)
    (hw : 0 < info.rect.width) (hh : 0 < info.rect.height)
    (hlow : res.height ≤ 4 * info.rect.yCoord)
    (hwrap : info.rect.xCoord * 4 + info.rect.yCoord * (4 * res.width) < 2 ^ 32) :
    ¬ (Access.surface (scanoutSurface info res img)).Inside := by
  obtain ⟨hW, hH, hS⟩ := himg img hres
  have hstride : img.stride = 4 * res.width := by rw [hS, hW]
  have hbpp := bytesPerPixel_eq img.format
  have hoff : (scanoutSurface info res img).offset =
      4 * (info.rect.xCoord * 4 + info.rect.yCoord * img.stride) := by
    show 4 * ((info.rect.xCoord * bytesPerPixel img.format + info.rect.yCoord * img.stride) %
      2 ^ 32) = _
    rw [hbpp, Nat.mod_eq_of_lt (by rw [hstride]; exact hwrap)]
  have hlen : (scanoutSurface info res img).buffer.len = res.height * img.stride := by
    have hbuf : (scanoutSurface info res img).buffer = .image img.len := by
      simp [scanoutSurface, hfb]
    rw [hbuf, SurfaceBuffer.len, PixmanImage.len, hH]
  have hrow : (scanoutSurface info res img).width * (scanoutSurface info res img).bpp =
      info.rect.width * 4 := by
    show info.rect.width * bytesPerPixel img.format = _
    rw [hbpp]
  -- the rows before the rectangle's, counted four times, already fill the image
  have hpast : res.height * img.stride ≤ 4 * (info.rect.yCoord * img.stride) := by
    rw [← Nat.mul_assoc]
    exact Nat.mul_le_mul_right _ hlow
  rintro (hzero | hin)
  · exact absurd hzero (Nat.pos_iff_ne_zero.1 hh)
  · rw [hoff, hlen, hrow] at hin
    omega

/-- **A framebuffer surface over a short iovec.** A framebuffer surface covers a
row of `width * 4` bytes of the first backing iovec, whatever its length. -/
theorem scanoutSurface_iov_outside {info : VirtioGpuSetScanout} {res : GpuResource}
    {img : PixmanImage} (hfb : info.resourceId &&& VIRTIO_GPU_RES_FRAMEBUF ≠ 0)
    (hh : 0 < info.rect.height)
    (hshort : (res.iov.getD 0 ⟨0, 0⟩).iovLen < info.rect.width * 4) :
    ¬ (Access.surface (scanoutSurface info res img)).Inside := by
  have hlen : (scanoutSurface info res img).buffer.len = (res.iov.getD 0 ⟨0, 0⟩).iovLen := by
    have hbuf : (scanoutSurface info res img).buffer = .iov (res.iov.getD 0 ⟨0, 0⟩) := by
      simp [scanoutSurface, hfb]
    rw [hbuf, SurfaceBuffer.len]
  have hrow : (scanoutSurface info res img).width * (scanoutSurface info res img).bpp =
      info.rect.width * 4 := by
    show info.rect.width * bytesPerPixel img.format = _
    rw [bytesPerPixel_eq]
  rintro (hzero | hin)
  · exact absurd hzero (Nat.pos_iff_ne_zero.1 hh)
  · rw [hlen, hrow] at hin
    omega

/-- **`cmd_set_scanout` shows memory past the image.** On a handler that keeps
the invariant, every surface a set_scanout of an image resource makes, for a
rectangle in the bottom three quarters of the image whose offset fits a `u32`,
is outside the image. -/
theorem Inv.cmdSetScanout_outside (h : g.Inv)
    {info : VirtioGpuSetScanout} {i : Nat} {res : GpuResource}
    (hidx : g.getResourceIdx info.resourceId = some i) (hres : g.resource i = some res)
    (hfb : info.resourceId &&& VIRTIO_GPU_RES_FRAMEBUF = 0)
    (hlow : res.height ≤ 4 * info.rect.yCoord)
    (hwrap : info.rect.xCoord * 4 + info.rect.yCoord * (4 * res.width) < 2 ^ 32) :
    ∀ a ∈ (g.cmdSetScanout info).accesses, ¬ a.Inside := by
  intro a ha
  obtain ⟨j, res', img, hj, hres', -, himg, hw, hh, -, rfl⟩ :=
    mem_cmdSetScanout_accesses ha
  obtain rfl : j = i := Option.some.inj (hj.symm.trans hidx)
  obtain rfl : res' = res := Option.some.inj (hres'.symm.trans hres)
  exact scanoutSurface_outside (h.resource_imageOk hres) himg hfb (by omega) (by omega) hlow hwrap

/-! ## What a run asks of pixman -/

/-- `cmd_resource_create_2d` asks pixman only for an image of the format and
size it was given: two pixmans that answer that alike make the command alike. -/
theorem cmdResourceCreate2d_congr {px px' : Pixman} (g : GpuIoHandler)
    (info : VirtioGpuResourceCreate2d)
    (h : ∀ pf, getPixmanFormat info.format = .ok pf →
      px.imageCreateBits pf info.width info.height = px'.imageCreateBits pf info.width info.height) :
    g.cmdResourceCreate2d px info = g.cmdResourceCreate2d px' info := by
  unfold cmdResourceCreate2d
  split
  · rfl
  split
  · rfl
  split
  · rfl
  · rename_i pf hpf
    rw [h pf hpf]

/-- **A run depends on pixman only through the images it allocates**: two
pixmans that answer every `RESOURCE_CREATE_2D` of the run alike give the same
run. -/
theorem run_congr {px px' : Pixman} :
    ∀ (cmds : List GpuCmd) (g : GpuIoHandler),
      (∀ info, GpuCmd.resourceCreate2d info ∈ cmds → ∀ pf, getPixmanFormat info.format = .ok pf →
        px.imageCreateBits pf info.width info.height =
          px'.imageCreateBits pf info.width info.height) →
      g.run px cmds = g.run px' cmds
  | [], _, _ => rfl
  | cmd :: cmds, g, h => by
    -- the first command is the same under both, and so is the rest of the run
    have hstep : g.step px cmd = g.step px' cmd := by
      cases cmd with
      | resourceCreate2d info =>
        exact cmdResourceCreate2d_congr g info (h info List.mem_cons_self)
      | _ => rfl
    have hrest := run_congr cmds (g.step px cmd).gpu
      (fun info hmem => h info (List.mem_cons_of_mem _ hmem))
    simp only [GpuIoHandler.run, hstep] at hrest ⊢
    rw [hrest]

/-- A pixman that allocates every image it is asked for, laid out as
`PixmanSpec` says. -/
def Pixman.alwaysAllocates : Pixman :=
  ⟨fun format width height =>
    some ⟨format, width, height, ((width * pixmanFormatBpp format.code + 0x1f) >>> 5) * 4⟩⟩

theorem pixmanSpec_alwaysAllocates : PixmanSpec Pixman.alwaysAllocates :=
  ⟨fun _ _ _ _ h => (Option.some.inj h).symm⟩

/-- Two image resources shown from row 48 of a 64x64 image and from a 4-byte
framebuffer iovec: for every pixman that allocates the 64x64 images, the first
surface starts 49152 bytes into a 16384-byte image, and the second covers 256
bytes of a 4-byte iovec. -/
theorem gpuSetScanout_surface_outside {px : Pixman} (hpx : PixmanSpec px)
    (halloc : (px.imageCreateBits .a8r8g8b8 64 64).isSome) :
    ((GpuIoHandler.new 1 1 0x100000).run px
      [.resourceCreate2d ⟨1, VIRTIO_GPU_FORMAT_B8G8R8A8_UNORM, 64, 64⟩,
       .resourceAttachBacking 1 1 (some [⟨0x1000, 16384⟩]),
       .setScanout ⟨⟨0, 48, 16, 16⟩, 0, 1⟩,
       .resourceCreate2d ⟨0x80000001, VIRTIO_GPU_FORMAT_B8G8R8A8_UNORM, 64, 64⟩,
       .resourceAttachBacking 0x80000001 1 (some [⟨0x2000, 4⟩]),
       .setScanout ⟨⟨0, 0, 16, 16⟩, 0, 0x80000001⟩]).2 =
      [.surface ⟨.image 16384, 49152, 256, 16, 16, 4⟩,
       .surface ⟨.iov ⟨0x2000, 4⟩, 0, 256, 16, 16, 4⟩] ∧
    ¬ (Access.surface ⟨.image 16384, 49152, 256, 16, 16, 4⟩).Inside ∧
    ¬ (Access.surface ⟨.iov ⟨0x2000, 4⟩, 0, 256, 16, 16, 4⟩).Inside := by
  -- the image pixman makes for both resources is the one `alwaysAllocates` makes
  have hcreate : px.imageCreateBits .a8r8g8b8 64 64 =
      Pixman.alwaysAllocates.imageCreateBits .a8r8g8b8 64 64 := by
    obtain ⟨img, himg⟩ := Option.isSome_iff_exists.1 halloc
    rw [himg, hpx.createBits _ _ _ _ himg]
    rfl
  have hrun := @run_congr px Pixman.alwaysAllocates
    [.resourceCreate2d ⟨1, VIRTIO_GPU_FORMAT_B8G8R8A8_UNORM, 64, 64⟩,
     .resourceAttachBacking 1 1 (some [⟨0x1000, 16384⟩]),
     .setScanout ⟨⟨0, 48, 16, 16⟩, 0, 1⟩,
     .resourceCreate2d ⟨0x80000001, VIRTIO_GPU_FORMAT_B8G8R8A8_UNORM, 64, 64⟩,
     .resourceAttachBacking 0x80000001 1 (some [⟨0x2000, 4⟩]),
     .setScanout ⟨⟨0, 0, 16, 16⟩, 0, 0x80000001⟩] (GpuIoHandler.new 1 1 0x100000) (by
      intro info hmem pf hpf
      simp only [List.mem_cons, List.not_mem_nil, reduceCtorEq, GpuCmd.resourceCreate2d.injEq,
        or_false, false_or] at hmem
      -- both creates ask for a 64x64 image of format 1, which is `a8r8g8b8`
      rcases hmem with rfl | rfl <;>
      · obtain rfl : pf = .a8r8g8b8 := by
          simpa [getPixmanFormat, VIRTIO_GPU_FORMAT_B8G8R8A8_UNORM] using hpf.symm
        exact hcreate)
  rw [hrun]
  refine ⟨by decide +kernel, ?_, ?_⟩
  · unfold Access.Inside
    decide
  · unfold Access.Inside
    decide

/-- The pixman that allocates every image meets `PixmanSpec` and allocates the
64x64 images. -/
theorem gpuSetScanout_surface_outside_alwaysAllocates :
    PixmanSpec Pixman.alwaysAllocates ∧ (Pixman.alwaysAllocates.imageCreateBits .a8r8g8b8 64 64).isSome ∧
    ((GpuIoHandler.new 1 1 0x100000).run Pixman.alwaysAllocates
      [.resourceCreate2d ⟨1, VIRTIO_GPU_FORMAT_B8G8R8A8_UNORM, 64, 64⟩,
       .resourceAttachBacking 1 1 (some [⟨0x1000, 16384⟩]),
       .setScanout ⟨⟨0, 48, 16, 16⟩, 0, 1⟩,
       .resourceCreate2d ⟨0x80000001, VIRTIO_GPU_FORMAT_B8G8R8A8_UNORM, 64, 64⟩,
       .resourceAttachBacking 0x80000001 1 (some [⟨0x2000, 4⟩]),
       .setScanout ⟨⟨0, 0, 16, 16⟩, 0, 0x80000001⟩]).2 =
      [.surface ⟨.image 16384, 49152, 256, 16, 16, 4⟩,
       .surface ⟨.iov ⟨0x2000, 4⟩, 0, 256, 16, 16, 4⟩] ∧
    ¬ (Access.surface ⟨.image 16384, 49152, 256, 16, 16, 4⟩).Inside ∧
    ¬ (Access.surface ⟨.iov ⟨0x2000, 4⟩, 0, 256, 16, 16, 4⟩).Inside :=
  ⟨pixmanSpec_alwaysAllocates, rfl, gpuSetScanout_surface_outside pixmanSpec_alwaysAllocates rfl⟩

end GpuIoHandler

end StratoVirt.Gpu
