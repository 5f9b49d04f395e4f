import StratoVirt.Lib.Loop
import StratoVirt.Lib.ModWindow
import StratoVirt.Lib.BigEndian
import StratoVirt.Lib.List
import StratoVirt.AddressSpace.Types
import StratoVirt.AddressSpace.Ram
import StratoVirt.AddressSpace.Region
import StratoVirt.AddressSpace.FlatView
import StratoVirt.AddressSpace.Topology
import StratoVirt.AddressSpace.Listener
import StratoVirt.Util.Iov
import StratoVirt.Virtio.Desc
import StratoVirt.Virtio.DescChain
import StratoVirt.Virtio.Vring
import StratoVirt.Virtio.Notify
import StratoVirt.Virtio.RingIndex
import StratoVirt.VhostUserFs.Lookup
import StratoVirt.VhostUserFs.Confinement
import StratoVirt.Scsi.Bus
import StratoVirt.Gpu.Resource
import StratoVirt.Gpu.Bounds
import StratoVirt.Legacy.FwCfg
import StratoVirt.Acpi.AmlCompiler
import StratoVirt.Acpi.AmlGrammar
import StratoVirt.Qcow2.MetadataSize
import StratoVirt.Lib.Slice
import StratoVirt.Migration.StateDesc
import StratoVirt.Lib.LittleEndian
import StratoVirt.Pci.Config
import StratoVirt.Pci.Msix
import StratoVirt.Util.Aio
import StratoVirt.AddressSpace.Topology
import StratoVirt.Usb.XhciEventRing
import StratoVirt.Virtio.NetCtrl
import StratoVirt.Lib.Text
import StratoVirt.Qcow2.Snapshot
import StratoVirt.Virtio.BlockMerge
import StratoVirt.Lib.BinarySearch
import StratoVirt.Util.Bitmap
import StratoVirt.Util.IovSeq
import StratoVirt.Util.NumOps
import StratoVirt.Migration.Header
import StratoVirt.Pci.Caps
import StratoVirt.AddressSpace.Access
import StratoVirt.Qcow2.Refcount
import StratoVirt.Qcow2.RefcountUpdate
import StratoVirt.AddressSpace.HostMemory
import StratoVirt.Lib.PhaseRing
import StratoVirt.Usb.XhciRing
import StratoVirt.Usb.XhciRingProtocol
import StratoVirt.Usb.XhciTransferDesc
import StratoVirt.Qcow2.Cache
import StratoVirt.Qcow2.CacheCoherence
import StratoVirt.Qcow2.Discard
