/-
The kernel's memory management, its USB stack and its terminal.
-/
import Octagram.Memory.Ownership
import Octagram.Memory.HeapAllocator
import Octagram.Memory.PageMap
import Octagram.Usb.EventRing
import Octagram.Usb.TransferRing
import Octagram.Usb.Locks
import Octagram.Usb.Command
import Octagram.Usb.Control
import Octagram.Usb.Hotplug
import Octagram.Usb.Slots
import Octagram.Usb.UnlinkedRing
import Octagram.Usb.Snapshot
import Octagram.Usb.Drivers
import Octagram.Usb.Ep0Ring
import Octagram.Usb.Interrupter
import Octagram.Usb.Service
import Octagram.Usb.Buffers
import Octagram.Usb.Routing
import Octagram.Usb.Descriptors
import Octagram.Usb.Sync
import Octagram.Memory.MapErrors
import Octagram.Usb.Registers
import Octagram.Usb.Contexts
import Octagram.Memory.Rights
import Octagram.Terminal.Preempted
import Octagram.Usb.ShortPacket
import Octagram.Usb.Delivered
import Octagram.Usb.Typing
import Octagram.Usb.Pointer
import Octagram.Usb.DmaLayout
import Octagram.Pci.Bar
import Octagram.Pci.Msix
import Octagram.Usb.MsixTable
import Octagram.Pci.Enable
import Octagram.Interrupt.Stubs
import Octagram.Acpi.Walk
import Octagram.Pci.Lens
import Octagram.Usb.SingleInstance
import Octagram.Interrupt.Delivery
import Octagram.Usb.Served
import Octagram.Interrupt.Setup
import Octagram.Memory.Tlb
import Octagram.Usb.Started
import Octagram.Usb.ContextLayout
import Octagram.Pci.Scan
import Octagram.Pci.Msi
import Octagram.Usb.Conformance
