import Evrma.PacketQueue.Loss
import Evrma.PacketQueue.Steps
import Evrma.Locking.Deadlock
import Evrma.Ioctl
import Evrma.Evr.CtrlRace
import Evrma.EventList.Rows
import Evrma.HwSupport
import Evrma.Evr.Outset
import Evrma.Devref.Holders
import Evrma.Rm.Alloc
import Evrma.System.VdevHwGuard
import Evrma.System.OpenVdevs
import Evrma.System.Subscribers
import Evrma.Rm.Exclusive
import Evrma.System.Publish
import Evrma.PciEvr.Irq
import Evrma.PciEvr.Bar
import Evrma.PciEvr.Slots
import Evrma.System.Unplug
import Evrma.System.Delivery
import Evrma.System.Sessions
import Evrma.VirtDev.ReadLoop
import Evrma.MngDev.DeviceNames
import Evrma.Unwind.MngDev
import Evrma.Unwind.Startup
import Evrma.Unwind.Probe
import Evrma.Evr.PulseRegs
import Evrma.Evr.CopyOut
import Evrma.Evr.PulsegenAlloc
import Evrma.Evr.PulseTable
import Evrma.Evr.DataBuf
import Evrma.Evr.OutLayout
import Evrma.EvrSystem.Unplugged
import Evrma.System.DeviceEffect
import Evrma.Evr.Frame
import Evrma.EvrSystem.Device
import Evrma.EvrSystem.Enabled
import Evrma.System.Recorded
import Evrma.EvrSystem.Resources
import Evrma.EvrSystem.OpenRes
import Evrma.EvrSystem.Pulsegens
import Evrma.EvrSystem.IdlePulses
import Evrma.EvrSystem.EventPath
import Evrma.EvrSystem.Interrupts
import Evrma.EvrSystem.Isolation
import Evrma.EvrSystem.ReadBack
import Evrma.EvrSystem.Routing
import Evrma.EvrSystem.SimDbg
import Evrma.System.Manager
import Evrma.System.Readable
import Evrma.VirtDev.AccessRuns
