import Opal.Run
import Opal.RingBuffer
import Opal.TrapFrame
import Opal.Sched
import Opal.SchedSpec
import Opal.User
import Opal.Vectors
import Opal.Handled
import Opal.Listing
import Opal.Post
import Opal.Fifo
import Opal.Coherence
import Opal.Stub
import Opal.Machine
import Opal.Delivery
import Opal.Trapped
import Opal.Ending
import Opal.FirstDispatch
import Opal.Guard
import Opal.ConsoleLock
import Opal.ReadyQueue
import Opal.RoundRobin
import Opal.Lasting
import Opal.Fallback
import Opal.Handover
import Opal.Grounded
import Opal.Pending
import Opal.Mail
import Opal.Letters
import Opal.Context
import Opal.StackPointer
import Opal.StuckSender
import Opal.Retry
import Opal.Arrival
import Opal.ChildWait
import Opal.Clock
import Opal.SessionEnd
import Opal.Saved
import Opal.Privilege
import Opal.Console
import Opal.Resources
import Opal.Abi
import Opal.UserPointers
import Opal.Reading
import Opal.Fdt
import Opal.Robust
import Opal.Devicetree
import Opal.RoundTrip
import Opal.RamWindow
import Opal.Apple
import Opal.Discovery
import Opal.Search
import Opal.Dump
import Opal.Trims
import Opal.Enclosed
import Opal.StructBlock
import Opal.TreeWalk
import Opal.Standing
import Opal.BlockContained
import Opal.TableTree
import Opal.Mmu
import Opal.Translation
import Opal.BootTables
import Opal.BootMap
import Opal.Placement
import Opal.Ioremap
import Opal.UserTables
import Opal.Protection
import Opal.FreshImage
import Opal.Containment
import Opal.LowHalf
import Opal.ExactlyOnce
import Opal.Aic
import Opal.Framebuffer
import Opal.Display
import Opal.BreakBeforeMake
import Opal.LiveTables
import Opal.LinearMap
import Opal.BootMapping
import Opal.Polled
import Opal.Uart
import Opal.Monitor
import Opal.CommandLine
import Opal.Gicv2
import Opal.Heartbeat
import Opal.BootStub
import Opal.Sleep
import Opal.Climb
import Opal.Upstairs
import Opal.Solo
import Opal.SoloRun
import Opal.Descent
import Opal.Nesting
