import Emos.Lib.Checked
import Emos.Lib.Align
import Emos.Lib.Extent
import Emos.Lib.SortedMap
import Emos.Lib.Iter
import Emos.Lib.VirtAddr
import Emos.Lib.BoundedQueue
import Emos.Lib.Trace
import Emos.Allocator.Layout
import Emos.Allocator.FixedSizeBlock
import Emos.Allocator.LinkedList
import Emos.Allocator.LinkedListInvariant
import Emos.Memory.FrameAllocator
import Emos.Process.Pcb
import Emos.Services.FileSystem
import Emos.Services.FileSystemTree
import Emos.Services.FileStore
import Emos.Services.ProcessService
import Emos.Services.ProcessInvariants
import Emos.Services.MemoryService
import Emos.Process.Scheduler
import Emos.Services.KeyboardService
import Emos.Allocator.Bump
import Emos.Services.FileSystemFat
import Emos.Services.FileSystemNavigation
import Emos.Lib.Method
import Emos.Services.FileSystemInPlace
import Emos.Services.ProcessLifecycle
import Emos.Scheduler
import Emos.Process.Context
import Emos.Lib.Loop
import Emos.Vga.RawWriter
import Emos.Vga.Buffer
import Emos.Syscalls
import Emos.Task.Executor
import Emos.Lib.X86
import Emos.Interrupts
import Emos.Services.VgaService
import Emos.InterruptControl
import Emos.Lib.Paging
import Emos.Memory.Bringup
import Emos.Userspace
import Emos.Userspace
import Emos.KernelHeap
import Emos.KernelHeap
