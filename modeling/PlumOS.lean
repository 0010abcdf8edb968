import PlumOS.Lib.LabelledRun
import PlumOS.Lib.StateExcept
import PlumOS.Lib.LoggedState
import PlumOS.Lib.EarlyExit
import PlumOS.Lib.Avoidance
import PlumOS.Lib.TwoRuns
import PlumOS.Lib.ListWalk
import PlumOS.Lib.Patch
import PlumOS.Lib.Decimal
import PlumOS.Config
import PlumOS.Memory.Heap
import PlumOS.Memory.HeapMarks
import PlumOS.Memory.HeapRuns
import PlumOS.Memory.HeapRequest
import PlumOS.Memory.HeapRelease
import PlumOS.Kernel.State
import PlumOS.Gdt.Gdt
import PlumOS.Disk.Streamer
import PlumOS.Disk.StreamRead
import PlumOS.Disk.AtaDrive
import PlumOS.Fs.Fat16Cluster
import PlumOS.Fs.ClusterWalk
import PlumOS.Fs.ClusterPosition
import PlumOS.Memory.KHeap
import PlumOS.Memory.HeapGrowth
import PlumOS.Memory.Fence
import PlumOS.Memory.Ownership
import PlumOS.Memory.Holding
import PlumOS.Fs.Fat16
import PlumOS.Fs.DirectoryScan
import PlumOS.Fs.StreamFree
import PlumOS.Fs.Fat16Resolve
import PlumOS.Fs.FileRead
import PlumOS.Fs.DirectoryLookup
import PlumOS.Fs.FileName
import PlumOS.Fs.PathParser
import PlumOS.Fs.PathParts
import PlumOS.Fs.PathAccess
import PlumOS.Fs.File
import PlumOS.Fs.OpenFile
import PlumOS.Fs.FileFence
import PlumOS.Fs.FileOpen
import PlumOS.Fs.SeekRun
import PlumOS.Fs.FopenLeak
import PlumOS.Fs.FileIsolation
import PlumOS.Fs.FileOwnership
import PlumOS.Fs.UnionMember
import PlumOS.Fs.TrackedLookup
import PlumOS.Fs.EntryLookup
import PlumOS.Memory.Paging
import PlumOS.Memory.AddressSpace
import PlumOS.Memory.SpaceOwnership
import PlumOS.Memory.PageTable
import PlumOS.Memory.SpaceRestore
import PlumOS.Fs.PathRoundTrip
import PlumOS.Fs.PathList
import PlumOS.Fs.DirectoryTree
import PlumOS.Fs.Mount
import PlumOS.Fs.RootFile
import PlumOS.Fs.DescriptorTable
import PlumOS.Fs.WholeFile
import PlumOS.Loader.Elf
import PlumOS.Loader.ElfLoader
import PlumOS.Loader.ElfBounds
import PlumOS.Loader.LoadRange
import PlumOS.Task.Task
import PlumOS.Task.TaskSpec
import PlumOS.Task.TaskList
import PlumOS.Task.TaskReturn
import PlumOS.Task.Preempt
import PlumOS.Task.RoundRobin
import PlumOS.Task.Process
import PlumOS.Task.ProcessMemory
import PlumOS.Task.ProcessMallocFail
import PlumOS.Task.SegmentMap
import PlumOS.Task.StringCopy
import PlumOS.Task.ProcessEnd
import PlumOS.Keyboard.Keyboard
import PlumOS.Keyboard.KeyboardQueue
import PlumOS.Keyboard.EmptyBackspace
import PlumOS.Kernel.System
import PlumOS.Idt.Exception
import PlumOS.Task.UserMemory
import PlumOS.Isr80h.Commands
import PlumOS.Idt.Idt
import PlumOS.Task.Scheduled
import PlumOS.Task.Terminated
import PlumOS.Task.LoadFence
import PlumOS.Task.LoadOwnership
import PlumOS.Task.ProcessOwnership
import PlumOS.Task.LoadFailure
import PlumOS.Task.ProgramFile
import PlumOS.Task.ProgramStart
import PlumOS.Task.LoadedProgram
import PlumOS.Task.LoadedElf
import PlumOS.Task.LiveProcess
import PlumOS.Task.ProcessTable
import PlumOS.Kernel.Startup
import PlumOS.Idt.Resume
import PlumOS.Kernel.Scribble
import PlumOS.Kernel.Terminal
import PlumOS.Kernel.TerminalCursor
import PlumOS.Isr80h.ProgramArguments
import PlumOS.Idt.OwnDirectory
import PlumOS.Isr80h.ProgramPath
import PlumOS.Isr80h.ArgumentStores
import PlumOS.Isr80h.ArgumentList
import PlumOS.Isr80h.ArgumentCopy
import PlumOS.Task.PassedArguments
import PlumOS.Idt.AfterExit
import PlumOS.Stdlib.Itoa
import PlumOS.Stdlib.Printf
import PlumOS.Stdlib.Readline
import PlumOS.Stdlib.Strtok
import PlumOS.Stdlib.ParseCommand
import PlumOS.Stdlib.StrtokHistory
