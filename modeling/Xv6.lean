import Xv6.BeginOpWait
import Xv6.FsSafety
import Xv6.WriteThrough
import Xv6.SleepWakeup
import Xv6.SwtchSafety
import Xv6.KillPid
import Xv6.KillBlocked
import Xv6.VirtioSafety
import Xv6.SharedWrite
import Xv6.ShellParse
import Xv6.PageMap
import Xv6.ForkMem
import Xv6.WriteProtect
import Xv6.HeapRun
import Xv6.LinkCount
import Xv6.MemMove
import Xv6.Grep
import Xv6.Bitmap
import Xv6.IntrNest
import Xv6.SysSleep
import Xv6.Printf
