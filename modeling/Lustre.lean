import Lustre.Library.Run
import Lustre.Library.Word
import Lustre.Ptlrpc.PackGeneric
import Lustre.Ptlrpc.PackLayout
import Lustre.Gss.SecGss
import Lustre.Ptlrpc.Replay
import Lustre.Fid.SeqServer
import Lustre.Ofd.OfdGrant
import Lustre.Quota.QmtHandler
import Lustre.Library.Forest
import Lustre.Library.Loop
import Lustre.Mdd.MddDir
import Lustre.Library.TailInsert
import Lustre.Ptlrpc.Xid
import Lustre.Library.Credits
import Lustre.Lnet.LibMove
import Lustre.Library.Bytes
import Lustre.Obdclass.Linkea
import Lustre.Library.SearchTree
import Lustre.Ptlrpc.NodemapIdmap
import Lustre.Library.IntervalTree
import Lustre.Ptlrpc.NodemapRange
import Lustre.Fld.FldCache
import Lustre.Llog.LlogOsd
import Lustre.Llog.LlogReadHeader
import Lustre.Libcfs.LibcfsString
import Lustre.Lnet.Nidstrings
import Lustre.Library.Scanf
import Lustre.Lnet.NidStr
import Lustre.Ldlm.ExtentLock
import Lustre.Ldlm.LockMatch
import Lustre.Ldlm.Inodebits
import Lustre.Llite.RangeLockSound
import Lustre.Library.Spans
import Lustre.Ldlm.FlockDeadlock
import Lustre.Ldlm.FlockMerge
import Lustre.Obdclass.LinkeaRun
import Lustre.Library.Raid0
import Lustre.Lov.LovOffset
import Lustre.Fid.Ostid
import Lustre.Libcfs.HeapLayout
import Lustre.Library.BinaryHeap
import Lustre.Libcfs.Heap
import Lustre.Ptlrpc.NrsTbf
import Lustre.Ldlm.LdlmPool
import Lustre.Llite.ReadAhead
import Lustre.Target.TgtLastrcvd
import Lustre.Ptlrpc.SecBulk
import Lustre.Ptlrpc.SecBulkRun
import Lustre.Fid.FidRequest
import Lustre.Library.WindowMax
import Lustre.Ptlrpc.AdaptiveTimeout
import Lustre.Ptlrpc.ImportState
