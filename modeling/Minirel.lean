import Minirel.Lts
import Minirel.Buffer.Desc
import Minirel.Buffer.BufMgr
import Minirel.Buffer.Clock
import Minirel.Buffer.Invariant
import Minirel.Buffer.ClockSpec
import Minirel.Buffer.ClockOrder
import Minirel.Buffer.Failures
import Minirel.Buffer.Ops
import Minirel.Buffer.Pins
import Minirel.Buffer.Content
import Minirel.Buffer.Session
import Minirel.Heap.Page
import Minirel.Heap.World
import Minirel.Heap.HeapFile
import Minirel.Heap.Insert
import Minirel.Heap.Scan
import Minirel.Heap.Predicate
import Minirel.Heap.Reading
import Minirel.Heap.Walk
import Minirel.Heap.ScanRun
import Minirel.Heap.MarkReset
import Minirel.Heap.ScanMisuse
import Minirel.Heap.ScanEnd
import Minirel.Heap.Writing
import Minirel.Heap.Layout
import Minirel.Heap.Handle
import Minirel.Heap.InsertRun
import Minirel.Heap.InsertFetch
import Minirel.Heap.InsertFail
import Minirel.Heap.DeleteScan
import Minirel.Heap.Shared
import Minirel.Heap.Pinning
import Minirel.Part1.HeapFile
import Minirel.Part1.Scan
import Minirel.Part1.ScanRun
import Minirel.Part1.Ledger
import Minirel.Part1.MarkReset
import Minirel.Part1.Fetch
import Minirel.Part1.Create
import Minirel.Query.Delete
import Minirel.Part1.DeleteScan
import Minirel.Query.Catalog
import Minirel.Query.Insert
import Minirel.Query.Select
import Minirel.Query.SelectRun
