import Minirel.Heap.ScanRun

/-!
# A scan used out of order (`src/stage4/heapfile.C:260-473`)

The operators call `startScan` once on a fresh scan, `scanNext` until it fails,
and `deleteRecord` only after `scanNext` returned OK. Other orders of the
public calls reach states the code does not check for:

* `startScan` sets the predicate and nothing else (`startScan_toHeapFile`): a
  scan that returned FILEEOF returns FILEEOF after a new `startScan` too.
* A `scanNext` whose read of the next page fails returns that status with
  `curPage` NULL and `curPageNo` still the page it left; the next call takes
  the branch for a scan that has not started and reads the header's
  `firstPage` again.
* `resetScan` does not look for a mark: before any `markScan` it reads
  `markedPageNo`, which the code's constructor never sets (the model's is `-1`),
  unpins the current page and reads page `-1`.
* `deleteRecord` does not look at `curPage`: after FILEEOF it asks the page
  behind the NULL pointer (the model's frame `-1`) to delete `curRec`.

**Results.**
* `Exhausted.restart`: after FILEEOF, `startScan` with any predicate and any
  number of `scanNext` calls return FILEEOF each time.
* `startScan_keeps_position`: `twoPageWorld`'s file scanned to FILEEOF and
  started again returns FILEEOF where a fresh scan returns both records.
* `scanNext_restarts_after_error`: with page 2 unreadable, the calls return
  record (1, 1), UNIXERR, and record (1, 1) again.
* `resetScan_before_markScan`: right after `startScan`, `resetScan` returns an
  error only after it unpinned page 1 and put the scan on page `-1`; after FILEEOF
  `deleteRecord` answers with the page layer's BADRID for `curRec` on the NULL
  page.
-/
namespace Minirel

open BufMgr
open HeapFileScan (scanLoop scanNext)

variable {C : ScanCtx}

/-! ## Starting a scan that is past FILEEOF -/

/-- `startScan` leaves a scan past FILEEOF there, with its new predicate. -/
theorem Exhausted.startScan {s : HeapFileScan} {w : World} (h : Exhausted C s w) (offset length : Int)
    (type : Datatype) (filter : Option (List UInt8)) (op : Operator) :
    Exhausted { C with keep := (s.startScan offset length type filter op).2.matchRec }
      (s.startScan offset length type filter op).2 w :=
  have hts := s.startScan_toHeapFile offset length type filter op
  ⟨h.reading, hts ▸ h.file, rfl, hts ▸ h.curPage, hts ▸ h.curPageNo⟩

/-- Past FILEEOF every call answers FILEEOF. -/
theorem Exhausted.answers {s : HeapFileScan} {w : World} (h : Exhausted C s w) (n k : Nat) :
    scanAnswers n k s w = some (List.replicate k (.error .FILEEOF)) := by
  rw [Scanning.answers (C := C) (n := n) k (.inl ⟨rfl, h⟩)]
  simp [answer, List.map_const']

/-- After FILEEOF, a new `startScan` with any predicate does not start the scan
again: every later `scanNext` returns FILEEOF. -/
theorem Exhausted.restart {s : HeapFileScan} {w : World} (h : Exhausted C s w) (offset length : Int)
    (type : Datatype) (filter : Option (List UInt8)) (op : Operator) (n k : Nat) :
    scanAnswers n k (s.startScan offset length type filter op).2 w = some (List.replicate k (.error .FILEEOF)) :=
  (h.startScan offset length type filter op).answers n k

/-- `twoPageWorld`'s file `t` scanned with no filter: three calls return its two
records and FILEEOF. Started again, it returns FILEEOF; a fresh scan started the
same way returns the two records. -/
theorem startScan_keeps_position :
    let o : Status × HeapFileScan × World := HeapFileScan.new twoPageWorld "t"
    let s : HeapFileScan := (o.2.1.startScan 0 0 .STRING none .EQ).2
    scanAnswers 4 3 s o.2.2 = some [.ok ⟨1, 1⟩, .ok ⟨2, 1⟩, .error .FILEEOF] ∧
      ∃ s' w', afterScans 4 3 s o.2.2 = some (s', w') ∧ (s'.startScan 0 0 .STRING none .EQ).1 = .OK ∧
        scanAnswers 4 2 (s'.startScan 0 0 .STRING none .EQ).2 w' = some [.error .FILEEOF, .error .FILEEOF] :=
  ⟨by decide, _, _, rfl, rfl, by decide⟩

/-! ## Runs that break the scan's state -/

/-- `twoPageWorld` with a file layer that fails to read page 2 of file `t`. -/
def twoPageWorldBadRead : World :=
  { twoPageWorld with io := { ioOk with readPage := fun k => if k = (some 0, 2) then .UNIXERR else .OK } }

/-- The read of page 2 fails: the second call returns UNIXERR, and the third
starts over at page 1 and returns the record the first call returned. -/
theorem scanNext_restarts_after_error :
    let o : Status × HeapFileScan × World := HeapFileScan.new twoPageWorldBadRead "t"
    let s : HeapFileScan := (o.2.1.startScan 0 0 .STRING none .EQ).2
    scanAnswers 4 3 s o.2.2 = some [.ok ⟨1, 1⟩, .error .UNIXERR, .ok ⟨1, 1⟩] := by
  decide

/-- `twoPageWorld` with a file layer that rejects negative page numbers. -/
def twoPageWorldCheckedRead : World :=
  { twoPageWorld with io := { ioOk with readPage := fun k => if k.2 < 0 then .BADPAGENO else .OK } }

/-- Right after the constructor and `startScan`, the scan is on page 1 and has
no mark; `resetScan` unpins page 1, moves to page `-1`, and returns the UNIXERR
`readPage` makes of the file layer's answer. Scanned to FILEEOF, the scan has `curPage` NULL, and
`deleteRecord` returns the BADRID of `Page::deleteRecord` on the page behind
that pointer. -/
theorem resetScan_before_markScan :
    let o : Status × HeapFileScan × World := HeapFileScan.new twoPageWorldCheckedRead "t"
    let s : HeapFileScan := (o.2.1.startScan 0 0 .STRING none .EQ).2
    let r : Status × HeapFileScan × World := s.resetScan o.2.2
    s.curPageNo = 1 ∧ pinOf o.2.2.pool (some 0, 1) = 1 ∧ r.1 = .UNIXERR ∧ r.2.1.curPageNo = -1 ∧
      pinOf r.2.2.pool (some 0, 1) = 0 ∧
      ∃ s' w', afterScans 4 3 s o.2.2 = some (s', w') ∧ s'.curPage = none ∧ (s'.deleteRecord w').1 = .BADRID :=
  ⟨rfl, by decide, by decide, rfl, by decide, _, _, rfl, rfl, rfl⟩

end Minirel
