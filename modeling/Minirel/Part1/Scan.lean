import Minirel.Heap.Scan
import Minirel.Part1.HeapFile

/-!
# The other heap-file version: filtered scans (`src/unnamed/part_001:224-407`)

The `HeapFileScan` of `src/unnamed/part_001` has the members of stage4's
(`Minirel.Heap.Scan`) and the same `matchRec` (part_001:409-460 is
heapfile.C:491-543 line for line) and `markDirty`. The other functions differ:

* `startScan` sets the predicate as stage4's does, then clears the mark, unpins
  the current page and reads the header's `firstPage` again: every scan starts
  from the first record;
* `scanNext` hands out the next record after `curRec` when `curRec` is on the
  current page, the page's first record otherwise. At the end of the last page
  it returns FILEEOF and keeps that page pinned, so every later call returns
  FILEEOF again; a scan without a header page returns BADSCANID;
* `markScan`, `resetScan`, `getRecord` and `deleteRecord` check the scan's
  position first (BADSCANID); `resetScan` reads the marked page into `curPage`
  and returns at once if that read fails;
* `endScan` resets the position to `curPageNo = -1` and `curRec = NULLRID`.

`BufMgr::readPage` writes its page pointer only on success
(heapfile.C:839-870), so after a failed read `curPage` keeps its old value.
The loop `while (true)` of `scanNext` is `scanLoop` with an iteration bound, as
for stage4: `none` means the bound ran out.
-/
namespace Minirel

open HeapFileScan (ScanParmOk)

/-- mirrors part_001:224-225 (`HeapFileScan::HeapFileScan`) -/
def Part1.HeapFileScan.new (w : World) (name : String) : Status × HeapFileScan × World :=
  let (st, h, w1) := Part1.HeapFile.new w name
  (st,
    { h with
      offset := 0
      length := 0
      type := .STRING
      filter := none
      op := .EQ
      markedPageNo := -1
      markedRec := NULLRID }, w1)

/-! ## Starting and ending a scan -/

/-- The end of `startScan` (part_001:262-270): with a header page whose
`firstPage` is not -1, read that page as the current page, before its first
record. -/
def Part1.HeapFileScan.readFirstPage (s : HeapFileScan) (w : World) : Status × HeapFileScan × World :=
  match s.headerPage with
  | none => (.OK, { s with curRec := NULLRID }, w)
  | some _ =>
    if (s.hdr w).firstPage = -1 then (.OK, { s with curRec := NULLRID }, w)
    else
      match w.readPage s.filePtr (s.hdr w).firstPage with
      | (.ok cp, w1) => (.OK, s.atPage cp (s.hdr w).firstPage, w1)
      | (.error e, w1) => (e, s, w1)

/-- The second half of `startScan` (part_001:251-270): unpin the current page,
then go to the first data page. -/
def Part1.HeapFileScan.rewind (s : HeapFileScan) (w : World) : Status × HeapFileScan × World :=
  match s.curPage with
  | some _ =>
    match w.unPinPage s.filePtr s.curPageNo s.curDirtyFlag with
    | (.OK, w1) =>
      Part1.HeapFileScan.readFirstPage { s with curPage := none, curPageNo := -1, curDirtyFlag := false } w1
    | (e, w1) => (e, s, w1)
  | none => Part1.HeapFileScan.readFirstPage s w

/-- mirrors part_001:227-271 (`HeapFileScan::startScan`): the predicate is set
as by stage4's `startScan` (part_001:231-246 is heapfile.C:278-294), then the
mark is cleared and the scan goes back to the first data page. -/
def Part1.HeapFileScan.startScan (s : HeapFileScan) (w : World) (offset length : Int) (type : Datatype)
    (filter : Option (List UInt8)) (op : Operator) : Status × HeapFileScan × World :=
  match s.startScan offset length type filter op with
  | (.OK, s1) => Part1.HeapFileScan.rewind { s1 with markedPageNo := -1, markedRec := NULLRID } w
  | (e, s1) => (e, s1, w)

/-- mirrors part_001:273-285 (`HeapFileScan::endScan`) -/
def Part1.HeapFileScan.endScan (s : HeapFileScan) (w : World) : Status × HeapFileScan × World :=
  match s.curPage with
  | some _ =>
    let (st, w1) := w.unPinPage s.filePtr s.curPageNo s.curDirtyFlag
    (st, { s with curPage := none, curPageNo := -1, curDirtyFlag := false, curRec := NULLRID }, w1)
  | none => (.OK, s, w)

/-- mirrors part_001:287-289 (`HeapFileScan::~HeapFileScan`), followed by the
base destructor. -/
def Part1.HeapFileScan.destructor (s : HeapFileScan) (w : World) : World :=
  let (_, s1, w1) := Part1.HeapFileScan.endScan s w
  Part1.HeapFile.destructor s1.toHeapFile w1

/-! ## Marking and resetting -/

/-- mirrors part_001:291-297 (`HeapFileScan::markScan`) -/
def Part1.HeapFileScan.markScan (s : HeapFileScan) : Status × HeapFileScan :=
  if s.curRec.pageNo < 0 ∨ s.curPage.isNone then (.BADSCANID, s)
  else (.OK, { s with markedPageNo := s.curPageNo, markedRec := s.curRec })

/-- mirrors part_001:299-318 (`HeapFileScan::resetScan`). After the current
page is unpinned, a failed read of the marked page returns with `curPage` still
pointing at the old frame. -/
def Part1.HeapFileScan.resetScan (s : HeapFileScan) (w : World) : Status × HeapFileScan × World :=
  if s.markedPageNo < 0 then (.BADSCANID, s, w)
  else if s.curPage.isNone ∨ s.markedPageNo ≠ s.curPageNo then
    match Part1.HeapFile.unpinCur s.toHeapFile w with
    | (.OK, w1) =>
      let s := { s with curPageNo := s.markedPageNo, curRec := s.markedRec }
      match w1.readPage s.filePtr s.curPageNo with
      | (.ok cp, w2) => (.OK, { s with curPage := some cp, curDirtyFlag := false }, w2)
      | (.error e, w2) => (e, s, w2)
    | (e, w1) => (e, s, w1)
  else (.OK, { s with curRec := s.markedRec }, w)

/-! ## Scanning -/

/-- The record the loop of `scanNext` asks the current page for
(part_001:346-350): the one after `curRec` while `curRec` is on the current
page, the page's first one otherwise. -/
def Part1.HeapFileScan.nextRid (s : HeapFileScan) (w : World) : Except Status RID :=
  if s.curRec.pageNo = s.curPageNo ∧ s.curRec.slotNo ≠ -1 then (s.page w).nextRecord s.curRec
  else (s.page w).firstRecord

/-- With `curRec` NULL or on the current page `p`, and `p` not -1, part_001's
`nextRid` asks for the slot stage4's asks for. -/
theorem Part1.HeapFileScan.nextRid_eq_of {s : HeapFileScan} {w : World} {p : Int} (hne : p ≠ -1)
    (hc : s.curPageNo = p) (hon : s.curRec = NULLRID ∨ s.curRec.pageNo = p ∧ s.curRec.slotNo ≠ -1) :
    Part1.HeapFileScan.nextRid s w = s.nextRid w := by
  unfold Part1.HeapFileScan.nextRid Minirel.HeapFileScan.nextRid
  rcases hon with hr | ⟨hp, hs⟩
  · have hn : ¬ (s.curRec.pageNo = s.curPageNo ∧ s.curRec.slotNo ≠ -1) := fun e =>
      hne (by rw [← hc, ← e.1, hr]; rfl)
    rw [if_neg hn, if_pos hr]
  · have hn : s.curRec ≠ NULLRID := fun e => hs (by rw [e]; rfl)
    rw [if_pos ⟨hp.trans hc.symm, hs⟩, if_neg hn]

/-- The `while (true)` loop of `scanNext` (part_001:345-376) with at most `n`
iterations left; `none` when they run out. At the end of the chain the last
page stays pinned. -/
def Part1.HeapFileScan.scanLoop : Nat → HeapFileScan → World → Option (Except Status RID × HeapFileScan × World)
  | 0, _, _ => none
  | n + 1, s, w =>
    match Part1.HeapFileScan.nextRid s w with
    | .ok rid =>
      match (s.page w).getRecord rid with
      | .error e => some (.error e, s, w)
      | .ok rec =>
        let s := { s with curRec := rid }
        if s.matchRec rec then some (.ok rid, s, w) else Part1.HeapFileScan.scanLoop n s w
    | .error .ENDOFPAGE | .error .NORECORDS =>
      let nextPageNo := (s.page w).nextPage
      if nextPageNo = -1 then some (.error .FILEEOF, s, w)
      else
        match w.unPinPage s.filePtr s.curPageNo s.curDirtyFlag with
        | (.OK, w1) =>
          match w1.readPage s.filePtr nextPageNo with
          | (.ok cp, w2) => Part1.HeapFileScan.scanLoop n (s.atPage cp nextPageNo) w2
          | (.error e, w2) => some (.error e, { s with curPage := none, curPageNo := -1 }, w2)
        | (e, w1) => some (.error e, s, w1)
    | .error e => some (.error e, s, w)

/-- mirrors part_001:320-377 (`HeapFileScan::scanNext`), with at most `n`
iterations of its loop; returns `outRid`. -/
def Part1.HeapFileScan.scanNext (n : Nat) (s : HeapFileScan) (w : World) :
    Option (Except Status RID × HeapFileScan × World) :=
  match s.headerPage with
  | none => some (.error .BADSCANID, s, w)
  | some _ =>
    match s.curPage with
    | none =>
      if (s.hdr w).firstPage = -1 then some (.error .FILEEOF, s, w)
      else
        match w.readPage s.filePtr (s.hdr w).firstPage with
        | (.ok cp, w1) => Part1.HeapFileScan.scanLoop n (s.atPage cp (s.hdr w).firstPage) w1
        | (.error e, w1) => some (.error e, s, w1)
    | some _ => Part1.HeapFileScan.scanLoop n s w

/-- mirrors part_001:382-385 (`HeapFileScan::getRecord`) -/
def Part1.HeapFileScan.getRecord (s : HeapFileScan) (w : World) : Except Status Record :=
  if s.curPage.isNone ∨ s.curRec.pageNo < 0 then .error .BADSCANID
  else (s.page w).getRecord s.curRec

/-- mirrors part_001:388-401 (`HeapFileScan::deleteRecord`) -/
def Part1.HeapFileScan.deleteRecord (s : HeapFileScan) (w : World) : Status × HeapFileScan × World :=
  if s.curPage.isNone ∨ s.curRec.pageNo < 0 then (.BADSCANID, s, w)
  else
    match (s.page w).deleteRecord s.curRec with
    | .error e => (e, s, w)
    | .ok p =>
      let w1 := s.setPage w p
      let s := { s with curDirtyFlag := true }
      match s.headerPage with
      | some _ => (.OK, { s with hdrDirtyFlag := true }, s.setHdr w1 { s.hdr w1 with recCnt := (s.hdr w1).recCnt - 1 })
      | none => (.OK, s, w1)

/-- A client's loop: the scan and the world after `k` calls of `scanNext`, each
with at most `n` iterations of its loop; `none` if a call runs out. -/
def Part1.afterScans (n : Nat) : Nat → HeapFileScan → World → Option (HeapFileScan × World)
  | 0, s, w => some (s, w)
  | k + 1, s, w =>
    match Part1.HeapFileScan.scanNext n s w with
    | some (_, s', w') => Part1.afterScans n k s' w'
    | none => none

/-- A client's loop: the answers of `k` calls of `scanNext`, each with at most
`n` iterations of its loop; `none` if a call runs out. -/
def Part1.scanAnswers (n : Nat) : Nat → HeapFileScan → World → Option (List (Except Status RID))
  | 0, _, _ => some []
  | k + 1, s, w =>
    match Part1.HeapFileScan.scanNext n s w with
    | some (r, s', w') => (Part1.scanAnswers n k s' w').map (r :: ·)
    | none => none

end Minirel
