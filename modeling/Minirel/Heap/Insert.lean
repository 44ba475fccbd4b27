import Minirel.Heap.HeapFile

/-!
# Inserting records (`src/stage4/heapfile.C:551-648`)

An `InsertFileScan` is a `HeapFile` handle whose current page should be the
file's last page: the constructor moves there from the first page, and
`insertRecord` inserts on the current page. When the page is full it allocates
a new page, links it after the current page, makes it the header's `lastPage`
and inserts there. The destructor unpins the current page dirty.

`insertRecord` links the new page after the *current* page, whichever it is.
`getRecord`, inherited from `HeapFile`, can move the current page away from the
last page.

**Results.**
* `insert_after_getRecord_orphans_page`: from `createHeapFile`, one
  `InsertFileScan` inserts `a` and `b` (the second on a new page 3), fetches
  `a` from page 2, then inserts `c`. Page 2 is full, so page 4 is linked after
  page 2, replacing the link to page 3. After the destructor the chain from the
  header's `firstPage` is 2, 4 while `pageCnt` is 3 and `recCnt` is 3: page 3,
  holding `b`, is no longer on the chain.
-/
namespace Minirel

/-- The members of an `InsertFileScan`: those of its `HeapFile`. -/
structure InsertFileScan extends HeapFile
  deriving DecidableEq, Repr

namespace InsertFileScan

/-- mirrors heapfile.C:551-564 (`InsertFileScan::InsertFileScan`): after the
`HeapFile` constructor, move the current page to `lastPage`. The out-parameter
`status` ends as the status of the last pool call. -/
def new (w : World) (name : String) : Status × InsertFileScan × World :=
  let (st, h, w1) := HeapFile.new w name
  if h.curPage.isSome ∧ h.curPageNo ≠ (h.hdr w1).lastPage then
    let w2 := (w1.unPinPage h.filePtr h.curPageNo h.curDirtyFlag).2
    let h := { h with curPageNo := (h.hdr w2).lastPage }
    match w2.readPage h.filePtr h.curPageNo with
    | (.ok cp, w3) => (.OK, ⟨{ h with curPage := some cp, curDirtyFlag := false }⟩, w3)
    | (.error e, w3) => (e, ⟨{ h with curDirtyFlag := false }⟩, w3)
  else (st, ⟨h⟩, w1)

/-- mirrors heapfile.C:570-578 (`InsertFileScan::~InsertFileScan`), followed by
the base destructor. -/
def destructor (s : InsertFileScan) (w : World) : World :=
  match s.curPage with
  | some _ =>
    HeapFile.destructor { s.toHeapFile with curPage := none, curPageNo := 0 }
      (w.unPinPage s.filePtr s.curPageNo true).2
  | none => s.toHeapFile.destructor w

/-- `HeapFile::getRecord`, inherited. -/
def getRecord (s : InsertFileScan) (w : World) (rid : RID) : Except Status Record × InsertFileScan × World :=
  let r := s.toHeapFile.getRecord w rid
  (r.1, ⟨r.2.1⟩, r.2.2)

/-- The end of a successful `insertRecord` (heapfile.C:642-647). -/
def inserted (s : InsertFileScan) (w : World) (rid : RID) : Except Status RID × InsertFileScan × World :=
  let s := { s with curDirtyFlag := true, curRec := rid, hdrDirtyFlag := true }
  (.ok rid, s, s.setHdr w { s.hdr w with recCnt := (s.hdr w).recCnt + 1 })

/-- The page-chaining path of `insertRecord` (heapfile.C:610-637): allocate and
`init` a new page, make it `lastPage`, link it after the current page, unpin the
current page dirty, and insert on the new page. -/
def insertRecordNewPage (G : Geom) (s : InsertFileScan) (w : World) (rec : Record) :
    Except Status RID × InsertFileScan × World :=
  match w.allocPage s.filePtr with
  | (.error e, w1) => (.error e, s, w1)
  | (.ok (newPageNo, newFrame), w1) =>
    let w2 := w1.setFrame newFrame (.data (DataPage.init newPageNo))
    let w3 := s.setHdr w2 { s.hdr w2 with lastPage := newPageNo }
    let w4 := s.setPage w3 { s.page w3 with nextPage := newPageNo }
    let s := { s with curDirtyFlag := true }
    match w4.unPinPage s.filePtr s.curPageNo s.curDirtyFlag with
    | (.OK, w5) =>
      let s := { s with curPage := some newFrame, curPageNo := newPageNo }
      let w6 := s.setHdr w5 { s.hdr w5 with lastPage := s.curPageNo, pageCnt := (s.hdr w5).pageCnt + 1 }
      match (s.page w6).insertRecord G rec with
      | .ok (p, rid) => s.inserted (s.setPage w6 p) rid
      | .error e => (.error e, s, w6)
    | (e, w5) => (.error e, s, w5)

/-- heapfile.C:599-606: with no current page, read `lastPage` into it. -/
def pinLast (s : InsertFileScan) (w : World) : Status × InsertFileScan × World :=
  match s.curPage with
  | some _ => (.OK, s, w)
  | none =>
    match w.readPage s.filePtr (s.hdr w).lastPage with
    | (.ok cp, w1) => (.OK, { s with curPage := some cp, curPageNo := (s.hdr w).lastPage }, w1)
    | (.error e, w1) => (e, s, w1)

/-- mirrors heapfile.C:588-648 (`InsertFileScan::insertRecord`), for the page
layer's sizes `G`; returns `outRid`. -/
def insertRecord (G : Geom) (s : InsertFileScan) (w : World) (rec : Record) :
    Except Status RID × InsertFileScan × World :=
  if rec.length > G.cap then (.error .INVALIDRECLEN, s, w)
  else
    match s.pinLast w with
    | (.OK, s, w) =>
      match (s.page w).insertRecord G rec with
      | .ok (p, rid) => s.inserted (s.setPage w p) rid
      | .error .NOSPACE => s.insertRecordNewPage G w rec
      | .error e => (.error e, s, w)
    | (e, s, w) => (.error e, s, w)

end InsertFileScan

/-! ## Chaining after a page that is not the last -/

/-- Pages that hold one record of two bytes. -/
def onePerPage : Geom := ⟨3, 1⟩

/-- The run of `insert_after_getRecord_orphans_page`: the world after the
destructor and the RID `insertRecord` returned for the second record. -/
def orphanRun : World × Except Status RID :=
  let c := createHeapFile (emptyWorld 3) "t"
  let o := InsertFileScan.new c.2 "t"
  let i1 := o.2.1.insertRecord onePerPage o.2.2 ⟨[1, 1]⟩
  let i2 := i1.2.1.insertRecord onePerPage i1.2.2 ⟨[2, 2]⟩
  let g := i2.2.1.getRecord i2.2.2 ⟨2, 1⟩
  let i3 := g.2.1.insertRecord onePerPage g.2.2 ⟨[3, 3]⟩
  (i3.2.1.destructor i3.2.2, i2.1)

/-- After the run, the header (page 1) says `firstPage` 2, `lastPage` 4, three
pages and three records; page 2 links to page 4, which ends the chain; the
second record went to page 3, which nothing links to. -/
theorem insert_after_getRecord_orphans_page :
    let L : Int → Img := fun p => BufMgr.logical orphanRun.1.pool (some 0, p)
    orphanRun.2.toOption = some ⟨3, 1⟩ ∧ L 1 = .hdr ⟨3, 3, 2, 4⟩ ∧
      (L 2).toPage.nextPage = 4 ∧ (L 4).toPage.nextPage = -1 ∧
      (L 3).toPage.live = [(1, ⟨[2, 2]⟩)] := by
  decide

end Minirel
