import Minirel.Heap.World

/-!
# Heap files (`src/stage4/heapfile.C:34-252`)

`createHeapFile` formats a new file: a header page and a first data page, both
allocated through the pool. A `HeapFile` handle pins the header page for its
lifetime and keeps one data page pinned as its current page (`curPage`,
`curPageNo`); `getRecord` moves the current page to the RID's page.

Each operation takes the handle and the world and returns its status (or its
out-parameter), the handle's members and the world afterwards. A pointer member
is the frame index it points into (`Option Int`, `none` for NULL).

**Results.**
* `createHeapFile_leaks_header`: in a one-frame pool, `createHeapFile` fails
  with BUFFEREXCEEDED at the second `allocPage` and returns holding the pin on
  the header page, whose frame it has formatted and never marks dirty; after
  `~BufMgr` the header's disk page is still unformatted.
* `getRecord_bad_slot_leaks_pin`: a `getRecord` whose page lookup fails after
  the page was read leaves `curPage` on the new page and `curPageNo` on the old
  one; the destructor then unpins the old page, which the handle no longer
  holds, and the new page stays pinned after the handle is gone.
-/
namespace Minirel

/-- The members of a `HeapFile`. -/
structure HeapFile where
  filePtr : Option FileId
  headerPage : Option Int
  headerPageNo : Int
  hdrDirtyFlag : Bool
  curPage : Option Int
  curPageNo : Int
  curDirtyFlag : Bool
  curRec : RID
  deriving DecidableEq, Repr

namespace HeapFile

/-- The member initializers of `HeapFile::HeapFile` (heapfile.C:116-123). -/
def initial : HeapFile := ⟨none, none, -1, false, none, -1, false, NULLRID⟩

/-- `*headerPage`. -/
def hdr (h : HeapFile) (w : World) : HdrPage := (w.frame (h.headerPage.getD (-1))).toHdr

/-- Header fields written through `headerPage`. -/
def setHdr (h : HeapFile) (w : World) (hp : HdrPage) : World :=
  w.setFrame (h.headerPage.getD (-1)) (.hdr hp)

/-- `*curPage`. -/
def page (h : HeapFile) (w : World) : DataPage := (w.frame (h.curPage.getD (-1))).toPage

/-- The current page written through `curPage`. -/
def setPage (h : HeapFile) (w : World) (p : DataPage) : World :=
  w.setFrame (h.curPage.getD (-1)) (.data p)

end HeapFile

/-! ## Creating a heap file -/

/-- The part of `createHeapFile` after the file is open (heapfile.C:58-96):
allocate and format the header page and the first data page, then unpin both
dirty. -/
def formatHeapFile (w : World) (file : FileId) : Status × World :=
  match w.allocPage (some file) with
  | (.error e, w1) => (e, w1)
  | (.ok (hdrPageNo, hdrFrame), w1) =>
    let w2 := w1.setFrame hdrFrame (.hdr HdrPage.zero)
    match w2.allocPage (some file) with
    | (.error e, w3) => (e, w3)
    | (.ok (newPageNo, newFrame), w3) =>
      let w4 := w3.setFrame newFrame (.data (DataPage.init newPageNo))
      let w5 := w4.setFrame hdrFrame (.hdr ⟨1, 0, newPageNo, newPageNo⟩)
      match w5.unPinPage (some file) hdrPageNo true with
      | (.OK, w6) => w6.unPinPage (some file) newPageNo true
      | (e, w6) => (e, w6)

/-- mirrors heapfile.C:34-97 (`createHeapFile`); `db.closeFile` succeeds. -/
def createHeapFile (w : World) (fileName : String) : Status × World :=
  match w.db.openFile fileName with
  | .ok _ => (.FILEEXISTS, w)
  | .error _ =>
    match w.db.createFile fileName with
    | (.OK, db1) =>
      match db1.openFile fileName with
      | .ok file => formatHeapFile { w with db := db1 } file
      | .error e => (e, { w with db := db1 })
    | (e, db1) => (e, { w with db := db1 })

/-- A world whose pool has `n` empty frames and whose DB layer has no file. -/
def emptyWorld (n : Nat) : World :=
  { pool := BufMgr.init n fun _ => .raw
    db := ⟨fun _ => none, 0, fun _ => 1, fun _ => -1⟩
    io := BufMgr.ioOk }

/-- In a one-frame pool the second `allocPage` of `createHeapFile` fails: the
header page keeps its pin, holds the formatted header in a clean frame, and
`~BufMgr` never writes it to disk. -/
theorem createHeapFile_leaks_header :
    let r : Status × World := createHeapFile (emptyWorld 1) "t"
    r.1 = .BUFFEREXCEEDED ∧ BufMgr.pinOf r.2.pool (some 0, 1) = 1 ∧
      (r.2.pool.bufTable 0).dirty = false ∧ r.2.pool.bufPool 0 = .hdr HdrPage.zero ∧
      (BufMgr.destructor r.2.io r.2.pool).disk (some 0, 1) = .raw := by
  decide

namespace HeapFile

/-! ## Opening and closing -/

/-- mirrors heapfile.C:115-160 (`HeapFile::HeapFile`); returns `returnStatus`.
`getFirstPage` succeeds. -/
def new (w : World) (fileName : String) : Status × HeapFile × World :=
  match w.db.openFile fileName with
  | .error e => (e, initial, w)
  | .ok file =>
    let h := { initial with filePtr := some file, headerPageNo := w.db.getFirstPage file }
    match w.readPage h.filePtr h.headerPageNo with
    | (.error e, w1) => (e, h, w1)
    | (.ok hp, w1) =>
      let h := { h with headerPage := some hp, hdrDirtyFlag := false }
      match w1.readPage h.filePtr (h.hdr w1).firstPage with
      | (.error e, w2) => (e, h, w2)
      | (.ok cp, w2) =>
        (.OK,
          { h with
            curPage := some cp
            curPageNo := (h.hdr w1).firstPage
            curDirtyFlag := false
            curRec := NULLRID }, w2)

/-- mirrors heapfile.C:166-192 (`HeapFile::~HeapFile`): unpin the current page
if there is one, then the header page; the statuses are only printed. -/
def destructor (h : HeapFile) (w : World) : World :=
  let w1 := match h.curPage with
    | some _ => (w.unPinPage h.filePtr h.curPageNo h.curDirtyFlag).2
    | none => w
  (w1.unPinPage h.filePtr h.headerPageNo h.hdrDirtyFlag).2

/-- mirrors heapfile.C:199-201 -/
def getRecCnt (h : HeapFile) (w : World) : Int := (h.hdr w).recCnt

/-! ## Fetching a record -/

/-- The `else` branch of `getRecord` (heapfile.C:227-247): unpin the current
page unless `curPageNo` is -1, read the RID's page into `curPage`, look the
record up. `curPageNo`, `curRec` and `curDirtyFlag` change only once the lookup
succeeded. -/
def getRecordRead (h : HeapFile) (w : World) (rid : RID) : Except Status Record × HeapFile × World :=
  match (if h.curPageNo ≠ NULLRID.pageNo then w.unPinPage h.filePtr h.curPageNo h.curDirtyFlag
      else (.OK, w)) with
  | (.OK, w1) =>
    match w1.readPage h.filePtr rid.pageNo with
    | (.error e, w2) => (.error e, h, w2)
    | (.ok cp, w2) =>
      let h := { h with curPage := some cp }
      match (h.page w2).getRecord rid with
      | .error e => (.error e, h, w2)
      | .ok r => (.ok r, { h with curRec := rid, curPageNo := rid.pageNo, curDirtyFlag := false }, w2)
  | (e, w1) => (.error e, h, w1)

/-- mirrors heapfile.C:217-252 (`HeapFile::getRecord`). On the current page only
`curRec.slotNo` is updated. -/
def getRecord (h : HeapFile) (w : World) (rid : RID) : Except Status Record × HeapFile × World :=
  match h.curPage with
  | some _ =>
    if h.curPageNo = rid.pageNo then
      match (h.page w).getRecord rid with
      | .error e => (.error e, h, w)
      | .ok r => (.ok r, { h with curRec := { h.curRec with slotNo := rid.slotNo } }, w)
    else h.getRecordRead w rid
  | none => h.getRecordRead w rid

end HeapFile

/-! ## A lookup that fails after the page was read -/

/-- File `t` (file 0): header page 0, then data pages 1 and 2, one record each. -/
def twoPageWorld : World :=
  let r : Record := ⟨[1]⟩
  { pool := BufMgr.init 3 fun k =>
      if k = (some 0, 0) then .hdr ⟨2, 2, 1, 2⟩
      else if k = (some 0, 1) then .data ⟨1, 2, [some r]⟩
      else if k = (some 0, 2) then .data ⟨2, -1, [some r]⟩
      else .raw
    db := ⟨fun n => if n = "t" then some 0 else none, 1, fun _ => 3, fun _ => 0⟩
    io := BufMgr.ioOk }

/-- Open `t`, ask for slot 5 of page 2, close. The lookup fails with BADRID
after page 1 was unpinned and page 2 read: the handle's `curPageNo` is still 1.
The destructor unpins page 1, which nobody holds (PAGENOTPINNED), and page 2
keeps a pin after the handle is gone. -/
theorem getRecord_bad_slot_leaks_pin :
    let o : Status × HeapFile × World := HeapFile.new twoPageWorld "t"
    let g : Except Status Record × HeapFile × World := o.2.1.getRecord o.2.2 ⟨2, 5⟩
    let w : World := g.2.1.destructor g.2.2
    o.1 = .OK ∧ BufMgr.statusOf g.1 = .BADRID ∧ g.2.1.curPageNo = 1 ∧
      BufMgr.pinOf g.2.2.pool (some 0, 1) = 0 ∧
      (BufMgr.unPinPage g.2.2.pool 0 1 false).1 = .PAGENOTPINNED ∧
      BufMgr.pinOf w.pool (some 0, 2) = 1 := by
  decide

end Minirel
